import EchProxy.Http.Cut
import EchProxy.Ingress.Reply
import EchProxy.Tunnel.Direct
import EchProxy.Tunnel.EndOfFile

/-! # A Connection from End to End

    Between its two ends a relayed connection is transparent.  What the client
    sends behind its handshake is what the target gets, with the rewritten head
    of an HTTP request in front of it, and what the target says is what the
    client gets behind the answers of the proxy.  Both hold on the direct path
    and through a tunnel, in every state of every run.
-/

namespace EchProxy

open Checked Traced

variable {Pool : Type}

/-! ## The two ends -/

/-- What the two ends of a relay have seen of it. -/
structure Ends where
  toTarget : Bytes
  /-- The relay to the target has taken the end of what the client says: a `HalfClose`
      through a tunnel, and on the direct path the end of file that it passes on. -/
  targetEnd : Prop
  toClient : Bytes
  /-- The client was told that the target is through. -/
  clientEnd : Prop

/-- The ends see what the other side sends, in order, and its end behind all of it. -/
structure Ends.Faithful (ends : Ends) (sent said : Bytes) : Prop where
  toTarget : ends.toTarget <+: sent
  toClient : ends.toClient <+: said
  targetEnd : ends.targetEnd → ends.toTarget = sent
  clientEnd : ends.clientEnd → ends.toClient = said

/-- What the ends can see, in some state of a run of the relay on the path that was
    decided, if the target says `targetInput`. -/
inductive Relay.Shows (relay : Relay Pool) (targetInput : Bytes) : Ends → Prop where
  | direct {connectHost : Text} {s : DirectState} (hdecision : relay.decision = .direct connectHost)
      (hr : (DirectState.system relay.firstPayload relay.rest targetInput).Reachable s) :
      Shows relay targetInput
        ⟨s.targetWritten, s.up.shut = true, s.localWritten, s.down.shut = true⟩
  | tunnel {pool : Pool} {setup : TunnelSetup} {s : TunnelState}
      (hdecision : relay.decision = .proxy pool)
      (htarget : setup.target = ⟨relay.host, relay.port.toUInt32, relay.firstPayload⟩)
      (hlocal : setup.localInput = relay.rest) (hremote : setup.targetInput = targetInput)
      (hr : (TunnelState.system setup).Reachable s) :
      Shows relay targetInput
        ⟨s.server.targetWritten, s.server.HalfClosed, s.client.localWritten, s.client.Ending⟩

/-- **A relay is faithful on either path.** -/
theorem Relay.faithful {relay : Relay Pool} {targetInput : Bytes} {ends : Ends}
    (h : relay.Shows targetInput ends) :
    ends.Faithful (relay.firstPayload ++ relay.rest) targetInput := by
  cases h with
  | direct _ hr =>
    have hinv := DirectState.inv_of_reachable hr
    have hdown : _ <+: targetInput := ⟨_, hinv.down.script_split⟩
    exact
      { toTarget := DirectState.written_in_order hr
        toClient := List.IsPrefix.trans ⟨_, hinv.down.held⟩ hdown
        targetEnd := DirectState.up_complete hr
        clientEnd := hinv.down.written_all }
  | tunnel _ htarget hlocal hremote hr =>
    subst hremote
    have hinv := TunnelState.inv_of_reachable hr
    have hwhole := TunnelState.endsWhole_of_reachable hr
    have hupload := hinv.upload_prefix
    have hend := hwhole.upload
    rw [htarget, hlocal] at hupload hend
    exact
      { toTarget := hupload
        toClient := hinv.download_prefix
        targetEnd := hend
        clientEnd := hwhole.download }

/-! ## What the client is sent before the relay -/

namespace IngressEvent

/-- The bytes of a write. -/
def sent : IngressEvent Pool → Bytes
  | .write bytes => bytes
  | _ => []

end IngressEvent

/-- All that an ingress writes to its client. -/
def sentBytes (events : List (IngressEvent Pool)) : Bytes := events.flatMap IngressEvent.sent

theorem sentBytes_append (events events' : List (IngressEvent Pool)) :
    sentBytes (events ++ events') = sentBytes events ++ sentBytes events' :=
  List.flatMap_append

/-- Nothing is sent without a write. -/
theorem sentBytes_eq_nil {events : List (IngressEvent Pool)} (h : ∀ e ∈ events, e.isWrite = false) :
    sentBytes events = [] := by
  refine List.flatMap_eq_nil_iff.mpr fun e he => ?_
  cases e with
  | write bytes => cases h _ he
  | _ => rfl

/-- A sequence that returns sends what its parts send. -/
theorem sentBytes_bind {α β : Type} {x : Ingress Pool α} {f : α → Ingress Pool β} {b : β}
    (h : (x >>= f).result = .ok b) :
    ∃ a, x.result = .ok a ∧ (f a).result = .ok b ∧
      sentBytes (x >>= f).events = sentBytes x.events ++ sentBytes (f a).events := by
  rw [result_bind, Result.bind_eq_ok] at h
  obtain ⟨a, ha, hb⟩ := h
  refine ⟨a, ha, hb, ?_⟩
  rw [bind_ok f ha, sentBytes_append]

theorem decideRoute_sent (router : Router Pool) (network : Network Pool) (user : UserProfile)
    (host : Text) (port : UInt16) :
    sentBytes (decideRoute router network user host port).events = [] := by
  refine sentBytes_eq_nil fun e he => ?_
  rcases decideRoute_only router network user host port e he with rfl | ⟨l, rfl⟩ <;> rfl

theorem establish_sent (network : Network Pool) (relay : Relay Pool) :
    sentBytes (establish network relay).events = [] := by
  refine sentBytes_eq_nil fun e he => ?_
  have hpath := establish_only network relay e he
  cases e with
  | write bytes => rcases hpath with h | h <;> cases h
  | _ => rfl

namespace Socks

/-- A connection that is relayed was answered with "success". -/
theorem connectAndReply_sent {network : Network Pool} {client : ClientStream} {relay : Relay Pool}
    (h : (connectAndReply network client relay).result = .ok ()) :
    sentBytes (connectAndReply network client relay).events = replyBytes 0x00 := by
  cases hdecision : relay.decision with
  | direct connectHost =>
    rw [connectAndReply_direct network client hdecision] at h ⊢
    split
    · rw [sentBytes_append, establish_sent]
      rfl
    · next hfailed =>
      rw [hfailed] at h
      cases h
  | proxy pool =>
    rw [connectAndReply_proxy network client hdecision]
    show replyBytes 0x00 ++ sentBytes (establish network relay).events = _
    rw [establish_sent, List.append_nil]

theorem connect_relayed {setup : Setup Pool} {client : ClientStream}
    {outcome : UserProfile × Text × UInt16} {rest : Bytes} {relay : Relay Pool}
    (h : (connect setup client outcome rest).result = .ok relay) :
    relay.firstPayload = [] ∧
      sentBytes (connect setup client outcome rest).events = replyBytes 0x00 := by
  obtain ⟨user, host, port⟩ := outcome
  rw [connect] at h ⊢
  obtain ⟨decision, -, h, hdecided⟩ := sentBytes_bind h
  obtain ⟨_, hreply, h, hreplied⟩ := sentBytes_bind h
  rw [emit_bind] at h
  obtain rfl := Except.ok.inj h
  refine ⟨rfl, ?_⟩
  rw [hdecided, hreplied, decideRoute_sent, connectAndReply_sent hreply]
  rfl

/-- What a client that is relayed has sent, and was sent. -/
theorem handle_relayed {setup : Setup Pool} {client : ClientStream} {relay : Relay Pool}
    (h : (handle setup client).result = .ok relay) :
    ∃ handshake : Handshake setup.auth setup.options,
      client.bytes = handshake.encode ++ relay.rest ∧
      (relay.host, relay.port) = handshake.outcome.2 ∧ relay.firstPayload = [] ∧
      sentBytes (handle setup client).events = handshake.answers.flatten ++ replyBytes 0x00 := by
  rw [handle] at h ⊢
  obtain ⟨⟨outcome, rest⟩, haccept, hconnect, hsent⟩ := sentBytes_bind h
  have hrun : (accept client setup.auth setup.options client.bytes : Ingress Pool _) =
      ⟨(accept client setup.auth setup.options client.bytes).events, .ok (outcome, rest)⟩ := by
    rw [← haccept]
  obtain ⟨used, hinput, handshake, rfl, rfl, hanswers⟩ := accept_takes client.bytes _ _ _ hrun
  obtain ⟨hhost, rfl⟩ := relay_of_connect hconnect
  obtain ⟨hpayload, hreply⟩ := connect_relayed hconnect
  refine ⟨handshake, hinput, hhost, hpayload, ?_⟩
  rw [hsent, hreply, hanswers, sentBytes, List.flatMap_map]
  congr 1
  exact List.flatMap_id

end Socks

namespace Http

/-- What a client gets before the relay: an answer to `CONNECT`, and nothing to a
    request in absolute form. -/
def answerBytes (request : RequestParts) : Bytes :=
  if Str.eqIgnoreAsciiCase request.method "CONNECT".toList then
    (responseText "200 Connection Established".toList false).asBytes
  else []

theorem answerConnect_sent (client : ClientStream) (request : RequestParts) :
    sentBytes (answerConnect client request : Ingress Pool Unit).events = answerBytes request := by
  rw [answerConnect, answerBytes]
  split
  · rw [writeResponse, writeAll, emit_bind]
    exact List.append_nil _
  · rfl

theorem startRelay_relayed {setup : Setup Pool} {relay relay' : Relay Pool}
    (h : (startRelay setup relay).result = .ok relay') :
    relay' = relay ∧ sentBytes (startRelay setup relay).events = [] := by
  rw [startRelay] at h ⊢
  obtain ⟨_, -, h, hsent⟩ := sentBytes_bind h
  rw [emit_bind] at h
  obtain rfl := Except.ok.inj h
  refine ⟨rfl, ?_⟩
  rw [hsent, establish_sent]
  rfl

theorem handle_relayed {setup : Setup Pool} {client : ClientStream} {relay : Relay Pool}
    (h : (handle setup client).result = .ok relay) :
    ∃ head request, client.bytes = head ++ relay.rest ∧ parseRequest head = .ok request ∧
      readTarget request = .ok (relay.host, relay.port, relay.firstPayload) ∧
      sentBytes (handle setup client).events = answerBytes request := by
  rw [handle_eq] at h ⊢
  obtain ⟨⟨user, request, rest⟩, haccept, h, haccepted⟩ := sentBytes_bind h
  obtain ⟨head, hhead, hparse, -⟩ := accept_eq_ok.mp haccept
  obtain ⟨⟨host, port, firstPayload⟩, htarget, h, hread⟩ := sentBytes_bind h
  obtain ⟨decision, -, h, hdecided⟩ := sentBytes_bind h
  obtain ⟨_, -, h, hanswered⟩ := sentBytes_bind h
  obtain ⟨rfl, hstarted⟩ := startRelay_relayed h
  refine ⟨head, request, (readHeader_iff.mp hhead).1.split, hparse, htarget, ?_⟩
  rw [haccepted, hread, hdecided, hanswered, hstarted, events_of_accept haccept, decideRoute_sent,
    answerConnect_sent, List.append_nil]
  rfl

end Http

/-! ## The whole connection -/

/-- **A relayed connection is transparent.**  (a) A SOCKS5 client has sent a
    handshake, and was sent its answers and one success; the target gets what is
    behind the handshake, and the client, behind these answers, what the target
    says.  (b) An HTTP client has sent the head of a request; the target gets
    what is behind the head, and in front of it the rewritten head if the request
    was no `CONNECT`, and the client what the target says, behind the answer to a
    `CONNECT`.  A half-close, and on the direct path an end of file, is passed on only
    behind everything. -/
theorem transparent (targetInput : Bytes) (relay : Relay Pool) :
    (∀ (setup : Socks.Setup Pool) (client : ClientStream),
      (Socks.handle setup client).result = .ok relay →
      ∃ handshake : Socks.Handshake setup.auth setup.options,
        client.bytes = handshake.encode ++ relay.rest ∧
        (relay.host, relay.port) = handshake.outcome.2 ∧
        sentBytes (Socks.handle setup client).events =
          handshake.answers.flatten ++ Socks.replyBytes 0x00 ∧
        ∀ ends, relay.Shows targetInput ends → ends.Faithful relay.rest targetInput) ∧
    ∀ (setup : Http.Setup Pool) (client : ClientStream),
      (Http.handle setup client).result = .ok relay →
      ∃ head request, client.bytes = head ++ relay.rest ∧ Http.parseRequest head = .ok request ∧
        sentBytes (Http.handle setup client).events = Http.answerBytes request ∧
        if Str.eqIgnoreAsciiCase request.method "CONNECT".toList then
          Http.parseAuthority request.target 443 = .ok (relay.host, relay.port) ∧
          ∀ ends, relay.Shows targetInput ends → ends.Faithful relay.rest targetInput
        else ∃ uri, Http.parseAbsoluteUri request.target = .ok uri ∧
          relay.host = uri.host ∧ uri.port = some relay.port ∧
          ∀ ends, relay.Shows targetInput ends →
            ends.Faithful (Text.asBytes (Http.rewriteAbsoluteRequest request uri) ++ relay.rest)
              targetInput := by
  constructor
  · intro setup client h
    obtain ⟨handshake, hbytes, hhost, hpayload, hsent⟩ := Socks.handle_relayed h
    refine ⟨handshake, hbytes, hhost, hsent, fun ends hends => ?_⟩
    have hfaithful := Relay.faithful hends
    rwa [hpayload, List.nil_append] at hfaithful
  · intro setup client h
    obtain ⟨head, request, hbytes, hparse, htarget, hsent⟩ := Http.handle_relayed h
    refine ⟨head, request, hbytes, hparse, hsent, ?_⟩
    have hpayload := Http.readTarget_payload htarget
    by_cases hmethod : Str.eqIgnoreAsciiCase request.method "CONNECT".toList = true
    · rw [if_pos hmethod] at hpayload ⊢
      refine ⟨hpayload.1, fun ends hends => ?_⟩
      have hfaithful := Relay.faithful hends
      rwa [hpayload.2, List.nil_append] at hfaithful
    · rw [if_neg hmethod] at hpayload ⊢
      obtain ⟨uri, huri, hhost, hport, hfirst⟩ := hpayload
      refine ⟨uri, huri, hhost, hport, fun ends hends => ?_⟩
      have hfaithful := Relay.faithful hends
      rwa [hfirst] at hfaithful

/-- A client that says two bytes more. -/
def talkingClient : ClientStream :=
  Socks.exampleClient (Socks.exampleHandshake.encode ++ [1, 2])

/-- Its relay goes to an address in the table. -/
def talkingRelay : Relay Nat where
  decision := .direct (IpText.std.display (.v4 (.new 10 0 0 1)))
  host := IpText.std.display (.v4 (.new 10 0 0 1))
  port := 443
  firstPayload := []
  rest := [1, 2]

theorem talkingClient_relayed :
    (Socks.handle Socks.exampleSetup talkingClient).result = .ok talkingRelay := by
  have haccept : (Socks.accept talkingClient Socks.exampleSetup.auth Socks.exampleSetup.options
      talkingClient.bytes : Ingress Nat _) = _ :=
    Socks.accept_of_handshake Socks.exampleHandshake rfl fun _ _ => rfl
  rw [Socks.handle_of_accept haccept]
  rfl

/-- The target has both bytes when it is told that this was all. -/
theorem transparent_example :
    ∃ s : DirectState, s.up.shut = true ∧ s.targetWritten = [1, 2] ∧ s.localWritten <+: [9, 8] := by
  obtain ⟨s, hrun⟩ : ∃ s, (DirectState.system [] [1, 2] [9, 8]).run (.fresh [] [1, 2] [9, 8])
      [.firstDone, .up (.read [1, 2]), .up (.write 1), .down (.read [9]), .up (.write 1), .up .eof,
        .down (.write 1), .up .shutdown] = some s := ⟨_, rfl⟩
  have hr : (DirectState.system [] [1, 2] [9, 8]).Reachable s :=
    Lts.System.reachable_of_run (.init rfl) hrun
  have hshut : s.up.shut = true := by
    obtain rfl := Option.some.inj hrun
    rfl
  obtain ⟨handshake, -, -, -, hfaithful⟩ :=
    (transparent [9, 8] talkingRelay).1 Socks.exampleSetup talkingClient talkingClient_relayed
  have hends := hfaithful _ (.direct rfl hr)
  exact ⟨s, hshut, hends.targetEnd hshut, hends.toClient⟩

end EchProxy
