import EchProxy.Ingress.Authenticated

/-! # The Connect Reply

    A client that asks for a connection is owed one reply, before the first
    relayed byte, and "success" only once the target is reached.  The SOCKS5
    ingress keeps to this on the direct path and nowhere else; HTTP `CONNECT`
    never does.
-/

namespace EchProxy

open Checked Traced

variable {Pool : Type}

/-! ## What a client is owed -/

/-- How an ingress replies to a request to connect. -/
structure Replies where
  isReply : Bytes → Bool
  success : Bytes → Bool
  success_isReply : ∀ bytes, success bytes = true → isReply bytes = true

namespace IngressEvent

/-- A connect reply. -/
def isReply (replies : Replies) : IngressEvent Pool → Bool
  | .write bytes => replies.isReply bytes
  | _ => false

/-- The path to the target is there: a TCP connection, or `OpenResult` with
    `ok = true`. -/
def isEstablished : IngressEvent Pool → Bool
  | .connected _ | .opened _ => true
  | _ => false

end IngressEvent

/-- One reply, before the relay, and no success without a path. -/
structure Honest (replies : Replies) (events : List (IngressEvent Pool)) : Prop where
  one : events.countP (·.isReply replies) = 1
  first : ∀ before after, events = before ++ .relaying :: after →
    ∃ e ∈ before, e.isReply replies = true
  honest : ∀ before reply after, events = before ++ .write reply :: after →
    replies.success reply = true → ∃ e ∈ before, e.isEstablished = true

/-- Neither a reply nor a relay. -/
def Quiet (replies : Replies) (e : IngressEvent Pool) : Prop :=
  e.isReply replies = false ∧ e ≠ .relaying

section traces
variable {replies : Replies} {events before after : List (IngressEvent Pool)}

/-- Without a reply a client is left alone. -/
theorem not_honest_of_none (h : ∀ e ∈ events, Quiet replies e) : ¬ Honest replies events := by
  intro hhonest
  have hzero : events.countP (·.isReply replies) = 0 :=
    List.countP_eq_zero.mpr fun e he => by simp [(h e he).1]
  rw [hhonest.one] at hzero
  cases hzero

/-- A success without a path is a lie. -/
theorem not_honest_of_early {reply : Bytes} (hsuccess : replies.success reply = true)
    (hbefore : ∀ e ∈ before, e.isEstablished = false) :
    ¬ Honest replies (before ++ .write reply :: after) := by
  intro hhonest
  obtain ⟨e, he, hestablished⟩ := hhonest.honest before reply after rfl hsuccess
  rw [hbefore e he] at hestablished
  cases hestablished

/-- One reply with the path, or one failure without it. -/
theorem honest_of_reply {reply : Bytes} (hreply : replies.isReply reply = true)
    (hbefore : ∀ e ∈ before, Quiet replies e) (hafter : ∀ e ∈ after, e = .relaying)
    (hpath : replies.success reply = true → ∃ e ∈ before, e.isEstablished = true) :
    Honest replies (before ++ .write reply :: after) where
  one := by
    have hnone : before.countP (·.isReply replies) = 0 :=
      List.countP_eq_zero.mpr fun e he => by simp [(hbefore e he).1]
    have hrest : after.countP (·.isReply replies) = 0 :=
      List.countP_eq_zero.mpr fun e he => by simp [hafter e he, IngressEvent.isReply]
    rw [List.countP_append, List.countP_cons, hnone, hrest]
    simp [IngressEvent.isReply, hreply]
  first := by
    intro before' after' hsplit
    rcases Lines.cut_cases hsplit with ⟨mid, rfl⟩ | ⟨-, heq, -⟩ | ⟨mid, rfl, -⟩
    · exact absurd rfl (hbefore .relaying (by simp)).2
    · cases heq
    · exact ⟨.write reply, by simp, hreply⟩
  honest := by
    intro before' reply' after' hsplit hsuccess
    rcases Lines.cut_cases hsplit with ⟨mid, rfl⟩ | ⟨rfl, heq, -⟩ | ⟨mid, -, rfl⟩
    · have hquiet : replies.isReply reply' = false := (hbefore (.write reply') (by simp)).1
      rw [replies.success_isReply reply' hsuccess] at hquiet
      cases hquiet
    · exact hpath (IngressEvent.write.inj heq ▸ hsuccess)
    · cases hafter (.write reply') (by simp)

end traces

/-! ## A path -/

/-- A direct connection that succeeds is one to an address. -/
theorem connected_of_tryAddrs {network : Network Pool} {lastErr : String} {addrs : List SocketAddr}
    (h : (tryAddrs network lastErr addrs).result = .ok ()) :
    ∃ addr, .connected addr ∈ (tryAddrs network lastErr addrs).events := by
  induction addrs generalizing lastErr with
  | nil => cases h
  | cons addr addrs ih =>
    rw [tryAddrs, emit_bind] at h ⊢
    cases hdial : network.dial addr with
    | ok _ => exact ⟨addr, by simp [emit]⟩
    | error err =>
      rw [hdial] at h
      obtain ⟨addr', hmem⟩ := ih h
      exact ⟨addr', List.mem_cons_of_mem _ hmem⟩

theorem connected_of_connectDirect {network : Network Pool} {connectHost : Text} {port : UInt16}
    (h : (connectDirect network connectHost port).result = .ok ()) :
    ∃ addr, .connected addr ∈ (connectDirect network connectHost port).events := by
  rw [connectDirect, result_bind, Result.bind_eq_ok] at h
  obtain ⟨addrs, haddrs, htry⟩ := h
  obtain ⟨addr, hmem⟩ := connected_of_tryAddrs htry
  rw [connectDirect, bind_ok _ haddrs]
  exact ⟨addr, List.mem_append_right _ hmem⟩

theorem decideRoute_quiet (replies : Replies) (router : Router Pool) (network : Network Pool)
    (user : UserProfile) (host : Text) (port : UInt16) :
    Only (decideRoute router network user host port) fun e =>
      Quiet replies e ∧ e.isEstablished = false := by
  refine (decideRoute_only _ _ _ _ _).mono fun e he => ?_
  rcases he with rfl | ⟨l, rfl⟩ <;> exact ⟨⟨rfl, fun h => by cases h⟩, rfl⟩

theorem establish_quiet (replies : Replies) (network : Network Pool) (relay : Relay Pool) :
    Only (establish network relay) (Quiet replies) := by
  refine (establish_only _ _).mono fun e he => ?_
  cases e with
  | write | relaying => rcases he with he | he <;> cases he
  | _ => exact ⟨rfl, fun h => by cases h⟩

/-! ## SOCKS5 -/

namespace Socks

/-- The replies of `send_reply`; 0x00 is success. -/
def replies : Replies where
  isReply bytes := decide (bytes = replyBytes (bytes.getD 1 0))
  success bytes := decide (bytes = replyBytes 0x00)
  success_isReply := by
    intro bytes h
    rw [of_decide_eq_true h]
    rfl

theorem isReply_replyBytes (reply : UInt8) : replies.isReply (replyBytes reply) = true :=
  decide_eq_true rfl

theorem success_replyBytes : replies.success (replyBytes 0x00) = true := by decide

theorem sendReply_eq (client : ClientStream) (reply : UInt8) :
    (sendReply client reply : Ingress Pool Unit) = ⟨[.write (replyBytes reply)], .ok ()⟩ := by
  rw [sendReply, observe_bind, writeAll, emit_bind]
  rfl

section socks
variable {setup : Setup Pool} {client : ClientStream} {user : UserProfile} {host : Text}
  {port : UInt16} {rest : Bytes}

/-- The handshake holds no connect reply. -/
theorem accept_quiet
    (h : (accept client setup.auth setup.options client.bytes : Ingress Pool _).result =
      .ok ((user, host, port), rest)) :
    ∀ e ∈ (accept client setup.auth setup.options client.bytes : Ingress Pool _).events,
      Quiet replies e ∧ e.isEstablished = false := by
  obtain ⟨used, -, handshake, -, -, hevents⟩ := accept_takes client.bytes
    (accept client setup.auth setup.options client.bytes : Ingress Pool _).events _ _ (by rw [← h])
  -- the answers of a handshake have two bytes, and a reply has ten
  have hshort : ∀ bytes ∈ handshake.answers, replies.isReply bytes = false := by
    intro bytes hbytes
    refine decide_eq_false fun heq => ?_
    have hlength : bytes.length = 2 := by
      rw [Handshake.answers] at hbytes
      rcases List.mem_cons.mp hbytes with rfl | hlogin
      · rfl
      · cases hlogin' : handshake.login with
        | noAuth =>
          rw [hlogin'] at hlogin
          cases hlogin
        | userPass credentials =>
          rw [hlogin'] at hlogin
          rw [List.mem_singleton.mp hlogin]
          rfl
    rw [heq] at hlength
    cases hlength
  intro e he
  rw [hevents] at he
  obtain ⟨bytes, hbytes, rfl⟩ := List.mem_map.mp he
  exact ⟨⟨hshort bytes hbytes, fun h => by cases h⟩, rfl⟩

/-- On the direct path the reply says what came of the connection. -/
theorem connectAndReply_direct (network : Network Pool) (client : ClientStream) {relay : Relay Pool}
    {connectHost : Text} (h : relay.decision = .direct connectHost) :
    connectAndReply network client relay =
      match (establish network relay).result with
      | .ok () => ⟨(establish network relay).events ++ [.write (replyBytes 0x00)], .ok ()⟩
      | .error err =>
        ⟨(establish network relay).events ++ [.write (replyBytes 0x05)], .error err⟩ := by
  rw [connectAndReply, h]
  dsimp only
  rw [observe_bind]
  cases (establish network relay).result with
  | ok _ =>
    dsimp only
    rw [sendReply_eq]
  | error err =>
    dsimp only
    rw [sendReply_eq, bind_ok _ rfl]
    rfl

/-- Through a backend success comes first. -/
theorem connectAndReply_proxy (network : Network Pool) (client : ClientStream) {relay : Relay Pool}
    {pool : Pool} (h : relay.decision = .proxy pool) :
    (connectAndReply network client relay).events =
      .write (replyBytes 0x00) :: (establish network relay).events := by
  rw [connectAndReply, h]
  dsimp only
  rw [sendReply_eq, bind_ok _ rfl]
  rfl

theorem connect_direct (client : ClientStream) (rest : Bytes) {connectHost : Text}
    (h : (decideRoute setup.router setup.network user host port).result =
      .ok (.direct connectHost)) :
    ∃ reply after, (connect setup client (user, host, port) rest).events =
        (decideRoute setup.router setup.network user host port).events ++
          ((connectDirect setup.network connectHost port).events ++
            .write (replyBytes reply) :: after) ∧
      (∀ e ∈ after, e = .relaying) ∧
      (reply = 0x00 → (connectDirect setup.network connectHost port).result = .ok ()) := by
  rw [connect, bind_ok _ h]
  dsimp only
  rw [connectAndReply_direct setup.network client rfl]
  dsimp only [establish]
  cases (connectDirect setup.network connectHost port).result with
  | ok _ =>
    refine ⟨0x00, [.relaying], ?_, fun e he => List.mem_singleton.mp he, fun _ => rfl⟩
    dsimp only
    rw [bind_ok _ rfl, emit_bind, List.append_assoc]
    rfl
  | error err =>
    refine ⟨0x05, [], ?_, fun e he => (by cases he), fun hzero => absurd hzero (by decide)⟩
    rfl

theorem connect_proxy (client : ClientStream) (rest : Bytes) {pool : Pool}
    (h : (decideRoute setup.router setup.network user host port).result = .ok (.proxy pool)) :
    ∃ after, (connect setup client (user, host, port) rest).events =
      (decideRoute setup.router setup.network user host port).events ++
        .write (replyBytes 0x00) :: after := by
  rw [connect, bind_ok _ h]
  dsimp only
  obtain ⟨more, hmore⟩ := events_bind
    (connectAndReply setup.network client ⟨.proxy pool, host, port, [], rest⟩)
    fun _ => (do emit .relaying; return ⟨.proxy pool, host, port, [], rest⟩ : Ingress Pool (Relay Pool))
  rw [hmore, connectAndReply_proxy setup.network client rfl]
  exact ⟨_, rfl⟩

/-- **SOCKS5 replies honestly exactly on the direct path.** -/
theorem honest_iff_direct
    (h : (accept client setup.auth setup.options client.bytes : Ingress Pool _).result =
      .ok ((user, host, port), rest)) :
    Honest replies (handle setup client).events ↔
      ∃ connectHost,
        setup.router.DirectTo IpText.std setup.network.dns host port.toNat connectHost := by
  have hquiet := accept_quiet h
  have hrouting := decideRoute_quiet replies setup.router setup.network user host port
  have hbefore := List.forall_mem_append.mpr ⟨hquiet, hrouting⟩
  have hresult := decideRoute_result setup.router setup.network user host port
  rw [handle, bind_ok _ h]
  dsimp only
  rcases Router.decide_cases setup.router IpText.std setup.network.dns user host port.toNat with
    ⟨connectHost, hdirect, hdecide⟩ | ⟨hnot, hfailed⟩
  · refine ⟨fun _ => ⟨connectHost, hdirect⟩, fun _ => ?_⟩
    obtain ⟨reply, after, hevents, hafter, hreached⟩ :=
      connect_direct client rest (hresult.trans hdecide)
    rw [hevents, ← List.append_assoc, ← List.append_assoc]
    refine honest_of_reply (isReply_replyBytes reply) ?_ hafter fun hsuccess => ?_
    · refine List.forall_mem_append.mpr ⟨fun e he => (hbefore e he).1, ?_⟩
      exact establish_quiet replies setup.network ⟨.direct connectHost, host, port, [], rest⟩
    · -- a success is sent only behind a connection
      have hzero : reply = 0x00 := by
        have heq := of_decide_eq_true hsuccess
        exact (List.cons.inj (List.cons.inj heq).2).1
      obtain ⟨addr, hmem⟩ := connected_of_connectDirect (hreached hzero)
      exact ⟨_, List.mem_append_right _ hmem, rfl⟩
  · refine ⟨fun hhonest => absurd hhonest ?_, fun hdirect => absurd hdirect hnot⟩
    cases hroute : (decideRoute setup.router setup.network user host port).result with
    | error fault =>
      rw [connect, bind_error _ hroute]
      exact not_honest_of_none fun e he => (hbefore e he).1
    | ok decision =>
      cases decision with
      | direct connectHost =>
        exact absurd ⟨connectHost, Router.directTo_of_decide (hresult.symm.trans hroute)⟩ hnot
      | proxy pool =>
        -- on the proxy path the reply comes before the tunnel is open
        obtain ⟨after, hevents⟩ := connect_proxy client rest hroute
        rw [hevents, ← List.append_assoc]
        exact not_honest_of_early success_replyBytes fun e he => (hbefore e he).2

end socks

end Socks

/-! ## HTTP `CONNECT` -/

namespace Http

/-- Responses; those of status 200 are success. -/
def replies : Replies where
  isReply bytes := (Text.asBytes "HTTP/1.1 ".toList).isPrefixOf bytes
  success bytes := (Text.asBytes "HTTP/1.1 200".toList).isPrefixOf bytes
  success_isReply := by
    intro bytes h
    rw [List.isPrefixOf_iff_prefix] at h ⊢
    exact List.IsPrefix.trans (by decide) h

theorem success_established :
    replies.success (responseText "200 Connection Established".toList false).asBytes = true := by
  decide

section http
variable {setup : Setup Pool} {client : ClientStream} {user : UserProfile} {request : RequestParts}
  {host : Text} {port : UInt16} {rest : Bytes}

/-- A request that is let in is not answered yet. -/
theorem events_of_accept (h : (accept setup client).result = .ok (user, request, rest)) :
    (accept setup client).events = [] := by
  rw [accept] at h ⊢
  cases hhead : readHeader client with
  | error fault => rfl
  | ok p =>
    rw [hhead, lift_ok_bind] at h
    rw [lift_ok_bind]
    dsimp only at h ⊢
    cases hparse : parseRequest p.1 with
    | error fault => rfl
    | ok parsed =>
      rw [hparse, lift_ok_bind] at h
      rw [lift_ok_bind]
      cases hauth : authenticate setup.base64 parsed setup.auth with
      | error fault =>
        rw [hauth] at h
        dsimp only at h
        rw [result_bind, Result.bind_eq_ok] at h
        obtain ⟨-, -, hfault⟩ := h
        cases hfault
      | ok found => rfl

/-- **HTTP `CONNECT` is never answered honestly**: "200" comes before the
    connection, and an error of the router is not answered at all. -/
theorem not_honest_connect (haccept : (accept setup client).result = .ok (user, request, rest))
    (hmethod : Str.eqIgnoreAsciiCase request.method "CONNECT".toList = true)
    (htarget : parseAuthority request.target 443 = .ok (host, port)) :
    ¬ Honest replies (handle setup client).events := by
  have hrouting := decideRoute_quiet replies setup.router setup.network user host port
  have hconnect : (handle setup client).events =
      (handleConnect setup client user request rest).events := by
    rw [handle, bind_ok _ haccept, events_of_accept haccept]
    dsimp only
    rw [if_pos hmethod]
    rfl
  rw [hconnect, handleConnect, htarget, lift_ok_bind]
  dsimp only
  cases hroute : (decideRoute setup.router setup.network user host port).result with
  | error fault =>
    rw [bind_error _ hroute]
    exact not_honest_of_none fun e he => (hrouting e he).1
  | ok decision =>
    rw [bind_ok _ hroute, writeResponse]
    obtain ⟨more, hmore⟩ := events_bind
      (writeAll client (responseText "200 Connection Established".toList false).asBytes)
      fun _ => startRelay setup ⟨decision, host, port, [], rest⟩
    rw [hmore, writeAll, emit_bind]
    exact not_honest_of_early success_established fun e he => (hrouting e he).2

end http

end Http

/-! ## Both ingresses -/

/-- **Of the connections with a valid request exactly** the direct ones of SOCKS5
    get an honest reply. -/
theorem honest_exact :
    (∀ (setup : Socks.Setup Pool) (client : ClientStream) (user : UserProfile) (host : Text)
        (port : UInt16) (rest : Bytes),
      (Socks.accept client setup.auth setup.options client.bytes : Ingress Pool _).result =
        .ok ((user, host, port), rest) →
      (Honest Socks.replies (Socks.handle setup client).events ↔
        ∃ connectHost,
          setup.router.DirectTo IpText.std setup.network.dns host port.toNat connectHost)) ∧
    ∀ (setup : Http.Setup Pool) (client : ClientStream) (user : UserProfile)
        (request : Http.RequestParts) (host : Text) (port : UInt16) (rest : Bytes),
      (Http.accept setup client).result = .ok (user, request, rest) →
      Str.eqIgnoreAsciiCase request.method "CONNECT".toList = true →
      Http.parseAuthority request.target 443 = .ok (host, port) →
      ¬ Honest Http.replies (Http.handle setup client).events :=
  ⟨fun _ _ _ _ _ _ haccept => Socks.honest_iff_direct haccept,
    fun _ _ _ _ _ _ _ haccept hmethod htarget =>
      Http.not_honest_connect haccept hmethod htarget⟩

/-- The client of the example handshake. -/
def handshakeClient : ClientStream := Socks.exampleClient Socks.exampleHandshake.encode

theorem handshakeClient_bytes :
    handshakeClient.bytes = Socks.exampleHandshake.encode ++ [] := (List.append_nil _).symm

/-- 10.0.0.1 is in the table: SOCKS5 replies honestly, and HTTP does not. -/
theorem honest_exact_direct :
    Honest Socks.replies (Socks.handle Socks.exampleSetup handshakeClient).events ∧
      ¬ Honest Http.replies (Http.handle Http.connectSetup Http.connectClient).events := by
  constructor
  · have haccept := Socks.accept_of_handshake Socks.exampleHandshake handshakeClient_bytes
      fun _ _ => rfl
    have hdirect : Socks.exampleSetup.router.DirectTo IpText.std Socks.exampleSetup.network.dns
        (IpText.std.display (.v4 (.new 10 0 0 1))) 443 _ :=
      .inl ⟨rfl, rfl, _, IpText.parse_display _, Router.exampleRouter_inSet⟩
    exact (honest_exact.1 Socks.exampleSetup handshakeClient _ _ _ _
      (congrArg Traced.result haccept)).mpr ⟨_, hdirect⟩
  · exact honest_exact.2 Http.connectSetup Http.connectClient _ _ _ _ _
      Http.connectClient_accepted rfl Http.exampleConnect_target

/-- The same target by way of a backend that refuses it. -/
def refusedSetup : Socks.Setup Nat :=
  { Socks.exampleSetup with
    router := { Router.exampleRouter with route := ⟨false, .systemDns⟩ }
    network :=
      { Socks.exampleSetup.network with
        opening := fun _ _ => ⟨.ok (), true, .ok (), some (.ok (openResultFrame false "refused"))⟩ } }

theorem refusedSetup_events :
    (Socks.handle refusedSetup handshakeClient).events =
      [.write [0x05, 0x02], .write [0x01, 0x00],
        .decide Router.exampleUser (IpText.std.display (.v4 (.new 10 0 0 1))) 443] ++
      .write (Socks.replyBytes 0x00) ::
        [.request 7 ⟨IpText.std.display (.v4 (.new 10 0 0 1)), 443, []⟩] := by
  have haccept : (Socks.accept handshakeClient refusedSetup.auth refusedSetup.options
      handshakeClient.bytes : Ingress Nat _) = _ :=
    Socks.accept_of_handshake Socks.exampleHandshake handshakeClient_bytes fun _ _ => rfl
  rw [Socks.handle_of_accept haccept]
  rfl

/-- The client is told "success", and nothing is ever reached. -/
theorem refused_told_success :
    (∀ e ∈ (Socks.handle refusedSetup handshakeClient).events, e.isEstablished = false) ∧
      ¬ Honest Socks.replies (Socks.handle refusedSetup handshakeClient).events := by
  rw [refusedSetup_events]
  refine ⟨fun e he => ?_, not_honest_of_early Socks.success_replyBytes fun e he => ?_⟩
  · simp only [List.cons_append, List.nil_append, List.mem_cons, List.not_mem_nil, or_false] at he
    rcases he with rfl | rfl | rfl | rfl | rfl <;> rfl
  · simp only [List.mem_cons, List.not_mem_nil, or_false] at he
    rcases he with rfl | rfl | rfl <;> rfl

end EchProxy
