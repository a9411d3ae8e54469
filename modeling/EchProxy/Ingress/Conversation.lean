import EchProxy.Framework.Session
import EchProxy.Http.Handle
import EchProxy.Socks.Handle

/-! # Conversations

    What an ingress does with one connection, as a protocol of its answers and
    of the network: which answer may come when, that nothing is looked up or
    dialed for a client that is not let in, that a refusal is the last word, and
    that there is a path before there is a relay.  Every connection keeps to it,
    whatever the client sends and the network does.
-/

namespace EchProxy

open Checked Traced

variable {Pool : Type}

/-! ## The way to the target -/

/-- Where a connection is, for both ingresses. -/
inductive Phase where
  /-- The client speaks first. -/
  | greeting
  /-- SOCKS5: credentials are due. -/
  | login
  /-- SOCKS5: the request is due. -/
  | request
  /-- The router is deciding, or has decided. -/
  | routing
  /-- Success was told, and there is no path yet. -/
  | promised
  /-- Addresses are being tried. -/
  | dialing
  /-- The request for a tunnel was sent. -/
  | requested
  /-- There is a tunnel. -/
  | opened
  /-- There is a connection to the target. -/
  | connected
  /-- SOCKS5: the client was told of the connection. -/
  | answered
  | relayed
  /-- The client was refused. -/
  | refused
  deriving DecidableEq

section path
variable {p : Protocol Phase (IngressEvent Pool)} {s : Phase} {E : Phase → Prop}

/-- The protocol lets addresses be tried, one after the other. -/
structure Dials (p : Protocol Phase (IngressEvent Pool)) (s : Phase) : Prop where
  dial : ∀ addr, p s (.dial addr) = some .dialing
  again : ∀ addr, p .dialing (.dial addr) = some .dialing
  connected : ∀ addr, p .dialing (.connected addr) = some .connected

theorem tryAddrs_keeps (h : Dials p s) (network : Network Pool) (lastErr : String)
    {addrs : List SocketAddr} (hs : s = .dialing ∨ addrs ≠ []) (hE : E .dialing) :
    Keeps p s (tryAddrs network lastErr addrs) (fun _ s' => s' = .connected) E := by
  induction addrs generalizing s lastErr with
  | nil =>
    refine Keeps.lift (fun _ hok => (by cases hok)) fun _ _ => ?_
    rwa [hs.resolve_right (not_not_intro rfl)]
  | cons addr addrs ih =>
    refine Keeps.emit_bind (h.dial addr) ?_
    cases network.dial addr with
    | ok _ => exact Keeps.emit (h.connected addr) rfl
    | error err => exact ih ⟨h.again, h.again, h.connected⟩ err (.inl rfl)

/-- A literal is dialed at once, a name after it was looked up. -/
theorem connectDirect_keeps (h : Dials p s) (hresolve : ∀ l, p s (.resolve l) = some .dialing)
    (network : Network Pool) (connectHost : Text) (port : UInt16) (hE : E .dialing) :
    Keeps p s (connectDirect network connectHost port) (fun _ s' => s' = .connected) E := by
  rw [connectDirect, connectAddrs]
  cases IpText.std.parse connectHost with
  | some ip => exact tryAddrs_keeps h network _ (.inr (List.cons_ne_nil _ _)) hE
  | none =>
    have hdialing : Dials p .dialing := ⟨h.again, h.again, h.connected⟩
    refine Keeps.bind_at (t := .dialing) ?_ fun addrs => ?_
    · exact Keeps.emit_bind (hresolve _) (Keeps.lift (fun _ _ => rfl) fun _ _ => hE)
    · exact tryAddrs_keeps hdialing network _ (.inl rfl) hE

/-- The protocol lets a tunnel be requested, once, and opened. -/
structure Opens (p : Protocol Phase (IngressEvent Pool)) (s : Phase) : Prop where
  request : ∀ pool target, p s (.request pool target) = some .requested
  opened : ∀ pool, p .requested (.opened pool) = some .opened

theorem openTunnel_keeps (h : Opens p s) (opening : Opening) (pool : Pool) (target : Open)
    (hs : E s) (hE : E .requested) :
    Keeps p s (openTunnel opening pool target) (fun _ s' => s' = .opened) E := by
  refine Keeps.lift_bind hs fun _ _ => ?_
  refine Keeps.ite (fun _ => Keeps.lift (fun _ hok => (by cases hok)) fun _ _ => hs) fun _ => ?_
  refine Keeps.emit_bind (h.request pool target) ?_
  refine Keeps.lift_bind hE fun _ _ => Keeps.lift_bind hE fun _ _ => ?_
  exact Keeps.emit (h.opened pool) rfl

/-- The router is asked, and may look names up. -/
theorem decideRoute_keeps (hdecide : ∀ user host port, p s (.decide user host port) = some .routing)
    (hlookup : ∀ l, p .routing (.lookup l) = some .routing) (router : Router Pool)
    (network : Network Pool) (user : UserProfile) (host : Text) (port : UInt16)
    (hE : E .routing) :
    Keeps p s (decideRoute router network user host port) (fun _ s' => s' = .routing) E := by
  refine Keeps.emit_bind (hdecide user host port) ?_
  refine Keeps.stay (fun e he => ?_) (fun _ _ => rfl) fun _ _ => hE
  obtain ⟨l, -, rfl⟩ := List.mem_map.mp he
  exact hlookup l

theorem writeAll_keeps {t : Phase} (client : ClientStream) {bytes : Bytes}
    (h : p s (.write bytes) = some t) (hE : E t) :
    Keeps p s (writeAll client bytes) (fun _ s' => s' = t) E :=
  Keeps.emit_bind h (Keeps.lift (fun _ _ => rfl) fun _ _ => hE)

end path

/-! ## SOCKS5 -/

namespace Socks

/-- The protocol of a SOCKS5 connection. -/
def talk : Protocol Phase (IngressEvent Pool)
  | .greeting, .write bytes =>
    if bytes = [socksVersion, authNoAuth] then some .request
    else if bytes = [socksVersion, authUserPass] then some .login
    else if bytes = [socksVersion, noAcceptableMethods] then some .refused
    else none
  | .login, .write bytes =>
    if bytes = [0x01, 0x00] then some .request
    else if bytes = [0x01, 0x01] then some .refused
    else none
  | .request, .write bytes =>
    if bytes = replyBytes 0x04 ∨ bytes = replyBytes 0x07 ∨ bytes = replyBytes 0x08 then
      some .refused
    else none
  | .request, .decide _ _ _ => some .routing
  | .routing, .lookup _ => some .routing
  | .routing, .resolve _ => some .dialing
  | .routing, .dial _ => some .dialing
  -- through a backend success comes before the tunnel
  | .routing, .write bytes => if bytes = replyBytes 0x00 then some .promised else none
  | .promised, .request _ _ => some .requested
  | .requested, .opened _ => some .opened
  | .opened, .relaying => some .relayed
  | .dialing, .dial _ => some .dialing
  | .dialing, .connected _ => some .connected
  | .dialing, .write bytes => if bytes = replyBytes 0x05 then some .refused else none
  | .connected, .write bytes => if bytes = replyBytes 0x00 then some .answered else none
  | .answered, .relaying => some .relayed
  | _, _ => none

section conversation
variable {client : ClientStream} {s t : Phase} {E : Phase → Prop}

theorem bail_keeps {α : Type} {p : Protocol Phase (IngressEvent Pool)} {P : α → Phase → Prop}
    (msg : String) (hE : E s) : Reader.Keeps p s (liftM (bail msg : Eval α) : Step Pool α) P E :=
  Reader.Keeps.lift (Keeps.lift (fun _ h => (by cases h)) fun _ _ => hE)

theorem answer_keeps {p : Protocol Phase (IngressEvent Pool)} {bytes : Bytes}
    (h : p s (.write bytes) = some t) (hE : E t) :
    Reader.Keeps p s (answer client bytes : Step Pool Unit) (fun _ s' => s' = t) E :=
  Reader.Keeps.lift (writeAll_keeps client h hE)

/-- A reply never fails. -/
theorem sendReply_keeps {p : Protocol Phase (IngressEvent Pool)} {reply : UInt8}
    (h : p s (.write (replyBytes reply)) = some t) :
    Keeps p s (sendReply client reply : Ingress Pool Unit) (fun _ s' => s' = t) E := by
  refine Keeps.bind_at (t := t) (Keeps.observe ?_) fun _ => Keeps.pure rfl
  exact writeAll_keeps client h fun _ => rfl

/-- Where a method leads. -/
def afterMethod (method : UInt8) : Phase := if method = authNoAuth then .request else .login

theorem negotiateAuth_keeps (options : Socks5Options) (hE : ∀ s, s ≠ .relayed → E s) :
    Reader.Keeps talk .greeting (negotiateAuth client options : Step Pool UInt8)
      (fun method s' => s' = afterMethod method) E := by
  have hgreeting : E .greeting := hE _ fun h => (by cases h)
  refine .silent_bind (.item _) hgreeting fun version => ?_
  refine .ite (fun _ => bail_keeps _ hgreeting) fun _ => ?_
  refine .silent_bind (.item _) hgreeting fun methodsLen => ?_
  refine .silent_bind (.exactly _ _) hgreeting fun methods => ?_
  refine .ite (fun _ => ?_) fun _ => .ite (fun _ => ?_) fun _ => ?_
  · refine .bind_at (answer_keeps rfl (hE _ fun h => (by cases h))) fun _ => ?_
    exact .pure rfl
  · refine .bind_at (answer_keeps rfl (hE _ fun h => (by cases h))) fun _ => ?_
    exact .pure rfl
  · refine .bind_at (answer_keeps rfl (hE _ fun h => (by cases h))) fun _ => ?_
    exact bail_keeps _ (hE _ fun h => (by cases h))

/-- Reading a text is no event. -/
theorem readText_silent (client : ClientStream) (msg : String) :
    Reader.Records (do
      let len ← readU8 client
      let buf ← readExact client len.toNat
      context msg (Text.fromUtf8 buf) : Step Pool Text) fun _ => False :=
  (Reader.Records.item _).bind fun _ => (Reader.Records.exactly _ _).bind fun _ => eval_records _

theorem checkCredentials_keeps (auth : AuthStore) (username password : Text)
    (hE : ∀ s, s ≠ .relayed → E s) :
    Keeps talk .login (checkCredentials client auth username password : Ingress Pool UserProfile)
      (fun _ s' => s' = .request) E := by
  rw [checkCredentials]
  split
  · refine Keeps.bind_at (writeAll_keeps client rfl (hE _ fun h => (by cases h))) fun _ => ?_
    exact Keeps.pure rfl
  · refine Keeps.bind_at (writeAll_keeps client rfl (hE _ fun h => (by cases h))) fun _ => ?_
    exact Keeps.lift (fun _ h => (by cases h)) fun _ _ => hE _ fun h => (by cases h)

theorem authenticate_keeps (auth : AuthStore) (method : UInt8) (options : Socks5Options)
    (hE : ∀ s, s ≠ .relayed → E s) :
    Reader.Keeps talk (afterMethod method)
      (authenticate client auth method options : Step Pool UserProfile)
      (fun _ s' => s' = .request) E := by
  have hlogin : E .login := hE _ fun h => (by cases h)
  by_cases hmethod : method = authNoAuth
  · rw [authenticate, if_pos hmethod, afterMethod, if_pos hmethod]
    exact .lift (Keeps.lift (fun _ _ => rfl) fun _ _ => hE _ fun h => (by cases h))
  · rw [authenticate, if_neg hmethod, afterMethod, if_neg hmethod]
    refine .silent_bind (.item _) hlogin fun authVersion => .ite (fun _ => ?_) fun _ => ?_
    · refine .bind_at (answer_keeps rfl (hE _ fun h => (by cases h))) fun _ => ?_
      exact bail_keeps _ (hE _ fun h => (by cases h))
    · refine .silent_bind (readText_silent client _) hlogin fun username => ?_
      refine .silent_bind (readText_silent client _) hlogin fun password => ?_
      exact .lift (checkCredentials_keeps auth username password hE)

theorem readHost_keeps (atyp : UInt8) (hE : ∀ s, s ≠ .relayed → E s) :
    Reader.Keeps talk .request (readHost client atyp : Step Pool Text)
      (fun _ s' => s' = .request) E := by
  have hrequest : E .request := hE _ fun h => (by cases h)
  refine .ite (fun _ => ?_) fun _ => .ite (fun _ => ?_) fun _ => .ite (fun _ => ?_) fun _ => ?_
  · exact .silent_bind (.exactly _ _) hrequest fun _ => .pure rfl
  · refine .silent_bind (.item _) hrequest fun _ => .silent_bind (.exactly _ _) hrequest fun _ => ?_
    exact .lift (Keeps.lift (fun _ _ => rfl) fun _ _ => hrequest)
  · exact .silent_bind (.exactly _ _) hrequest fun _ => .pure rfl
  · exact .bind_at (.lift (sendReply_keeps rfl)) fun _ => bail_keeps _ (hE _ fun h => (by cases h))

theorem readConnectRequest_keeps (hE : ∀ s, s ≠ .relayed → E s) :
    Reader.Keeps talk .request (readConnectRequest client : Step Pool (Text × UInt16))
      (fun _ s' => s' = .request) E := by
  have hrequest : E .request := hE _ fun h => (by cases h)
  have hrefused : E .refused := hE _ fun h => (by cases h)
  refine .silent_bind (.item _) hrequest fun version => ?_
  refine .silent_bind (.item _) hrequest fun command => ?_
  refine .silent_bind (.item _) hrequest fun reserved => ?_
  refine .silent_bind (.item _) hrequest fun atyp => ?_
  refine .ite (fun _ => bail_keeps _ hrequest) fun _ => .ite (fun _ => ?_) fun _ => ?_
  · exact .bind_at (.lift (sendReply_keeps rfl)) fun _ => bail_keeps _ hrefused
  refine .bind_at (readHost_keeps atyp hE) fun host => ?_
  refine .bind_at (.silent_bind (.exactly _ _) hrequest fun _ => .pure rfl) fun port => ?_
  refine .ite (fun _ => ?_) fun _ => .pure rfl
  exact .bind_at (.lift (sendReply_keeps rfl)) fun _ => bail_keeps _ hrefused

/-- Whoever is let in has a request that can be routed. -/
theorem accept_keeps (auth : AuthStore) (options : Socks5Options) (hE : ∀ s, s ≠ .relayed → E s) :
    Reader.Keeps talk .greeting (accept client auth options : Step Pool _)
      (fun _ s' => s' = .request) E := by
  refine .bind (negotiateAuth_keeps options hE) fun method s' hs' => ?_
  subst hs'
  refine .bind_at (authenticate_keeps auth method options hE) fun user => ?_
  exact .bind_at (readConnectRequest_keeps hE) fun target => .pure rfl

theorem connectAndReply_keeps (network : Network Pool) (relay : Relay Pool)
    (hE : ∀ s, s ≠ .relayed → E s) :
    Keeps talk .routing (connectAndReply network client relay)
      (fun _ s' => s' = .answered ∨ s' = .opened) E := by
  have hdials : Dials (talk : Protocol Phase (IngressEvent Pool)) .routing :=
    ⟨fun _ => rfl, fun _ => rfl, fun _ => rfl⟩
  have hopens : Opens (talk : Protocol Phase (IngressEvent Pool)) .promised :=
    ⟨fun _ _ => rfl, fun _ => rfl⟩
  cases hdecision : relay.decision with
  | direct connectHost =>
    rw [connectAndReply, establish, hdecision]
    -- the outcome of the connection says which reply may come
    refine Keeps.bind (P := fun r s' => (∀ u, r = .ok u → s' = .connected) ∧
      ∀ e, r = .error e → s' = .dialing) (Keeps.observe ?_) fun r s' hs' => ?_
    · refine (connectDirect_keeps (E := (· = .dialing)) hdials (fun _ => rfl) network _ _ rfl).mono
        (fun _ _ hs' => ⟨fun _ _ => hs', fun _ h => (by cases h)⟩) fun s' hs' _ => ?_
      exact ⟨fun _ h => (by cases h), fun _ _ => hs'⟩
    · cases r with
      | ok u =>
        obtain rfl := hs'.1 u rfl
        exact (sendReply_keeps rfl).mono (fun _ _ hs' => .inl hs') fun _ hs' => hs'
      | error err =>
        obtain rfl := hs'.2 err rfl
        refine Keeps.bind_at (sendReply_keeps rfl) fun _ => ?_
        exact Keeps.lift (fun _ h => (by cases h)) fun _ _ => hE _ fun h => (by cases h)
  | proxy pool =>
    rw [connectAndReply, establish, hdecision]
    refine Keeps.bind_at (sendReply_keeps rfl) fun _ => ?_
    refine (openTunnel_keeps hopens _ _ _ ?_ ?_).mono (fun _ _ hs' => .inr hs') fun _ hs' => hs'
    · exact hE _ fun h => (by cases h)
    · exact hE _ fun h => (by cases h)

theorem handle_keeps (setup : Setup Pool) (client : ClientStream) (hE : ∀ s, s ≠ .relayed → E s) :
    Keeps talk .greeting (handle setup client) (fun _ s' => s' = .relayed) E := by
  refine Keeps.bind_at (accept_keeps setup.auth setup.options hE client.bytes) fun p => ?_
  obtain ⟨⟨user, host, port⟩, rest⟩ := p
  refine Keeps.bind_at (decideRoute_keeps (fun _ _ _ => rfl) (fun _ => rfl) _ _ _ _ _
    (hE _ fun h => (by cases h))) fun decision => ?_
  refine Keeps.bind (connectAndReply_keeps _ _ hE) fun _ s' hs' => ?_
  rcases hs' with rfl | rfl
  · exact Keeps.emit_bind rfl (Keeps.pure rfl)
  · exact Keeps.emit_bind rfl (Keeps.pure rfl)

end conversation

end Socks

/-! ## HTTP -/

namespace Http

/-- The refusal of a client without credentials. -/
def refusal : Bytes := (responseText "407 Proxy Authentication Required".toList true).asBytes

/-- The answer to `CONNECT`. -/
def established : Bytes := (responseText "200 Connection Established".toList false).asBytes

/-- The protocol of an HTTP connection. -/
def talk : Protocol Phase (IngressEvent Pool)
  | .greeting, .write bytes => if bytes = refusal then some .refused else none
  | .greeting, .decide _ _ _ => some .routing
  | .routing, .lookup _ => some .routing
  -- only for `CONNECT`, and before there is a path
  | .routing, .write bytes => if bytes = established then some .promised else none
  | .routing, .resolve _ | .promised, .resolve _ => some .dialing
  | .routing, .dial _ | .promised, .dial _ => some .dialing
  | .routing, .request _ _ | .promised, .request _ _ => some .requested
  | .dialing, .dial _ => some .dialing
  | .dialing, .connected _ => some .connected
  | .requested, .opened _ => some .opened
  | .connected, .relaying | .opened, .relaying => some .relayed
  | _, _ => none

theorem talk_refusal :
    (talk : Protocol Phase (IngressEvent Pool)) .greeting (.write refusal) = some .refused := by
  unfold talk
  exact if_pos rfl

theorem talk_established :
    (talk : Protocol Phase (IngressEvent Pool)) .routing (.write established) = some .promised := by
  unfold talk
  exact if_pos rfl

section conversation
variable {setup : Setup Pool} {client : ClientStream} {s : Phase} {E : Phase → Prop}

theorem accept_keeps (hE : ∀ s, s ≠ .relayed → E s) :
    Keeps talk .greeting (accept setup client) (fun _ s' => s' = .greeting) E := by
  have hgreeting : E .greeting := hE _ fun h => (by cases h)
  have hrefused : E .refused := hE _ fun h => (by cases h)
  refine Keeps.lift_bind hgreeting fun header _ => Keeps.lift_bind hgreeting fun request _ => ?_
  cases authenticate setup.base64 request setup.auth with
  | ok user => exact Keeps.pure rfl
  | error fault =>
    refine Keeps.bind_at (writeAll_keeps client talk_refusal hrefused) fun _ => ?_
    exact Keeps.lift (fun _ h => (by cases h)) fun _ _ => hrefused

/-- The relay begins once there is a path. -/
theorem startRelay_keeps (hs : s = .routing ∨ s = .promised) (relay : Relay Pool)
    (hE : ∀ s, s ≠ .relayed → E s) :
    Keeps talk s (startRelay setup relay) (fun _ s' => s' = .relayed) E := by
  have hdials : Dials (talk : Protocol Phase (IngressEvent Pool)) s := by
    rcases hs with rfl | rfl <;> exact ⟨fun _ => rfl, fun _ => rfl, fun _ => rfl⟩
  have hresolve : ∀ l, (talk : Protocol Phase (IngressEvent Pool)) s (.resolve l) = some .dialing := by
    rcases hs with rfl | rfl <;> exact fun _ => rfl
  have hopens : Opens (talk : Protocol Phase (IngressEvent Pool)) s := by
    rcases hs with rfl | rfl <;> exact ⟨fun _ _ => rfl, fun _ => rfl⟩
  have hstart : E s := hE s fun h => by
    rw [h] at hs
    rcases hs with hs | hs <;> cases hs
  have hestablish : Keeps talk s (establish setup.network relay)
      (fun _ s' => s' = .connected ∨ s' = .opened) E := by
    rw [establish]
    split
    · exact (connectDirect_keeps hdials hresolve _ _ _ (hE _ fun h => (by cases h))).mono
        (fun _ _ hs' => .inl hs') fun _ hs' => hs'
    · exact (openTunnel_keeps hopens _ _ _ hstart (hE _ fun h => (by cases h))).mono
        (fun _ _ hs' => .inr hs') fun _ hs' => hs'
  refine Keeps.bind hestablish fun _ s' hs' => ?_
  rcases hs' with rfl | rfl
  · exact Keeps.emit_bind rfl (Keeps.pure rfl)
  · exact Keeps.emit_bind rfl (Keeps.pure rfl)

theorem handle_keeps (setup : Setup Pool) (client : ClientStream) (hE : ∀ s, s ≠ .relayed → E s) :
    Keeps talk .greeting (handle setup client) (fun _ s' => s' = .relayed) E := by
  have hgreeting : E .greeting := hE _ fun h => (by cases h)
  have hrouting : E .routing := hE _ fun h => (by cases h)
  refine Keeps.bind_at (accept_keeps hE) fun p => ?_
  obtain ⟨user, request, rest⟩ := p
  refine Keeps.ite (fun _ => ?_) fun _ => ?_
  · refine Keeps.lift_bind hgreeting fun target _ => ?_
    refine Keeps.bind_at (decideRoute_keeps (fun _ _ _ => rfl) (fun _ => rfl) _ _ _ _ _ hrouting)
      fun decision => ?_
    have hpromised : E .promised := hE _ fun h => (by cases h)
    refine Keeps.bind_at (writeAll_keeps client talk_established hpromised) fun _ => ?_
    exact startRelay_keeps (.inr rfl) _ hE
  · refine Keeps.lift_bind hgreeting fun absolute _ => ?_
    refine Keeps.bind_at (decideRoute_keeps (fun _ _ _ => rfl) (fun _ => rfl) _ _ _ _ _ hrouting)
      fun decision => ?_
    exact startRelay_keeps (.inl rfl) _ hE

end conversation

end Http

/-! ## Every connection -/

/-- The events keep to the protocol, and the relay begins if and only if the
    computation returns. -/
def Converses {α : Type} (talk : Protocol Phase (IngressEvent Pool)) (x : Ingress Pool α) : Prop :=
  ∃ phase, talk.run .greeting x.events = some phase ∧
    (phase = .relayed ↔ ∃ a, x.result = .ok a)

theorem converses_of_keeps {α : Type} {talk : Protocol Phase (IngressEvent Pool)}
    {x : Ingress Pool α}
    (h : Keeps talk .greeting x (fun _ s' => s' = .relayed) (· ≠ .relayed)) : Converses talk x := by
  obtain ⟨phase, hrun, hok, herror⟩ := h
  refine ⟨phase, hrun, fun hrelayed => ?_, fun ⟨a, ha⟩ => hok a ha⟩
  cases hresult : x.result with
  | ok a => exact ⟨a, rfl⟩
  | error e => exact absurd hrelayed (herror e hresult)

/-- **Every connection keeps to its protocol**, on both ingresses, whatever the
    client sends, however reads, writes, lookups, connects and calls come back. -/
theorem conversation :
    (∀ (setup : Socks.Setup Pool) (client : ClientStream),
      Converses Socks.talk (Socks.handle setup client)) ∧
    ∀ (setup : Http.Setup Pool) (client : ClientStream),
      Converses Http.talk (Http.handle setup client) :=
  ⟨fun setup client => converses_of_keeps (Socks.handle_keeps setup client fun _ hs => hs),
    fun setup client => converses_of_keeps (Http.handle_keeps setup client fun _ hs => hs)⟩

end EchProxy
