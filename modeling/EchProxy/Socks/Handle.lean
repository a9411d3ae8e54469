import EchProxy.Socks.Encoding

/-! # A SOCKS5 Connection (`handle` in `client/src/ingress_socks5.rs`)

    The handshake, the router's decision, the reply and the relay.  The bytes
    behind the handshake are the first ones that are relayed.
-/

namespace EchProxy

namespace Socks

open Checked Traced Reader

variable {Pool : Type}

/-- What an ingress is handled with, apart from the client. -/
structure Setup (Pool : Type) where
  auth : AuthStore
  router : Router Pool
  network : Network Pool
  options : Socks5Options

/-- The branches of `handle` after `decide`. -/
def connectAndReply (network : Network Pool) (client : ClientStream) (relay : Relay Pool) :
    Ingress Pool Unit :=
  match relay.decision with
  | .direct _ => do
    match ← observe (establish network relay) with
    | .ok () => sendReply client 0x00
    | .error err => do
      sendReply client 0x05
      Traced.lift (.error err)
  | .proxy _ => do
    sendReply client 0x00
    establish network relay

/-- `handle` from `decide` on. -/
def connect (setup : Setup Pool) (client : ClientStream) (outcome : UserProfile × Text × UInt16)
    (rest : Bytes) : Ingress Pool (Relay Pool) := do
  let (user, host, port) := outcome
  let decision ← decideRoute setup.router setup.network user host port
  let relay : Relay Pool := ⟨decision, host, port, [], rest⟩
  connectAndReply setup.network client relay
  emit .relaying
  return relay

def handle (setup : Setup Pool) (client : ClientStream) : Ingress Pool (Relay Pool) := do
  let (outcome, rest) ← accept client setup.auth setup.options client.bytes
  connect setup client outcome rest

section handshake
variable {setup : Setup Pool} {client : ClientStream}

/-- What comes after a handshake. -/
theorem handle_of_accept {events : List (IngressEvent Pool)} {outcome : UserProfile × Text × UInt16}
    {rest : Bytes}
    (h : accept client setup.auth setup.options client.bytes = ⟨events, .ok (outcome, rest)⟩) :
    handle setup client = ⟨events ++ (connect setup client outcome rest).events,
      (connect setup client outcome rest).result⟩ := by
  rw [handle, h, bind_ok (a := (outcome, rest)) _ rfl]

/-- A client that sends a handshake is let in. -/
theorem accept_of_handshake (handshake : Handshake setup.auth setup.options) {trailing : Bytes}
    (hbytes : client.bytes = handshake.encode ++ trailing)
    (hwrites : ∀ bytes ∈ handshake.answers, client.respond bytes = .ok ()) :
    (accept client setup.auth setup.options client.bytes : Ingress Pool _) =
      ⟨handshake.answers.map .write, .ok (handshake.outcome, trailing)⟩ := by
  rw [hbytes]
  exact accept_reads handshake hwrites trailing

/-- The relay goes on where the handshake ended. -/
theorem relay_of_connect {outcome : UserProfile × Text × UInt16} {rest : Bytes} {relay : Relay Pool}
    (h : (connect setup client outcome rest).result = .ok relay) :
    (relay.host, relay.port) = outcome.2 ∧ relay.rest = rest := by
  obtain ⟨user, host, port⟩ := outcome
  rw [connect, result_bind, Result.bind_eq_ok] at h
  obtain ⟨decision, -, h⟩ := h
  rw [result_bind, Result.bind_eq_ok] at h
  obtain ⟨_, -, h⟩ := h
  rw [emit_bind] at h
  obtain rfl := Except.ok.inj h
  exact ⟨rfl, rfl⟩

end handshake

/-! ## What is recorded -/

section records
variable {client : ClientStream} {auth : AuthStore} {options : Socks5Options}

/-- A write that selects no method. -/
def IsAnswer (e : IngressEvent Pool) : Prop :=
  ∃ bytes, e = .write bytes ∧ ∀ method, bytes ≠ [socksVersion, method]

theorem sendReply_only (client : ClientStream) (reply : UInt8) :
    Only (sendReply client reply : Ingress Pool Unit) fun e => e = .write (replyBytes reply) :=
  Only.bind (writeAll_only client _).observe fun _ _ => Only.pure _

theorem replyBytes_ne (reply method : UInt8) : replyBytes reply ≠ [socksVersion, method] :=
  fun h => by cases h

theorem writeAll_answers (client : ClientStream) (code : UInt8) :
    Only (writeAll client [0x01, code] : Ingress Pool Unit) IsAnswer := by
  refine (writeAll_only client _).mono fun e he => ⟨_, he, fun method heq => ?_⟩
  exact absurd (List.cons.inj heq).1 (by decide)

theorem sendReply_records (reply : UInt8) :
    Records (liftM (sendReply client reply : Ingress Pool Unit) : Step Pool Unit) IsAnswer :=
  Records.lift ((sendReply_only client reply).mono fun _ he => ⟨_, he, replyBytes_ne reply⟩)

theorem eval_records {α : Type} (x : Eval α) {P : IngressEvent Pool → Prop} :
    Records (liftM x : Step Pool α) P :=
  Records.lift (Only.lift x)

theorem negotiateAuth_records : Records (negotiateAuth client options : Step Pool UInt8)
    fun e => e.isWrite = true := by
  have hanswer : ∀ bytes, Records (answer client bytes : Step Pool Unit) fun e => e.isWrite = true :=
    fun bytes => Records.lift ((writeAll_only client bytes).mono fun _ he => he ▸ rfl)
  refine (Records.item _).bind fun _ => Records.ite (eval_records _) ?_
  refine (Records.item _).bind fun _ => (Records.exactly _ _).bind fun _ => ?_
  refine Records.ite ((hanswer _).bind fun _ => Records.pure _) ?_
  exact Records.ite ((hanswer _).bind fun _ => Records.pure _)
    ((hanswer _).bind fun _ => eval_records _)

theorem readText_records (msg : String) : Records (do
      let len ← readU8 client
      let buf ← readExact client len.toNat
      context msg (Text.fromUtf8 buf) : Step Pool Text) IsAnswer :=
  (Records.item _).bind fun _ => (Records.exactly _ _).bind fun _ => eval_records _

theorem checkCredentials_only (client : ClientStream) (auth : AuthStore) (username password : Text) :
    Only (checkCredentials client auth username password : Ingress Pool UserProfile) IsAnswer := by
  rw [checkCredentials]
  split
  · exact Only.bind (writeAll_answers client _) fun _ _ => Only.pure _
  · exact Only.bind (writeAll_answers client _) fun _ _ => Only.lift _

theorem authenticate_records (method : UInt8) :
    Records (authenticate client auth method options : Step Pool UserProfile) IsAnswer := by
  refine Records.ite (eval_records _) ((Records.item _).bind fun _ => ?_)
  refine Records.ite ((Records.lift (writeAll_answers client _)).bind fun _ => eval_records _) ?_
  refine (readText_records _).bind fun _ => (readText_records _).bind fun _ => ?_
  exact Records.lift (checkCredentials_only _ _ _ _)

theorem readConnectRequest_records :
    Records (readConnectRequest client : Step Pool (Text × UInt16)) IsAnswer := by
  have hhost : ∀ atyp, Records (readHost client atyp : Step Pool Text) IsAnswer := by
    intro atyp
    refine Records.ite ((Records.exactly _ _).bind fun _ => Records.pure _) ?_
    refine Records.ite (readText_records _) ?_
    refine Records.ite ((Records.exactly _ _).bind fun _ => Records.pure _) ?_
    exact (sendReply_records _).bind fun _ => eval_records _
  refine (Records.item _).bind fun _ => (Records.item _).bind fun _ => ?_
  refine (Records.item _).bind fun _ => (Records.item _).bind fun atyp => ?_
  refine Records.ite (eval_records _) ?_
  refine Records.ite ((sendReply_records _).bind fun _ => eval_records _) ?_
  refine (hhost atyp).bind fun _ => ?_
  refine ((Records.exactly _ _).bind fun _ => Records.pure _).bind fun _ => ?_
  exact Records.ite ((sendReply_records _).bind fun _ => eval_records _) (Records.pure _)

/-- Behind the method nothing but answers is written. -/
theorem credentials_records (method : UInt8) : Records (do
      let user ← authenticate client auth method options
      let (host, port) ← readConnectRequest client
      return (user, host, port) : Step Pool _) IsAnswer :=
  (authenticate_records _).bind fun _ => readConnectRequest_records.bind fun _ => Records.pure _

/-- **The handshake only writes to the client.** -/
theorem accept_records : Records (accept client auth options : Step Pool _)
    fun e => e.isWrite = true :=
  negotiateAuth_records.bind fun _ input =>
    (credentials_records _ input).mono fun _ ⟨_, he, _⟩ => he ▸ rfl

/-- A greeting is answered with the method that is selected. -/
theorem negotiateAuth_events (greeting : Greeting) {method : UInt8}
    (hselects : greeting.Selects options method) (rest : Bytes) :
    (negotiateAuth client options (greeting.encode ++ rest) : Ingress Pool _).events =
      [.write [socksVersion, method]] := by
  rw [negotiateAuth_run greeting hselects, bind_run, answer, lift_run, writeAll, emit_bind]
  cases client.respond [socksVersion, method] <;> rfl

/-- After a greeting the trace begins with this answer. -/
theorem accept_events (greeting : Greeting) {method : UInt8}
    (hselects : greeting.Selects options method) (rest : Bytes) :
    ∃ more, (accept client auth options (greeting.encode ++ rest) : Ingress Pool _).events =
        .write [socksVersion, method] :: more ∧ ∀ e ∈ more, IsAnswer e := by
  rw [accept, bind_run]
  obtain ⟨more, hmore, hanswers⟩ := Only.bind_events
    (negotiateAuth client options (greeting.encode ++ rest) : Ingress Pool _)
    fun p => credentials_records p.1 p.2
  exact ⟨more, hmore.trans (by rw [negotiateAuth_events greeting hselects]; rfl), hanswers⟩

/-- The events of the two branches are replies and those of the connection. -/
theorem connectAndReply_rule {P : IngressEvent Pool → Prop} (network : Network Pool)
    (client : ClientStream) (relay : Relay Pool) (hreply : ∀ reply, P (.write (replyBytes reply)))
    (hestablish : Only (establish network relay) P) :
    Only (connectAndReply network client relay) P := by
  have hsend : ∀ reply, Only (sendReply client reply : Ingress Pool Unit) P :=
    fun reply => (sendReply_only client reply).mono fun _ he => he ▸ hreply reply
  rw [connectAndReply]
  split
  · refine Only.bind hestablish.observe fun outcome _ => ?_
    cases outcome with
    | ok _ => exact hsend _
    | error err => exact Only.bind (hsend _) fun _ _ => Only.lift _
  · exact Only.bind (hsend _) fun _ _ => hestablish

/-- The events of `connect`, part by part. -/
theorem connect_rule {P : IngressEvent Pool → Prop} (setup : Setup Pool) (client : ClientStream)
    (user : UserProfile) (host : Text) (port : UInt16) (rest : Bytes)
    (hdecide : P (.decide user host port)) (hlookup : ∀ l, P (.lookup l))
    (hreply : ∀ reply, P (.write (replyBytes reply))) (hrelaying : P .relaying)
    (hestablish : ∀ decision,
      (setup.router.decide IpText.std setup.network.dns user host port.toNat).result = .ok decision →
      Only (establish setup.network ⟨decision, host, port, [], rest⟩) P) :
    Only (connect setup client (user, host, port) rest) P := by
  refine Only.bind ((decideRoute_only _ _ _ _ _).mono fun e he => ?_) fun decision hdecision => ?_
  · rcases he with rfl | ⟨l, rfl⟩
    · exact hdecide
    · exact hlookup l
  · rw [decideRoute_result] at hdecision
    refine Only.bind (connectAndReply_rule _ _ _ hreply (hestablish decision hdecision)) fun _ _ => ?_
    exact Only.bind (Only.emit hrelaying) fun _ _ => Only.pure _

end records

section traces
variable {setup : Setup Pool} {client : ClientStream}

/-- A connection calls the router once. -/
theorem connect_events (setup : Setup Pool) (client : ClientStream) (user : UserProfile)
    (host : Text) (port : UInt16) (rest : Bytes) :
    ∃ more, (connect setup client (user, host, port) rest).events = .decide user host port :: more ∧
      ∀ e ∈ more, e.isDecide = false := by
  refine decideRoute_bind_events _ _ _ _ _ fun decision => ?_
  have hestablish : Only (establish setup.network ⟨decision, host, port, [], rest⟩)
      fun e => e.isDecide = false := by
    refine (establish_only _ _).mono fun e he => ?_
    cases e with
    | decide => rcases he with he | he <;> cases he
    | _ => rfl
  refine Only.bind (connectAndReply_rule _ _ _ (fun _ => rfl) hestablish) fun _ _ => ?_
  exact Only.bind (Only.emit rfl) fun _ _ => Only.pure _

/-- What a client that sends a handshake sees is the handshake, and then at most its
    connection. -/
theorem handle_events_of_handshake (handshake : Handshake setup.auth setup.options)
    {trailing : Bytes} (hbytes : client.bytes = handshake.encode ++ trailing) :
    (handle setup client).events =
        (accept client setup.auth setup.options client.bytes : Ingress Pool _).events ∨
      ∃ rest, (handle setup client).events =
        (accept client setup.auth setup.options client.bytes : Ingress Pool _).events ++
          (connect setup client handshake.outcome rest).events := by
  cases hresult : (accept client setup.auth setup.options client.bytes : Ingress Pool _).result with
  | error fault =>
    rw [handle, bind_error _ hresult]
    exact .inl rfl
  | ok p =>
    obtain ⟨outcome, rest⟩ := p
    obtain ⟨used, hinput, other, rfl, rfl, -⟩ := accept_takes client.bytes
      (accept client setup.auth setup.options client.bytes : Ingress Pool _).events outcome rest
      (by rw [← hresult])
    have houtcome : handshake.outcome = other.outcome :=
      Handshake.outcome_unique (hbytes.symm.trans hinput)
    rw [handle, bind_ok _ hresult, houtcome]
    exact .inr ⟨rest, rfl⟩

/-- A client that sends a handshake and takes the answers is routed. -/
theorem decide_of_handshake (handshake : Handshake setup.auth setup.options) {trailing : Bytes}
    (hbytes : client.bytes = handshake.encode ++ trailing)
    (hwrites : ∀ bytes ∈ handshake.answers, client.respond bytes = .ok ()) :
    .decide handshake.user handshake.request.destination.host handshake.request.port ∈
      (handle setup client).events := by
  obtain ⟨more, hmore, -⟩ := connect_events setup client handshake.user
    handshake.request.destination.host handshake.request.port trailing
  rw [handle_of_accept (accept_of_handshake handshake hbytes hwrites)]
  exact List.mem_append_right _ (hmore ▸ List.mem_cons_self)

end traces

/-! ## The handshake is exact -/

/-- What is accepted is a handshake. -/
theorem handshake_of_accept {client : ClientStream} {auth : AuthStore} {options : Socks5Options}
    {input rest : Bytes} {outcome : UserProfile × Text × UInt16}
    (h : (accept client auth options input : Ingress Pool _).result = .ok (outcome, rest)) :
    ∃ handshake : Handshake auth options,
      input = handshake.encode ++ rest ∧ outcome = handshake.outcome := by
  have hrun : (accept client auth options input : Ingress Pool _) =
      ⟨(accept client auth options input : Ingress Pool _).events, .ok (outcome, rest)⟩ := by
    rw [← h]
  obtain ⟨used, hinput, handshake, rfl, houtcome, -⟩ := accept_takes input _ _ _ hrun
  exact ⟨handshake, hinput, houtcome⟩

/-- The three functions undo what a client encodes, take nothing else off the
    stream, and accept nothing else. -/
structure HandshakeExact (setup : Setup Pool) (client : ClientStream) : Prop where
  undone : ∀ (handshake : Handshake setup.auth setup.options) (trailing : Bytes),
    (∀ bytes ∈ handshake.answers, client.respond bytes = .ok ()) →
    (accept client setup.auth setup.options (handshake.encode ++ trailing) : Ingress Pool _) =
      ⟨handshake.answers.map .write, .ok (handshake.outcome, trailing)⟩
  /-- What is left is what the relay begins with. -/
  relayed : ∀ (handshake : Handshake setup.auth setup.options) (trailing : Bytes) (relay : Relay Pool),
    client.bytes = handshake.encode ++ trailing →
    (∀ bytes ∈ handshake.answers, client.respond bytes = .ok ()) →
    (handle setup client).result = .ok relay →
    (relay.host, relay.port) = handshake.outcome.2 ∧ relay.rest = trailing
  address : ∀ (destination : Destination) (ip : IpAddr), destination.ip = some ip →
    IpText.std.parse destination.host = some ip
  conversely : ∀ (input : Bytes) (outcome : UserProfile × Text × UInt16) (rest : Bytes),
    (accept client setup.auth setup.options input : Ingress Pool _).result = .ok (outcome, rest) →
    ∃ handshake : Handshake setup.auth setup.options,
      input = handshake.encode ++ rest ∧ outcome = handshake.outcome

/-- **The proxy undoes the encoding of the client and consumes exactly the
    handshake.** -/
theorem handshake_exact (setup : Setup Pool) (client : ClientStream) :
    HandshakeExact setup client where
  undone := fun handshake trailing hwrites => accept_reads handshake hwrites trailing
  relayed := by
    intro handshake trailing relay hbytes hwrites hrelay
    rw [handle_of_accept (accept_of_handshake handshake hbytes hwrites)] at hrelay
    exact relay_of_connect hrelay
  address := fun destination ip hip => Destination.parse_host hip
  conversely := fun _ _ _ hresult => handshake_of_accept hresult

/-! ## A handshake -/

def exampleSetup : Setup Nat where
  auth := ⟨[("alice".toList, Router.exampleUser)]⟩
  router := Router.exampleRouter
  network := {
    dns := fun _ => .error "no such host"
    connectDns := fun _ => .error "no such host"
    dial := fun _ => .ok ()
    opening := fun _ _ => ⟨.ok (), true, .ok (), some (.ok (openResultFrame true ""))⟩ }
  options := ⟨false, none⟩

/-- A client that reads what it is answered. -/
def exampleClient (bytes : Bytes) : ClientStream := ⟨bytes, none, fun _ => .ok ()⟩

/-- Alice wants to connect to 10.0.0.1:443. -/
def exampleHandshake : Handshake exampleSetup.auth exampleSetup.options where
  greeting := ⟨[authNoAuth, authUserPass], by decide⟩
  login := .userPass ⟨"alice".toList, "secret".toList, by decide, by decide⟩
  selects := .userPass (by decide) (by decide)
  user := Router.exampleUser
  accepted := rfl
  request := ⟨.ipv4 (.new 10 0 0 1), 443, by decide⟩

theorem httpsPort_ne : (443 : UInt16) ≠ 0 := by decide

/-- Alice's handshake for another destination. -/
def exampleHandshakeTo (destination : Destination) :
    Handshake exampleSetup.auth exampleSetup.options :=
  { exampleHandshake with request := ⟨destination, 443, httpsPort_ne⟩ }

theorem handshake_exact_example :
    accept (exampleClient []) exampleSetup.auth exampleSetup.options
        (exampleHandshake.encode ++ [0x16, 0x03]) =
      (⟨[.write [0x05, 0x02], .write [0x01, 0x00]],
        .ok ((Router.exampleUser, "10.0.0.1".toList, 443), [0x16, 0x03])⟩ : Ingress Nat _) := by
  have hexact := handshake_exact exampleSetup (exampleClient [])
  exact hexact.undone exampleHandshake [0x16, 0x03] fun _ _ => rfl

end Socks

end EchProxy
