import EchProxy.Net.Text
import EchProxy.Route.Router
import EchProxy.Tunnel.Client

/-! # Between an Ingress and its Target

    What both ingress protocols do with a connection once they know its user
    and its target: ask the router, then connect directly or open a tunnel
    (`connect_direct` in `client/src/router.rs`, the open phase of
    `relay_grpc` in `client/src/tunnel.rs`).  Everything that leaves the
    program on the way is an event; what the network answers is a parameter.
-/

namespace EchProxy

open Checked Traced

/-! ## The outside -/

/-- The client's socket: the bytes it delivers, the error of the read behind them
    if there is one, and the outcome of each write. -/
structure ClientStream where
  bytes : Bytes
  readError : Option String
  respond : Bytes → Except String Unit

/-- What comes of opening a tunnel through a backend. -/
structure Opening where
  /-- `acquire_stream_permit`. -/
  permit : Except String Unit
  /-- The token makes a metadata value. -/
  tokenOk : Bool
  /-- `client.tunnel(request)`. -/
  call : Except String Unit
  /-- The first item of the stream. -/
  first : StreamItem ServerFrame

/-- What the network answers. -/
structure Network (Pool : Type) where
  /-- `lookup_host`, in the router. -/
  dns : Dns
  /-- The name lookup inside `TcpStream::connect`. -/
  connectDns : Dns
  /-- A TCP connection to one address. -/
  dial : SocketAddr → Except String Unit
  opening : Pool → Open → Opening

/-- What an ingress does that can be seen from outside. -/
inductive IngressEvent (Pool : Type) where
  /-- `write_all` on the client's socket. -/
  | write (bytes : Bytes)
  /-- `Router::decide` is called. -/
  | decide (user : UserProfile) (host : Text) (port : UInt16)
  /-- `Router::decide` looks a name up. -/
  | lookup (l : DnsLookup)
  /-- `TcpStream::connect` looks a name up. -/
  | resolve (l : DnsLookup)
  /-- `TcpStream::connect` tries an address. -/
  | dial (addr : SocketAddr)
  | connected (addr : SocketAddr)
  /-- The call of `tunnel`, with its `Open`. -/
  | request (pool : Pool) (target : Open)
  /-- `OpenResult` with `ok = true` came in. -/
  | opened (pool : Pool)
  /-- The relay begins. -/
  | relaying
  deriving DecidableEq

variable {Pool : Type}

/-- A computation of an ingress. -/
abbrev Ingress (Pool α : Type) := Traced Fault (IngressEvent Pool) α

/-- `?` on the result of an I/O operation. -/
def ioResult {α : Type} : Except String α → Eval α
  | .ok a => .ok a
  | .error err => bail err

/-- `stream.write_all(..).await?`. -/
def writeAll (client : ClientStream) (bytes : Bytes) : Ingress Pool Unit := do
  emit (.write bytes)
  ioResult (client.respond bytes)

/-! ## The direct path -/

/-- The addresses `TcpStream::connect` tries: a literal is not looked up. -/
def connectAddrs (network : Network Pool) (host : Text) (port : UInt16) :
    Ingress Pool (List SocketAddr) :=
  match IpText.std.parse host with
  | some ip => return [⟨ip, port⟩]
  | none => do
    emit (.resolve ⟨host, port.toNat⟩)
    ioResult (network.connectDns ⟨host, port.toNat⟩)

/-- The loop of `TcpStream::connect`, after the error `lastErr`. -/
def tryAddrs (network : Network Pool) (lastErr : String) : List SocketAddr → Ingress Pool Unit
  | [] => bail lastErr
  | addr :: addrs => do
    emit (.dial addr)
    match network.dial addr with
    | .ok () => emit (.connected addr)
    | .error err => tryAddrs network err addrs

/-- `connect_direct`. -/
def connectDirect (network : Network Pool) (connectHost : Text) (targetPort : UInt16) :
    Ingress Pool Unit := do
  let addrs ← connectAddrs network connectHost targetPort
  tryAddrs network "could not resolve to any address" addrs

/-! ## The open phase of a tunnel -/

/-- The match on the first item of the stream. -/
def openResult : StreamItem ServerFrame → Except RelayError Unit
  | none => .error .closedBeforeOpenResult
  | some (.error status) => .error (.status status)
  | some (.ok frame) =>
    match frame.payload with
    | some (.openResult result) => if result.ok then .ok () else .error (.openRefused result.error)
    | some (.reset reason) => .error (.openReset reason)
    | _ => .error .unexpectedFirstFrame

/-- The errors of `relay_grpc` as errors of its caller. -/
def relayResult {α : Type} : Except RelayError α → Eval α
  | .ok a => .ok a
  | .error err => bail err.message

/-- `relay_grpc` up to its spawn. -/
def openTunnel (opening : Opening) (pool : Pool) (target : Open) : Ingress Pool Unit := do
  ioResult opening.permit
  if opening.tokenOk = false then relayResult (.error .invalidToken)
  else do
    emit (.request pool target)
    ioResult opening.call
    relayResult (openResult opening.first)
    emit (.opened pool)

/-! ## Routing -/

/-- `router.decide(..).await?`. -/
def decideRoute (router : Router Pool) (network : Network Pool) (user : UserProfile) (host : Text)
    (port : UInt16) : Ingress Pool (RouteDecision Pool) := do
  emit (.decide user host port)
  mapEvents .lookup (router.decide IpText.std network.dns user host port.toNat)

/-- A relay that began, by what it began with. -/
structure Relay (Pool : Type) where
  decision : RouteDecision Pool
  host : Text
  port : UInt16
  firstPayload : Bytes
  /-- The bytes of the client that are still to be read. -/
  rest : Bytes

/-- `connect_direct`, or `relay_grpc` up to its spawn. -/
def establish (network : Network Pool) (relay : Relay Pool) : Ingress Pool Unit :=
  match relay.decision with
  | .direct connectHost => connectDirect network connectHost relay.port
  | .proxy pool =>
    let target : Open := ⟨relay.host, relay.port.toUInt32, relay.firstPayload⟩
    openTunnel (network.opening pool target) pool target

/-! ## What is recorded -/

namespace IngressEvent

/-- The program writes to its client. -/
def isWrite : IngressEvent Pool → Bool
  | .write _ => true
  | _ => false

/-- A direct connection is made, or tried. -/
def isDirect : IngressEvent Pool → Bool
  | .resolve _ | .dial _ | .connected _ => true
  | _ => false

/-- A tunnel is opened, or tried. -/
def isTunnel : IngressEvent Pool → Bool
  | .request _ _ | .opened _ => true
  | _ => false

/-- The router is asked. -/
def isDecide : IngressEvent Pool → Bool
  | .decide _ _ _ => true
  | _ => false

end IngressEvent

theorem writeAll_only (client : ClientStream) (bytes : Bytes) :
    Only (writeAll client bytes : Ingress Pool Unit) fun e => e = .write bytes := by
  refine Only.bind (Only.emit rfl) fun _ _ => ?_
  exact Only.lift _

theorem tryAddrs_only (network : Network Pool) (lastErr : String) (addrs : List SocketAddr) :
    Only (tryAddrs network lastErr addrs) fun e =>
      ∃ addr ∈ addrs, e = .dial addr ∨ e = .connected addr := by
  induction addrs generalizing lastErr with
  | nil => exact Only.lift _
  | cons addr addrs ih =>
    refine (Only.emit ⟨addr, List.mem_cons_self, .inl rfl⟩).bind fun _ _ => ?_
    cases network.dial addr with
    | ok _ => exact Only.emit ⟨addr, List.mem_cons_self, .inr rfl⟩
    | error err =>
      refine (ih err).mono fun e ⟨addr', hmem, he⟩ => ?_
      exact ⟨addr', List.mem_cons_of_mem _ hmem, he⟩

theorem connectDirect_only (network : Network Pool) (connectHost : Text) (port : UInt16) :
    Only (connectDirect network connectHost port) fun e => e.isDirect = true := by
  have haddrs : Only (connectAddrs network connectHost port) fun e => e.isDirect = true := by
    rw [connectAddrs]
    cases IpText.std.parse connectHost with
    | some ip => exact Only.pure _
    | none => exact Only.bind (Only.emit rfl) fun _ _ => Only.lift _
  refine haddrs.bind fun addrs _ => ?_
  refine (tryAddrs_only network _ addrs).mono fun e ⟨addr, _, he⟩ => ?_
  rcases he with rfl | rfl <;> rfl

theorem openTunnel_only (opening : Opening) (pool : Pool) (target : Open) :
    Only (openTunnel opening pool target) fun e => e = .request pool target ∨ e = .opened pool := by
  refine Only.bind (Only.lift _) fun _ _ => ?_
  refine Only.ite (fun _ => Only.lift _) fun _ => ?_
  refine Only.bind (Only.emit (.inl rfl)) fun _ _ => ?_
  refine Only.bind (Only.lift _) fun _ _ => ?_
  exact Only.bind (Only.lift _) fun _ _ => Only.emit (.inr rfl)

theorem establish_only (network : Network Pool) (relay : Relay Pool) :
    Only (establish network relay) fun e => e.isDirect = true ∨ e.isTunnel = true := by
  rw [establish]
  split
  · exact (connectDirect_only _ _ _).mono fun _ he => .inl he
  · refine (openTunnel_only _ _ _).mono fun _ he => .inr ?_
    rcases he with rfl | rfl <;> rfl

/-- A tunnel is opened through the pool of the decision only. -/
theorem establish_request (network : Network Pool) (relay : Relay Pool) :
    Only (establish network relay) fun e => ∀ pool target, e = .request pool target →
      relay.decision = .proxy pool := by
  rw [establish]
  split
  · refine (connectDirect_only _ _ _).mono fun e he pool target heq => ?_
    rw [heq] at he
    cases he
  · next hdecision =>
    refine (openTunnel_only _ _ _).mono fun e he pool target heq => ?_
    rcases he with rfl | rfl
    · obtain ⟨rfl, -⟩ := IngressEvent.request.inj heq
      exact hdecision
    · cases heq

/-- The router's part of a trace: the call, and its lookups. -/
theorem decideRoute_events (router : Router Pool) (network : Network Pool) (user : UserProfile)
    (host : Text) (port : UInt16) :
    (decideRoute router network user host port).events = .decide user host port ::
      (router.decide IpText.std network.dns user host port.toNat).events.map .lookup := by
  rw [decideRoute, emit_bind]
  rfl

theorem decideRoute_result (router : Router Pool) (network : Network Pool) (user : UserProfile)
    (host : Text) (port : UInt16) :
    (decideRoute router network user host port).result =
      (router.decide IpText.std network.dns user host port.toNat).result := by
  rw [decideRoute, emit_bind]
  rfl

theorem decideRoute_only (router : Router Pool) (network : Network Pool) (user : UserProfile)
    (host : Text) (port : UInt16) : Only (decideRoute router network user host port) fun e =>
      e = .decide user host port ∨ ∃ l, e = .lookup l := by
  intro e he
  rw [decideRoute_events] at he
  rcases List.mem_cons.mp he with rfl | hlookup
  · exact .inl rfl
  · obtain ⟨l, -, rfl⟩ := List.mem_map.mp hlookup
    exact .inr ⟨l, rfl⟩

/-- What follows the call of the router comes behind it in the trace. -/
theorem decideRoute_bind_events {α : Type} (router : Router Pool) (network : Network Pool)
    (user : UserProfile) (host : Text) (port : UInt16) {f : RouteDecision Pool → Ingress Pool α}
    (hf : ∀ decision, Only (f decision) fun e => e.isDecide = false) :
    ∃ more, (decideRoute router network user host port >>= f).events =
        .decide user host port :: more ∧ ∀ e ∈ more, e.isDecide = false := by
  obtain ⟨more, hmore, hlater⟩ := Only.bind_events (decideRoute router network user host port) hf
  refine ⟨_, hmore.trans (congrArg (· ++ more) (decideRoute_events router network user host port)),
    List.forall_mem_append.mpr ⟨fun e he => ?_, hlater⟩⟩
  obtain ⟨l, -, rfl⟩ := List.mem_map.mp he
  rfl

/-! ## The open phase, as the tunnel has it -/

/-- The steps of the client relay up to its spawn, or to its error. -/
def Opening.labels (opening : Opening) : List ClientLabel :=
  .sendOpen ::
    if opening.tokenOk = false then [.badToken]
    else
      .tokenOk ::
        match opening.call with
        | .error status => [.callErr status]
        | .ok () => [.callOk, .recv opening.first]

/-- **The open phase is the beginning of a run of the client relay**: both come
    to the loop, or both fail with one text. -/
theorem openTunnel_run {opening : Opening} (hpermit : opening.permit = .ok ()) (pool : Pool)
    (target : Open) (localInput : Bytes) :
    ∃ s, (ClientState.system target localInput).run (.fresh localInput) opening.labels = some s ∧
      match (openTunnel opening pool target).result with
      | .ok () => s.main = .relaying
      | .error fault => ∃ err, s.main = .returned (some err) ∧ fault = .error err.message := by
  obtain ⟨permit, tokenOk, call, first⟩ := opening
  obtain rfl : permit = .ok () := hpermit
  -- one case a place where the opening may end, as the relay returns there
  cases tokenOk with
  | false => exact ⟨_, rfl, .invalidToken, rfl, rfl⟩
  | true =>
    cases call with
    | error status => exact ⟨_, rfl, .status status, rfl, rfl⟩
    | ok _ =>
      refine ⟨_, rfl, ?_⟩
      rcases first with _ | (status | ⟨payload⟩)
      · exact ⟨.closedBeforeOpenResult, rfl, rfl⟩
      · exact ⟨.status status, rfl, rfl⟩
      · rcases payload with _ | ⟨ok, error⟩ | bytes | _ | reason | millis
        · exact ⟨.unexpectedFirstFrame, rfl, rfl⟩
        · cases ok with
          | true => rfl
          | false => exact ⟨.openRefused error, rfl, rfl⟩
        · exact ⟨.unexpectedFirstFrame, rfl, rfl⟩
        · exact ⟨.unexpectedFirstFrame, rfl, rfl⟩
        · exact ⟨.openReset reason, rfl, rfl⟩
        · exact ⟨.unexpectedFirstFrame, rfl, rfl⟩

end EchProxy
