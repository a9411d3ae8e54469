import EchProxy.Framework.Lts
import EchProxy.Net.Text
import EchProxy.Server.Auth
import EchProxy.Server.Policy
import EchProxy.Tunnel.ReadTask

/-! # The Server Side of a Tunnel (`server/src/service.rs`)

    `TunnelServer::tunnel`, `handle_tunnel` with the reading task it spawns,
    and `connect_any`.  As for the client, a step is one `await` coming back
    and the label says how.  What the client sends, what the resolver and
    each connect answer, and when a timeout strikes is up to the labels.

    The target is a part of the state: it exists once a connect succeeded and
    passed the peer check, and it holds what was written to it.
-/

namespace EchProxy

open Server

/-! ## How a tunnel ends -/

/-- The ways `handle_tunnel` comes to its end. -/
inductive ServerExit where
  /-- The stream failed before the first frame. -/
  | openStreamError (status : String)
  | closedBeforeOpen
  | openTimeout
  | notOpen
  /-- The policy, the resolver or all connects said no. -/
  | refused (err : PolicyError)
  | firstWriteFailed (err : String)
  | idle
  | clientClosed
  | streamError (status : String)
  | targetWriteFailed (err : String)
  | clientReset
  | unexpectedOpen
  | emptyFrame
  deriving DecidableEq

/-- The last frame the main loop sends on each way out, if it sends one. -/
def ServerExit.frame (text : IpText) : ServerExit → Option ServerFrame
  | .openStreamError status => some (serverReset status)
  | .closedBeforeOpen => none
  | .openTimeout => some (serverReset "idle timeout waiting for Open")
  | .notOpen => some (openResultFrame false "first frame must be Open")
  | .refused err => some (openResultFrame false (err.message text))
  | .firstWriteFailed err =>
    some (openResultFrame false s!"failed to write first payload: {err}")
  | .idle => some (serverReset "idle timeout")
  | .clientClosed => none
  | .streamError status => some (serverReset status)
  | .targetWriteFailed err => some (serverReset s!"target write failed: {err}")
  | .clientReset => none
  | .unexpectedOpen => some (serverReset "unexpected Open after tunnel established")
  | .emptyFrame => some (serverReset "empty client frame")

/-- Where `tunnel` and `handle_tunnel` are. -/
inductive ServerPc where
  /-- The request has not arrived. -/
  | idle
  /-- `authenticate` answered with an error. -/
  | rejected (err : AuthError)
  /-- At `inbound.next().await`, waiting for `Open`. -/
  | waitOpen
  /-- At `policy.resolve_target(..).await`. -/
  | resolving (target : Open)
  /-- In the loop of `connect_any`, with these addresses left. -/
  | connecting (target : Open) (rest : List SocketAddr) (lastErr : Option String)
  /-- At `target.write_all(&open.first_payload).await`, with this much left. -/
  | writingFirst (rest : Bytes)
  /-- At `send_open_result(&tx, true, "").await`. -/
  | openOk
  /-- At `inbound.next().await` in the relay loop. -/
  | relaying
  /-- At `target_writer.write_all(&data).await`, with this much left. -/
  | writing (rest : Bytes)
  /-- At `target_writer.shutdown().await`; then out, or on with the loop. -/
  | shutting (next : Option ServerExit)
  /-- At the send of a `Pong`. -/
  | pong (unixMillis : Int)
  /-- At the send of the last frame. -/
  | closing (why : ServerExit)
  /-- Returned. -/
  | returned (why : ServerExit)
  deriving DecidableEq

/-! ## State and labels -/

/-- What one `TcpStream::connect` under the connect timeout comes back with;
    the peer is unknown when `peer_addr` fails. -/
inductive DialOutcome where
  | connected (peer : Option SocketAddr)
  | failed (err : String)
  | timedOut
  deriving DecidableEq

/-- A call of the resolver (`to_socket_addrs`) and its answer. -/
structure Lookup where
  host : Text
  port : UInt16
  answer : Except String (List SocketAddr)

/-- The target connection of a tunnel. -/
structure Target where
  addr : SocketAddr
  peer : Option SocketAddr
  /-- The bytes written to it. -/
  written : Bytes
  /-- Its write side was shut down. -/
  shut : Bool
  deriving DecidableEq

/-- What a server is set up with. -/
structure ServerConfig where
  auth : TokenAuth
  /-- `MetadataValue::to_str`. -/
  toStr : Bytes → Option Text
  policy : Policy
  text : IpText

/-- The frames of `target_to_grpc`. -/
def serverKit : FrameKit ServerFrame where
  data := serverData
  halfClose := serverHalfClose
  reset := fun err => serverReset s!"target read failed: {err}"
  bytes := ServerFrame.bytes
  bytes_data := fun _ => rfl
  bytes_halfClose := rfl
  bytes_reset := fun _ => rfl
  halfClose_ne_data := fun _ h => by cases h
  halfClose_ne_reset := fun _ h => by cases h
  reset_ne_data := fun _ _ h => by cases h

/-- The server side of a tunnel. -/
structure ServerState where
  main : ServerPc
  /-- `target_to_grpc`. -/
  task : ReadTask ServerFrame
  target : Option Target
  /-- History: the calls of the resolver. -/
  lookups : List Lookup
  /-- History: the addresses `resolve_target` returned. -/
  resolved : Option (List SocketAddr)
  /-- History: the connect attempts, in order, with their outcomes. -/
  dials : List (SocketAddr × DialOutcome)
  /-- History: the frames taken from the gRPC stream. -/
  received : List ClientFrame
  /-- History: the frames the outbound queue accepted. -/
  sent : List ServerFrame

/-- What can happen to the server side of a tunnel. -/
inductive ServerLabel where
  /-- The request arrives and its metadata is checked. -/
  | authenticate
  /-- `inbound` yields an item. -/
  | recv (item : StreamItem ClientFrame)
  /-- The idle timeout strikes. -/
  | idleTimeout
  /-- `resolve_target` comes back, the resolver having answered this if it
      was asked. -/
  | resolve (answer : Except String (List SocketAddr))
  | dial (outcome : DialOutcome)
  /-- `connect_any` has run out of addresses. -/
  | exhausted
  /-- A write to the target takes `n` bytes. -/
  | targetWrite (n : Nat)
  | targetWriteDone
  | targetWriteErr (err : String)
  /-- `shutdown` comes back; its result is not looked at. -/
  | shutdownDone
  /-- The outbound queue accepts the main loop's frame. -/
  | send (frame : ServerFrame)
  /-- The outbound queue is closed: the frame is dropped. -/
  | sendFail
  /-- A step of `target_to_grpc`. -/
  | task (l : TaskLabel ServerFrame)

/-- The frames a step hands to the outbound queue. -/
def ServerLabel.frames : ServerLabel → List ServerFrame
  | .send frame => [frame]
  | .task l => l.frames
  | _ => []

/-- The item a step takes from the gRPC stream, if it takes one. -/
def ServerLabel.item : ServerLabel → Option (StreamItem ClientFrame)
  | .recv item => some item
  | _ => none

/-- `SocketAddr`'s `Display`. -/
def displaySocketAddr (text : IpText) (addr : SocketAddr) : String :=
  match addr.ip with
  | .v4 _ => s!"{String.ofList (text.display addr.ip)}:{addr.port.toNat}"
  | .v6 _ => s!"[{String.ofList (text.display addr.ip)}]:{addr.port.toNat}"

/-- `server_frame::Payload::Pong`. -/
def pongFrame (unixMillis : Int) : ServerFrame := ⟨some (.pong unixMillis)⟩

namespace ServerState

/-- Before the request arrives; the target will deliver `targetInput`. -/
def fresh (targetInput : Bytes) : ServerState where
  main := .idle
  task := .fresh targetInput
  target := none
  lookups := []
  resolved := none
  dials := []
  received := []
  sent := []

/-! ## Steps -/

/-- The end of the function: `target_to_grpc.abort(); Ok(())`.  Before the
    relay loop there is no task to abort. -/
def finish (s : ServerState) (why : ServerExit) : ServerState :=
  { s with main := .returned why, task := s.task.abort }

/-- On the way out: the last frame is sent if there is one. -/
def leave (text : IpText) (s : ServerState) (why : ServerExit) : ServerState :=
  match why.frame text with
  | some _ => { s with main := .closing why }
  | none => s.finish why

/-- The match on the first item. -/
def onFirst (text : IpText) (s : ServerState) : StreamItem ClientFrame → ServerState
  | none => s.leave text .closedBeforeOpen
  | some (.error status) => s.leave text (.openStreamError status)
  | some (.ok frame) =>
    match frame.payload with
    | some (.openTarget target) => { s with main := .resolving target }
    | _ => s.leave text .notOpen

/-- One turn of the relay loop. -/
def onNext (text : IpText) (s : ServerState) : StreamItem ClientFrame → ServerState
  -- the write side of the target is shut down first, and only then a reset is sent
  | none => { s with main := .shutting (some .clientClosed) }
  | some (.error status) => { s with main := .shutting (some (.streamError status)) }
  | some (.ok frame) =>
    match frame.payload with
    | some (.data bytes) => { s with main := .writing bytes }
    -- the loop goes on: the target may still answer
    | some .halfClose => { s with main := .shutting none }
    | some (.reset _) => { s with main := .shutting (some .clientReset) }
    | some (.ping unixMillis) => { s with main := .pong unixMillis }
    -- these two ways out do not shut the target down
    | some (.openTarget _) => s.leave text .unexpectedOpen
    | none => s.leave text .emptyFrame

/-- The resolver call `resolve_target` makes, if it gets that far. -/
def resolverCall (config : ServerConfig) (target : Open)
    (answer : Except String (List SocketAddr)) : List Lookup :=
  match config.policy.lookup config.text target.targetHost target.targetPort with
  | some (host, port) => [⟨host, port, answer⟩]
  | none => []

/-- The rest of `resolve_target` and the match on it. -/
def onResolve (config : ServerConfig) (s : ServerState) (target : Open)
    (answer : Except String (List SocketAddr)) : ServerState :=
  match config.policy.resolveTarget config.text (fun _ _ => answer) target.targetHost
      target.targetPort with
  | .ok addrs =>
    { s with
      main := .connecting target addrs none
      lookups := s.lookups ++ resolverCall config target answer
      resolved := some addrs }
  -- the error text travels in an `OpenResult`, not in a reset
  | .error err =>
    leave config.text { s with lookups := s.lookups ++ resolverCall config target answer }
      (.refused err)

/-- Notes a connect attempt in the history. -/
def dialed (s : ServerState) (addr : SocketAddr) (outcome : DialOutcome) : ServerState :=
  { s with dials := s.dials ++ [(addr, outcome)] }

/-- The check after a connect: there is nothing to check without a peer. -/
def checkPeer (config : ServerConfig) : Option SocketAddr → Except PolicyError Unit
  | some peer => config.policy.checkConnectedAddr peer
  | none => .ok ()

/-- One turn of the loop of `connect_any`. -/
def onDial (config : ServerConfig) (s : ServerState) (target : Open) (addr : SocketAddr)
    (rest : List SocketAddr) : DialOutcome → ServerState
  -- `peer_addr` may fail, and then the peer is not checked
  | .connected peer =>
    match checkPeer config peer with
    | .ok () =>
      { s.dialed addr (.connected peer) with
        main := .writingFirst target.firstPayload
        target := some ⟨addr, peer, [], false⟩ }
    -- `?`: the other addresses are not tried
    | .error err => (s.dialed addr (.connected peer)).leave config.text (.refused err)
  | .failed err =>
    { s.dialed addr (.failed err) with main := .connecting target rest (some err) }
  | .timedOut =>
    { s.dialed addr .timedOut with
      main := .connecting target rest
        (some s!"connect to {displaySocketAddr config.text addr} timed out") }

/-- The frame the main loop is about to send. -/
def outgoing (text : IpText) (s : ServerState) : Option ServerFrame :=
  match s.main with
  | .openOk => some (openResultFrame true "")
  | .pong unixMillis => some (pongFrame unixMillis)
  -- the reset, or the `OpenResult` with an error, of this way out
  | .closing why => why.frame text
  | _ => none

/-- The main loop goes on after a send, which is the same whether the queue
    took the frame or not. -/
def afterSend (s : ServerState) : ServerState :=
  match s.main with
  -- the task starts after the `OpenResult` is in the queue
  | .openOk => { s with main := .relaying, task := s.task.spawn }
  | .pong _ => { s with main := .relaying }
  | .closing why => s.finish why
  | _ => s

/-- Notes an item in the history. -/
def note (s : ServerState) (item : StreamItem ClientFrame) : ServerState :=
  { s with received := s.received ++ item.frames }

/-- A write of `n` bytes of `rest` to the target. -/
def write (s : ServerState) (rest : Bytes) (n : Nat) : ServerState :=
  { s with target := s.target.map fun t => { t with written := t.written ++ rest.take n } }

/-- The write side of the target is shut down. -/
def shutTarget (s : ServerState) : ServerState :=
  { s with target := s.target.map fun t => { t with shut := true } }

/-- One step of the server side of a tunnel. -/
def step (config : ServerConfig) (metadata : MetadataMap) (s : ServerState) :
    ServerLabel → Option ServerState
  | .authenticate =>
    if s.main = .idle then
      match config.auth.authenticate config.toStr metadata with
      | .ok _ => some { s with main := .waitOpen }
      | .error err => some { s with main := .rejected err }
    else none
  | .recv item =>
    match s.main with
    | .waitOpen => some ((s.note item).onFirst config.text item)
    | .relaying => some ((s.note item).onNext config.text item)
    | _ => none
  | .idleTimeout =>
    match s.main with
    | .waitOpen => some (s.leave config.text .openTimeout)
    | .relaying => some (s.leave config.text .idle)
    | _ => none
  | .resolve answer =>
    match s.main with
    | .resolving target => some (s.onResolve config target answer)
    | _ => none
  | .dial outcome =>
    match s.main with
    | .connecting target (addr :: rest) _ => some (s.onDial config target addr rest outcome)
    | _ => none
  -- the list is empty, or every address in it has failed
  | .exhausted =>
    match s.main with
    | .connecting _ [] lastErr =>
      some (s.leave config.text
        (.refused (.resolve (lastErr.getD "all target addresses failed"))))
    | _ => none
  | .targetWrite n =>
    match s.main with
    | .writingFirst rest =>
      if 0 < n ∧ n ≤ rest.length then
        some { s.write rest n with main := .writingFirst (rest.drop n) }
      else none
    -- `write_all`, which goes on until nothing is left
    | .writing rest =>
      if 0 < n ∧ n ≤ rest.length then
        some { s.write rest n with main := .writing (rest.drop n) }
      else none
    | _ => none
  | .targetWriteDone =>
    match s.main with
    | .writingFirst [] => some { s with main := .openOk }
    | .writing [] => some { s with main := .relaying }
    | _ => none
  | .targetWriteErr err =>
    match s.main with
    | .writingFirst (_ :: _) => some (s.leave config.text (.firstWriteFailed err))
    | .writing (_ :: _) => some (s.leave config.text (.targetWriteFailed err))
    | _ => none
  -- also when it fails: the result is dropped
  | .shutdownDone =>
    match s.main with
    | .shutting next =>
      let s : ServerState := { s with target := s.target.map fun t => { t with shut := true } }
      match next with
      | none => some { s with main := .relaying }
      | some why => some (s.leave config.text why)
    | _ => none
  | .send frame =>
    if s.outgoing config.text = some frame then
      some (afterSend { s with sent := s.sent ++ [frame] })
    else none
  | .sendFail =>
    if (s.outgoing config.text).isSome then some s.afterSend else none
  | .task l =>
    (s.task.step serverKit l).map fun t => { s with task := t, sent := s.sent ++ l.frames }

/-- The server side of a tunnel on its own: the client is free. -/
def system (config : ServerConfig) (metadata : MetadataMap) (targetInput : Bytes) :
    Lts.System ServerState ServerLabel where
  init := fun s => s = fresh targetInput
  step := step config metadata

/-! ## The rules of the loop -/

/-- What a step needs, and what it leaves: one rule a branch of `step`. -/
inductive Step (config : ServerConfig) (metadata : MetadataMap) (s : ServerState) :
    ServerLabel → ServerState → Prop where
  | authenticated {token : Text} (hmain : s.main = .idle)
      (hauth : config.auth.authenticate config.toStr metadata = .ok token) :
      Step config metadata s .authenticate { s with main := .waitOpen }
  | rejected {err : AuthError} (hmain : s.main = .idle)
      (hauth : config.auth.authenticate config.toStr metadata = .error err) :
      Step config metadata s .authenticate { s with main := .rejected err }
  | recvFirst {item : StreamItem ClientFrame} (hmain : s.main = .waitOpen) :
      Step config metadata s (.recv item) ((s.note item).onFirst config.text item)
  | recvNext {item : StreamItem ClientFrame} (hmain : s.main = .relaying) :
      Step config metadata s (.recv item) ((s.note item).onNext config.text item)
  | openTimeout (hmain : s.main = .waitOpen) :
      Step config metadata s .idleTimeout (s.leave config.text .openTimeout)
  | idleTimeout (hmain : s.main = .relaying) :
      Step config metadata s .idleTimeout (s.leave config.text .idle)
  | resolve {target : Open} {answer : Except String (List SocketAddr)}
      (hmain : s.main = .resolving target) :
      Step config metadata s (.resolve answer) (s.onResolve config target answer)
  | dial {target : Open} {addr : SocketAddr} {rest : List SocketAddr} {lastErr : Option String}
      {outcome : DialOutcome} (hmain : s.main = .connecting target (addr :: rest) lastErr) :
      Step config metadata s (.dial outcome) (s.onDial config target addr rest outcome)
  | exhausted {target : Open} {lastErr : Option String}
      (hmain : s.main = .connecting target [] lastErr) :
      Step config metadata s .exhausted
        (s.leave config.text (.refused (.resolve (lastErr.getD "all target addresses failed"))))
  | firstWrite {rest : Bytes} {n : Nat} (hmain : s.main = .writingFirst rest) (hpos : 0 < n)
      (hfits : n ≤ rest.length) :
      Step config metadata s (.targetWrite n)
        { s.write rest n with main := .writingFirst (rest.drop n) }
  | write {rest : Bytes} {n : Nat} (hmain : s.main = .writing rest) (hpos : 0 < n)
      (hfits : n ≤ rest.length) :
      Step config metadata s (.targetWrite n) { s.write rest n with main := .writing (rest.drop n) }
  | firstWriteDone (hmain : s.main = .writingFirst []) :
      Step config metadata s .targetWriteDone { s with main := .openOk }
  | writeDone (hmain : s.main = .writing []) :
      Step config metadata s .targetWriteDone { s with main := .relaying }
  | firstWriteErr {b : UInt8} {rest : Bytes} {err : String}
      (hmain : s.main = .writingFirst (b :: rest)) :
      Step config metadata s (.targetWriteErr err) (s.leave config.text (.firstWriteFailed err))
  | writeErr {b : UInt8} {rest : Bytes} {err : String} (hmain : s.main = .writing (b :: rest)) :
      Step config metadata s (.targetWriteErr err) (s.leave config.text (.targetWriteFailed err))
  | shutdown (hmain : s.main = .shutting none) :
      Step config metadata s .shutdownDone { s.shutTarget with main := .relaying }
  | shutdownOut {why : ServerExit} (hmain : s.main = .shutting (some why)) :
      Step config metadata s .shutdownDone (s.shutTarget.leave config.text why)
  | send {frame : ServerFrame} (hout : s.outgoing config.text = some frame) :
      Step config metadata s (.send frame) (afterSend { s with sent := s.sent ++ [frame] })
  | sendFail (hout : (s.outgoing config.text).isSome) :
      Step config metadata s .sendFail s.afterSend
  | task {l : TaskLabel ServerFrame} {t : ReadTask ServerFrame}
      (ht : s.task.step serverKit l = some t) :
      Step config metadata s (.task l) { s with task := t, sent := s.sent ++ l.frames }

/-- **`step` follows the rules, and nothing else.** -/
theorem step_iff {config : ServerConfig} {metadata : MetadataMap} {s s' : ServerState}
    {l : ServerLabel} : s.step config metadata l = some s' ↔ Step config metadata s l s' := by
  constructor
  · intro hs
    cases l with
    | authenticate =>
      simp only [step, Option.ite_none_right_eq_some] at hs
      obtain ⟨hmain, hs⟩ := hs
      split at hs
      · next hauth => exact Option.some.inj hs ▸ .authenticated hmain hauth
      · next hauth => exact Option.some.inj hs ▸ .rejected hmain hauth
    | recv item =>
      simp only [step] at hs
      split at hs
      · next hmain => exact Option.some.inj hs ▸ .recvFirst hmain
      · next hmain => exact Option.some.inj hs ▸ .recvNext hmain
      · cases hs
    | idleTimeout =>
      simp only [step] at hs
      split at hs
      · next hmain => exact Option.some.inj hs ▸ .openTimeout hmain
      · next hmain => exact Option.some.inj hs ▸ .idleTimeout hmain
      · cases hs
    | resolve answer =>
      simp only [step] at hs
      split at hs
      · next hmain => exact Option.some.inj hs ▸ .resolve hmain
      · cases hs
    | dial outcome =>
      simp only [step] at hs
      split at hs
      · next hmain => exact Option.some.inj hs ▸ .dial hmain
      · cases hs
    | exhausted =>
      simp only [step] at hs
      split at hs
      · next hmain => exact Option.some.inj hs ▸ .exhausted hmain
      · cases hs
    -- the two writes differ in where the loop goes on
    | targetWrite n =>
      simp only [step] at hs
      split at hs
      · next hmain =>
        simp only [Option.ite_none_right_eq_some, Option.some.injEq] at hs
        obtain ⟨⟨hpos, hfits⟩, rfl⟩ := hs
        exact .firstWrite hmain hpos hfits
      · next hmain =>
        simp only [Option.ite_none_right_eq_some, Option.some.injEq] at hs
        obtain ⟨⟨hpos, hfits⟩, rfl⟩ := hs
        exact .write hmain hpos hfits
      · cases hs
    | targetWriteDone =>
      simp only [step] at hs
      split at hs
      · next hmain => exact Option.some.inj hs ▸ .firstWriteDone hmain
      · next hmain => exact Option.some.inj hs ▸ .writeDone hmain
      · cases hs
    | targetWriteErr err =>
      simp only [step] at hs
      split at hs
      · next hmain => exact Option.some.inj hs ▸ .firstWriteErr hmain
      · next hmain => exact Option.some.inj hs ▸ .writeErr hmain
      · cases hs
    | shutdownDone =>
      simp only [step] at hs
      split at hs
      · next next hmain =>
        -- a half-close goes back to the loop, the others leave it
        cases next with
        | none => exact Option.some.inj hs ▸ .shutdown hmain
        | some why => exact Option.some.inj hs ▸ .shutdownOut hmain
      · cases hs
    | send frame =>
      simp only [step, Option.ite_none_right_eq_some, Option.some.injEq] at hs
      obtain ⟨hout, rfl⟩ := hs
      exact .send hout
    | sendFail =>
      simp only [step, Option.ite_none_right_eq_some, Option.some.injEq] at hs
      obtain ⟨hout, rfl⟩ := hs
      exact .sendFail hout
    | task l =>
      simp only [step, Option.map_eq_some_iff] at hs
      obtain ⟨t, ht, rfl⟩ := hs
      exact .task ht
  · intro h
    cases h with
    | authenticated hmain hauth | rejected hmain hauth => simp [step, hmain, hauth]
    | firstWrite hmain hpos hfits | write hmain hpos hfits => simp [step, hmain, hpos, hfits]
    | shutdown hmain | shutdownOut hmain => simp [step, hmain, shutTarget]
    | send hout | sendFail hout => simp [step, hout]
    | task ht => simp [step, ht]
    | _ hmain => simp [step, hmain]

end ServerState

/-! ## A server to run -/

/-- A server with one token and the deny test on. -/
def exampleServer : ServerConfig where
  auth := ⟨["token".toList], by decide⟩
  toStr := fun bytes => if bytes = Text.asBytes "Bearer token".toList
    then some "Bearer token".toList else none
  policy := ⟨8000, true, some [443]⟩
  text := .std

/-- A request with its token. -/
def exampleRequest : MetadataMap := ⟨some (Text.asBytes "Bearer token".toList)⟩

end EchProxy
