import EchProxy.Base

/-! # Tunnel Frames (`proto/tunnel/v1/tunnel.proto`)

    One gRPC stream carries one TCP connection.  Each message has a single
    `oneof payload` field, which a peer may leave unset.
-/

namespace EchProxy

/-- Size of the read buffer of both relays. -/
def dataChunkSize : Nat := 64 * 1024

/-- Capacity of the outbound `mpsc` queue of both relays. -/
def outboundQueue : Nat := 64

/-- `message Open`. -/
structure Open where
  targetHost : Text
  targetPort : UInt32
  firstPayload : Bytes
  deriving DecidableEq

/-- `message OpenResult`. -/
structure OpenResult where
  ok : Bool
  error : String
  deriving DecidableEq

/-- `client_frame::Payload`. -/
inductive ClientPayload where
  | openTarget (target : Open)
  | data (bytes : Bytes)
  | halfClose
  | reset (reason : String)
  | ping (unixMillis : Int)
  deriving DecidableEq

/-- `message ClientFrame`. -/
structure ClientFrame where
  payload : Option ClientPayload
  deriving DecidableEq

/-- `server_frame::Payload`. -/
inductive ServerPayload where
  | openResult (result : OpenResult)
  | data (bytes : Bytes)
  | halfClose
  | reset (reason : String)
  | pong (unixMillis : Int)
  deriving DecidableEq

/-- `message ServerFrame`. -/
structure ServerFrame where
  payload : Option ServerPayload
  deriving DecidableEq

/-- What `inbound.next()` yields: nothing at the end of the stream, else a
    frame or a gRPC status. -/
abbrev StreamItem (F : Type) := Option (Except String F)

/-- The frames of an item, for the history of a receiver. -/
def StreamItem.frames {F : Type} : StreamItem F → List F
  | some (.ok frame) => [frame]
  | _ => []

/-! ## Connection data in frames -/

/-- The connection bytes a client frame carries: `Open` carries the first
    ones. -/
def ClientFrame.bytes (frame : ClientFrame) : Bytes :=
  match frame.payload with
  | some (.openTarget target) => target.firstPayload
  | some (.data bytes) => bytes
  | _ => []

/-- The connection bytes a server frame carries. -/
def ServerFrame.bytes (frame : ServerFrame) : Bytes :=
  match frame.payload with
  | some (.data bytes) => bytes
  | _ => []

/-- A frame of the target's byte stream: `Data` or `HalfClose`. -/
def ServerFrame.isStream (frame : ServerFrame) : Bool :=
  match frame.payload with
  | some (.data _) | some .halfClose => true
  | _ => false

/-- `open_frame`. -/
def openFrame (target : Open) : ClientFrame := ⟨some (.openTarget target)⟩

/-- `data_frame`. -/
def dataFrame (bytes : Bytes) : ClientFrame := ⟨some (.data bytes)⟩

/-- `half_close_frame`. -/
def halfCloseFrame : ClientFrame := ⟨some .halfClose⟩

/-- `reset_frame`. -/
def resetFrame (reason : String) : ClientFrame := ⟨some (.reset reason)⟩

/-- `server_data`. -/
def serverData (bytes : Bytes) : ServerFrame := ⟨some (.data bytes)⟩

/-- `server_half_close`. -/
def serverHalfClose : ServerFrame := ⟨some .halfClose⟩

/-- `server_reset`. -/
def serverReset (reason : String) : ServerFrame := ⟨some (.reset reason)⟩

/-- The frame `send_open_result` sends. -/
def openResultFrame (ok : Bool) (error : String) : ServerFrame :=
  ⟨some (.openResult ⟨ok, error⟩)⟩

end EchProxy
