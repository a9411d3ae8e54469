import EchProxy.Framework.Protobuf
import EchProxy.Tunnel.Frame

/-! # Frames on the Wire

    The protobuf encoding of `tunnel.proto`, and the limit the client sets on
    the size of a message (`max_encoding_message_size` and
    `max_decoding_message_size` in `client/src/tunnel.rs`).
-/

namespace EchProxy

open Protobuf

/-- `MAX_MESSAGE_SIZE`. -/
def maxMessageSize : Nat := dataChunkSize * 2

/-! ## Messages -/

/-- The bytes of a `string`. -/
def stringBytes (s : String) : Bytes := Text.asBytes s.toList

def Open.encode (target : Open) : Bytes :=
  bytesField 1 (Text.asBytes target.targetHost) ++ varintField 2 target.targetPort.toNat
    ++ bytesField 3 target.firstPayload

def OpenResult.encode (result : OpenResult) : Bytes :=
  varintField 1 result.ok.toNat ++ bytesField 2 (stringBytes result.error)

/-- `message Reset`. -/
def encodeReset (reason : String) : Bytes := bytesField 1 (stringBytes reason)

/-- `message Ping` and `message Pong`. -/
def encodePing (unixMillis : Int) : Bytes := int64Field 1 unixMillis

/-- The fields of a `oneof` are written whatever their value is. -/
def ClientPayload.encode : ClientPayload → Bytes
  | .openTarget target => lengthDelimited 2 target.encode
  | .data bytes => lengthDelimited 3 bytes
  | .halfClose => lengthDelimited 4 []
  | .reset reason => lengthDelimited 5 (encodeReset reason)
  | .ping unixMillis => lengthDelimited 6 (encodePing unixMillis)

def ClientFrame.encode (frame : ClientFrame) : Bytes := frame.payload.elim [] ClientPayload.encode

def ServerPayload.encode : ServerPayload → Bytes
  | .openResult result => lengthDelimited 2 result.encode
  | .data bytes => lengthDelimited 3 bytes
  | .halfClose => lengthDelimited 4 []
  | .reset reason => lengthDelimited 5 (encodeReset reason)
  | .pong unixMillis => lengthDelimited 6 (encodePing unixMillis)

def ServerFrame.encode (frame : ServerFrame) : Bytes := frame.payload.elim [] ServerPayload.encode

/-- The frame is not refused for its size. -/
def ClientFrame.Fits (frame : ClientFrame) : Prop := frame.encode.length ≤ maxMessageSize

def ServerFrame.Fits (frame : ServerFrame) : Prop := frame.encode.length ≤ maxMessageSize

/-! ## Sizes -/

/-- **The size of an `Open`** is that of its host, its port and its payload, and
    twelve bytes. -/
theorem openFrame_fits {target : Open}
    (h : Text.len target.targetHost + (1 + (varint target.targetPort.toNat).length)
      + target.firstPayload.length + 12 ≤ maxMessageSize) : (openFrame target).Fits := by
  have hmax : maxMessageSize = 131072 := rfl
  have hpow : 128 ^ 3 = 2097152 := rfl
  have hlen : (Text.asBytes target.targetHost).length = Text.len target.targetHost := rfl
  have hhost := length_bytesField_le (show 1 < 16 by omega) (show 0 < 3 by omega)
    (show (Text.asBytes target.targetHost).length < 128 ^ 3 by omega)
  have hport := length_varintField_le (show 2 < 16 by omega) target.targetPort.toNat
  have hpayload := length_bytesField_le (show 3 < 16 by omega) (show 0 < 3 by omega)
    (show target.firstPayload.length < 128 ^ 3 by omega)
  have hopen : target.encode.length ≤ Text.len target.targetHost +
      (1 + (varint target.targetPort.toNat).length) + target.firstPayload.length + 8 := by
    rw [Open.encode, List.length_append, List.length_append]
    omega
  have hframe := length_lengthDelimited_le (show 2 < 16 by omega) (show 0 < 3 by omega)
    (show target.encode.length < 128 ^ 3 by omega)
  show (lengthDelimited 2 target.encode).length ≤ maxMessageSize
  omega

example : (openFrame ⟨"a.example".toList, 80, []⟩).encode =
    [0x12, 13, 0x0a, 9] ++ Text.asBytes "a.example".toList ++ [0x10, 80] := by decide

/-- What is read at once fits into a frame. -/
theorem dataFrame_fits {bytes : Bytes} (h : bytes.length ≤ dataChunkSize) :
    (dataFrame bytes).Fits ∧ (serverData bytes).Fits := by
  have hchunk : dataChunkSize = 65536 := rfl
  have hmax : maxMessageSize = 131072 := rfl
  have hpow : 128 ^ 3 = 2097152 := rfl
  have hframe := length_lengthDelimited_le (show 3 < 16 by omega) (show 0 < 3 by omega)
    (show bytes.length < 128 ^ 3 by omega)
  have hfits : (lengthDelimited 3 bytes).length ≤ maxMessageSize := by omega
  exact ⟨hfits, hfits⟩

end EchProxy
