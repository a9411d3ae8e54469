import EchProxy.Framework.Reader
import EchProxy.Ingress.Outbound

/-! # The SOCKS5 Handshake (`client/src/ingress_socks5.rs`)

    The three messages a SOCKS5 client sends before its data: the methods it
    offers, its credentials, and the request to connect.  Each function reads
    its message off the client's stream and answers it.
-/

namespace EchProxy

namespace Socks

open Checked Traced

variable {Pool : Type}

/-- `SOCKS_VERSION`. -/
def socksVersion : UInt8 := 0x05

/-- `AUTH_NO_AUTH`. -/
def authNoAuth : UInt8 := 0x00

/-- `AUTH_USER_PASS`. -/
def authUserPass : UInt8 := 0x02

/-- `NO_ACCEPTABLE_METHODS`. -/
def noAcceptableMethods : UInt8 := 0xff

/-- `Socks5Options`. -/
structure Socks5Options where
  allowNoAuth : Bool
  defaultUser : Option Text
  deriving DecidableEq

/-- A function that reads the client's stream. -/
abbrev Step (Pool α : Type) := Reader Fault (IngressEvent Pool) UInt8 α

/-! ## Reading and answering -/

/-- The error of a read behind the last byte. -/
def readFault (client : ClientStream) : Fault := .error (client.readError.getD "early eof")

/-- `stream.read_u8().await?`. -/
def readU8 (client : ClientStream) : Step Pool UInt8 := Reader.item (readFault client)

/-- `stream.read_exact(..).await?` into a buffer of `n` bytes. -/
def readExact (client : ClientStream) (n : Nat) : Step Pool Bytes :=
  Reader.exactly (readFault client) n

/-- `stream.read_u16().await?`. -/
def readU16 (client : ClientStream) : Step Pool UInt16 := do
  let bytes ← readExact client 2
  return UInt16.ofNat (Digits.ofBytes bytes)

/-- The bytes of a reply. -/
def replyBytes (reply : UInt8) : Bytes := [socksVersion, reply, 0x00, 0x01, 0, 0, 0, 0, 0, 0]

/-- `send_reply`; it only warns of an error. -/
def sendReply (client : ClientStream) (reply : UInt8) : Ingress Pool Unit := do
  let _ ← observe (writeAll client (replyBytes reply))
  return ()

/-- `stream.write_all(..).await?`, between reads. -/
def answer (client : ClientStream) (bytes : Bytes) : Step Pool Unit :=
  liftM (writeAll client bytes : Ingress Pool Unit)

/-! ## The messages -/

def negotiateAuth (client : ClientStream) (options : Socks5Options) : Step Pool UInt8 := do
  let version ← readU8 client
  if version ≠ socksVersion then bail s!"unsupported SOCKS version {version}"
  else do
    let methodsLen ← readU8 client
    let methods ← readExact client methodsLen.toNat
    if options.allowNoAuth = true ∧ authNoAuth ∈ methods then do
      answer client [socksVersion, authNoAuth]
      return authNoAuth
    else if authUserPass ∈ methods then do
      answer client [socksVersion, authUserPass]
      return authUserPass
    else do
      answer client [socksVersion, noAcceptableMethods]
      bail "client did not offer an acceptable auth method"

def readSocksString (client : ClientStream) : Step Pool Text := do
  let len ← readU8 client
  let buf ← readExact client len.toNat
  context "SOCKS auth field is not UTF-8" (Text.fromUtf8 buf)

/-- The user of a connection without credentials. -/
def noAuthUser (auth : AuthStore) (options : Socks5Options) : Eval UserProfile := do
  let username ← context "socks5_default_user is required when no-auth is selected"
    options.defaultUser
  context s!"socks5_default_user {String.ofList username} not found" (auth.user username)

/-- The end of `authenticate`: the credentials are checked and answered. -/
def checkCredentials (client : ClientStream) (auth : AuthStore) (username password : Text) :
    Ingress Pool UserProfile :=
  match auth.authenticate username password with
  | some user => do
    writeAll client [0x01, 0x00]
    return user
  | none => do
    writeAll client [0x01, 0x01]
    bail s!"invalid SOCKS credentials for {String.ofList username}"

def authenticate (client : ClientStream) (auth : AuthStore) (method : UInt8)
    (options : Socks5Options) : Step Pool UserProfile :=
  if method = authNoAuth then liftM (noAuthUser auth options)
  else do
    let authVersion ← readU8 client
    if authVersion ≠ 0x01 then do
      answer client [0x01, 0x01]
      bail s!"unsupported SOCKS auth version {authVersion}"
    else do
      let username ← readSocksString client
      let password ← readSocksString client
      (checkCredentials client auth username password : Ingress Pool UserProfile)

/-- The host of a request, by its address type. -/
def readHost (client : ClientStream) (atyp : UInt8) : Step Pool Text :=
  if atyp = 0x01 then do
    let buf ← readExact client 4
    return IpText.std.display (.v4 (.ofOctets buf))
  else if atyp = 0x03 then do
    let len ← readU8 client
    let buf ← readExact client len.toNat
    context "SOCKS domain is not UTF-8" (Text.fromUtf8 buf)
  else if atyp = 0x04 then do
    let buf ← readExact client 16
    return IpText.std.display (.v6 (.ofOctets buf))
  else do
    (sendReply client 0x08 : Ingress Pool Unit)
    bail s!"unsupported SOCKS address type {atyp}"

def readConnectRequest (client : ClientStream) : Step Pool (Text × UInt16) := do
  let version ← readU8 client
  let command ← readU8 client
  let reserved ← readU8 client
  let atyp ← readU8 client
  if version ≠ socksVersion ∨ reserved ≠ 0 then bail "invalid SOCKS request header"
  else if command ≠ 0x01 then do
    (sendReply client 0x07 : Ingress Pool Unit)
    bail s!"unsupported SOCKS command {command}"
  else do
    let host ← readHost client atyp
    let port ← readU16 client
    if port = 0 then do
      (sendReply client 0x04 : Ingress Pool Unit)
      bail "SOCKS port must not be 0"
    else return (host, port)

/-- The three calls at the start of `handle`. -/
def accept (client : ClientStream) (auth : AuthStore) (options : Socks5Options) :
    Step Pool (UserProfile × Text × UInt16) := do
  let method ← negotiateAuth client options
  let user ← authenticate client auth method options
  let (host, port) ← readConnectRequest client
  return (user, host, port)

end Socks

end EchProxy
