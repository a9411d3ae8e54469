import EchProxy.Http.Request

/-! # An HTTP Connection (`handle` in `client/src/ingress_http.rs`)

    The head of the request and its credentials, then one of two branches:
    `CONNECT`, or a request in absolute form, which is rewritten and becomes
    the first payload of the relay.
-/

namespace EchProxy

namespace Http

open Checked Traced

variable {Pool : Type}

/-- What an ingress is handled with, apart from the client. -/
structure Setup (Pool : Type) where
  auth : AuthStore
  /-- `general_purpose::STANDARD.decode`. -/
  base64 : Text → Option Bytes
  router : Router Pool
  network : Network Pool

/-- The text `write_response` writes. -/
def responseText (status : Text) (authRequired : Bool) : Text :=
  "HTTP/1.1 ".toList ++ status ++ "\r\n".toList
    ++ (if authRequired then "Proxy-Authenticate: Basic realm=\"ech-grpc\"\r\n".toList else [])
    ++ "Content-Length: 0\r\n\r\n".toList

def writeResponse (client : ClientStream) (status : Text) (authRequired : Bool) :
    Ingress Pool Unit :=
  writeAll client (responseText status authRequired).asBytes

/-- `handle` up to its branches: the user, the request, and the bytes behind its
    head. -/
def accept (setup : Setup Pool) (client : ClientStream) :
    Ingress Pool (UserProfile × RequestParts × Bytes) := do
  let (header, rest) ← readHeader client
  let request ← parseRequest header
  match authenticate setup.base64 request setup.auth with
  | .ok user => return (user, request, rest)
  | .error fault => do
    writeResponse client "407 Proxy Authentication Required".toList true
    Traced.lift (.error fault)

/-- Before the branches nothing but a refusal is written. -/
theorem accept_only (setup : Setup Pool) (client : ClientStream) :
    Only (accept setup client) fun e => e.isWrite = true := by
  refine Only.bind (Only.lift _) fun p _ => ?_
  refine Only.bind (Only.lift _) fun request _ => ?_
  cases authenticate setup.base64 request setup.auth with
  | ok user => exact Only.pure _
  | error fault =>
    refine Only.bind ((writeAll_only client _).mono fun _ he => he ▸ rfl) fun _ _ => ?_
    exact Only.lift _

/-- What it means to be let in. -/
theorem accept_eq_ok {setup : Setup Pool} {client : ClientStream} {user : UserProfile}
    {request : RequestParts} {rest : Bytes} :
    (accept setup client).result = .ok (user, request, rest) ↔
      ∃ head, readHeader client = .ok (head, rest) ∧ parseRequest head = .ok request ∧
        authenticate setup.base64 request setup.auth = .ok user := by
  rw [accept, result_bind, lift_result, Result.bind_eq_ok]
  constructor
  · intro ⟨⟨head, behind⟩, hhead, h⟩
    dsimp only at h
    rw [result_bind, lift_result, Result.bind_eq_ok] at h
    obtain ⟨parsed, hparsed, h⟩ := h
    cases hauth : authenticate setup.base64 parsed setup.auth with
    | error fault =>
      -- the refusal is written, and is returned as an error
      rw [hauth] at h
      dsimp only at h
      rw [result_bind, Result.bind_eq_ok] at h
      obtain ⟨_, -, hfault⟩ := h
      cases hfault
    | ok found =>
      rw [hauth] at h
      obtain ⟨rfl, hrest⟩ := Prod.mk.inj (Except.ok.inj h)
      obtain ⟨rfl, rfl⟩ := Prod.mk.inj hrest
      exact ⟨head, hhead, hparsed, hauth⟩
  · intro ⟨head, hhead, hparsed, hauth⟩
    refine ⟨(head, rest), hhead, ?_⟩
    dsimp only
    rw [hparsed, lift_ok_bind, hauth]
    rfl

/-- The end of both branches. -/
def startRelay (setup : Setup Pool) (relay : Relay Pool) : Ingress Pool (Relay Pool) := do
  establish setup.network relay
  emit .relaying
  return relay

/-- The branch of `handle` for `CONNECT`. -/
def handleConnect (setup : Setup Pool) (client : ClientStream) (user : UserProfile)
    (request : RequestParts) (rest : Bytes) : Ingress Pool (Relay Pool) := do
  let (host, port) ← parseAuthority request.target 443
  let decision ← decideRoute setup.router setup.network user host port
  writeResponse client "200 Connection Established".toList false
  startRelay setup ⟨decision, host, port, [], rest⟩

/-- The branch of `handle` for a request in absolute form. -/
def handleAbsolute (setup : Setup Pool) (user : UserProfile) (request : RequestParts)
    (rest : Bytes) : Ingress Pool (Relay Pool) := do
  let absolute ← parseAbsoluteUri request.target
  let port := absolute.port.getD (if absolute.scheme = "https".toList then 443 else 80)
  let firstPayload := Text.asBytes (rewriteAbsoluteRequest request absolute)
  let decision ← decideRoute setup.router setup.network user absolute.host port
  startRelay setup ⟨decision, absolute.host, port, firstPayload, rest⟩

def handle (setup : Setup Pool) (client : ClientStream) : Ingress Pool (Relay Pool) := do
  let (user, request, rest) ← accept setup client
  if Str.eqIgnoreAsciiCase request.method "CONNECT".toList then
    handleConnect setup client user request rest
  else handleAbsolute setup user request rest

/-! ## Credentials that can be read -/

/-- What is checked in the end. -/
theorem authenticate_eq {base64 : Text → Option Bytes} {request : RequestParts} {auth : AuthStore}
    {value encoded decoded username password : Text}
    (hvalue : findHeader proxyAuthorization request.headers = some value)
    (htrim : Str.trim value = "Basic ".toList ++ encoded)
    (hbase64 : base64 encoded = some (Text.asBytes decoded))
    (hsplit : Str.splitOnce [':'] decoded = some (username, password)) :
    authenticate base64 request auth =
      context s!"invalid HTTP proxy credentials for {String.ofList username}"
        (auth.authenticate username password) := by
  rw [authenticate, hvalue, context, Result.ok_bind]
  dsimp only
  rw [htrim, Str.stripPrefix_append, Option.some_or, context, Result.ok_bind, hbase64, context,
    Result.ok_bind, Text.fromUtf8_asBytes, context, Result.ok_bind, hsplit, context,
    Result.ok_bind]

/-! ## Alice's credentials -/

/-- Base64 as far as it is needed for Alice. -/
def exampleBase64 (encoded : Text) : Option Bytes :=
  if encoded = "YWxpY2U6c2VjcmV0".toList then some (Text.asBytes "alice:secret".toList) else none

def exampleAuth : AuthStore := ⟨[("alice".toList, Router.exampleUser)]⟩

/-- The header with them. -/
def exampleCredentials : Text × Text :=
  (proxyAuthorization, "Basic YWxpY2U6c2VjcmV0".toList)

theorem authenticate_example {request : RequestParts}
    (h : findHeader proxyAuthorization request.headers = some exampleCredentials.2) :
    authenticate exampleBase64 request exampleAuth = .ok Router.exampleUser := by
  have htrim : Str.trim exampleCredentials.2 = "Basic ".toList ++ "YWxpY2U6c2VjcmV0".toList := by
    decide
  have hbase64 : exampleBase64 "YWxpY2U6c2VjcmV0".toList =
      some (Text.asBytes "alice:secret".toList) := rfl
  have hsplit : Str.splitOnce [':'] "alice:secret".toList =
      some ("alice".toList, "secret".toList) := by decide
  rw [authenticate_eq h htrim hbase64 hsplit]
  rfl

end Http

end EchProxy
