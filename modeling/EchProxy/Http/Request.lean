import EchProxy.Framework.Lines
import EchProxy.Ingress.Outbound

/-! # HTTP Requests (`client/src/ingress_http.rs`)

    Reading a request head off the client's stream, parsing it, checking its
    credentials, and rewriting an absolute-form request for the origin server.
    Decoding base64 is a parameter.
-/

namespace EchProxy

namespace Http

open Checked

/-! ## The head -/

/-- `MAX_HEADER_SIZE`. -/
def maxHeaderSize : Nat := 64 * 1024

/-- `b"\r\n\r\n"`. -/
def endOfHead : Bytes := [0x0d, 0x0a, 0x0d, 0x0a]

/-- The loop of `read_header`, with `buf` read.  It reads one byte at a time, and
    returns the head with the bytes it has not read. -/
def readLoop (readError : Option String) : Bytes → Bytes → Eval (Bytes × Bytes)
  | buf, [] =>
    if buf.length < maxHeaderSize then
      match readError with
      | none => bail "client closed before HTTP headers completed"
      | some err => bail err
    else bail s!"HTTP headers exceed {maxHeaderSize} bytes"
  | buf, b :: rest =>
    if buf.length < maxHeaderSize then
      if endOfHead <:+ buf ++ [b] then return (buf ++ [b], rest)
      else readLoop readError (buf ++ [b]) rest
    else bail s!"HTTP headers exceed {maxHeaderSize} bytes"

def readHeader (client : ClientStream) : Eval (Bytes × Bytes) :=
  readLoop client.readError [] client.bytes

/-! ## Parsing -/

/-- `RequestParts`. -/
structure RequestParts where
  method : Text
  target : Text
  version : Text
  headers : List (Text × Text)
  deriving DecidableEq

/-- The words of the request line. -/
def parseRequestLine (line : Text) : Eval (Text × Text × Text) :=
  match Str.splitWhitespace line with
  | [] => bail "missing HTTP method"
  | [_] => bail "missing HTTP target"
  | [_, _] => bail "missing HTTP version"
  | method :: target :: version :: more =>
    if more ≠ [] ∨ Str.startsWith "HTTP/".toList version = false then
      bail "malformed HTTP request line"
    else return (method, target, version)

/-- One header line. -/
def parseHeader (line : Text) : Eval (Text × Text) :=
  match Str.splitOnce [':'] line with
  | none => bail "malformed HTTP header"
  | some (name, value) => return (Str.trim name, Str.trim value)

/-- The `for` loop over the header lines. -/
def parseHeaders : List Text → Eval (List (Text × Text))
  | [] => return []
  | line :: lines => do
    let header ← parseHeader line
    let headers ← parseHeaders lines
    return header :: headers

def parseRequest (header : Bytes) : Eval RequestParts := do
  let text ← context "HTTP request header is not UTF-8" (Text.fromUtf8 header)
  let text ← context "HTTP header missing CRLF terminator"
    (Str.stripSuffix ['\r', '\n', '\r', '\n'] text)
  match Lines.split '\r' '\n' text with
  | [] => bail "missing request line"
  | requestLine :: lines => do
    let (method, target, version) ← parseRequestLine requestLine
    let headers ← parseHeaders lines
    return ⟨method, target, version, headers⟩

theorem parseRequestLine_spec {line method target version : Text}
    (h : parseRequestLine line = .ok (method, target, version)) :
    Str.splitWhitespace line = [method, target, version] ∧
      Str.startsWith "HTTP/".toList version = true := by
  rw [parseRequestLine] at h
  split at h
  · cases h
  · cases h
  · cases h
  · next more hwords =>
    split at h
    · cases h
    · next hvalid =>
      rw [not_or, not_not, Bool.not_eq_false] at hvalid
      obtain ⟨rfl, hversion⟩ := hvalid
      obtain ⟨rfl, hrest⟩ := Prod.mk.inj (Except.ok.inj h)
      obtain ⟨rfl, rfl⟩ := Prod.mk.inj hrest
      exact ⟨hwords, hversion⟩

/-- A header line is cut at its first colon. -/
theorem parseHeader_spec {line : Text} {header : Text × Text} (h : parseHeader line = .ok header) :
    ∃ name value, line = name ++ ':' :: value ∧ ':' ∉ name ∧
      header = (Str.trim name, Str.trim value) := by
  rw [parseHeader] at h
  split at h
  · cases h
  · next name value hsplit =>
    obtain ⟨rfl, hcolon⟩ := Str.splitOnce_char hsplit
    exact ⟨name, value, rfl, hcolon, (Except.ok.inj h).symm⟩

theorem parseHeaders_spec {lines : List Text} {headers : List (Text × Text)}
    (h : parseHeaders lines = .ok headers) :
    List.Forall₂ (fun line header => parseHeader line = .ok header) lines headers := by
  induction lines generalizing headers with
  | nil =>
    obtain rfl := Except.ok.inj h
    exact .nil
  | cons line lines ih =>
    rw [parseHeaders, Result.bind_eq_ok] at h
    obtain ⟨first, hfirst, h⟩ := h
    rw [Result.bind_eq_ok] at h
    obtain ⟨others, hothers, h⟩ := h
    obtain rfl := Except.ok.inj h
    exact .cons hfirst (ih hothers)

/-- The lines of a head are a request line and header lines. -/
theorem parseRequest_spec {header : Bytes} {request : RequestParts}
    (h : parseRequest header = .ok request) :
    ∃ head line lines, Text.asBytes (head ++ ['\r', '\n', '\r', '\n']) = header ∧
      Lines.split '\r' '\n' head = line :: lines ∧
      parseRequestLine line = .ok (request.method, request.target, request.version) ∧
      parseHeaders lines = .ok request.headers := by
  rw [parseRequest, Result.bind_eq_ok] at h
  obtain ⟨text, htext, h⟩ := h
  rw [Result.bind_eq_ok] at h
  obtain ⟨head, hhead, h⟩ := h
  have hbytes := Text.asBytes_of_fromUtf8 (context_eq_ok.mp htext)
  rw [Str.stripSuffix_eq_some.mp (context_eq_ok.mp hhead)] at hbytes
  split at h
  · cases h
  · next line lines hsplit =>
    rw [Result.bind_eq_ok] at h
    obtain ⟨⟨method, target, version⟩, hline, h⟩ := h
    dsimp only at h
    rw [Result.bind_eq_ok] at h
    obtain ⟨headers, hheaders, h⟩ := h
    obtain rfl := Except.ok.inj h
    exact ⟨head, line, lines, hbytes, hsplit, hline, hheaders⟩

/-! ## Credentials -/

def proxyAuthorization : Text := "Proxy-Authorization".toList

def proxyConnection : Text := "Proxy-Connection".toList

/-- The value of the first header with this name, in any letter case. -/
def findHeader (name : Text) (headers : List (Text × Text)) : Option Text :=
  (headers.find? fun header => Str.eqIgnoreAsciiCase header.1 name).map Prod.snd

/-- `authenticate`; `base64` is `general_purpose::STANDARD.decode`. -/
def authenticate (base64 : Text → Option Bytes) (request : RequestParts) (auth : AuthStore) :
    Eval UserProfile := do
  let value ← context "missing Proxy-Authorization header"
    (findHeader proxyAuthorization request.headers)
  let value := Str.trim value
  let encoded ← context "unsupported proxy auth scheme"
    ((Str.stripPrefix "Basic ".toList value).or (Str.stripPrefix "basic ".toList value))
  let decoded ← context "invalid Basic auth base64" (base64 encoded)
  let decoded ← context "Basic auth is not UTF-8" (Text.fromUtf8 decoded)
  let (username, password) ← context "Basic auth payload missing colon"
    (Str.splitOnce [':'] decoded)
  context s!"invalid HTTP proxy credentials for {String.ofList username}"
    (auth.authenticate username password)

/-! ## Targets -/

/-- `AbsoluteUri`. -/
structure AbsoluteUri where
  scheme : Text
  host : Text
  port : Option UInt16
  path : Text
  deriving DecidableEq

/-- `str::parse::<u16>`. -/
def parseU16 (digits : Text) : Eval UInt16 :=
  match Str.parseInt 65535 digits with
  | .ok n => return UInt16.ofNat n
  | .error err => bail err.message

theorem parseU16_iff {digits : Text} {port : UInt16} :
    parseU16 digits = .ok port ↔
      ∃ n, Str.parseUnsigned 65535 digits = some n ∧ UInt16.ofNat n = port := by
  unfold parseU16
  cases hparse : Str.parseInt 65535 digits with
  | ok n =>
    rw [Str.parseInt_eq_ok.mp hparse]
    simp [pure, Except.pure]
  | error err =>
    refine ⟨fun h => (by cases h), ?_⟩
    rintro ⟨n, hn, -⟩
    rw [Str.parseInt_eq_ok.mpr hn] at hparse
    cases hparse

/-- The branch of `parse_authority` for a literal in brackets, from behind the
    bracket. -/
def parseBracketed (rest : Text) (defaultPort : UInt16) : Eval (Text × UInt16) := do
  let (host, after) ← context "invalid IPv6 authority" (Str.splitOnce [']'] rest)
  if after = [] then return (host, defaultPort)
  else do
    let digits ← context "invalid IPv6 authority port" (Str.stripPrefix [':'] after)
    return (host, ← parseU16 digits)

/-- The host and the port of an authority without brackets, before they are
    checked. -/
def splitAuthority (authority : Text) (defaultPort : UInt16) : Eval (Text × UInt16) :=
  match Str.rsplitOnce ':' authority with
  | some (host, port) =>
    if port ≠ [] ∧ port.all Str.isAsciiDigit then do return (host, ← parseU16 port)
    else return (authority, defaultPort)
  | none => return (authority, defaultPort)

def parseAuthority (authority : Text) (defaultPort : UInt16) : Eval (Text × UInt16) :=
  if authority = [] ∨ '@' ∈ authority then bail "invalid authority"
  else
    match Str.stripPrefix ['['] authority with
    | some rest => parseBracketed rest defaultPort
    | none => do
      let (host, port) ← splitAuthority authority defaultPort
      if host = [] ∨ port = 0 ∨ (Text.asBytes host).any isAsciiWhitespace then
        bail "invalid authority"
      else return (host, port)

def parseAbsoluteUri (target : Text) : Eval AbsoluteUri := do
  let (scheme, rest) ← context "absolute-form request target is required"
    (Str.splitOnce "://".toList target)
  if Str.eqIgnoreAsciiCase scheme "http".toList = false then
    bail s!"unsupported absolute-form scheme {String.ofList scheme}"
  else do
    let (authority, path) :=
      match Str.find '/' rest with
      | some idx => (rest.take idx, rest.drop idx)
      | none => (rest, ['/'])
    let (host, port) ← parseAuthority authority 80
    return ⟨scheme.map Str.toAsciiLower, host, some port, path⟩

/-! ## Rewriting -/

/-- The headers between the client and the proxy. -/
def isProxyHeader (name : Text) : Bool :=
  Str.eqIgnoreAsciiCase name proxyAuthorization || Str.eqIgnoreAsciiCase name proxyConnection

/-- `format!("{name}: {value}\r\n")`. -/
def headerLine (header : Text × Text) : Text :=
  header.1 ++ ": ".toList ++ header.2 ++ "\r\n".toList

/-- The headers that are kept. -/
def keptHeaders (headers : List (Text × Text)) : List (Text × Text) :=
  headers.filter fun header => !isProxyHeader header.1

/-- `format!("{}:{port}", uri.host)`, without the port if it is 80. -/
def hostValue (uri : AbsoluteUri) : Text :=
  match uri.port with
  | none => uri.host
  | some port => if port = 80 then uri.host else uri.host ++ ':' :: (toString port.toNat).toList

def rewriteAbsoluteRequest (request : RequestParts) (uri : AbsoluteUri) : Text :=
  let kept := keptHeaders request.headers
  let hasHost := kept.any fun header => Str.eqIgnoreAsciiCase header.1 "Host".toList
  let hostLine := if hasHost then [] else headerLine ("Host".toList, hostValue uri)
  request.method ++ ' ' :: uri.path ++ ' ' :: request.version ++ "\r\n".toList
    ++ kept.flatMap headerLine ++ hostLine ++ "\r\n".toList

end Http

end EchProxy
