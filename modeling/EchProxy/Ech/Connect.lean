import EchProxy.Client.Config
import EchProxy.Ech.Query
import EchProxy.Ech.Response
import EchProxy.Framework.Traced

/-! # Connecting a Backend (`connect_channel` in `client/src/ech_tls.rs` and
    `EchConnector` in `client/src/ech_connector.rs`)

    What the network, the files and the libraries answer is a parameter; the
    functions record their queries, the configurations they store and the
    connections they attempt.
-/

namespace EchProxy

namespace Ech

open Checked Traced

/-! ## The world around `connect_channel` -/

/-- `http::Uri`, by the parts the client asks for. -/
structure Uri where
  scheme : Option Text
  authority : Option Text
  host : Option Text
  port : Option Nat
  deriving DecidableEq

/-- How the peer of an ECH connection, and BoringSSL, behave. -/
structure EchPeer where
  /-- `TcpStream::connect`. -/
  tcp : Bool
  /-- `SslConnector::configure`. -/
  configure : Bool
  /-- `into_ssl`. -/
  intoSsl : Bool
  /-- `set_ech_config_list`. -/
  setEchConfigList : Bool
  /-- The TLS handshake, with the error text. -/
  handshake : Except String Unit
  selectedAlpn : Option Bytes
  echAccepted : Bool
  retryConfigs : Option Bytes
  /-- The HTTP/2 set-up of tonic on the stream. -/
  http2 : Bool

/-- The outcomes of everything outside. -/
structure World (w : Width) where
  /-- `str::parse::<http::Uri>`. -/
  parseUri : Text → Option Uri
  /-- Whether `Endpoint::from_shared` takes the text. -/
  fromShared : Text → Bool
  /-- `get_cached_ech_config`. -/
  cached : Text → Option Bytes
  /-- The body of the response to a DoH query, or the message of the failed
      stage. -/
  doh : Text → Bytes → Except String (Slice w)
  /-- `cached_ssl_connector`, with its error text. -/
  sslConnector : Option Text → Except String Unit
  echPeer : Text → Text → Bytes → EchPeer
  /-- `tokio::fs::read`. -/
  readFile : Text → Option Bytes
  /-- `Endpoint::tls_config` with a domain name and a CA certificate. -/
  tlsConfig : Text → Option Bytes → Except String Unit
  /-- Whether `Endpoint::connect` succeeds, over TLS with a domain name or
      without. -/
  connect : Text → Option Text → Bool

/-- An attempt to connect the backend. -/
inductive Attempt where
  | ech (connectAddr sniName : Text) (echConfigList : Bytes)
  /-- `endpoint.connect()`: with the domain name of its TLS configuration, or
      without TLS. -/
  | ordinary (endpoint : Text) (tlsDomain : Option Text)
  deriving DecidableEq

/-- What `connect_channel` does. -/
inductive Event where
  | query (doh : Text) (query : Bytes)
  /-- `put_cached_ech_config`; the TTL is in seconds. -/
  | store (key : Text) (config : Bytes) (ttl : Nat)
  | attempt (a : Attempt)
  deriving DecidableEq

/-- A channel, by the attempt that made it. -/
structure Channel where
  via : Attempt
  deriving DecidableEq

variable {w : Width}

/-! ## Names -/

def invalidEndpoint (backend : BackendConfig) : String :=
  s!"invalid backend endpoint {String.ofList backend.endpoint}"

/-- `backend_tls_name`. -/
def backendTlsName (world : World w) (backend : BackendConfig) : Eval Text :=
  match backend.tlsDomain.or backend.echName with
  | some name => return name
  | none => do
    let uri ← context (invalidEndpoint backend) (world.parseUri backend.endpoint)
    context "backend endpoint must include a host" uri.host

/-! ## Bootstrap -/

/-- `format!("{doh}\0{name}")`. -/
def cacheKey (doh name : Text) : Text := doh ++ '\x00' :: name

/-- The stages of the DoH request, each with its context. -/
def fetchDoh (world : World w) (doh : Text) (query : Bytes) : Eval (Slice w) :=
  match world.doh doh query with
  | .ok response => return response
  | .error msg => bail msg

theorem fetchDoh_eq_ok {world : World w} {doh : Text} {query : Bytes} {response : Slice w} :
    fetchDoh world doh query = .ok response ↔ world.doh doh query = .ok response := by
  unfold fetchDoh
  split
  · next found hfound =>
    rw [hfound, Result.pure_eq, Except.ok.injEq, Except.ok.injEq]
  · next msg hfails =>
    rw [hfails]
    exact ⟨fun h => (by cases h), fun h => (by cases h)⟩

/-- `bootstrap_ech_config`. -/
def bootstrapEchConfig (world : World w) (backend : BackendConfig) (ech : EchConfig) :
    Traced Fault Event Bytes := do
  let name ← backendTlsName world backend
  let doh := backend.effectiveEchBootstrapDoh ech
  match world.cached (cacheKey doh name) with
  | some cached => return cached
  | none => do
    let query ← buildHttpsQuery name
    emit (.query doh query)
    let response ← fetchDoh world doh query
    let (echConfig, ttl) ← withContext
      "failed to parse HTTPS/SVCB response for ECHConfigList" (parseHttpsResponseForEch response)
    emit (.store (cacheKey doh name) echConfig ttl)
    return echConfig

/-! ## The ECH connector -/

/-- `EchConnector`. -/
structure EchConnector where
  connectAddr : Text
  sniName : Text
  echConfigList : Bytes
  deriving DecidableEq

/-- `EchConnector::new`. -/
def EchConnector.new (world : World w) (backend : BackendConfig) (echConfigList : Bytes) :
    Eval EchConnector := do
  let uri ← context (invalidEndpoint backend) (world.parseUri backend.endpoint)
  if uri.scheme ≠ some "https".toList then
    bail "ECH transport requires an https backend endpoint"
  else do
    let endpointHost ← context "backend endpoint must include a host" uri.host
    let port := uri.port.getD 443
    let sniName ← backendTlsName world backend
    let connectAddr := backend.connectAddr.getD (endpointHost ++ ':' :: (toString port).toList)
    match world.sslConnector backend.caCert with
    | .error err => bail err
    | .ok () => return ⟨connectAddr, sniName, echConfigList⟩

/-- The protocol the backend must choose. -/
def h2 : Bytes := [0x68, 0x32]

/-- `EchConnector::connect`, on the peer it meets. -/
def EchConnector.connect (c : EchConnector) (peer : EchPeer) : Eval Unit :=
  if !peer.tcp then bail s!"failed to connect {String.ofList c.connectAddr}"
  else if !peer.configure then bail "failed to configure BoringSSL connector"
  else if !peer.intoSsl then bail s!"failed to create SSL for {String.ofList c.sniName}"
  else if !peer.setEchConfigList then bail "failed to configure ECHConfigList"
  else
    match peer.handshake with
    | .error err => bail s!"BoringSSL ECH handshake failed: {err}"
    | .ok () =>
      if peer.selectedAlpn ≠ some h2 then bail "backend did not negotiate h2 ALPN"
      else if !peer.echAccepted then
        match peer.retryConfigs with
        | some retry =>
          bail s!"backend rejected ECH and provided retry configs ({retry.length} bytes)"
        | none => bail "backend did not accept ECH"
      else return ()

/-- `connect_ech_channel`. -/
def connectEchChannel (world : World w) (backend : BackendConfig) (echConfig : Bytes) :
    Traced Fault Event Channel := do
  let uri ← context (invalidEndpoint backend) (world.parseUri backend.endpoint)
  let authority ← context "backend endpoint must include authority" uri.authority
  let connectorUri := "http://".toList ++ authority
  let _ ← context "failed to build internal ECH connector URI" (world.parseUri connectorUri)
  if !world.fromShared connectorUri then bail "invalid internal ECH endpoint URI"
  else do
    let connector ← EchConnector.new world backend echConfig
    let attempt := .ech connector.connectAddr connector.sniName connector.echConfigList
    let peer := world.echPeer connector.connectAddr connector.sniName connector.echConfigList
    emit (.attempt attempt)
    withContext s!"failed to connect ECH backend {String.ofList backend.endpoint}" (do
      connector.connect peer
      if peer.http2 then return ⟨attempt⟩ else bail "transport error")

/-! ## `connect_channel` -/

/-- The CA certificate of the backend, if it has one. -/
def readCaCert (world : World w) (backend : BackendConfig) : Eval (Option Bytes) :=
  match backend.caCert with
  | none => return none
  | some path =>
    context s!"failed to read CA certificate {String.ofList path}" ((world.readFile path).map some)

/-- The ordinary endpoint: the domain name of its TLS configuration, if it gets
    one. -/
def ordinaryEndpoint (world : World w) (backend : BackendConfig) : Eval (Option Text) :=
  if !world.fromShared backend.endpoint then bail (invalidEndpoint backend)
  else if Str.startsWith "https://".toList backend.endpoint then do
    let domain ← backendTlsName world backend
    let pem ← readCaCert world backend
    match world.tlsConfig domain pem with
    | .error err => bail err
    | .ok () => return some domain
  else return none

/-- The part of `connect_channel` after the ECH stage. -/
def connectOrdinary (world : World w) (backend : BackendConfig) :
    Traced Fault Event Channel := do
  let domain ← ordinaryEndpoint world backend
  let attempt := .ordinary backend.endpoint domain
  emit (.attempt attempt)
  if world.connect backend.endpoint domain then return ⟨attempt⟩
  else bail s!"failed to connect backend {String.ofList backend.endpoint}"

def strict : Text := "strict".toList

/-- `connect_channel`.  An error of the ECH stage is caught; a panic is not. -/
def connectChannel (world : World w) (backend : BackendConfig) (ech : EchConfig) :
    Traced Fault Event Channel :=
  if backend.ech then do
    let echName ← backendTlsName world backend
    match ← observe (bootstrapEchConfig world backend ech) with
    | .ok config =>
      if backend.effectiveEchPolicy ech = strict then connectEchChannel world backend config
      else do
        match ← observe (connectEchChannel world backend config) with
        | .ok channel => return channel
        | .error (.error _) => connectOrdinary world backend
        | .error fault => Traced.lift (.error fault)
    | .error (.error err) =>
      if backend.effectiveEchPolicy ech = strict then
        bail s!"strict ECH bootstrap failed for {String.ofList echName}: {err}"
      else connectOrdinary world backend
    | .error fault => Traced.lift (.error fault)
  else connectOrdinary world backend

end Ech

end EchProxy
