import EchProxy.Ech.Connect
import EchProxy.Framework.OnceMap

/-! # The TLS Connectors of the Process (`client/src/ech_connector.rs`)

    A connector holds the certificate roots and the settings of the handshakes.
    There is one for each CA file: the tasks that connect look for it in a map
    of the process, and build it when it is not there yet.
-/

namespace EchProxy

namespace Ech

open Checked Result

/-! ## A build -/

structure X509 where
  der : Bytes
  deriving DecidableEq

inductive SslVerifyMode where
  | none
  | peer
  deriving DecidableEq

/-- `SslConnector`, by what its builder was told. -/
structure SslConnector where
  defaultVerifyPaths : Bool
  certStore : List X509
  verify : SslVerifyMode
  alpnProtos : Bytes
  caFile : Option Text
  deriving DecidableEq

/-- What BoringSSL and the certificate stores answer to a build. -/
structure SslFiles where
  /-- `SslConnector::builder`. -/
  builder : Bool
  /-- `set_default_verify_paths`. -/
  defaultVerifyPaths : Bool
  /-- `rustls_native_certs::load_native_certs`, with its error text. -/
  nativeCerts : Except String (List Bytes)
  /-- `X509::from_der`. -/
  fromDer : Bytes → Option X509
  /-- Whether a store takes a certificate (`add_cert`). -/
  addCert : List X509 → X509 → Bool
  /-- `set_alpn_protos`. -/
  setAlpnProtos : Bytes → Bool
  /-- `set_ca_file`. -/
  setCaFile : Text → Bool

/-- The loop of `load_native_roots`, with the store and `loaded`. -/
def loadCerts (files : SslFiles) : List Bytes → List X509 → Nat → Eval (List X509 × Nat)
  | [], store, loaded => return (store, loaded)
  | cert :: certs, store, loaded => do
    let cert ← context "failed to parse native root certificate" (files.fromDer cert)
    -- a certificate that the store refuses is passed over
    if files.addCert store cert then loadCerts files certs (store ++ [cert]) (loaded + 1)
    else loadCerts files certs store loaded

def loadNativeCerts (files : SslFiles) : Eval (List Bytes) :=
  match files.nativeCerts with
  | .ok certs => return certs
  | .error err => bail err

/-- `load_native_roots`: the store of the builder after it. -/
def loadNativeRoots (files : SslFiles) (store : List X509) : Eval (List X509) := do
  let certs ← loadNativeCerts files
  let (store, loaded) ← loadCerts files certs store 0
  if loaded = 0 then bail "native certificate store did not provide any usable roots"
  else return store

/-- The one protocol of the offer, behind its length. -/
def alpnOffer : Bytes := [0x02, 0x68, 0x32]

/-- `build_ssl_connector`. -/
def buildSslConnector (files : SslFiles) (caCert : Option Text) : Eval SslConnector := do
  if !files.builder then bail "failed to create BoringSSL connector"
  else if !files.defaultVerifyPaths then bail "failed to load default certificate roots"
  else do
    let store ← withContext "failed to load native certificate roots" (loadNativeRoots files [])
    if !files.setAlpnProtos alpnOffer then bail "failed to configure h2 ALPN"
    else
      match caCert with
      | none => return ⟨true, store, .peer, alpnOffer, none⟩
      | some path =>
        if files.setCaFile path then return ⟨true, store, .peer, alpnOffer, some path⟩
        else bail s!"failed to load CA certificate {String.ofList path}"

/-! ## What a build gives -/

/-- The protocols of an ALPN offer: each stands behind its length. -/
def alpnOf (protos : List Bytes) : Bytes :=
  protos.flatMap fun proto => UInt8.ofNat proto.length :: proto

/-- A connector that authenticates its peers: the certificate of the peer is
    verified, against native roots that these files provide and the CA file;
    and it offers the one protocol that `connect` then asks for. -/
structure SslConnector.Strict (c : SslConnector) (files : SslFiles) (caCert : Option Text) :
    Prop where
  verify : c.verify = .peer
  defaultVerifyPaths : c.defaultVerifyPaths = true
  alpn : c.alpnProtos = alpnOf [h2]
  caFile : c.caFile = caCert
  some_root : c.certStore ≠ []
  native : ∀ root ∈ c.certStore, ∃ certs, files.nativeCerts = .ok certs ∧
    ∃ der ∈ certs, files.fromDer der = some root

/-- The loop counts what it adds, and adds what it was given. -/
theorem loadCerts_spec {files : SslFiles} {certs : List Bytes} {store store' : List X509}
    {loaded loaded' : Nat} (h : loadCerts files certs store loaded = .ok (store', loaded')) :
    ∃ added, store' = store ++ added ∧ loaded' = loaded + added.length ∧
      ∀ root ∈ added, ∃ der ∈ certs, files.fromDer der = some root := by
  induction certs generalizing store loaded with
  | nil =>
    obtain ⟨rfl, rfl⟩ := Prod.mk.inj (Except.ok.inj h)
    exact ⟨[], (List.append_nil _).symm, rfl, fun _ hroot => (by cases hroot)⟩
  | cons der certs ih =>
    obtain ⟨cert, hcert, h⟩ := bind_eq_ok.mp h
    have hder := context_eq_ok.mp hcert
    split at h
    · obtain ⟨added, rfl, rfl, hfrom⟩ := ih h
      refine ⟨cert :: added, by simp, by simp; omega, ?_⟩
      intro root hroot
      rcases List.mem_cons.mp hroot with rfl | hroot
      · exact ⟨der, List.mem_cons_self, hder⟩
      · obtain ⟨der', hmem, hder'⟩ := hfrom root hroot
        exact ⟨der', List.mem_cons_of_mem _ hmem, hder'⟩
    · obtain ⟨added, rfl, rfl, hfrom⟩ := ih h
      refine ⟨added, rfl, rfl, ?_⟩
      intro root hroot
      obtain ⟨der', hmem, hder'⟩ := hfrom root hroot
      exact ⟨der', List.mem_cons_of_mem _ hmem, hder'⟩

/-- A store that is loaded has a root, and only roots of the native store. -/
theorem loadNativeRoots_spec {files : SslFiles} {store : List X509}
    (h : loadNativeRoots files [] = .ok store) :
    store ≠ [] ∧ ∀ root ∈ store, ∃ certs, files.nativeCerts = .ok certs ∧
      ∃ der ∈ certs, files.fromDer der = some root := by
  obtain ⟨certs, hcerts, h⟩ := bind_eq_ok.mp h
  have hnative : files.nativeCerts = .ok certs := by
    rw [loadNativeCerts] at hcerts
    split at hcerts
    · next found hfound =>
      rw [hfound, Except.ok.inj hcerts]
    · cases hcerts
  obtain ⟨⟨store', loaded⟩, hload, h⟩ := bind_eq_ok.mp h
  obtain ⟨added, rfl, rfl, hfrom⟩ := loadCerts_spec hload
  dsimp only at h
  split at h
  · cases h
  · next hloaded =>
    obtain rfl := Except.ok.inj h
    constructor
    · intro hnil
      exact hloaded (by simp [hnil])
    · intro root hroot
      exact ⟨certs, hnative, hfrom root hroot⟩

/-- **Every build that succeeds gives a strict connector.** -/
theorem buildSslConnector_strict {files : SslFiles} {caCert : Option Text} {c : SslConnector}
    (h : buildSslConnector files caCert = .ok c) : c.Strict files caCert := by
  rw [buildSslConnector] at h
  split at h
  · cases h
  · split at h
    · cases h
    · obtain ⟨store, hstore, h⟩ := bind_eq_ok.mp h
      obtain ⟨hsome, hnative⟩ := loadNativeRoots_spec (withContext_eq_ok.mp hstore)
      split at h
      · cases h
      · split at h
        · obtain rfl := Except.ok.inj h
          exact ⟨rfl, rfl, rfl, rfl, hsome, hnative⟩
        · split at h
          · obtain rfl := Except.ok.inj h
            exact ⟨rfl, rfl, rfl, rfl, hsome, hnative⟩
          · cases h

/-! ## The connectors of the process -/

/-- The components of a path, by which `PathBuf` compares, and whether it is
    absolute: no repeated separators, and a `.` only in front of a relative
    path. -/
def components (path : Text) : Bool × List Text :=
  let parts := (Str.split '/' path).filter (· ≠ [])
  let plain := parts.filter (· ≠ ['.'])
  if Str.startsWith ['/'] path then (true, plain)
  else if parts.head? = some ['.'] then (false, ['.'] :: plain)
  else (false, plain)

/-- A call of `cached_ssl_connector`, with the files as its build finds them. -/
structure SslCall where
  files : SslFiles
  caCert : Option Text

/-- The key of a call in the map. -/
def SslCall.key (call : SslCall) : Option (Bool × List Text) := call.caCert.map components

def SslCall.build (call : SslCall) : Eval SslConnector := buildSslConnector call.files call.caCert

/-- The tasks around the map of `cached_ssl_connector`. -/
abbrev SslTasks :=
  Mutex.State (OnceMap.Stage SslCall SslConnector Fault)
    (OnceMap.Call (Option (Bool × List Text)) SslConnector) (Option SslConnector)
    (Option (Bool × List Text) → Option SslConnector)

/-- `cached_ssl_connector`, called by any number of tasks. -/
def cachedSslConnector : Lts.System SslTasks (Mutex.Label SslCall) :=
  Mutex.system (OnceMap.object _ SslConnector) (OnceMap.program SslCall.key SslCall.build)

/-- The task returned this. -/
def Returned (s : SslTasks) (i : Nat) (call : SslCall) (result : Eval SslConnector) : Prop :=
  s.threads i = some (.free (.returned call result))

/-- **One strict connector for each CA file**, whichever tasks race to build it:
    all that is returned for a file was built by one call for it, and is strict;
    an error is that of the task's own build, and only what was built is kept;
    and a connector that was returned answers every later call for its file. -/
theorem one_connector_per_caFile {s : SslTasks} (hs : cachedSslConnector.Reachable s) :
    (∀ i j call call' c c', Returned s i call (.ok c) → Returned s j call' (.ok c') →
      call'.key = call.key → c' = c) ∧
    (∀ i call c, Returned s i call (.ok c) → s.object call.key = some c) ∧
    (∀ i call err, Returned s i call (.error err) → call.build = .error err) ∧
    (∀ key c, s.object key = some c → ∃ builder : SslCall, builder.key = key ∧
      builder.build = .ok c ∧ c.Strict builder.files builder.caCert) ∧
    ∀ i call c ls s', Returned s i call (.ok c) → cachedSslConnector.run s ls = some s' →
      ∃ later, s'.log = s.log ++ later ∧
        ∀ done ∈ later, done.timed.call.key = call.key → done.result = some c := by
  refine ⟨?_, ?_, ?_, ?_, ?_⟩
  · intro i j call call' c c' hthread hthread' hkey
    have hfirst := (OnceMap.returned_first hs hthread).1
    have hfirst' := (OnceMap.returned_first hs hthread').1
    rw [hkey, hfirst] at hfirst'
    exact (Option.some.inj hfirst').symm
  · intro i call c hthread
    exact (OnceMap.returned_first hs hthread).2
  · intro i call err hthread
    exact OnceMap.failed_build hs hthread
  · intro key c hobject
    rw [(Mutex.serial_of_reachable s hs).object, OnceMap.object_after] at hobject
    obtain ⟨builder, hkey, hbuild⟩ := OnceMap.first_built hs hobject
    exact ⟨builder, hkey, hbuild, buildSslConnector_strict hbuild⟩
  · intro i call c ls s' hthread hrun
    exact OnceMap.settled hs hthread hrun

def exampleFiles (cert : UInt8) : SslFiles where
  builder := true
  defaultVerifyPaths := true
  nativeCerts := .ok [[cert], []]
  fromDer := fun der => some ⟨der⟩
  addCert := fun _ cert => cert.der ≠ []
  setAlpnProtos := fun _ => true
  setCaFile := fun _ => true

/-- One file, spelled in two ways. -/
def exampleCalls : SslCall × SslCall :=
  (⟨exampleFiles 1, some "certs/ca.pem".toList⟩, ⟨exampleFiles 2, some "certs//ca.pem".toList⟩)

/-- Both tasks miss and build; the second one is the first to offer. -/
def exampleRace : List (Mutex.Label SslCall) :=
  [.start 0 exampleCalls.1, .start 1 exampleCalls.2,
    .lock 0, .readClock 0, .finish 0, .lock 1, .readClock 1, .finish 1,
    .lock 1, .readClock 1, .finish 1, .lock 0, .readClock 0, .finish 0]

def exampleConnector : SslConnector :=
  ⟨true, [⟨[2]⟩], .peer, alpnOffer, some "certs//ca.pem".toList⟩

theorem one_connector_per_caFile_race :
    ∃ s, cachedSslConnector.Reachable s ∧
      Returned s 0 exampleCalls.1 (.ok exampleConnector) ∧
      Returned s 1 exampleCalls.2 (.ok exampleConnector) ∧
      ∃ builder : SslCall, builder.key = exampleCalls.1.key ∧
        exampleConnector.Strict builder.files builder.caCert := by
  have hthreads : (cachedSslConnector.run ⟨0, fun _ => none, none, fun _ => none, []⟩
      exampleRace).map (fun s => (s.threads 0, s.threads 1)) =
        some (some (.free (.returned exampleCalls.1 (.ok exampleConnector))),
          some (.free (.returned exampleCalls.2 (.ok exampleConnector)))) := rfl
  obtain ⟨s, hrun, hs⟩ := Option.map_eq_some_iff.mp hthreads
  obtain ⟨hlate, hearly⟩ := Prod.mk.inj hs
  have hreachable : cachedSslConnector.Reachable s :=
    Lts.System.reachable_of_run (.init ⟨rfl, rfl, rfl, fun _ => rfl⟩) hrun
  obtain ⟨-, hkept, -, hbuilt, -⟩ := one_connector_per_caFile hreachable
  obtain ⟨builder, hkey, -, hstrict⟩ := hbuilt _ _ (hkept 0 _ _ hlate)
  exact ⟨s, hreachable, hlate, hearly, builder, hkey, hstrict⟩

end Ech

end EchProxy
