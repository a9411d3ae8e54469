import EchProxy.Framework.Checked
import EchProxy.Server.Tokens
import EchProxy.Tunnel.Enforcement

/-! # Starting the Server (`server/src/main.rs`)

    The settings come from a file or are the default ones, two variables of the
    environment come before both, and the server is made from what is left.  A
    server that starts keeps to its settings in every tunnel it serves.
-/

namespace EchProxy.Server

open Checked

/-! ## The settings -/

/-- `PolicyConfig`, in full. -/
structure PolicySettings extends PolicyConfig where
  idleTimeoutSecs : Nat
  maxConcurrentStreams : Nat

def defaultConnectTimeoutMs : Nat := 8000

def defaultIdleTimeoutSecs : Nat := 300

def defaultMaxConcurrentStreams : Nat := 4096

def defaultTrue : Bool := true

def defaultListen : Text := "0.0.0.0:50051".toList

/-- `Config`, in full. -/
structure Settings extends Config where
  cert : Option Text
  key : Option Text
  policy : PolicySettings

/-- `Config::default`. -/
def Settings.default : Settings where
  listen := defaultListen
  tokens := []
  cert := none
  key := none
  policy :=
    { connectTimeoutMs := defaultConnectTimeoutMs
      denyPrivateIp := defaultTrue
      allowedPorts := []
      idleTimeoutSecs := defaultIdleTimeoutSecs
      maxConcurrentStreams := defaultMaxConcurrentStreams }

/-- A configuration file, as `toml` reads it: what has a `#[serde(default)]` may be
    left out. -/
structure Document where
  listen : Text
  cert : Option Text
  key : Option Text
  tokens : Option (List Text)
  connectTimeoutMs : Option Nat
  idleTimeoutSecs : Option Nat
  maxConcurrentStreams : Option Nat
  denyPrivateIp : Option Bool
  allowedPorts : Option (List UInt16)

/-- The settings of a file, with the defaults of `PolicyConfig` and `AuthConfig`. -/
def Document.settings (doc : Document) : Settings where
  listen := doc.listen
  tokens := doc.tokens.getD []
  cert := doc.cert
  key := doc.key
  policy :=
    { connectTimeoutMs := doc.connectTimeoutMs.getD defaultConnectTimeoutMs
      denyPrivateIp := doc.denyPrivateIp.getD defaultTrue
      allowedPorts := doc.allowedPorts.getD []
      idleTimeoutSecs := doc.idleTimeoutSecs.getD defaultIdleTimeoutSecs
      maxConcurrentStreams := doc.maxConcurrentStreams.getD defaultMaxConcurrentStreams }

/-! ## The start -/

/-- What `main` meets. -/
structure Machine where
  /-- `fs::read_to_string`. -/
  readToString : Text → Option Text
  /-- `toml::from_str`. -/
  fromToml : Text → Option Document
  env : Env
  /-- `str::parse::<SocketAddr>`. -/
  parseListen : Text → Option SocketAddr
  /-- `fs::read`. -/
  read : Text → Option Bytes
  /-- `builder.tls_config`, with the identity of a certificate and a key. -/
  tlsConfig : Bytes → Bytes → Except String Unit

/-- `.with_context(..)?`. -/
def orError {α : Type} (msg : String) : Option α → Except String α
  | some a => .ok a
  | none => .error msg

/-- The match on the path in `Config::load`. -/
def Settings.read (machine : Machine) : Option Text → Except String Settings
  | some path => do
    let raw ← orError s!"failed to read config {String.ofList path}" (machine.readToString path)
    let doc ← orError s!"failed to parse config {String.ofList path}" (machine.fromToml raw)
    return doc.settings
  | none => return Settings.default

/-- `Config::load`. -/
def Settings.load (machine : Machine) (path : Option Text) : Except String Settings := do
  let config ← Settings.read machine path
  let applied ← config.toConfig.applyEnv machine.env
  return { config with toConfig := applied }

/-- What the service is started with. -/
structure Serving where
  listen : SocketAddr
  auth : TokenAuth
  policy : Policy
  /-- In seconds. -/
  idleTimeout : Nat
  /-- `concurrency_limit_per_connection`. -/
  streamLimit : Nat
  /-- The certificate and the key, unless the server runs in plaintext. -/
  tls : Option (Bytes × Bytes)

/-- The branch of `main` for TLS, and the one for plaintext. -/
def readIdentity (machine : Machine) :
    Option Text → Option Text → Except String (Option (Bytes × Bytes))
  | some certPath, some keyPath => do
    let cert ← orError s!"failed to read cert {String.ofList certPath}" (machine.read certPath)
    let key ← orError s!"failed to read key {String.ofList keyPath}" (machine.read keyPath)
    machine.tlsConfig cert key
    return some (cert, key)
  | _, _ => return none

/-- `main`, up to where it serves. -/
def main (machine : Machine) (path : Option Text) : Except String Serving := do
  let config ← Settings.load machine path
  let listen ← orError s!"invalid listen address {String.ofList config.listen}"
    (machine.parseListen config.listen)
  let auth ← TokenAuth.new config.tokens
  let policy ← Policy.fromConfig config.policy.toPolicyConfig
  let tls ← readIdentity machine config.cert config.key
  return ⟨listen, auth, policy, config.policy.idleTimeoutSecs, config.policy.maxConcurrentStreams,
    tls⟩

/-- `TunnelServer::new`, with what the libraries read and print. -/
def Serving.config (serving : Serving) (toStr : Bytes → Option Text) (text : IpText) :
    ServerConfig :=
  ⟨serving.auth, toStr, serving.policy, text⟩

/-! ## What is in effect -/

theorem orError_eq_ok {α : Type} {msg : String} {o : Option α} {a : α} :
    orError msg o = .ok a ↔ o = some a := by
  cases o with
  | none => exact ⟨fun h => (by cases h), fun h => (by cases h)⟩
  | some b => simp [orError]

/-- The settings the operator wrote: those of the file, or the default ones. -/
inductive Machine.Wrote (machine : Machine) : Option Text → Settings → Prop where
  | file {path raw : Text} {doc : Document} (hread : machine.readToString path = some raw)
      (hparse : machine.fromToml raw = some doc) : Wrote machine (some path) doc.settings
  | default : Wrote machine none .default

/-- The address in effect: the variable comes before the file. -/
def Config.effectiveListen (config : Config) (env : Env) : Text :=
  (env.listen.map Str.trim).getD config.listen

/-- So it does for the tokens. -/
def Config.effectiveTokens (config : Config) (env : Env) : List Text :=
  match env.tokens with
  | some raw => ((Str.split ',' raw).map Str.trim).filter fun token => !token.isEmpty
  | none => config.tokens

theorem applyListen_eq_ok {config config' : Config} {listen : Option Text} :
    config.applyListen listen = .ok config' ↔ (∀ text, listen = some text → Str.trim text ≠ []) ∧
      config' = { config with listen := (listen.map Str.trim).getD config.listen } := by
  cases listen with
  | none =>
    constructor
    · intro h
      exact ⟨fun text htext => (by cases htext), (Except.ok.inj h).symm⟩
    · rintro ⟨-, rfl⟩
      rfl
  | some text =>
    rw [Config.applyListen]
    by_cases hempty : Str.trim text = []
    · rw [if_pos hempty]
      exact ⟨fun h => (by cases h), fun h => absurd hempty (h.1 text rfl)⟩
    · rw [if_neg hempty]
      constructor
      · intro h
        refine ⟨fun text' htext => ?_, (Except.ok.inj h).symm⟩
        obtain rfl := Option.some.inj htext
        exact hempty
      · rintro ⟨-, rfl⟩
        rfl

theorem applyTokens_eq_ok {config config' : Config} {env : Env} :
    config.applyTokens env.tokens = .ok config' ↔
      (env.tokens ≠ none → config.effectiveTokens env ≠ []) ∧
        config' = { config with tokens := config.effectiveTokens env } := by
  rw [Config.effectiveTokens]
  cases env.tokens with
  | none =>
    constructor
    · intro h
      exact ⟨fun hsome => absurd rfl hsome, (Except.ok.inj h).symm⟩
    · rintro ⟨-, rfl⟩
      rfl
  | some raw =>
    rw [Config.applyTokens, Result.bind_eq_ok, parseTokens]
    dsimp only
    by_cases hempty : ((Str.split ',' raw).map Str.trim).filter (fun token => !token.isEmpty) = []
    · rw [if_pos hempty]
      constructor
      · rintro ⟨_, h, -⟩
        cases h
      · intro h
        exact absurd hempty (h.1 fun hnone => (by cases hnone))
    · rw [if_neg hempty]
      constructor
      · rintro ⟨tokens, htokens, h⟩
        obtain rfl := Except.ok.inj htokens
        exact ⟨fun _ => hempty, (Except.ok.inj h).symm⟩
      · rintro ⟨-, rfl⟩
        exact ⟨_, rfl, rfl⟩

/-- What the environment makes of a configuration. -/
theorem applyEnv_eq_ok {config config' : Config} {env : Env} :
    config.applyEnv env = .ok config' ↔
      (∀ text, env.listen = some text → Str.trim text ≠ []) ∧
        (env.tokens ≠ none → config.effectiveTokens env ≠ []) ∧
        config' = ⟨config.effectiveListen env, config.effectiveTokens env⟩ := by
  rw [Config.applyEnv, Result.bind_eq_ok]
  constructor
  · rintro ⟨config₁, hlisten, htokens⟩
    obtain ⟨hgiven, rfl⟩ := applyListen_eq_ok.mp hlisten
    obtain ⟨hsome, rfl⟩ := applyTokens_eq_ok.mp htokens
    exact ⟨hgiven, hsome, rfl⟩
  · rintro ⟨hgiven, hsome, rfl⟩
    refine ⟨_, applyListen_eq_ok.mpr ⟨hgiven, rfl⟩, ?_⟩
    exact applyTokens_eq_ok.mpr ⟨hsome, rfl⟩

theorem read_eq_ok {machine : Machine} {path : Option Text} {config : Settings} :
    Settings.read machine path = .ok config ↔ machine.Wrote path config := by
  constructor
  · intro h
    cases path with
    | none =>
      obtain rfl := Except.ok.inj h
      exact .default
    | some path =>
      obtain ⟨raw, hread, h⟩ := Result.bind_eq_ok.mp h
      obtain ⟨doc, hparse, h⟩ := Result.bind_eq_ok.mp h
      obtain rfl := Except.ok.inj h
      exact .file (orError_eq_ok.mp hread) (orError_eq_ok.mp hparse)
  · intro h
    cases h with
    | default => rfl
    | file hread hparse =>
      refine Result.bind_eq_ok.mpr ⟨_, orError_eq_ok.mpr hread, ?_⟩
      exact Result.bind_eq_ok.mpr ⟨_, orError_eq_ok.mpr hparse, rfl⟩

theorem load_eq_ok {machine : Machine} {path : Option Text} {config : Settings} :
    Settings.load machine path = .ok config ↔ ∃ wrote applied, machine.Wrote path wrote ∧
      wrote.applyEnv machine.env = .ok applied ∧ config = { wrote with toConfig := applied } := by
  rw [Settings.load, Result.bind_eq_ok]
  constructor
  · rintro ⟨wrote, hwrote, h⟩
    obtain ⟨applied, happlied, h⟩ := Result.bind_eq_ok.mp h
    exact ⟨wrote, applied, read_eq_ok.mp hwrote, happlied, (Except.ok.inj h).symm⟩
  · rintro ⟨wrote, applied, hwrote, happlied, rfl⟩
    exact ⟨wrote, read_eq_ok.mpr hwrote, Result.bind_eq_ok.mpr ⟨applied, happlied, rfl⟩⟩

/-! ## What a server serves with -/

/-- The identity is that of the two files, if both are named. -/
inductive Identity (machine : Machine) :
    Option Text → Option Text → Option (Bytes × Bytes) → Prop where
  | tls {certPath keyPath : Text} {cert key : Bytes} (hcert : machine.read certPath = some cert)
      (hkey : machine.read keyPath = some key) (hidentity : machine.tlsConfig cert key = .ok ()) :
      Identity machine (some certPath) (some keyPath) (some (cert, key))
  | noCert (key : Option Text) : Identity machine none key none
  | noKey (cert : Option Text) : Identity machine cert none none

theorem readIdentity_eq_ok {machine : Machine} {cert key : Option Text}
    {tls : Option (Bytes × Bytes)} :
    readIdentity machine cert key = .ok tls ↔ Identity machine cert key tls := by
  constructor
  · intro h
    cases cert with
    | none =>
      obtain rfl := Except.ok.inj h
      exact .noCert key
    | some certPath =>
      cases key with
      | none =>
        obtain rfl := Except.ok.inj h
        exact .noKey _
      | some keyPath =>
        obtain ⟨cert, hcert, h⟩ := Result.bind_eq_ok.mp h
        obtain ⟨key, hkey, h⟩ := Result.bind_eq_ok.mp h
        obtain ⟨_, hidentity, h⟩ := Result.bind_eq_ok.mp h
        obtain rfl := Except.ok.inj h
        exact .tls (orError_eq_ok.mp hcert) (orError_eq_ok.mp hkey) hidentity
  · intro h
    cases h with
    | tls hcert hkey hidentity =>
      refine Result.bind_eq_ok.mpr ⟨_, orError_eq_ok.mpr hcert, ?_⟩
      refine Result.bind_eq_ok.mpr ⟨_, orError_eq_ok.mpr hkey, ?_⟩
      exact Result.bind_eq_ok.mpr ⟨(), hidentity, rfl⟩
    | noCert => rfl
    | noKey => cases cert <;> rfl

theorem new_eq_ok {tokens : List Text} {auth : TokenAuth} :
    TokenAuth.new tokens = .ok auth ↔ auth.tokens = tokens := by
  unfold TokenAuth.new
  split
  · next hempty =>
    constructor
    · intro h
      cases h
    · intro h
      exact absurd (h.trans hempty) auth.nonempty
  · next hsome =>
    constructor
    · intro h
      exact Except.ok.inj h ▸ rfl
    · rintro rfl
      rfl

/-- The policy of a table without a port 0. -/
theorem fromConfig_eq_ok {config : PolicyConfig} {policy : Policy} :
    Policy.fromConfig config = .ok policy ↔ 0 ∉ config.allowedPorts ∧
      policy = ⟨config.connectTimeoutMs, config.denyPrivateIp,
        if config.allowedPorts.isEmpty then none else some config.allowedPorts⟩ := by
  unfold Policy.fromConfig
  by_cases hzero : 0 ∈ config.allowedPorts
  · rw [if_pos (by simpa using hzero)]
    exact ⟨fun h => (by cases h), fun h => absurd hzero h.1⟩
  · rw [if_neg (by simpa using hzero)]
    constructor
    · intro h
      exact ⟨hzero, (Except.ok.inj h).symm⟩
    · rintro ⟨-, rfl⟩
      rfl

/-- What a start makes of the settings that were written. -/
structure Serves (machine : Machine) (wrote : Settings) (serving : Serving) : Prop where
  /-- A variable that is set is not blank. -/
  listen_given : ∀ text, machine.env.listen = some text → Str.trim text ≠ []
  listen : machine.parseListen (wrote.effectiveListen machine.env) = some serving.listen
  tokens : serving.auth.tokens = wrote.effectiveTokens machine.env
  ports : 0 ∉ wrote.policy.allowedPorts
  policy : serving.policy = ⟨wrote.policy.connectTimeoutMs, wrote.policy.denyPrivateIp,
    if wrote.policy.allowedPorts.isEmpty then none else some wrote.policy.allowedPorts⟩
  idleTimeout : serving.idleTimeout = wrote.policy.idleTimeoutSecs
  streamLimit : serving.streamLimit = wrote.policy.maxConcurrentStreams
  tls : Identity machine wrote.cert wrote.key serving.tls

/-- A server starts exactly with what was written, but for the variables. -/
theorem main_eq_ok {machine : Machine} {path : Option Text} {serving : Serving} :
    main machine path = .ok serving ↔
      ∃ wrote, machine.Wrote path wrote ∧ Serves machine wrote serving := by
  rw [main, Result.bind_eq_ok]
  constructor
  · rintro ⟨config, hload, h⟩
    obtain ⟨wrote, applied, hwrote, happlied, rfl⟩ := load_eq_ok.mp hload
    obtain ⟨hgiven, -, rfl⟩ := applyEnv_eq_ok.mp happlied
    obtain ⟨listen, hlisten, h⟩ := Result.bind_eq_ok.mp h
    obtain ⟨auth, hauth, h⟩ := Result.bind_eq_ok.mp h
    obtain ⟨policy, hpolicy, h⟩ := Result.bind_eq_ok.mp h
    obtain ⟨tls, htls, h⟩ := Result.bind_eq_ok.mp h
    obtain rfl := Except.ok.inj h
    obtain ⟨hports, hpolicy⟩ := fromConfig_eq_ok.mp hpolicy
    exact ⟨wrote, hwrote, hgiven, orError_eq_ok.mp hlisten, new_eq_ok.mp hauth, hports, hpolicy, rfl,
      rfl, readIdentity_eq_ok.mp htls⟩
  · rintro ⟨wrote, hwrote, h⟩
    have hsome : wrote.effectiveTokens machine.env ≠ [] := h.tokens ▸ serving.auth.nonempty
    refine ⟨_, load_eq_ok.mpr ⟨wrote, _, hwrote,
      applyEnv_eq_ok.mpr ⟨h.listen_given, fun _ => hsome, rfl⟩, rfl⟩, ?_⟩
    refine Result.bind_eq_ok.mpr ⟨_, orError_eq_ok.mpr h.listen, ?_⟩
    refine Result.bind_eq_ok.mpr ⟨_, new_eq_ok.mpr h.tokens, ?_⟩
    refine Result.bind_eq_ok.mpr ⟨_, fromConfig_eq_ok.mpr ⟨h.ports, h.policy⟩, ?_⟩
    refine Result.bind_eq_ok.mpr ⟨_, readIdentity_eq_ok.mpr h.tls, ?_⟩
    exact congrArg Except.ok (by rw [← h.idleTimeout, ← h.streamLimit])

/-! ## What a server keeps to -/

/-- In this state the server has kept to what was written. -/
structure Obeys (machine : Machine) (wrote : Settings) (toStr : Bytes → Option Text)
    (metadata : MetadataMap) (s : ServerState) : Prop where
  /-- Nothing is looked up or dialed without a token that is in effect. -/
  tokens : s.lookups ≠ [] ∨ s.dials ≠ [] → ∃ raw value, metadata.authorization = some raw ∧
    toStr raw = some value ∧ metadataToken value ≠ [] ∧
    metadataToken value ∈ wrote.effectiveTokens machine.env
  /-- An empty list of ports allows them all. -/
  ports : s.PortsKept → ∀ dial ∈ s.dials, dial.1.port ≠ 0 ∧
    (wrote.policy.allowedPorts ≠ [] → dial.1.port ∈ wrote.policy.allowedPorts)
  addresses : wrote.policy.denyPrivateIp = true → ∀ dial ∈ s.dials, denied dial.1.ip = false
  peers : wrote.policy.denyPrivateIp = true → ∀ t, s.target = some t →
    ∀ peer, t.peer = some peer → denied peer.ip = false

section enforced
variable {machine : Machine} {path : Option Text} {serving : Serving} {wrote : Settings}
  {toStr : Bytes → Option Text} {text : IpText} {metadata : MetadataMap} {targetInput : Bytes}
  {s : ServerState}

theorem Serves.denyPrivateIp (h : Serves machine wrote serving) :
    serving.policy.denyPrivateIp = wrote.policy.denyPrivateIp := by
  rw [h.policy]

/-- A list that is not empty is in force. -/
theorem Serves.allowedPorts (h : Serves machine wrote serving)
    (hsome : wrote.policy.allowedPorts ≠ []) :
    serving.policy.allowedPorts = some wrote.policy.allowedPorts := by
  rw [h.policy]
  exact if_neg (by simpa using hsome)

/-- What was checked of a dial is what was written. -/
theorem Serves.dialed (h : Serves machine wrote serving)
    (hguarded : ServerState.Guarded (serving.config toStr text) metadata s) (hports : s.PortsKept)
    {dial : SocketAddr × DialOutcome} (hdial : dial ∈ s.dials) : dial.1.port ≠ 0 ∧
      (wrote.policy.allowedPorts ≠ [] → dial.1.port ∈ wrote.policy.allowedPorts) := by
  obtain ⟨target, addrs, hadmitted, hpre⟩ := hguarded.admitted_dialed (List.ne_nil_of_mem hdial)
  have hport := hadmitted.dial_port hports _ (hpre.subset (List.mem_map_of_mem hdial))
  have hpos := hadmitted.port_range.1
  -- the port of the frame fits in 16 bits, and is the one that was dialed
  have hnarrow : target.targetPort.toUInt16 = dial.1.port := by
    apply UInt16.toNat_inj.mp
    rw [hport, UInt32.toNat_toUInt16]
    exact Nat.mod_eq_of_lt (Nat.lt_succ_of_le hadmitted.port_range.2)
  refine ⟨fun hzero => ?_, fun hsome => ?_⟩
  · rw [hzero] at hport
    rw [← hport] at hpos
    exact Nat.not_succ_le_zero 0 hpos
  · exact hnarrow ▸ hadmitted.port_allowed _ (h.allowedPorts hsome)

theorem Serves.obeys (h : Serves machine wrote serving)
    (hr : (ServerState.system (serving.config toStr text) metadata targetInput).Reachable s) :
    Obeys machine wrote toStr metadata s := by
  have hguarded := (ServerState.inv_and_guarded hr).2
  have hpass : ∀ ip, wrote.policy.denyPrivateIp = true →
      serving.policy.checkIp ip = .ok () → denied ip = false :=
    fun ip hdeny hcheck => checkIp_eq_ok.mp hcheck (h.denyPrivateIp.trans hdeny)
  refine
    { tokens := fun htouched => ?_
      ports := fun hports dial hdial => h.dialed hguarded hports hdial
      addresses := fun hdeny dial hdial => ?_
      peers := fun hdeny t ht peer hpeer => ?_ }
  · obtain ⟨raw, value, hraw, hvalue, hsome, hmem⟩ := hguarded.let_in_touched htouched
    exact ⟨raw, value, hraw, hvalue, hsome, h.tokens ▸ hmem⟩
  · obtain ⟨target, addrs, hadmitted, hpre⟩ := hguarded.admitted_dialed (List.ne_nil_of_mem hdial)
    have hmem : dial.1 ∈ addrs := hpre.subset (List.mem_map_of_mem hdial)
    exact hpass _ hdeny (hadmitted.all_pass _ hmem)
  · exact hpass _ hdeny ((hguarded.target_passed t ht).2 peer hpeer)

/-- Without a file the tokens can only come from the environment. -/
theorem Serves.tokens_given (h : Serves machine wrote serving) (hwrote : machine.Wrote none wrote) :
    machine.env.tokens ≠ none := by
  intro hnone
  have htokens := h.tokens
  cases hwrote
  rw [Config.effectiveTokens, hnone] at htokens
  exact serving.auth.nonempty htokens

/-- **A server that starts obeys its operator**: it starts with what the file says,
    or the default settings without one, but for the variables of the
    environment, which come before both; it never starts with no token at all; it
    uses TLS exactly if both files are named; and in every state of every tunnel
    it has kept to these settings, whatever the client, the resolver and the
    network do. -/
theorem operator_obeyed (h : main machine path = .ok serving) :
    ∃ wrote, machine.Wrote path wrote ∧ Serves machine wrote serving ∧
      (path = none → wrote = .default ∧ machine.env.tokens ≠ none) ∧
      (serving.tls ≠ none ↔ wrote.cert ≠ none ∧ wrote.key ≠ none) ∧
      ∀ (toStr : Bytes → Option Text) (text : IpText) (metadata : MetadataMap)
        (targetInput : Bytes) (s : ServerState),
        (ServerState.system (serving.config toStr text) metadata targetInput).Reachable s →
        Obeys machine wrote toStr metadata s := by
  obtain ⟨wrote, hwrote, hserves⟩ := main_eq_ok.mp h
  refine ⟨wrote, hwrote, hserves, ?_, ?_, fun toStr text metadata targetInput s hr => ?_⟩
  · rintro rfl
    refine ⟨?_, hserves.tokens_given hwrote⟩
    cases hwrote
    rfl
  · have htls := hserves.tls
    generalize wrote.cert = cert, wrote.key = key, serving.tls = tls at htls
    cases htls <;> simp
  · exact hserves.obeys hr

end enforced

/-- A machine with nothing but a token in its environment. -/
def exampleMachine : Machine where
  readToString := fun _ => none
  fromToml := fun _ => none
  env := ⟨none, some " , secret-token".toList⟩
  parseListen := fun text => if text = defaultListen then some ⟨.v4 (.new 0 0 0 0), 50051⟩ else none
  read := fun _ => none
  tlsConfig := fun _ _ => .ok ()

def exampleServing : Serving where
  listen := ⟨.v4 (.new 0 0 0 0), 50051⟩
  auth := ⟨["secret-token".toList], List.cons_ne_nil _ _⟩
  policy := ⟨8000, true, none⟩
  idleTimeout := 300
  streamLimit := 4096
  tls := none

theorem exampleServing_started : main exampleMachine none = .ok exampleServing := by
  have htokens : Settings.default.effectiveTokens exampleMachine.env = ["secret-token".toList] := by
    decide +kernel
  refine main_eq_ok.mpr ⟨.default, .default, fun _ h => (by cases h), rfl, htokens.symm, ?_, rfl, rfl,
    rfl, .noCert none⟩
  exact List.not_mem_nil

/-- A request with the token. -/
def exampleMetadata : MetadataMap := ⟨some (Text.asBytes "Bearer secret-token".toList)⟩

/-- `to_str` as far as it is needed for this request. -/
def exampleToStr (raw : Bytes) : Option Text :=
  if raw = Text.asBytes "Bearer secret-token".toList then some "Bearer secret-token".toList else none

/-- A run in which the second address takes the connect. -/
def exampleRun : List ServerLabel :=
  [.authenticate, .recv (some (.ok (openFrame ⟨"a.example".toList, 80, []⟩))),
    .resolve (.ok [⟨.v4 (.new 1 1 1 1), 80⟩, ⟨.v4 (.new 8 8 8 8), 80⟩]), .dial .timedOut,
    .dial (.connected (some ⟨.v4 (.new 8 8 8 8), 80⟩))]

theorem exampleRun_reaches : ∃ s,
    (ServerState.system (exampleServing.config exampleToStr .std) exampleMetadata []).Reachable
      s ∧ s.dials.length = 2 ∧ s.target ≠ none := by
  obtain ⟨s, hrun⟩ : ∃ s, (ServerState.system (exampleServing.config exampleToStr .std)
      exampleMetadata []).run (.fresh []) exampleRun = some s := ⟨_, rfl⟩
  refine ⟨s, Lts.System.reachable_of_run (.init rfl) hrun, ?_, ?_⟩
  · obtain rfl := Option.some.inj hrun
    rfl
  · obtain rfl := Option.some.inj hrun
    exact fun h => (by cases h)

/-- What is dialed without a file is not denied. -/
theorem operator_obeyed_example : ∃ s : ServerState, s.dials.length = 2 ∧
    ∀ dial ∈ s.dials, denied dial.1.ip = false := by
  obtain ⟨wrote, hwrote, -, hdefault, -, hobeys⟩ := operator_obeyed exampleServing_started
  obtain ⟨rfl, -⟩ := hdefault rfl
  obtain ⟨s, hr, hdials, -⟩ := exampleRun_reaches
  exact ⟨s, hdials, (hobeys _ _ _ _ s hr).addresses rfl⟩

/-! ## What is logged of a token -/

/-- `&text[..n]`: the first `n` bytes, if they are whole characters. -/
def sliceTo : Nat → Text → Eval Text
  | 0, _ => .ok []
  | _ + 1, [] => .error (.panic .sliceOutOfBounds)
  | n + 1, c :: text =>
    if c.utf8Size ≤ n + 1 then do
      let more ← sliceTo (n + 1 - c.utf8Size) text
      return c :: more
    else .error (.panic .sliceOutOfBounds)

/-- `redact_token`. -/
def redactToken (token : Text) : Eval Text :=
  if Text.len token ≤ 8 then .ok "<redacted>".toList
  else do
    let shown ← sliceTo 4 token
    return shown ++ "...".toList

/-- Of a token that is not ASCII there may be nothing to show. -/
example : redactToken "abcé12345".toList = .error (.panic .sliceOutOfBounds) := by decide

theorem utf8Size_ascii {c : Char} (hc : c.toNat < 0x80) : c.utf8Size = 1 := by
  have hlength := congrArg List.length (Text.asBytes_ascii hc)
  rwa [String.length_utf8EncodeChar] at hlength

theorem len_ascii {text : Text} (h : ∀ c ∈ text, c.toNat < 0x80) : Text.len text = text.length := by
  induction text with
  | nil => rfl
  | cons c text ih =>
    rw [Text.len_cons, utf8Size_ascii (h c List.mem_cons_self),
      ih fun c hc => h c (List.mem_cons_of_mem _ hc), List.length_cons, Nat.add_comm]

/-- In ASCII every byte is a boundary. -/
theorem sliceTo_ascii {text : Text} (h : ∀ c ∈ text, c.toNat < 0x80) {n : Nat}
    (hn : n ≤ text.length) : sliceTo n text = .ok (text.take n) := by
  induction text generalizing n with
  | nil =>
    obtain rfl := Nat.le_zero.mp hn
    rfl
  | cons c text ih =>
    cases n with
    | zero => rfl
    | succ n =>
      have hone := utf8Size_ascii (h c List.mem_cons_self)
      have hrest := ih (fun c hc => h c (List.mem_cons_of_mem _ hc)) (Nat.le_of_succ_le_succ hn)
      rw [sliceTo, hone, if_pos (Nat.le_add_left 1 n), Nat.add_sub_cancel, hrest]
      exact congrArg Except.ok List.take_succ_cons.symm

/-- What may be logged of a token: nothing, or four characters of nine at least. -/
inductive Redacts (token : Text) : Text → Prop where
  | hidden (hshort : token.length ≤ 8) : Redacts token "<redacted>".toList
  | shown {first hidden : Text} (hsplit : token = first ++ hidden) (hfirst : first.length = 4)
      (hhidden : 5 ≤ hidden.length) : Redacts token (first ++ "...".toList)

theorem redactToken_ascii {token : Text} (h : ∀ c ∈ token, c.toNat < 0x80) :
    ∃ shown, redactToken token = .ok shown ∧ Redacts token shown := by
  rw [redactToken, len_ascii h]
  split
  · next hshort => exact ⟨_, rfl, .hidden hshort⟩
  · next hlong =>
    rw [sliceTo_ascii h (by omega)]
    refine ⟨_, rfl, .shown (List.take_append_drop 4 token).symm ?_ ?_⟩
    · exact List.length_take_of_le (by omega)
    · rw [List.length_drop]
      omega

theorem metadataToken_within (value : Text) : metadataToken value <:+: value := by
  refine (Str.trim_infix _).trans ?_
  cases hupper : Str.stripPrefix "Bearer ".toList value with
  | some rest =>
    obtain rfl := Str.stripPrefix_eq_some.mp hupper
    exact (List.suffix_append _ _).isInfix
  | none =>
    cases hlower : Str.stripPrefix "bearer ".toList value with
    | some rest =>
      obtain rfl := Str.stripPrefix_eq_some.mp hlower
      exact (List.suffix_append _ _).isInfix
    | none => exact List.infix_rfl

/-- **The log line never costs a tunnel and never shows a token**: in every state
    with a target, in every run, `redact_token` of the principal returns, though it
    cuts the token at a byte, and shows nothing of it, or four characters of nine
    or more. -/
theorem token_redacted {config : ServerConfig} {metadata : MetadataMap} {targetInput : Bytes}
    {s : ServerState}
    (hascii : ∀ raw value, config.toStr raw = some value → ∀ c ∈ value, c.toNat < 0x80)
    (hr : (ServerState.system config metadata targetInput).Reachable s) (htarget : s.target ≠ none) :
    ∃ principal shown, config.auth.authenticate config.toStr metadata = .ok principal ∧
      redactToken principal = .ok shown ∧ Redacts principal shown := by
  have hguarded := (ServerState.inv_and_guarded hr).2
  obtain ⟨t, ht⟩ := Option.ne_none_iff_exists'.mp htarget
  have hdials : s.dials ≠ [] :=
    List.ne_nil_of_mem (List.mem_of_getLast? (hguarded.target_passed t ht).1)
  obtain ⟨principal, hauth⟩ := letIn_iff.mp (hguarded.let_in_touched (.inr hdials))
  obtain ⟨raw, value, -, hvalue, rfl, -, -⟩ := TokenAuth.authenticate_eq_ok.mp hauth
  obtain ⟨shown, hshown, hredacts⟩ := redactToken_ascii fun c hc =>
    hascii raw value hvalue c ((metadataToken_within value).subset hc)
  exact ⟨_, shown, hauth, hshown, hredacts⟩

theorem token_redacted_example : ∃ principal shown,
    exampleServing.auth.authenticate exampleToStr exampleMetadata = .ok principal ∧
      redactToken principal = .ok shown ∧ Redacts principal shown := by
  obtain ⟨s, hr, -, htarget⟩ := exampleRun_reaches
  refine token_redacted (fun raw value hvalue => ?_) hr htarget
  obtain ⟨-, hsome⟩ := Option.ite_none_right_eq_some.mp hvalue
  obtain rfl := Option.some.inj hsome
  have hall : "Bearer secret-token".toList.all (fun c => c.toNat < 0x80) = true := by decide
  exact fun c hc => of_decide_eq_true (List.all_eq_true.mp hall c hc)

end EchProxy.Server
