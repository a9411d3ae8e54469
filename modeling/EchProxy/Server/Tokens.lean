import EchProxy.Framework.Result
import EchProxy.Server.Auth

/-! # Backend Tokens from End to End

    The server takes its tokens from its configuration file or from the
    environment (`server/src/config.rs`), the client sends its own as
    metadata (`relay_grpc` in `client/src/tunnel.rs`), and the server checks
    what it is sent (`server/src/auth.rs`).  White space at the ends goes when
    tokens are read from the environment and when they are checked, and stays
    when they are read from the file and when they are sent.
-/

namespace EchProxy.Server

/-! ## The tokens of the server -/

/-- `Config`, by what `apply_env` writes. -/
structure Config where
  listen : Text
  tokens : List Text
  deriving DecidableEq

/-- The environment variables `LISTEN` and `TOKENS`. -/
structure Env where
  listen : Option Text
  tokens : Option Text

def parseTokens (raw : Text) : Except String (List Text) :=
  let tokens := ((Str.split ',' raw).map Str.trim).filter fun token => !token.isEmpty
  if tokens = [] then .error "TOKENS must contain at least one non-empty token"
  else .ok tokens

/-- `LISTEN` in `Config::apply_env`. -/
def Config.applyListen (config : Config) : Option Text → Except String Config
  | some listen =>
    let listen := Str.trim listen
    if listen = [] then .error "LISTEN must not be empty" else .ok { config with listen }
  | none => .ok config

/-- `TOKENS` in `Config::apply_env`. -/
def Config.applyTokens (config : Config) : Option Text → Except String Config
  | some raw => do
    let tokens ← parseTokens raw
    return { config with tokens }
  | none => .ok config

/-- `Config::apply_env`. -/
def Config.applyEnv (config : Config) (env : Env) : Except String Config := do
  let config ← config.applyListen env.listen
  config.applyTokens env.tokens

/-- Tokens without white space at their ends. -/
def Trimmed (tokens : List Text) : Prop := ∀ token ∈ tokens, Str.trim token = token

/-- The tokens of the variable are its pieces without the white space. -/
theorem parseTokens_eq_ok {raw : Text} {tokens : List Text} (h : parseTokens raw = .ok tokens) :
    tokens ≠ [] ∧ Trimmed tokens ∧ ∀ token, token ∈ tokens ↔
      token ≠ [] ∧ ∃ piece ∈ Str.split ',' raw, Str.trim piece = token := by
  rw [parseTokens] at h
  by_cases hempty : ((Str.split ',' raw).map Str.trim).filter (fun token => !token.isEmpty) = []
  · rw [if_pos hempty] at h
    cases h
  · rw [if_neg hempty] at h
    obtain rfl := Except.ok.inj h
    have hmem : ∀ token, token ∈ ((Str.split ',' raw).map Str.trim).filter
        (fun token => !token.isEmpty) ↔
          token ≠ [] ∧ ∃ piece ∈ Str.split ',' raw, Str.trim piece = token := by
      intro token
      simp [and_comm]
    refine ⟨hempty, ?_, hmem⟩
    intro token htoken
    obtain ⟨-, piece, -, rfl⟩ := (hmem token).mp htoken
    exact Str.trim_trim piece

theorem applyListen_tokens {config config' : Config} {listen : Option Text}
    (h : config.applyListen listen = .ok config') : config'.tokens = config.tokens := by
  cases listen with
  | none => exact Except.ok.inj h ▸ rfl
  | some listen =>
    rw [Config.applyListen] at h
    by_cases hempty : Str.trim listen = []
    · rw [if_pos hempty] at h
      cases h
    · rw [if_neg hempty] at h
      exact Except.ok.inj h ▸ rfl

/-- The variable replaces the tokens of the file. -/
theorem applyEnv_tokens {config config' : Config} {env : Env}
    (h : config.applyEnv env = .ok config') :
    (env.tokens = none ∧ config'.tokens = config.tokens) ∨
      ∃ raw, env.tokens = some raw ∧ parseTokens raw = .ok config'.tokens := by
  obtain ⟨config₁, hlisten, htokens⟩ := Result.bind_eq_ok.mp h
  cases hvar : env.tokens with
  | none =>
    rw [hvar] at htokens
    obtain rfl := Except.ok.inj htokens
    exact .inl ⟨rfl, applyListen_tokens hlisten⟩
  | some raw =>
    rw [hvar] at htokens
    obtain ⟨tokens, hparse, hconfig⟩ := Result.bind_eq_ok.mp htokens
    obtain rfl := Except.ok.inj hconfig
    exact .inr ⟨raw, rfl, hparse⟩

/-- The tokens have no white space at their ends, where the file has none. -/
theorem applyEnv_trimmed {config config' : Config} {env : Env}
    (h : config.applyEnv env = .ok config')
    (hfile : env.tokens ≠ none ∨ Trimmed config.tokens) : Trimmed config'.tokens := by
  rcases applyEnv_tokens h with ⟨hnone, hsame⟩ | ⟨raw, -, hparse⟩
  · rw [hsame]
    exact hfile.resolve_left (not_not_intro hnone)
  · exact (parseTokens_eq_ok hparse).2.1

/-! ## The token of the client -/

/-- Visible ASCII characters and spaces. -/
def Visible (text : Text) : Prop := ∀ c ∈ text, 0x20 ≤ c.toNat ∧ c.toNat ≤ 0x7e

instance (text : Text) : Decidable (Visible text) :=
  List.decidableBAll (fun c : Char => 0x20 ≤ c.toNat ∧ c.toNat ≤ 0x7e) text

/-- `MetadataValue<Ascii>`: what is visible is written and read as it is. -/
structure MetadataLib where
  /-- `MetadataValue::try_from` of a text. -/
  tryFrom : Text → Option Bytes
  /-- `MetadataValue::to_str`. -/
  toStr : Bytes → Option Text
  tryFrom_visible : ∀ value, Visible value → tryFrom value = some (Text.asBytes value)
  toStr_visible : ∀ value, Visible value → toStr (Text.asBytes value) = some value

/-- The metadata of the request of `relay_grpc`. -/
def requestMetadata (lib : MetadataLib) (authToken : Text) : Option MetadataMap :=
  (lib.tryFrom ("Bearer ".toList ++ authToken)).map fun value => ⟨some value⟩

/-- The scheme word goes once, whatever the token begins with. -/
theorem metadataToken_bearer (authToken : Text) :
    metadataToken ("Bearer ".toList ++ authToken) = Str.trim authToken := by
  rw [metadataToken, Str.stripPrefix_append, Option.some_or, Option.getD_some]

theorem visible_bearer {authToken : Text} (h : Visible authToken) :
    Visible ("Bearer ".toList ++ authToken) := by
  intro c hc
  have hscheme : Visible "Bearer ".toList := by decide
  rcases List.mem_append.mp hc with hc | hc
  · exact hscheme c hc
  · exact h c hc

/-- **What the server makes of what the client sends**: the token without white
    space at its ends, if that is configured. -/
theorem authenticate_requestMetadata (lib : MetadataLib) (auth : TokenAuth) {authToken : Text}
    (hvisible : Visible authToken) :
    ∃ metadata, requestMetadata lib authToken = some metadata ∧
      ∀ principal, auth.authenticate lib.toStr metadata = .ok principal ↔
        principal = Str.trim authToken ∧ principal ≠ [] ∧ principal ∈ auth.tokens := by
  have hvalue := visible_bearer hvisible
  have hsent := lib.tryFrom_visible _ hvalue
  have hread := lib.toStr_visible _ hvalue
  refine ⟨⟨some (Text.asBytes ("Bearer ".toList ++ authToken))⟩, ?_, ?_⟩
  · rw [requestMetadata, hsent]
    rfl
  · intro principal
    rw [TokenAuth.authenticate_eq_ok]
    constructor
    · intro ⟨raw, value, hraw, hstr, htoken, haccepted⟩
      obtain rfl := Option.some.inj hraw
      rw [hread, Option.some.injEq] at hstr
      rw [← hstr, metadataToken_bearer] at htoken
      exact ⟨htoken, haccepted⟩
    · intro ⟨htoken, haccepted⟩
      refine ⟨_, _, rfl, hread, ?_, haccepted⟩
      rw [metadataToken_bearer]
      exact htoken

/-- Visible ASCII text as metadata, and nothing else. -/
def asciiMetadata : MetadataLib where
  tryFrom value := if Visible value then some (Text.asBytes value) else none
  toStr raw := (Text.fromUtf8 raw).filter fun value => Visible value
  tryFrom_visible := by
    intro value hvalue
    exact if_pos hvalue
  toStr_visible := by
    intro value hvalue
    rw [Text.fromUtf8_asBytes]
    exact Option.filter_eq_some_iff.mpr ⟨rfl, decide_eq_true hvalue⟩

/-! ## Agreement -/

/-- The token ` a` is taken for the configured token `a`. -/
theorem padded_token_accepted :
    (Config.mk [] []).applyEnv ⟨none, some "a".toList⟩ = .ok ⟨[], ["a".toList]⟩ ∧
      ∃ auth metadata, TokenAuth.new ["a".toList] = .ok auth ∧
        requestMetadata asciiMetadata " a".toList = some metadata ∧
        auth.authenticate asciiMetadata.toStr metadata = .ok "a".toList ∧
        " a".toList ∉ auth.tokens := by
  refine ⟨by decide +kernel, ⟨["a".toList], by decide⟩, ?_⟩
  obtain ⟨metadata, hmetadata, haccepted⟩ :=
    authenticate_requestMetadata asciiMetadata ⟨["a".toList], by decide⟩
      (show Visible " a".toList by decide)
  refine ⟨metadata, rfl, hmetadata, ?_, by decide⟩
  exact (haccepted _).mpr ⟨by decide +kernel, by decide, by decide⟩

/-- **Client and server agree on tokens**, up to white space at the ends: a token
    without it is let in exactly if it is configured, and where the file has no
    token with it, a token counts as the configured one that is the same
    without. -/
theorem tokens_agree (lib : MetadataLib) {config config' : Config} {env : Env}
    (hload : config.applyEnv env = .ok config') (hsome : config'.tokens ≠ []) {authToken : Text}
    (hnonempty : authToken ≠ []) (hvisible : Visible authToken) :
    ∃ auth metadata, TokenAuth.new config'.tokens = .ok auth ∧
      requestMetadata lib authToken = some metadata ∧
      (Str.trim authToken = authToken →
        ∀ principal, auth.authenticate lib.toStr metadata = .ok principal ↔
          principal = authToken ∧ authToken ∈ config'.tokens) ∧
      (env.tokens ≠ none ∨ Trimmed config.tokens →
        ∀ principal, auth.authenticate lib.toStr metadata = .ok principal ↔
          principal = Str.trim authToken ∧ principal ≠ [] ∧
            ∃ token ∈ config'.tokens, Str.trim token = Str.trim authToken) := by
  have hnew : TokenAuth.new config'.tokens = .ok ⟨config'.tokens, hsome⟩ := dif_neg hsome
  obtain ⟨metadata, hmetadata, haccepted⟩ :=
    authenticate_requestMetadata lib ⟨config'.tokens, hsome⟩ hvisible
  refine ⟨_, metadata, hnew, hmetadata, ?_, ?_⟩
  · intro htrim principal
    rw [haccepted, htrim]
    constructor
    · intro ⟨heq, _, hmem⟩
      exact ⟨heq, heq ▸ hmem⟩
    · intro ⟨heq, hmem⟩
      rw [heq]
      exact ⟨rfl, hnonempty, hmem⟩
  -- every configured token is its own trimmed form
  · intro hfile principal
    have htrimmed := applyEnv_trimmed hload hfile
    rw [haccepted]
    constructor
    · intro ⟨heq, hne, hmem⟩
      exact ⟨heq, hne, principal, hmem, heq ▸ htrimmed principal hmem⟩
    · intro ⟨heq, hne, token, htoken, hsame⟩
      rw [htrimmed token htoken, ← heq] at hsame
      exact ⟨heq, hne, hsame ▸ htoken⟩

/-- A token that begins with the scheme word, from a list in the environment. -/
theorem tokens_agree_example :
    ∃ auth metadata, TokenAuth.new ["a b".toList, "Bearer c".toList] = .ok auth ∧
      requestMetadata asciiMetadata "Bearer c".toList = some metadata ∧
      auth.authenticate asciiMetadata.toStr metadata = .ok "Bearer c".toList := by
  have hload : (Config.mk [] []).applyEnv ⟨none, some " a b,, Bearer c".toList⟩ =
      .ok ⟨[], ["a b".toList, "Bearer c".toList]⟩ := by
    decide +kernel
  have hvisible : Visible "Bearer c".toList := by
    decide
  obtain ⟨auth, metadata, hauth, hmetadata, haccepted, -⟩ :=
    tokens_agree asciiMetadata hload (by decide) (by decide) hvisible
  refine ⟨auth, metadata, hauth, hmetadata, ?_⟩
  exact (haccepted (by decide +kernel) _).mpr ⟨rfl, by decide⟩

end EchProxy.Server
