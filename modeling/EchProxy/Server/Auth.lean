import EchProxy.Base
import EchProxy.Framework.Str

/-! # Backend Token Authentication (`server/src/auth.rs`)

    A tunnel request carries the backend token in its `authorization`
    metadata.  The server accepts the request if the token, taken with or
    without its scheme word and trimmed, is one of the configured tokens.
-/

namespace EchProxy.Server

/-- The request metadata the server reads: the raw value of the
    `authorization` key, if the key is present. -/
structure MetadataMap where
  authorization : Option Bytes

/-- The reasons for which `authenticate` answers `UNAUTHENTICATED`. -/
inductive AuthError where
  | missing
  | invalidMetadata
  | invalidToken
  deriving DecidableEq, Repr

/-- The status message of each reason. -/
def AuthError.message : AuthError → String
  | .missing => "missing authorization metadata"
  | .invalidMetadata => "invalid authorization metadata"
  | .invalidToken => "invalid backend token"

/-- The configured tokens; there is at least one. -/
structure TokenAuth where
  tokens : List Text
  nonempty : tokens ≠ []

/-- `TokenAuth::new`. -/
def TokenAuth.new (tokens : List Text) : Except String TokenAuth :=
  if h : tokens = [] then .error "auth.tokens must contain at least one token"
  else .ok ⟨tokens, h⟩

/-- The token inside a metadata value: the scheme word goes, if there is one,
    and white space around the rest. -/
def metadataToken (value : Text) : Text :=
  Str.trim <|
    ((Str.stripPrefix "Bearer ".toList value).or
      (Str.stripPrefix "bearer ".toList value)).getD value

/-- `TokenAuth::authenticate`; `toStr` is `MetadataValue::to_str`. -/
def TokenAuth.authenticate (auth : TokenAuth) (toStr : Bytes → Option Text)
    (metadata : MetadataMap) : Except AuthError Text := do
  let raw ← match metadata.authorization with
    | some raw => .ok raw
    | none => .error .missing
  let value ← match toStr raw with
    | some value => .ok value
    | none => .error .invalidMetadata
  let token := metadataToken value
  if token.isEmpty || !auth.tokens.contains token then
    .error .invalidToken
  else
    .ok token

/-- Whoever is let in named a configured token, and is known by it. -/
theorem TokenAuth.authenticate_eq_ok {auth : TokenAuth} {toStr : Bytes → Option Text}
    {metadata : MetadataMap} {token : Text} :
    auth.authenticate toStr metadata = .ok token ↔
      ∃ raw value, metadata.authorization = some raw ∧ toStr raw = some value ∧
        token = metadataToken value ∧ token ≠ [] ∧ token ∈ auth.tokens := by
  unfold authenticate
  cases hraw : metadata.authorization with
  | none => simp [bind, Except.bind]
  | some raw =>
    cases hvalue : toStr raw with
    | none => simp [hvalue, bind, Except.bind]
    | some value =>
      simp only [hvalue, bind, Except.bind, Option.some.injEq]
      -- the header and its text are there, so the token decides
      by_cases hmem : metadataToken value ≠ [] ∧ metadataToken value ∈ auth.tokens
      · rw [if_neg (by simp [hmem])]
        constructor
        · intro h
          obtain rfl := Except.ok.inj h
          exact ⟨raw, value, rfl, hvalue, rfl, hmem⟩
        · intro ⟨_, value', hraw', hvalue', htoken, _⟩
          rw [← hraw', hvalue, Option.some.injEq] at hvalue'
          rw [htoken, hvalue']
      · rw [if_pos (by simpa [or_iff_not_imp_left] using hmem)]
        constructor
        · intro h
          cases h
        · intro ⟨_, value', hraw', hvalue', htoken, hnonempty, htokens⟩
          rw [← hraw', hvalue, Option.some.injEq] at hvalue'
          rw [htoken, ← hvalue'] at hnonempty htokens
          exact absurd ⟨hnonempty, htokens⟩ hmem

end EchProxy.Server
