import EchProxy.Base
import EchProxy.Framework.Assoc
import EchProxy.Framework.Result

/-! # Local Users (`client/src/auth.rs`)

    A hash map is a list of entries with a lookup; the list stands for the
    order in which the map happens to be walked.
-/

namespace EchProxy

/-- `HashMap<String, α>`. -/
abbrev HashMap (α : Type) := List (Text × α)

/-- `UserConfig`. -/
structure UserConfig where
  backend : Text
  password : Option Text
  passwordHash : Option Text
  deriving DecidableEq

/-- `UserProfile`. -/
structure UserProfile where
  username : Text
  password : Text
  backend : Text
  deriving DecidableEq

/-- `AuthStore`. -/
structure AuthStore where
  users : HashMap UserProfile
  deriving DecidableEq

namespace AuthStore

/-- The profile of one entry. -/
def profile (username : Text) (user : UserConfig) : Except String UserProfile :=
  match user.password.or user.passwordHash with
  | none => .error s!"users.{String.ofList username} must set password"
  | some password => .ok ⟨username, password, user.backend⟩

/-- `AuthStore::from_config`. -/
def fromConfig (users : HashMap UserConfig) : Except String AuthStore :=
  if users = [] then .error "users must contain at least one user"
  else do
    let profiles ← users.mapM fun entry => do return (entry.1, ← profile entry.1 entry.2)
    return ⟨profiles⟩

def user (auth : AuthStore) (username : Text) : Option UserProfile :=
  auth.users.lookup username

/-- `AuthStore::authenticate`. -/
def authenticate (auth : AuthStore) (username password : Text) : Option UserProfile := do
  let user ← auth.users.lookup username
  if user.password = password then return user else none

/-- Whoever is let in gave the password of the profile that is found. -/
theorem authenticate_eq_some {auth : AuthStore} {username password : Text} {user : UserProfile} :
    auth.authenticate username password = some user ↔
      auth.user username = some user ∧ user.password = password := by
  simp only [authenticate, AuthStore.user, Option.bind_eq_bind, Option.bind_eq_some_iff,
    Option.ite_none_right_eq_some, Option.pure_def, Option.some.injEq]
  constructor
  · rintro ⟨found, hfound, hpassword, rfl⟩
    exact ⟨hfound, hpassword⟩
  · intro ⟨hfound, hpassword⟩
    exact ⟨user, hfound, hpassword, rfl⟩

theorem profile_spec {username : Text} {user : UserConfig} {found : UserProfile}
    (h : profile username user = .ok found) :
    found.username = username ∧ found.backend = user.backend := by
  unfold profile at h
  split at h
  · cases h
  · obtain rfl := Except.ok.inj h
    exact ⟨rfl, rfl⟩

/-- The profiles are made from the users, one by one. -/
theorem fromConfig_made {users : HashMap UserConfig} {auth : AuthStore}
    (h : fromConfig users = .ok auth) :
    Assoc.Made (fun username user found => profile username user = .ok found) users auth.users := by
  unfold fromConfig at h
  split at h
  · cases h
  · rw [Result.bind_eq_ok] at h
    obtain ⟨profiles, hprofiles, hauth⟩ := h
    obtain rfl := Except.ok.inj hauth
    refine (Result.forall₂_of_mapM hprofiles).imp ?_
    intro entry stored hstored
    rw [Result.bind_eq_ok] at hstored
    obtain ⟨found, hfound, heq⟩ := hstored
    obtain rfl := Except.ok.inj heq
    exact ⟨rfl, hfound⟩

/-- What a profile is made from. -/
theorem config_of_user {users : HashMap UserConfig} {auth : AuthStore} {username : Text}
    {found : UserProfile} (hstore : fromConfig users = .ok auth)
    (h : auth.user username = some found) :
    ∃ user, users.lookup username = some user ∧ profile username user = .ok found := by
  have hrel := (fromConfig_made hstore).lookup username
  rw [show auth.users.lookup username = some found from h] at hrel
  cases hlookup : users.lookup username with
  | none =>
    rw [hlookup] at hrel
    cases hrel
  | some user =>
    rw [hlookup] at hrel
    cases hrel with
    | some hprofile => exact ⟨user, rfl, hprofile⟩

/-- A store keeps every profile under its own name. -/
theorem username_of_user {users : HashMap UserConfig} {auth : AuthStore} {username : Text}
    {found : UserProfile} (hstore : fromConfig users = .ok auth)
    (h : auth.user username = some found) : found.username = username := by
  obtain ⟨user, -, hprofile⟩ := config_of_user hstore h
  exact (profile_spec hprofile).1

end AuthStore

end EchProxy
