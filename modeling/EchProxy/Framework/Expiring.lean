import Mathlib.Data.List.Basic
import Mathlib.Tactic.Common

/-! # Entries that Expire

    A map whose entries have a time at which they are over, beside the log of
    all entries that were put into it.  Entries that are over may be removed at
    any time: whoever looks only for entries that are not over cannot tell the
    map from the log.
-/

namespace Expiring

variable {K V : Type}

/-- A value, and the time at which it is over. -/
structure Entry (V : Type) where
  value : V
  expiresAt : Nat
  deriving DecidableEq

/-- A map. -/
abbrev Store (K V : Type) := K → Option (Entry V)

/-- An entry that is put into the map. -/
structure Put (K V : Type) where
  key : K
  entry : Entry V
  deriving DecidableEq

/-! ## The log -/

section log
variable [DecidableEq K]

/-- The entry that was put last under a key. -/
def latest (key : K) : List (Put K V) → Option (Entry V)
  | [] => none
  | put :: puts => (latest key puts).or (if put.key = key then some put.entry else none)

theorem latest_concat (key : K) (puts : List (Put K V)) (put : Put K V) :
    latest key (puts ++ [put]) = if put.key = key then some put.entry else latest key puts := by
  induction puts with
  | nil =>
    rw [List.nil_append, latest, latest]
    rfl
  | cons first puts ih =>
    rw [List.cons_append, latest, ih, latest]
    split <;> rfl

theorem latest_eq_none {key : K} {puts : List (Put K V)} :
    latest key puts = none ↔ ∀ put ∈ puts, put.key ≠ key := by
  induction puts with
  | nil => exact ⟨fun _ put hput => absurd hput List.not_mem_nil, fun _ => rfl⟩
  | cons first puts ih =>
    rw [latest, Option.or_eq_none_iff, ih, List.forall_mem_cons]
    by_cases hkey : first.key = key
    · rw [if_pos hkey]
      constructor
      · intro ⟨_, hnone⟩
        cases hnone
      · intro ⟨hne, _⟩
        exact absurd hkey hne
    · rw [if_neg hkey]
      constructor
      · intro ⟨hrest, _⟩
        exact ⟨hkey, hrest⟩
      · intro ⟨_, hrest⟩
        exact ⟨hrest, rfl⟩

/-- It was put, and nothing else was put under the key after it. -/
theorem latest_eq_some {key : K} {puts : List (Put K V)} {e : Entry V} :
    latest key puts = some e ↔
      ∃ before after, puts = before ++ ⟨key, e⟩ :: after ∧ ∀ put ∈ after, put.key ≠ key := by
  induction puts with
  | nil => simp [latest]
  | cons first puts ih =>
    rw [latest]
    constructor
    · intro h
      cases hrest : latest key puts with
      -- a later put for the key wins
      | some e' =>
        rw [hrest, Option.some_or, Option.some.injEq] at h
        obtain ⟨before, after, rfl, hafter⟩ := ih.mp (hrest.trans (congrArg some h))
        exact ⟨first :: before, after, rfl, hafter⟩
      | none =>
        rw [hrest, Option.none_or, Option.ite_none_right_eq_some, Option.some.injEq] at h
        obtain ⟨rfl, rfl⟩ := h
        exact ⟨[], puts, rfl, latest_eq_none.mp hrest⟩
    · intro ⟨before, after, hsplit, hafter⟩
      cases before with
      | nil =>
        obtain ⟨rfl, rfl⟩ := List.cons.inj hsplit
        rw [latest_eq_none.mpr hafter, if_pos rfl, Option.none_or]
      | cons _ before =>
        obtain ⟨rfl, rfl⟩ := List.cons.inj hsplit
        rw [ih.mpr ⟨before, after, rfl, hafter⟩, Option.some_or]

/-! ## The map and its log -/

/-- An entry is put under its key. -/
def Store.insert (store : Store K V) (key : K) (e : Entry V) : Store K V :=
  fun other => if other = key then some e else store other

/-- The entry under a key is removed. -/
def Store.remove (store : Store K V) (key : K) : Store K V :=
  fun other => if other = key then none else store other

/-- Under each key there is the entry that was put last, or it is over. -/
def Agrees (store : Store K V) (puts : List (Put K V)) (now : Nat) : Prop :=
  ∀ key, store key = latest key puts ∨
    (store key = none ∧ ∀ e, latest key puts = some e → e.expiresAt ≤ now)

section agrees
variable {store : Store K V} {puts : List (Put K V)} {key : K} {now : Nat}

theorem agrees_empty (now : Nat) : Agrees (fun _ => none : Store K V) [] now :=
  fun _ => .inl rfl

/-- What is over stays so. -/
theorem Agrees.later (h : Agrees store puts now) {now' : Nat} (hle : now ≤ now') :
    Agrees store puts now' := by
  intro key
  rcases h key with hsame | ⟨hnone, hover⟩
  · exact .inl hsame
  · exact .inr ⟨hnone, fun e he => Nat.le_trans (hover e he) hle⟩

theorem Agrees.insert (h : Agrees store puts now) (key : K) (e : Entry V) :
    Agrees (store.insert key e) (puts ++ [⟨key, e⟩]) now := by
  intro other
  rw [latest_concat, Store.insert]
  by_cases hkey : other = key
  · rw [if_pos hkey, if_pos hkey.symm]
    exact .inl rfl
  · rw [if_neg hkey, if_neg (Ne.symm hkey)]
    exact h other

/-- An entry may be removed when it is over. -/
theorem Agrees.remove (h : Agrees store puts now)
    (hover : ∀ e, store key = some e → e.expiresAt ≤ now) : Agrees (store.remove key) puts now := by
  intro other
  rw [Store.remove]
  by_cases hkey : other = key
  · rw [if_pos hkey, hkey]
    refine .inr ⟨rfl, fun e he => ?_⟩
    rcases h key with hsame | ⟨-, hold⟩
    · exact hover e (hsame.trans he)
    · exact hold e he
  · rw [if_neg hkey]
    exact h other

/-- **The live entries of the map are those of the log.** -/
theorem Agrees.live (h : Agrees store puts now) (key : K) {e : Entry V} (hlive : now < e.expiresAt) :
    store key = some e ↔ latest key puts = some e := by
  rcases h key with hsame | ⟨hnone, hover⟩
  · rw [hsame]
  · rw [hnone]
    constructor
    · intro hfound
      cases hfound
    · intro hlatest
      have hpast := hover e hlatest
      omega

end agrees

end log

end Expiring
