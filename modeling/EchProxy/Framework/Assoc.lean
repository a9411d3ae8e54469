import Mathlib.Data.List.Forall2
import Mathlib.Data.List.Nodup
import Mathlib.Data.List.Perm.Basic
import Mathlib.Tactic.Common

/-! # Association Lists

    A table is a list of entries with a lookup that takes the first.  With
    distinct keys the order of the entries does not matter; and a table that is
    made from another one, entry by entry, answers a lookup with what was made
    from the other's answer.
-/

namespace Assoc

variable {κ : Type u} {α : Type v} {β : Type w} [BEq κ] [LawfulBEq κ]

/-- No key stands twice. -/
def Distinct {κ : Type u} {α : Type v} (entries : List (κ × α)) : Prop :=
  (entries.map Prod.fst).Nodup

theorem mem_of_lookup {entries : List (κ × α)} {k : κ} {a : α}
    (h : entries.lookup k = some a) : (k, a) ∈ entries := by
  obtain ⟨before, after, rfl, -⟩ := List.lookup_eq_some_iff.mp h
  exact List.mem_append_right _ List.mem_cons_self

theorem lookup_of_mem {entries : List (κ × α)} {k : κ} {a : α} (hdistinct : Distinct entries)
    (hmem : (k, a) ∈ entries) : entries.lookup k = some a := by
  obtain ⟨before, after, rfl⟩ := List.append_of_mem hmem
  rw [List.lookup_eq_some_iff]
  refine ⟨before, after, rfl, ?_⟩
  intro entry hentry
  rw [Distinct, List.map_append, List.map_cons] at hdistinct
  have hne := (List.nodup_middle.mp hdistinct).notMem
  rw [bne_iff_ne]
  intro heq
  exact hne (List.mem_append_left _ (List.mem_map.mpr ⟨entry, hentry, heq.symm⟩))

theorem lookup_eq_some_iff_mem {entries : List (κ × α)} {k : κ} {a : α}
    (hdistinct : Distinct entries) : entries.lookup k = some a ↔ (k, a) ∈ entries :=
  ⟨mem_of_lookup, lookup_of_mem hdistinct⟩

theorem Distinct.perm {κ : Type u} {α : Type v} {entries entries' : List (κ × α)}
    (h : Distinct entries) (hperm : entries'.Perm entries) : Distinct entries' :=
  (hperm.map Prod.fst).nodup_iff.mpr h

/-- The order of a table with distinct keys does not matter. -/
theorem lookup_perm {entries entries' : List (κ × α)} (hdistinct : Distinct entries)
    (hperm : entries'.Perm entries) (k : κ) : entries'.lookup k = entries.lookup k := by
  have hdistinct' : Distinct entries' := hdistinct.perm hperm
  apply Option.ext
  intro a
  rw [lookup_eq_some_iff_mem hdistinct, lookup_eq_some_iff_mem hdistinct', hperm.mem_iff]

/-- A table made from another one, entry by entry. -/
def Made (R : κ → α → β → Prop) : List (κ × α) → List (κ × β) → Prop :=
  List.Forall₂ fun entry made => made.1 = entry.1 ∧ R entry.1 entry.2 made.2

/-- **Lookups of a table and of one made from it** find nothing, or an entry and
    what was made from it. -/
theorem Made.lookup {R : κ → α → β → Prop} {entries : List (κ × α)} {made : List (κ × β)}
    (h : Made R entries made) (k : κ) : Option.Rel (R k) (entries.lookup k) (made.lookup k) := by
  induction h with
  | nil => exact .none
  | @cons entry m entries made hentry _ ih =>
    obtain ⟨key, a⟩ := entry
    obtain ⟨key', b⟩ := m
    obtain ⟨rfl, hR⟩ := hentry
    rw [List.lookup_cons, List.lookup_cons]
    by_cases hk : k = key'
    · subst hk
      rw [beq_self_eq_true]
      exact .some hR
    · rw [beq_false_of_ne hk]
      exact ih

omit [BEq κ] [LawfulBEq κ] in
theorem Made.keys {R : κ → α → β → Prop} {entries : List (κ × α)} {made : List (κ × β)}
    (h : Made R entries made) : made.map Prod.fst = entries.map Prod.fst := by
  induction h with
  | nil => rfl
  | cons hentry _ ih => rw [List.map_cons, List.map_cons, hentry.1, ih]

/-- **In another order the same is made**, in that order: a lookup answers alike. -/
theorem Made.reorder {R : κ → α → β → Prop} {entries entries' : List (κ × α)}
    {made : List (κ × β)} (h : Made R entries made) (hdistinct : Distinct entries)
    (hperm : entries'.Perm entries) :
    ∃ made', Made R entries' made' ∧ made'.Perm made ∧ ∀ k, made'.lookup k = made.lookup k := by
  obtain ⟨made', hmade', hperm'⟩ := List.perm_comp_forall₂ hperm h
  refine ⟨made', hmade', hperm', fun k => lookup_perm ?_ hperm' k⟩
  rw [Distinct, Made.keys h]
  exact hdistinct

end Assoc
