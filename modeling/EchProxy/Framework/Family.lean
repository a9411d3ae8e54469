import EchProxy.Framework.Lts
import Mathlib.Data.List.Perm.Basic
import Mathlib.Order.GameAdd

/-! # Families

    Any number of members of one kind, each with a state of its own, of which
    one moves at a time.  New members may join at the end.

    * **Accounts**: what is counted over all members changes by what it
      changes for the one that moves.
    * **Termination**: if no member can move forever, neither can the family.
-/

namespace Family

variable {α : Type u} {β : Type v}

/-! ## Accounts -/

section accounts
variable {xs : List α} {i : Nat} {a : α}

/-- A member and all the others. -/
theorem perm_cons_eraseIdx (h : xs[i]? = some a) : xs.Perm (a :: xs.eraseIdx i) := by
  obtain ⟨hlt, rfl⟩ := List.getElem?_eq_some_iff.mp h
  exact (List.getElem_cons_eraseIdx_perm hlt).symm

theorem perm_set (h : xs[i]? = some a) (b : α) : (xs.set i b).Perm (b :: xs.eraseIdx i) := by
  obtain ⟨hlt, -⟩ := List.getElem?_eq_some_iff.mp h
  exact List.set_perm_cons_eraseIdx hlt b

/-- The members after a move are the one that moved, and the others as they were. -/
theorem forall_mem_set {P : α → Prop} (h : xs[i]? = some a) (hall : ∀ x ∈ xs, P x) {b : α}
    (hb : P b) : ∀ x ∈ xs.set i b, P x := by
  intro x hx
  rcases List.mem_cons.mp ((perm_set h b).mem_iff.mp hx) with rfl | hx
  · exact hb
  · exact hall x ((perm_cons_eraseIdx h).mem_iff.mpr (List.mem_cons_of_mem a hx))

/-- The number of members with a property: before and after a move it is the others'
    and the one's own. -/
theorem countP_set (p : α → Bool) (h : xs[i]? = some a) (b : α) :
    ∃ n, xs.countP p = n + (if p a then 1 else 0) ∧
      (xs.set i b).countP p = n + if p b then 1 else 0 := by
  refine ⟨(xs.eraseIdx i).countP p, ?_, ?_⟩
  · rw [(perm_cons_eraseIdx h).countP_eq p, List.countP_cons]
  · rw [(perm_set h b).countP_eq p, List.countP_cons]

/-- What the members hold, each at most one thing. -/
theorem filterMap_set (f : α → Option β) (h : xs[i]? = some a) (b : α) :
    ∃ others, (xs.filterMap f).Perm ((f a).toList ++ others) ∧
      ((xs.set i b).filterMap f).Perm ((f b).toList ++ others) := by
  refine ⟨(xs.eraseIdx i).filterMap f, ?_, ?_⟩
  · have hperm := (perm_cons_eraseIdx h).filterMap f
    rw [List.filterMap_cons] at hperm
    cases hfa : f a <;> simpa [hfa] using hperm
  · have hperm := (perm_set h b).filterMap f
    rw [List.filterMap_cons] at hperm
    cases hfb : f b <;> simpa [hfb] using hperm

end accounts

/-! ## Termination -/

/-- One member moves. -/
def Moves (r : α → α → Prop) (xs' xs : List α) : Prop :=
  ∃ i a a', xs[i]? = some a ∧ r a' a ∧ xs' = xs.set i a'

/-- The first member moves, or one of the others. -/
theorem acc_cons {r : α → α → Prop} {p : α × List α} (h : Acc (Prod.GameAdd r (Moves r)) p) :
    Acc (Moves r) (p.1 :: p.2) := by
  induction h with
  | intro p _ ih =>
    obtain ⟨a, as⟩ := p
    constructor
    rintro xs' ⟨i, b, b', hget, hmove, rfl⟩
    cases i with
    | zero =>
      obtain rfl := Option.some.inj hget
      exact ih (b', as) (.fst hmove)
    | succ i => exact ih (a, as.set i b') (.snd ⟨i, b, b', hget, hmove, rfl⟩)

/-- **A family whose members cannot move forever cannot either.** -/
theorem acc_moves {r : α → α → Prop} {xs : List α} (h : ∀ a ∈ xs, Acc r a) :
    Acc (Moves r) xs := by
  induction xs with
  | nil =>
    constructor
    rintro xs' ⟨i, a, a', hget, -, -⟩
    cases hget
  | cons a as ih =>
    have hrest := ih fun b hb => h b (List.mem_cons_of_mem a hb)
    exact acc_cons ((h a List.mem_cons_self).prod_gameAdd hrest)

end Family
