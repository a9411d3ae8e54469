import Mathlib.Data.List.Pairwise
import Mathlib.Order.Lattice
import Mathlib.Tactic.Common

/-! # Binary Search

    `slice::binary_search_by_key` of the Rust standard library: the loop
    halves a window and keeps its base, and one last comparison decides
    between a hit and the insertion point.  On a sorted list the answer is a
    hit, or the place that separates the smaller from the larger keys.
-/

namespace Search

variable {α : Type u} {κ : Type v} [LinearOrder κ]

/-- The loop: `base` is the lower end of a window of `size` elements. -/
def searchLoop (key : α → κ) (target : κ) (xs : List α) : Nat → Nat → Nat → Nat
  | 0, base, _ => base
  | fuel + 1, base, size =>
    if 1 < size then
      let half := size / 2
      let mid := base + half
      let base := match xs[mid]? with
        | some a => if target < key a then base else mid
        | none => base
      searchLoop key target xs fuel base (size - half)
    else base

/-- `xs.binary_search_by_key(target, key)`. -/
def binarySearchByKey (xs : List α) (target : κ) (key : α → κ) : Except Nat Nat :=
  let base := searchLoop key target xs xs.length 0 xs.length
  match xs[base]? with
  | none => .error 0
  | some a =>
    if key a = target then .ok base
    else .error (if key a < target then base + 1 else base)

/-- The window: what is above it is larger than the target, and its base is not,
    unless it is the first element. -/
structure Window (key : α → κ) (target : κ) (xs : List α) (base size : Nat) : Prop where
  inside : base + size ≤ xs.length
  nonempty : 1 ≤ size
  below : base = 0 ∨ ∃ a, xs[base]? = some a ∧ key a ≤ target
  above : ∀ i a, base + size ≤ i → xs[i]? = some a → target < key a

/-- Later elements have larger keys. -/
theorem key_mono {key : α → κ} {xs : List α} (hsorted : xs.Pairwise fun a b => key a ≤ key b)
    {i j : Nat} {a b : α} (hij : i ≤ j) (ha : xs[i]? = some a) (hb : xs[j]? = some b) :
    key a ≤ key b := by
  obtain ⟨hi, rfl⟩ := List.getElem?_eq_some_iff.mp ha
  obtain ⟨hj, rfl⟩ := List.getElem?_eq_some_iff.mp hb
  rcases Nat.lt_or_eq_of_le hij with hlt | rfl
  · exact List.pairwise_iff_getElem.mp hsorted i j hi hj hlt
  · exact le_refl _

/-- The loop narrows the window down to one element. -/
theorem searchLoop_window {key : α → κ} (target : κ) {xs : List α}
    (hsorted : xs.Pairwise fun a b => key a ≤ key b) :
    ∀ (fuel base size : Nat), size ≤ fuel + 1 → Window key target xs base size →
      Window key target xs (searchLoop key target xs fuel base size) 1 := by
  intro fuel
  induction fuel with
  | zero =>
    intro base size hfuel h
    have hone : size = 1 := Nat.le_antisymm hfuel h.nonempty
    rw [hone] at h
    exact h
  | succ fuel ih =>
    intro base size hfuel h
    have hinside := h.inside
    rw [searchLoop]
    by_cases hmany : 1 < size
    · rw [if_pos hmany]
      -- the window halves, so one unit of fuel a turn is enough
      have hmid : base + size / 2 < xs.length := by omega
      simp only [List.getElem?_eq_getElem hmid]
      by_cases hlt : target < key xs[base + size / 2]
      · -- the upper half is too large
        rw [if_pos hlt]
        refine ih base _ (by omega) ⟨by omega, by omega, h.below, fun i a hi ha => ?_⟩
        exact lt_of_lt_of_le hlt
          (key_mono hsorted (by omega) (List.getElem?_eq_getElem hmid) ha)
      · rw [if_neg hlt]
        refine ih (base + size / 2) _ (by omega) ⟨by omega, by omega, .inr ?_, fun i a hi ha => ?_⟩
        · exact ⟨_, List.getElem?_eq_getElem hmid, not_lt.mp hlt⟩
        · exact h.above i a (by omega) ha
    · rw [if_neg hmany]
      have hone : size = 1 := Nat.le_antisymm (Nat.not_lt.mp hmany) h.nonempty
      rw [hone] at h
      exact h

/-- **Binary search on a sorted list**: a hit has the key, and a miss at `i`
    separates the smaller keys from the larger ones. -/
theorem binarySearchByKey_spec {key : α → κ} (target : κ) {xs : List α}
    (hsorted : xs.Pairwise fun a b => key a ≤ key b) :
    match binarySearchByKey xs target key with
    | .ok i => ∃ a, xs[i]? = some a ∧ key a = target
    | .error i => i ≤ xs.length ∧ (∀ j a, j < i → xs[j]? = some a → key a < target) ∧
        ∀ j a, i ≤ j → xs[j]? = some a → target < key a := by
  cases hxs : xs with
  | nil => simp [binarySearchByKey]
  | cons first rest =>
    rw [← hxs]
    have hlen : 1 ≤ xs.length := by
      rw [hxs]
      exact Nat.succ_pos _
    have hwindow := searchLoop_window target hsorted xs.length 0 xs.length (by omega)
      ⟨by omega, hlen, .inl rfl, fun i a hi ha => by
        obtain ⟨hlt, -⟩ := List.getElem?_eq_some_iff.mp ha
        omega⟩
    unfold binarySearchByKey
    generalize searchLoop key target xs xs.length 0 xs.length = base at hwindow
    have hbase : base < xs.length := hwindow.inside
    simp only [List.getElem?_eq_getElem hbase]
    by_cases heq : key xs[base] = target
    · rw [if_pos heq]
      exact ⟨_, List.getElem?_eq_getElem hbase, heq⟩
    · rw [if_neg heq]
      by_cases hlt : key xs[base] < target
      · rw [if_pos hlt]
        refine ⟨hbase, fun j a hj ha => ?_, fun j a hj ha => hwindow.above j a hj ha⟩
        exact lt_of_le_of_lt
          (key_mono hsorted (by omega) ha (List.getElem?_eq_getElem hbase)) hlt
      · rw [if_neg hlt]
        have hgt : target < key xs[base] := lt_of_le_of_ne (not_lt.mp hlt) (Ne.symm heq)
        -- only the first element may be too large
        have hfirst : base = 0 := by
          rcases hwindow.below with hzero | ⟨a, ha, hle⟩
          · exact hzero
          · rw [List.getElem?_eq_getElem hbase, Option.some.injEq] at ha
            rw [← ha] at hle
            exact absurd hgt (not_lt.mpr hle)
        refine ⟨Nat.le_of_lt hbase, fun j a hj ha => ?_, fun j a hj ha => ?_⟩
        · omega
        · exact lt_of_lt_of_le hgt
            (key_mono hsorted hj (List.getElem?_eq_getElem hbase) ha)

end Search
