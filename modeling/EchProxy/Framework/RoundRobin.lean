import Mathlib.Data.List.Range
import Mathlib.Tactic.Common

/-! # Taking Turns

    A counter modulo `n`, read off at consecutive values, picks the `n` members
    in turn.  From any value on, `n` turns pick each member once, and after any
    number of turns no member is more than one turn ahead of another; `n` need
    not divide anything.
-/

namespace RoundRobin

/-- The turns of `n` members at the `len` counter values from `k` on. -/
def turns (n k len : Nat) : List Nat := (List.range' k len).map (· % n)

variable {n k len : Nat}

theorem turns_succ (n k len : Nat) : turns n k (len + 1) = k % n :: turns n (k + 1) len := by
  rw [turns, List.range'_succ, List.map_cons]
  rfl

theorem turns_add (n k a b : Nat) : turns n k (a + b) = turns n k a ++ turns n (k + a) b := by
  rw [turns, turns, turns, ← List.map_append, List.range'_append_1]

/-- A round from 0 on has the members in their order. -/
theorem turns_zero (n : Nat) : turns n 0 n = List.range n := by
  rw [turns, ← List.range_eq_range']
  calc (List.range n).map (· % n) = (List.range n).map id :=
        List.map_congr_left fun i hi => Nat.mod_eq_of_lt (List.mem_range.mp hi)
    _ = List.range n := List.map_id _

/-- **A round picks each member once**, wherever it begins. -/
theorem count_round {i : Nat} (hi : i < n) (k : Nat) : (turns n k n).count i = 1 := by
  induction k with
  | zero => rw [turns_zero, List.count_range, if_pos hi]
  | succ k ih =>
    -- the round moves on by one turn: what it loses at its front it gains at its end
    obtain ⟨m, rfl⟩ : ∃ m, n = m + 1 := ⟨n - 1, by omega⟩
    have hlast : turns (m + 1) (k + 1) (m + 1) = turns (m + 1) (k + 1) m ++ [k % (m + 1)] := by
      have hmod : (k + 1 + m) % (m + 1) = k % (m + 1) := by
        rw [show k + 1 + m = k + (m + 1) by omega, Nat.add_mod_right]
      rw [turns_add, turns_succ, hmod]
      rfl
    rw [turns_succ, List.count_cons] at ih
    rw [hlast, List.count_append, List.count_singleton]
    exact ih

/-- A part of a round picks no member twice. -/
theorem count_le_one {i : Nat} (hi : i < n) (hlen : len ≤ n) (k : Nat) :
    (turns n k len).count i ≤ 1 := by
  obtain ⟨rest, rfl⟩ : ∃ rest, n = len + rest := ⟨n - len, by omega⟩
  have hround := count_round hi k
  rw [turns_add, List.count_append] at hround
  omega

/-- **No member is more than one turn ahead.** -/
theorem count_balanced {i j : Nat} (hi : i < n) (hj : j < n) (k len : Nat) :
    (turns n k len).count i ≤ (turns n k len).count j + 1 := by
  -- round by round, down to the last part of one
  induction len using Nat.strong_induction_on generalizing k with
  | _ len ih =>
    by_cases hlen : len ≤ n
    · have hle := count_le_one hi hlen k
      omega
    · obtain ⟨rest, rfl⟩ : ∃ rest, len = n + rest := ⟨len - n, by omega⟩
      have hrest := ih rest (by omega) (k + n)
      rw [turns_add, List.count_append, List.count_append, count_round hi, count_round hj]
      omega

end RoundRobin
