import Mathlib.Algebra.Group.Nat.Defs
import Mathlib.Data.List.Basic
import Mathlib.Data.List.Induction
import Mathlib.Tactic.Common

/-! # Numbers in Digits

    Reading a number off the front of a text, in any radix up to 16, and
    writing one.  Writing is `Nat.toDigits`; what is written is read back
    where the text goes on with something that is no digit.  A number in
    bytes has a fixed length, so nothing has to come after it.
-/

namespace Digits

/-- `char::to_digit`. -/
def toDigit (radix : Nat) (c : Char) : Option Nat :=
  let value :=
    if 0x30 ≤ c.toNat ∧ c.toNat ≤ 0x39 then some (c.toNat - 0x30)
    else if 0x61 ≤ c.toNat ∧ c.toNat ≤ 0x7a then some (c.toNat - 0x61 + 10)
    else if 0x41 ≤ c.toNat ∧ c.toNat ≤ 0x5a then some (c.toNat - 0x41 + 10)
    else none
  value.filter (· < radix)

/-- The digits in front, and the rest. -/
def span (radix : Nat) : List Char → List Nat × List Char
  | [] => ([], [])
  | c :: s =>
    match toDigit radix c with
    | some digit => (digit :: (span radix s).1, (span radix s).2)
    | none => ([], c :: s)

/-- The number that digits make. -/
def value (radix : Nat) (digits : List Nat) : Nat :=
  digits.foldl (fun n digit => radix * n + digit) 0

/-- A number of at most `maxDigits` digits, not above `max`.  More digits make
    it fail, and so does a zero in front where that is not allowed. -/
def readNumber (radix maxDigits max : Nat) (allowZeroPrefix : Bool) (s : List Char) :
    Option (Nat × List Char) :=
  let digits := (span radix s).1
  if maxDigits < digits.length ∨ digits = [] then none
  else if allowZeroPrefix = false ∧ s.head? = some '0' ∧ 1 < digits.length then none
  else if value radix digits ≤ max then some (value radix digits, (span radix s).2)
  else none

/-! ## Reading what was written -/

/-- The text does not go on with a digit. -/
def Ends (radix : Nat) (rest : List Char) : Prop :=
  ∀ c ∈ rest.head?, toDigit radix c = none

section written
variable {radix : Nat}

theorem span_of_ends {rest : List Char} (h : Ends radix rest) : span radix rest = ([], rest) := by
  cases rest with
  | nil => rfl
  | cons c rest => rw [span, h c rfl]

theorem toDigit_digitChar {n : Nat} (hn : n < radix) (hradix : radix ≤ 16) :
    toDigit radix n.digitChar = some n := by
  have hall : ∀ m < 16, toDigit 16 m.digitChar = some m := by decide
  have hsixteen := hall n (by omega)
  unfold toDigit at hsixteen ⊢
  rw [Option.filter_eq_some_iff] at hsixteen ⊢
  exact ⟨hsixteen.1, decide_eq_true hn⟩

/-- **What is written is read back.** -/
theorem span_toDigits (hradix : 1 < radix) (hle : radix ≤ 16) (n : Nat) {rest : List Char}
    (hrest : Ends radix rest) :
    ∃ digits, span radix (Nat.toDigits radix n ++ rest) = (digits, rest) ∧
      digits.length = (Nat.toDigits radix n).length ∧ value radix digits = n := by
  -- over the digits, from the last one up
  suffices hgo : ∀ rest : List Char, ∃ digits,
      span radix (Nat.toDigits radix n ++ rest) =
        (digits ++ (span radix rest).1, (span radix rest).2) ∧
      digits.length = (Nat.toDigits radix n).length ∧ value radix digits = n by
    obtain ⟨digits, hspan, hlength, hvalue⟩ := hgo rest
    rw [span_of_ends hrest, List.append_nil] at hspan
    exact ⟨digits, hspan, hlength, hvalue⟩
  induction n using Nat.strongRecOn with
  | ind n ih =>
    intro rest
    by_cases hsmall : n < radix
    · refine ⟨[n], ?_, by rw [Nat.toDigits_of_lt_base hsmall]; rfl, by simp [value]⟩
      rw [Nat.toDigits_of_lt_base hsmall, List.singleton_append, span,
        toDigit_digitChar hsmall hle]
      rfl
    · have hmod : n % radix < radix := Nat.mod_lt n (by omega)
      have hdiv : n / radix < n := Nat.div_lt_self (by omega) hradix
      obtain ⟨digits, hspan, hlength, hvalue⟩ := ih _ hdiv ((n % radix).digitChar :: rest)
      refine ⟨digits ++ [n % radix], ?_, ?_, ?_⟩
      · rw [Nat.toDigits_of_base_le hradix (by omega), List.append_assoc, List.singleton_append,
          hspan, span, toDigit_digitChar hmod hle, List.append_assoc]
        rfl
      · rw [Nat.toDigits_of_base_le hradix (by omega), List.length_append, List.length_append,
          hlength]
        rfl
      · rw [value, List.foldl_append]
        show radix * value radix digits + n % radix = n
        rw [hvalue]
        exact Nat.div_add_mod n radix

/-- A zero comes first only in zero. -/
theorem head_toDigits_ne_zero (hradix : 1 < radix) (hle : radix ≤ 10) {n : Nat} (hn : n ≠ 0) :
    (Nat.toDigits radix n).head? ≠ some '0' := by
  induction n using Nat.strongRecOn with
  | ind n ih =>
    by_cases hsmall : n < radix
    · rw [Nat.toDigits_of_lt_base hsmall]
      have hall : ∀ m < 10, m ≠ 0 → [m.digitChar].head? ≠ some '0' := by decide
      exact hall n (by omega) hn
    · have hpos : n / radix ≠ 0 := Nat.div_ne_zero_iff.mpr ⟨by omega, by omega⟩
      rw [Nat.toDigits_of_base_le hradix (by omega), List.head?_append_of_ne_nil _ Nat.toDigits_ne_nil]
      exact ih _ (Nat.div_lt_self (by omega) hradix) hpos

theorem readNumber_toDigits (hradix : 1 < radix) (hle : radix ≤ 16) {maxDigits max n : Nat}
    (hmax : n ≤ max) (hpos : 0 < maxDigits) (hfits : n < radix ^ maxDigits)
    {allowZeroPrefix : Bool} (hzero : allowZeroPrefix = true ∨ radix ≤ 10)
    {rest : List Char} (hrest : Ends radix rest) :
    readNumber radix maxDigits max allowZeroPrefix (Nat.toDigits radix n ++ rest)
      = some (n, rest) := by
  obtain ⟨digits, hspan, hlength, hvalue⟩ := span_toDigits hradix hle n hrest
  have hcount : digits.length ≤ maxDigits := by
    rw [hlength]
    exact (Nat.length_toDigits_le_iff hradix hpos).mpr hfits
  have hne : digits ≠ [] := by
    have hsome : 0 < digits.length := hlength ▸ Nat.length_toDigits_pos
    exact List.ne_nil_of_length_pos hsome
  -- a number is written without zeros before it
  have hlead : ¬ (allowZeroPrefix = false ∧ (Nat.toDigits radix n ++ rest).head? = some '0' ∧
      1 < digits.length) := by
    intro ⟨hno, hhead, hlong⟩
    rw [List.head?_append_of_ne_nil _ Nat.toDigits_ne_nil] at hhead
    rcases hzero with hallow | hten
    · rw [hno] at hallow
      cases hallow
    · by_cases hn : n = 0
      · rw [hlength, hn, Nat.toDigits_zero] at hlong
        exact absurd hlong (by decide)
      · exact head_toDigits_ne_zero hradix hten hn hhead
  rw [readNumber, hspan]
  dsimp only
  rw [if_neg (not_or.mpr ⟨by omega, hne⟩), if_neg hlead, hvalue, if_pos hmax]

/-- Written digits are digits. -/
theorem isSome_of_mem_toDigits (hradix : 1 < radix) (hle : radix ≤ 16) {n : Nat} {c : Char}
    (hc : c ∈ Nat.toDigits radix n) : (toDigit radix c).isSome := by
  induction n using Nat.strongRecOn with
  | ind n ih =>
    by_cases hsmall : n < radix
    · rw [Nat.toDigits_of_lt_base hsmall, List.mem_singleton] at hc
      rw [hc, toDigit_digitChar hsmall hle]
      rfl
    · rw [Nat.toDigits_of_base_le hradix (by omega), List.mem_append, List.mem_singleton] at hc
      rcases hc with hc | rfl
      · exact ih _ (Nat.div_lt_self (by omega) hradix) hc
      · rw [toDigit_digitChar (Nat.mod_lt n (by omega)) hle]
        rfl

end written

/-! ## Bytes -/

/-- The number that bytes make, the most significant first. -/
def ofBytes (bytes : List UInt8) : Nat := value 256 (bytes.map UInt8.toNat)

/-- A number in `k` bytes. -/
def toBytes : Nat → Nat → List UInt8
  | 0, _ => []
  | k + 1, n => toBytes k (n / 256) ++ [UInt8.ofNat n]

@[simp] theorem length_toBytes (k n : Nat) : (toBytes k n).length = k := by
  induction k generalizing n with
  | zero => rfl
  | succ k ih => rw [toBytes, List.length_append, ih, List.length_singleton]

@[simp] theorem ofBytes_concat (bytes : List UInt8) (b : UInt8) :
    ofBytes (bytes ++ [b]) = 256 * ofBytes bytes + b.toNat := by
  simp [ofBytes, value]

theorem ofBytes_toBytes {k n : Nat} (h : n < 256 ^ k) : ofBytes (toBytes k n) = n := by
  induction k generalizing n with
  | zero =>
    have hzero : n = 0 := by omega
    rw [hzero]
    rfl
  | succ k ih =>
    have hdiv : n / 256 < 256 ^ k := by
      rw [Nat.pow_succ] at h
      omega
    rw [toBytes, ofBytes_concat, ih hdiv, UInt8.toNat_ofNat']
    omega

theorem toBytes_ofBytes (bytes : List UInt8) : toBytes bytes.length (ofBytes bytes) = bytes := by
  induction bytes using List.reverseRec with
  | nil => rfl
  | append_singleton bytes b ih =>
    have hlt := b.toNat_lt
    have hdiv : (256 * ofBytes bytes + b.toNat) / 256 = ofBytes bytes := by omega
    have hlow : UInt8.ofNat (256 * ofBytes bytes + b.toNat) = b := by
      apply UInt8.toNat_inj.mp
      rw [UInt8.toNat_ofNat']
      omega
    rw [List.length_append, List.length_singleton, toBytes, ofBytes_concat, hdiv, ih, hlow]

theorem ofBytes_lt (bytes : List UInt8) : ofBytes bytes < 256 ^ bytes.length := by
  induction bytes using List.reverseRec with
  | nil => decide
  | append_singleton bytes b ih =>
    have hlt := b.toNat_lt
    rw [List.length_append, List.length_singleton, Nat.pow_succ, ofBytes_concat]
    omega

end Digits
