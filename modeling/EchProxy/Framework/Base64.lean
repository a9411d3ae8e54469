import Mathlib.Data.List.Basic
import Mathlib.Tactic.Common

/-! # Base64

    The standard alphabet with padding: three bytes are four digits of six
    bits, and an open group at the end is filled up with `=`.  The decoder
    takes the padding only at the end, and only with no bits left over.
-/

namespace Base64

/-! ## Digits -/

def alphabet : List Char :=
  "ABCDEFGHIJKLMNOPQRSTUVWXYZabcdefghijklmnopqrstuvwxyz0123456789+/".toList

/-- The digit of a value below 64. -/
def digit (n : Nat) : Char := alphabet.getD n '='

/-- The value of a digit. -/
def value (c : Char) : Option Nat := alphabet.findIdx? (· == c)

theorem value_digit {n : Nat} (h : n < 64) : value (digit n) = some n := by
  have htable : ∀ n : Fin 64, value (digit n.val) = some n.val := by decide +kernel
  exact htable ⟨n, h⟩

theorem digit_mem (n : Nat) : digit n = '=' ∨ digit n ∈ alphabet := by
  rw [digit, List.getD_eq_getElem?_getD]
  cases h : alphabet[n]? with
  | none => exact .inl rfl
  | some c => exact .inr (List.mem_of_getElem? h)

/-- No digit is the padding, which has no value. -/
theorem digit_ne_pad {n : Nat} (h : n < 64) : digit n ≠ '=' := by
  have hpad : value '=' = none := by decide +kernel
  intro heq
  have hvalue := value_digit h
  rw [heq, hpad] at hvalue
  cases hvalue

/-! ## Groups -/

/-- The digits of a byte sequence. -/
def encode : List UInt8 → List Char
  | [] => []
  | [a] => [digit (a.toNat / 4), digit (a.toNat % 4 * 16), '=', '=']
  | [a, b] =>
    [digit (a.toNat / 4), digit (a.toNat % 4 * 16 + b.toNat / 16), digit (b.toNat % 16 * 4), '=']
  | a :: b :: c :: rest =>
    digit (a.toNat / 4) :: digit (a.toNat % 4 * 16 + b.toNat / 16)
      :: digit (b.toNat % 16 * 4 + c.toNat / 64) :: digit (c.toNat % 64) :: encode rest

/-- The bytes of a digit sequence. -/
def decode : List Char → Option (List UInt8)
  | [] => some []
  | p :: q :: r :: s :: rest =>
    if s = '=' ∧ rest = [] then do
      let p ← value p
      let q ← value q
      if r = '=' then
        if q % 16 = 0 then return [UInt8.ofNat (p * 4 + q / 16)] else none
      else do
        let r ← value r
        if r % 4 = 0 then
          return [UInt8.ofNat (p * 4 + q / 16), UInt8.ofNat (q % 16 * 16 + r / 4)]
        else none
    else do
      let p ← value p
      let q ← value q
      let r ← value r
      let s ← value s
      let bytes ← decode rest
      return UInt8.ofNat (p * 4 + q / 16) :: UInt8.ofNat (q % 16 * 16 + r / 4)
        :: UInt8.ofNat (r % 4 * 64 + s) :: bytes
  | _ => none

/-- The decoder undoes the encoder. -/
def Undone (decode : List Char → Option (List UInt8)) : Prop :=
  ∀ bytes, decode (encode bytes) = some bytes

theorem ofNat_eq {n : Nat} {b : UInt8} (h : n = b.toNat) : UInt8.ofNat n = b := by
  rw [h, UInt8.ofNat_toNat]

/-- **Decoding undoes encoding.** -/
theorem decode_undone : Undone decode := by
  intro bytes
  fun_induction encode bytes with
  | case1 => rfl
  | case2 a =>
    have ha := a.toNat_lt
    have hfirst : UInt8.ofNat (a.toNat / 4 * 4 + a.toNat % 4 * 16 / 16) = a := ofNat_eq (by omega)
    rw [decode, if_pos ⟨rfl, rfl⟩, value_digit (by omega), value_digit (by omega)]
    simp only [Option.bind_eq_bind, Option.bind_some]
    rw [if_pos trivial, if_pos (by omega), hfirst]
    rfl
  | case3 a b =>
    have ha := a.toNat_lt
    have hb := b.toNat_lt
    have hfirst : UInt8.ofNat (a.toNat / 4 * 4 + (a.toNat % 4 * 16 + b.toNat / 16) / 16) = a :=
      ofNat_eq (by omega)
    have hsecond : UInt8.ofNat
        ((a.toNat % 4 * 16 + b.toNat / 16) % 16 * 16 + b.toNat % 16 * 4 / 4) = b :=
      ofNat_eq (by omega)
    rw [decode, if_pos ⟨rfl, rfl⟩, value_digit (by omega), value_digit (by omega)]
    simp only [Option.bind_eq_bind, Option.bind_some]
    rw [if_neg (digit_ne_pad (by omega)), value_digit (by omega)]
    simp only [Option.bind_some]
    rw [if_pos (by omega), hfirst, hsecond]
    rfl
  | case4 a b c rest ih =>
    have ha := a.toNat_lt
    have hb := b.toNat_lt
    have hc := c.toNat_lt
    have hfirst : UInt8.ofNat (a.toNat / 4 * 4 + (a.toNat % 4 * 16 + b.toNat / 16) / 16) = a :=
      ofNat_eq (by omega)
    have hsecond : UInt8.ofNat ((a.toNat % 4 * 16 + b.toNat / 16) % 16 * 16 +
        (b.toNat % 16 * 4 + c.toNat / 64) / 4) = b :=
      ofNat_eq (by omega)
    have hthird : UInt8.ofNat ((b.toNat % 16 * 4 + c.toNat / 64) % 4 * 64 + c.toNat % 64) = c :=
      ofNat_eq (by omega)
    -- the last digit of a full group is no padding
    have hpad : ¬ (digit (c.toNat % 64) = '=' ∧ encode rest = []) :=
      fun h => digit_ne_pad (by omega) h.1
    rw [decode, if_neg hpad, value_digit (by omega), value_digit (by omega),
      value_digit (by omega), value_digit (by omega), ih]
    simp only [Option.bind_eq_bind, Option.bind_some]
    rw [hfirst, hsecond, hthird]
    rfl

/-- The encoder writes digits and padding. -/
theorem encode_subset (bytes : List UInt8) : encode bytes ⊆ '=' :: alphabet := by
  fun_induction encode bytes with
  | case1 => exact List.nil_subset _
  | case2 a => simp [digit_mem]
  | case3 a b => simp [digit_mem]
  | case4 a b c rest ih => simp [digit_mem, ih]

theorem encode_ne_nil {bytes : List UInt8} (h : bytes ≠ []) : encode bytes ≠ [] := by
  fun_cases encode bytes with
  | case1 => exact absurd rfl h
  | case2 | case3 | case4 => exact List.cons_ne_nil _ _

end Base64
