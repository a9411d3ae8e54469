import Mathlib.Algebra.Group.Int.Defs
import Mathlib.Algebra.Group.Nat.Defs
import Mathlib.Tactic.Common

/-! # The Protobuf Wire Format

    Varints, and the two kinds of fields that messages of numbers, strings and
    other messages are made of, with the sizes they have.  A field of proto3
    that has its default value is left out.
-/

namespace Protobuf

/-! ## Varints -/

/-- The loop of the encoder: seven bits a byte, the lowest first, and at most ten
    bytes. -/
def varintLoop : Nat → Nat → List UInt8
  | 0, _ => []
  | fuel + 1, n =>
    if n < 128 then [UInt8.ofNat n]
    else UInt8.ofNat (n % 128 + 128) :: varintLoop fuel (n / 128)

def varint (n : Nat) : List UInt8 := varintLoop 10 n

theorem length_varintLoop_le {n k : Nat} (hpos : 0 < k) (h : n < 128 ^ k) (fuel : Nat) :
    (varintLoop fuel n).length ≤ k := by
  induction fuel generalizing n k with
  | zero => exact Nat.zero_le _
  | succ fuel ih =>
    rw [varintLoop]
    by_cases hsmall : n < 128
    · rw [if_pos hsmall]
      exact hpos
    · rw [if_neg hsmall, List.length_cons]
      -- the number has another byte, so it has room for one
      obtain ⟨k, rfl⟩ : ∃ m, k = m + 1 := ⟨k - 1, by omega⟩
      rw [pow_succ] at h
      have hmore : 0 < k := by
        by_contra hnone
        rw [Nat.eq_zero_of_not_pos hnone, pow_zero] at h
        omega
      have hrest := ih hmore (Nat.div_lt_of_lt_mul (by rwa [Nat.mul_comm] at h))
      omega

/-- **A varint** has a byte for each factor 128. -/
theorem length_varint_le {n k : Nat} (hpos : 0 < k) (h : n < 128 ^ k) : (varint n).length ≤ k :=
  length_varintLoop_le hpos h 10

/-! ## Fields -/

/-- The key of a field. -/
def key (field wireType : Nat) : List UInt8 := varint (field * 8 + wireType)

/-- A string, bytes or a message, with its length. -/
def lengthDelimited (field : Nat) (bytes : List UInt8) : List UInt8 :=
  key field 2 ++ varint bytes.length ++ bytes

/-- A string or bytes. -/
def bytesField (field : Nat) (bytes : List UInt8) : List UInt8 :=
  if bytes = [] then [] else lengthDelimited field bytes

/-- A number. -/
def varintField (field n : Nat) : List UInt8 :=
  if n = 0 then [] else key field 0 ++ varint n

/-- A signed number, as its two's complement of 64 bits. -/
def int64Field (field : Nat) (n : Int) : List UInt8 :=
  varintField field (n % 2 ^ 64).toNat

section sizes
variable {field k : Nat} {bytes : List UInt8}

/-- The first fifteen fields have a key of one byte. -/
theorem length_key_le (hfield : field < 16) {wireType : Nat} (hwire : wireType < 8) :
    (key field wireType).length ≤ 1 :=
  length_varint_le Nat.one_pos (by rw [pow_one]; omega)

theorem length_lengthDelimited_le (hfield : field < 16) (hpos : 0 < k)
    (h : bytes.length < 128 ^ k) :
    (lengthDelimited field bytes).length ≤ 1 + k + bytes.length := by
  have hkey := length_key_le hfield (show 2 < 8 by omega)
  have hlength := length_varint_le hpos h
  rw [lengthDelimited, List.length_append, List.length_append]
  omega

theorem length_bytesField_le (hfield : field < 16) (hpos : 0 < k) (h : bytes.length < 128 ^ k) :
    (bytesField field bytes).length ≤ 1 + k + bytes.length := by
  rw [bytesField]
  split
  · exact Nat.zero_le _
  · exact length_lengthDelimited_le hfield hpos h

theorem length_varintField_le (hfield : field < 16) (n : Nat) :
    (varintField field n).length ≤ 1 + (varint n).length := by
  rw [varintField]
  split
  · exact Nat.zero_le _
  · have hkey := length_key_le hfield (show 0 < 8 by omega)
    rw [List.length_append]
    omega

end sizes

end Protobuf
