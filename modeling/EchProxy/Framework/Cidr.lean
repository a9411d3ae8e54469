import Mathlib.Data.BitVec
import Mathlib.Data.Nat.Bitwise

/-! # Address Blocks

    A block is a base address and a prefix length; an address belongs to the
    block if it shares the prefix with the base.  Programs work with a block
    as a pair of bounds obtained by masking.  The two views agree: the block
    is exactly the interval from the base with all host bits cleared to the
    base with all host bits set.
-/

namespace Cidr

/-- A block of `w`-bit addresses. -/
structure Block (w : Nat) where
  base : BitVec w
  prefixLen : Nat
  prefixLen_le : prefixLen ≤ w
  deriving DecidableEq

variable {w : Nat}

/-- The address shares the prefix of the block. -/
def Block.Mem (b : Block w) (x : BitVec w) : Prop :=
  x >>> (w - b.prefixLen) = b.base >>> (w - b.prefixLen)

instance (b : Block w) (x : BitVec w) : Decidable (b.Mem x) :=
  inferInstanceAs (Decidable (_ = _))

theorem Block.mem_iff_div {b : Block w} {x : BitVec w} :
    b.Mem x ↔ x.toNat / 2 ^ (w - b.prefixLen) = b.base.toNat / 2 ^ (w - b.prefixLen) := by
  unfold Mem
  rw [← BitVec.toNat_inj, BitVec.toNat_ushiftRight, BitVec.toNat_ushiftRight,
    Nat.shiftRight_eq_div_pow, Nat.shiftRight_eq_div_pow]

/-- A block of full prefix length holds its base only. -/
theorem Block.mem_full {b : Block w} (h : b.prefixLen = w) {x : BitVec w} :
    b.Mem x ↔ x = b.base := by
  rw [Block.mem_iff_div, h, Nat.sub_self, Nat.pow_zero, Nat.div_one, Nat.div_one,
    BitVec.toNat_inj]

/-- Some block of the list holds the address. -/
def Covers (bs : List (Block w)) (x : BitVec w) : Prop :=
  ∃ b ∈ bs, b.Mem x

@[simp] theorem covers_nil (x : BitVec w) : ¬ Covers [] x := by
  simp [Covers]

@[simp] theorem covers_cons (b : Block w) (bs : List (Block w)) (x : BitVec w) :
    Covers (b :: bs) x ↔ b.Mem x ∨ Covers bs x := by
  simp [Covers]

@[simp] theorem covers_append (bs cs : List (Block w)) (x : BitVec w) :
    Covers (bs ++ cs) x ↔ Covers bs x ∨ Covers cs x := by
  simp [Covers, or_and_right, exists_or]

/-! ## Masks -/

/-- The mask with the first `prefixLen` bits set. -/
def netmask (w prefixLen : Nat) : BitVec w :=
  BitVec.allOnes w <<< (w - prefixLen)

theorem toNat_and_netmask (x : BitVec w) (prefixLen : Nat) :
    (x &&& netmask w prefixLen).toNat =
      x.toNat / 2 ^ (w - prefixLen) * 2 ^ (w - prefixLen) := by
  have hle : x.toNat / 2 ^ (w - prefixLen) * 2 ^ (w - prefixLen) ≤ x.toNat :=
    Nat.div_mul_le_self _ _
  have hlt := x.isLt
  rw [netmask, ← BitVec.shiftLeft_ushiftRight, BitVec.toNat_shiftLeft,
    BitVec.toNat_ushiftRight, Nat.shiftRight_eq_div_pow, Nat.shiftLeft_eq, Nat.mod_eq_of_lt]
  omega

theorem toNat_not_netmask {prefixLen : Nat} (h : prefixLen ≤ w) :
    (~~~ netmask w prefixLen).toNat = 2 ^ (w - prefixLen) - 1 := by
  have hsplit : 2 ^ w = 2 ^ (w - prefixLen) * 2 ^ prefixLen := by
    rw [← Nat.pow_add, Nat.sub_add_cancel h]
  have hmask := toNat_and_netmask (BitVec.allOnes w) prefixLen
  rw [BitVec.allOnes_and, BitVec.toNat_allOnes] at hmask
  have hdiv : (2 ^ w - 1) / 2 ^ (w - prefixLen) = 2 ^ prefixLen - 1 := by
    rw [hsplit, Nat.mul_comm]
    have hpos : 0 < 2 ^ prefixLen := Nat.two_pow_pos _
    have hpos' : 0 < 2 ^ (w - prefixLen) := Nat.two_pow_pos _
    apply Nat.div_eq_of_lt_le
    · rw [Nat.sub_mul, Nat.one_mul]
      omega
    · rw [Nat.sub_add_cancel hpos]
      have : 0 < 2 ^ prefixLen * 2 ^ (w - prefixLen) := Nat.mul_pos hpos hpos'
      omega
  rw [BitVec.toNat_not, hmask, hdiv, Nat.sub_mul, Nat.one_mul, hsplit,
    Nat.mul_comm (2 ^ (w - prefixLen))]
  have hle : 2 ^ (w - prefixLen) ≤ 2 ^ prefixLen * 2 ^ (w - prefixLen) :=
    Nat.le_mul_of_pos_left _ (Nat.two_pow_pos _)
  omega

theorem toNat_or_not_netmask (x : BitVec w) {prefixLen : Nat} (h : prefixLen ≤ w) :
    (x ||| ~~~ netmask w prefixLen).toNat =
      x.toNat / 2 ^ (w - prefixLen) * 2 ^ (w - prefixLen) + (2 ^ (w - prefixLen) - 1) := by
  have hlow : 2 ^ (w - prefixLen) - 1 < 2 ^ (w - prefixLen) :=
    Nat.sub_lt (Nat.two_pow_pos _) Nat.one_pos
  rw [BitVec.toNat_or, toNat_not_netmask h, Nat.mul_comm, Nat.two_pow_add_eq_or_of_lt hlow]
  apply Nat.eq_of_testBit_eq
  intro i
  rw [Nat.testBit_or, Nat.testBit_or, Nat.testBit_two_pow_mul, Nat.testBit_two_pow_sub_one,
    Nat.testBit_div_two_pow]
  -- below the prefix the host bits decide, above it the base does
  by_cases hi : i < w - prefixLen
  · simp [hi]
  · simp [hi, Nat.not_lt.mp hi]

/-- **A block is an interval**: membership is lying between the masked bounds. -/
theorem Block.mem_iff_between {b : Block w} {x : BitVec w} :
    b.Mem x ↔ b.base &&& netmask w b.prefixLen ≤ x ∧
      x ≤ b.base ||| ~~~ netmask w b.prefixLen := by
  rw [Block.mem_iff_div, BitVec.le_def, BitVec.le_def, toNat_and_netmask,
    toNat_or_not_netmask _ b.prefixLen_le]
  have hpos : 0 < 2 ^ (w - b.prefixLen) := Nat.two_pow_pos _
  generalize 2 ^ (w - b.prefixLen) = k at hpos ⊢
  generalize b.base.toNat / k = q
  rw [Nat.div_eq_iff hpos]
  omega

end Cidr
