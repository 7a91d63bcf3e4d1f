import Mathlib.Data.BitVec
import Mathlib.Data.Nat.Bitwise

/-!
# Masks of low bits

The bit-vector operations that split an address into a block and an offset, as arithmetic: the mask
of the low `k` bits takes the remainder modulo `2 ^ k`, its complement rounds down.
-/

namespace Lib

variable {w : Nat}

theorem toNat_and_mask (x : BitVec w) {k : Nat} (hk : k ≤ w) :
    (x &&& BitVec.ofNat w (2 ^ k - 1)).toNat = x.toNat % 2 ^ k := by
  have hlt : 2 ^ k - 1 < 2 ^ w := by
    have := Nat.pow_le_pow_right (n := 2) (by decide) hk
    have := Nat.two_pow_pos k
    omega
  rw [BitVec.toNat_and, BitVec.toNat_ofNat, Nat.mod_eq_of_lt hlt, Nat.and_two_pow_sub_one_eq_mod]

theorem toNat_and_not_mask (x : BitVec w) {k : Nat} (hk : k ≤ w) :
    (x &&& ~~~BitVec.ofNat w (2 ^ k - 1)).toNat = x.toNat / 2 ^ k * 2 ^ k := by
  have hlt : 2 ^ k - 1 < 2 ^ w := by
    have := Nat.pow_le_pow_right (n := 2) (by decide) hk
    have := Nat.two_pow_pos k
    omega
  apply Nat.eq_of_testBit_eq
  intro i
  rw [Nat.testBit_mul_two_pow, Nat.testBit_div_two_pow, ← BitVec.getLsbD, BitVec.getLsbD_and,
    BitVec.getLsbD_not, BitVec.getLsbD_ofNat, Nat.testBit_two_pow_sub_one]
  by_cases hik : k ≤ i
  · rw [Nat.sub_add_cancel hik]
    by_cases hi : i < w
    · simp [hi, hik, Nat.not_lt.mpr hik, BitVec.getLsbD]
    · have hz : x.toNat.testBit i = false :=
        Nat.testBit_lt_two_pow (lt_of_lt_of_le x.isLt (Nat.pow_le_pow_right (by decide) (Nat.le_of_not_lt hi)))
      simp [hi, hz]
  · simp [hik, Nat.lt_of_not_le hik]

end Lib
