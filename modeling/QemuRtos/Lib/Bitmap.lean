import Mathlib.Data.BitVec
import Mathlib.Data.Finset.Card

/-!
# Bitmaps

A set of indices kept as an array of 64-bit words: index `i` is bit `i % 64` of word `i / 64`.
`test`, `set` and `clear` are the word operations; `test_set` and `test_clear` say what they do to the
set. `clearBelow n` is the finite set of the indices under `n` that are not in it.
-/

namespace Lib

abbrev Bitmap := Nat → BitVec 64

namespace Bitmap

def test (words : Bitmap) (i : Nat) : Bool := words (i / 64) &&& ((1 : BitVec 64) <<< (i % 64)) != 0

def set (words : Bitmap) (i : Nat) : Bitmap :=
  Function.update words (i / 64) (words (i / 64) ||| ((1 : BitVec 64) <<< (i % 64)))

def clear (words : Bitmap) (i : Nat) : Bitmap :=
  Function.update words (i / 64) (words (i / 64) &&& ~~~((1 : BitVec 64) <<< (i % 64)))

variable (words : Bitmap) (i j : Nat)

theorem one_shiftLeft : (1 : BitVec 64) <<< i = BitVec.twoPow 64 i := (BitVec.twoPow_eq 64 i).symm

theorem test_eq_getLsbD : words.test i = (words (i / 64)).getLsbD (i % 64) := by
  have hlt : i % 64 < 64 := Nat.mod_lt _ (by decide)
  rw [test, one_shiftLeft, BitVec.and_twoPow]
  cases hb : (words (i / 64)).getLsbD (i % 64) with
  | true =>
    have hne : BitVec.twoPow 64 (i % 64) ≠ 0 := by
      intro he
      have := congrArg (fun b => b.getLsbD (i % 64)) he
      simp [hlt] at this
    simpa using hne
  | false => simp

theorem test_set : (words.set i).test j = (decide (i = j) || words.test j) := by
  have hi : i % 64 < 64 := Nat.mod_lt _ (by decide)
  have hj : j % 64 < 64 := Nat.mod_lt _ (by decide)
  rw [test_eq_getLsbD, test_eq_getLsbD, set, one_shiftLeft]
  by_cases hw : j / 64 = i / 64
  · rw [hw, Function.update_self, BitVec.getLsbD_or, BitVec.getLsbD_twoPow, Bool.or_comm]
    congr 1
    simp only [hi, decide_true, Bool.true_and, decide_eq_decide]
    omega
  · rw [Function.update_of_ne hw]
    have hne : i ≠ j := fun he => hw (he ▸ rfl)
    simp [hne]

theorem test_clear : (words.clear i).test j = (!decide (i = j) && words.test j) := by
  have hi : i % 64 < 64 := Nat.mod_lt _ (by decide)
  have hj : j % 64 < 64 := Nat.mod_lt _ (by decide)
  rw [test_eq_getLsbD, test_eq_getLsbD, clear, one_shiftLeft]
  by_cases hw : j / 64 = i / 64
  · rw [hw, Function.update_self, BitVec.getLsbD_and, BitVec.getLsbD_not, BitVec.getLsbD_twoPow, Bool.and_comm]
    congr 1
    simp only [hi, hj, decide_true, Bool.true_and, Bool.not_eq_eq_eq_not, Bool.not_not, decide_eq_decide]
    omega
  · rw [Function.update_of_ne hw]
    have hne : i ≠ j := fun he => hw (he ▸ rfl)
    simp [hne]

/-- The indices under `n` that are not in the set. -/
def clearBelow (n : Nat) : Finset Nat := (Finset.range n).filter fun i => words.test i = false

theorem mem_clearBelow {n : Nat} : i ∈ words.clearBelow n ↔ i < n ∧ words.test i = false := by
  simp [clearBelow]

theorem card_clearBelow_set {n : Nat} (h : i ∈ words.clearBelow n) :
    ((words.set i).clearBelow n).card + 1 = (words.clearBelow n).card := by
  have he : (words.set i).clearBelow n = (words.clearBelow n).erase i := by
    ext j
    simp only [mem_clearBelow, test_set, Finset.mem_erase, Bool.or_eq_false_iff, decide_eq_false_iff_not]
    tauto
  rw [he]
  exact Finset.card_erase_add_one h

theorem card_clearBelow_clear {n : Nat} (hlt : i < n) (h : words.test i = true) :
    ((words.clear i).clearBelow n).card = (words.clearBelow n).card + 1 := by
  have hnot : i ∉ words.clearBelow n := by rw [mem_clearBelow]; simp [h]
  have he : (words.clear i).clearBelow n = insert i (words.clearBelow n) := by
    ext j
    simp only [mem_clearBelow, test_clear, Finset.mem_insert, Bool.and_eq_false_iff, Bool.not_eq_false',
      decide_eq_true_eq]
    constructor
    · rintro ⟨hj, rfl | ht⟩
      · exact .inl rfl
      · exact .inr ⟨hj, ht⟩
    · rintro (rfl | ⟨hj, ht⟩)
      · exact ⟨hlt, .inl rfl⟩
      · exact ⟨hj, .inr ht⟩
  rw [he, Finset.card_insert_of_notMem hnot]

end Bitmap

end Lib
