import QemuRtos.Lib.ByteMem

/-!
# Linked lists in memory

A singly linked list whose nodes hold the address of the next node at a fixed offset, ended by a null pointer.
A list survives every write that leaves its link words alone (`Linked.congr`).
-/

namespace Lib

/-- The list `l` of nodes from the address `a`, linked by the words at offset `off`. -/
def Linked (m : Mem) (off : Nat) : Nat → List Nat → Prop
  | a, [] => a = 0
  | a, b :: l => a = b ∧ b ≠ 0 ∧ Linked m off (m.loadLE 8 (b + off)) l

variable {m m' : Mem} {off a b : Nat} {l : List Nat}

namespace Linked

theorem nil_iff : Linked m off a [] ↔ a = 0 := Iff.rfl

theorem cons_iff : Linked m off a (b :: l) ↔ a = b ∧ b ≠ 0 ∧ Linked m off (m.loadLE 8 (b + off)) l := Iff.rfl

theorem congr (h : Linked m off a l) (hs : ∀ b ∈ l, ∀ x, b + off ≤ x → x < b + off + 8 → m' x = m x) :
    Linked m' off a l := by
  induction l generalizing a with
  | nil => exact h
  | cons b l ih =>
    obtain ⟨rfl, hne, h⟩ := h
    refine ⟨rfl, hne, ?_⟩
    have hnext : m'.loadLE 8 (a + off) = m.loadLE 8 (a + off) := Mem.loadLE_congr (hs a List.mem_cons_self)
    rw [hnext]
    exact ih h fun b hb => hs b (List.mem_cons_of_mem _ hb)

theorem head_lt (h : Linked m off a l) (hl : ∀ b ∈ l, b < 2 ^ 64) : a < 2 ^ 64 := by
  cases l with
  | nil =>
    rw [nil_iff.mp h]
    decide
  | cons b l =>
    rw [(cons_iff.mp h).1]
    exact hl b List.mem_cons_self

end Linked

end Lib
