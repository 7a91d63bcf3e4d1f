import Mathlib.Data.Finset.Max
import Mathlib.Data.Finset.SDiff

/-!
# Allocating the least free element

A pool is a finite set of elements of a linear order and the subset that is taken. `alloc` takes the least
free element, and `release` gives a taken one back.
-/

namespace Lib

variable {α : Type*} [LinearOrder α]

structure Pool (α : Type*) [LinearOrder α] where
  elems : Finset α
  taken : Finset α

namespace Pool

def free (p : Pool α) : Finset α := p.elems \ p.taken

/-- The least free element, if there is one. -/
def alloc (p : Pool α) : Option α × Pool α :=
  if h : p.free.Nonempty then
    (some (p.free.min' h), { p with taken := insert (p.free.min' h) p.taken })
  else (none, p)

/-- Only a taken element can be given back. -/
def release (p : Pool α) (a : α) : Option (Pool α) :=
  if a ∈ p.taken then some { p with taken := p.taken.erase a } else none

variable {p : Pool α} {a : α}

theorem mem_free : a ∈ p.free ↔ a ∈ p.elems ∧ a ∉ p.taken := Finset.mem_sdiff

theorem alloc_of_least (hmem : a ∈ p.free) (hle : ∀ b ∈ p.free, a ≤ b) :
    p.alloc = (some a, { p with taken := insert a p.taken }) := by
  have hne : p.free.Nonempty := ⟨a, hmem⟩
  have hmin : p.free.min' hne = a := le_antisymm (Finset.min'_le _ _ hmem) (hle _ (Finset.min'_mem _ hne))
  rw [alloc, dif_pos hne, hmin]

theorem alloc_of_empty (h : p.free = ∅) : p.alloc = (none, p) := by
  rw [alloc, dif_neg (by rw [h]; exact Finset.not_nonempty_empty)]

theorem release_of_mem (h : a ∈ p.taken) : p.release a = some { p with taken := p.taken.erase a } := if_pos h

theorem release_of_notMem (h : a ∉ p.taken) : p.release a = none := if_neg h

end Pool

end Lib
