import Mathlib.Data.List.Basic
import Mathlib.Data.List.Nodup
import Mathlib.Data.List.Range
import Mathlib.Logic.Function.Basic
import Mathlib.Tactic.SplitIfs

/-!
# Ring buffers refine lists

A ring buffer of capacity `cap` keeps its `count` entries in the slots `head, head + 1, …` modulo
`cap`. `toList` reads them in that order. For a well-formed ring (`WF`: the tail is where the next
entry goes) `push` appends to the list, `pop` takes its head, and `remove` erases one entry from
the middle by shifting every later entry one slot towards the head (`closeGap`).
-/

namespace Lib

/-- A ring of slots with the position of the oldest entry, of the next free slot, and the number
of entries. The capacity is a parameter of the operations. -/
structure RingBuffer (α : Type*) where
  slots : Nat → α
  head : Nat
  tail : Nat
  count : Nat

namespace RingBuffer

variable {α : Type*} (cap : Nat)

/-- The slot of the entry at distance `i` from the head. -/
def slotOf (r : RingBuffer α) (i : Nat) : Nat := (r.head + i) % cap

/-- The entries in order, oldest first. -/
def toList (r : RingBuffer α) : List α := (List.range r.count).map fun i => r.slots (r.slotOf cap i)

/-- Append at the tail; `none` when the ring is full. -/
def push (r : RingBuffer α) (x : α) : Option (RingBuffer α) :=
  if r.count = cap then none
  else some
    { r with
      slots := Function.update r.slots r.tail x
      tail := (r.tail + 1) % cap
      count := r.count + 1 }

/-- Take the entry at the head; `none` when the ring is empty. -/
def pop (r : RingBuffer α) : Option (α × RingBuffer α) :=
  if r.count = 0 then none
  else some (r.slots r.head, { r with head := (r.head + 1) % cap, count := r.count - 1 })

/-- Move every entry from distance `found + 1` on one slot towards the head, in ring order. -/
def closeGap (r : RingBuffer α) (found : Nat) : Nat → α :=
  (List.range' found (r.count - 1 - found)).foldl
    (fun slots i => Function.update slots (r.slotOf cap i) (slots (r.slotOf cap (i + 1)))) r.slots

/-- Remove the entry nearest to the head that equals `x`; `none` when there is none. -/
def remove [DecidableEq α] (r : RingBuffer α) (x : α) : Option (RingBuffer α) :=
  match (List.range r.count).find? (fun i => r.slots (r.slotOf cap i) = x) with
  | none => none
  | some found => some
      { r with
        slots := r.closeGap cap found
        count := r.count - 1
        tail := (r.head + (r.count - 1)) % cap }

/-- The indices are in range and the tail is the slot after the last entry. -/
structure WF (r : RingBuffer α) : Prop where
  head_lt : r.head < cap
  count_le : r.count ≤ cap
  tail_eq : r.tail = (r.head + r.count) % cap

variable {cap}

@[simp] theorem length_toList (r : RingBuffer α) : (r.toList cap).length = r.count := by
  simp [toList]

theorem getElem_toList (r : RingBuffer α) (i : Nat) (hi : i < (r.toList cap).length) :
    (r.toList cap)[i] = r.slots (r.slotOf cap i) := by
  simp [toList]

theorem WF.empty (slots : Nat → α) (hcap : 0 < cap) : WF cap ⟨slots, 0, 0, 0⟩ :=
  ⟨hcap, Nat.zero_le _, by simp⟩

@[simp] theorem toList_empty (slots : Nat → α) (h t : Nat) : toList cap ⟨slots, h, t, 0⟩ = [] := rfl

theorem toList_eq_nil {r : RingBuffer α} : r.toList cap = [] ↔ r.count = 0 := by
  rw [← List.length_eq_zero_iff, length_toList]

theorem WF.slotOf_inj {r : RingBuffer α} (h : WF cap r) {i j : Nat} (hi : i < cap) (hj : j < cap)
    (heq : r.slotOf cap i = r.slotOf cap j) : i = j := by
  have hh := h.head_lt
  unfold slotOf at heq
  have e : ∀ n < cap, (r.head + n) % cap = if r.head + n < cap then r.head + n else r.head + n - cap := by
    intro n hn
    split_ifs with hlt
    · exact Nat.mod_eq_of_lt hlt
    · rw [Nat.mod_eq_sub_mod (by omega), Nat.mod_eq_of_lt (by omega)]
  rw [e i hi, e j hj] at heq
  split_ifs at heq <;> omega

/-! ### Push and pop -/

theorem push_spec {r : RingBuffer α} (h : WF cap r) (hlt : r.count < cap) (x : α) :
    ∃ r', r.push cap x = some r' ∧ WF cap r' ∧ r'.toList cap = r.toList cap ++ [x] := by
  have htail : r.tail = r.slotOf cap r.count := h.tail_eq
  refine ⟨_, if_neg (by omega), ⟨h.head_lt, hlt, ?_⟩, ?_⟩
  · simp only [h.tail_eq, Nat.mod_add_mod, Nat.add_assoc]
  · simp only [toList, List.range_succ, List.map_append, List.map_cons, List.map_nil]
    congr 1
    · refine List.map_congr_left fun i hi => ?_
      have hne : r.slotOf cap i ≠ r.tail := by
        rw [htail]
        intro he
        have := h.slotOf_inj (by simp at hi; omega) hlt he
        simp at hi
        omega
      exact Function.update_of_ne hne _ _
    · show [Function.update r.slots r.tail x (r.slotOf cap r.count)] = [x]
      rw [← htail, Function.update_self]

theorem pop_empty {r : RingBuffer α} (h : r.count = 0) : r.pop cap = none := by
  simp [pop, h]

theorem pop_spec {r : RingBuffer α} (h : WF cap r) {x : α} {l : List α} (hl : r.toList cap = x :: l) :
    ∃ r', r.pop cap = some (x, r') ∧ WF cap r' ∧ r'.toList cap = l := by
  have hlen : (r.toList cap).length = l.length + 1 := by rw [hl]; rfl
  have hcount : r.count = l.length + 1 := by rw [← hlen, length_toList]
  have hcap := h.head_lt
  have hslot : ∀ i, RingBuffer.slotOf cap { r with head := (r.head + 1) % cap, count := r.count - 1 } i
      = r.slotOf cap (i + 1) := by
    intro i
    simp only [slotOf, Nat.mod_add_mod]
    congr 1
    omega
  have hx : r.slots r.head = x := by
    have := getElem_toList r 0 (show 0 < (r.toList cap).length by omega)
    simp only [hl, List.getElem_cons_zero, slotOf, Nat.add_zero, Nat.mod_eq_of_lt hcap] at this
    exact this.symm
  refine ⟨_, by rw [pop, if_neg (by omega), hx], ⟨Nat.mod_lt _ (Nat.zero_lt_of_lt hcap), ?_, ?_⟩, ?_⟩
  · have := h.count_le
    show r.count - 1 ≤ cap
    omega
  · rw [h.tail_eq]
    show (r.head + r.count) % cap = ((r.head + 1) % cap + (r.count - 1)) % cap
    rw [Nat.mod_add_mod]
    congr 1
    omega
  · apply List.ext_getElem
    · simp [hcount]
    · intro i h1 h2
      rw [getElem_toList, hslot]
      have := getElem_toList r (i + 1) (show i + 1 < (r.toList cap).length by simp; omega)
      simp only [hl, List.getElem_cons_succ] at this
      exact this.symm

/-! ### Removal from the middle -/

/-- After `n` shifts from `found`, the slots at distances `found … found + n - 1` hold what the
next slot held before. -/
theorem WF.shift_slots {r : RingBuffer α} (h : WF cap r) (found n : Nat) (hn : found + n < cap) :
    ∀ j < cap, ((List.range' found n).foldl
        (fun slots i => Function.update slots (r.slotOf cap i) (slots (r.slotOf cap (i + 1)))) r.slots)
      (r.slotOf cap j) =
      if found ≤ j ∧ j < found + n then r.slots (r.slotOf cap (j + 1)) else r.slots (r.slotOf cap j) := by
  induction n with
  | zero =>
    intro j _
    rw [if_neg (by omega)]
    rfl
  | succ n ih =>
    intro j hj
    rw [List.range'_concat, List.foldl_append, List.foldl_cons, List.foldl_nil, Nat.one_mul]
    by_cases hjn : j = found + n
    · subst hjn
      rw [Function.update_self, ih (by omega) (found + n + 1) (by omega), if_neg (by omega),
        if_pos (by omega)]
    · have hne : r.slotOf cap j ≠ r.slotOf cap (found + n) :=
        fun he => hjn (h.slotOf_inj hj (by omega) he)
      rw [Function.update_of_ne hne, ih (by omega) j hj]
      by_cases hin : found ≤ j ∧ j < found + n
      · rw [if_pos hin, if_pos (by omega)]
      · rw [if_neg hin, if_neg (by omega)]

theorem remove_none [DecidableEq α] {r : RingBuffer α} {x : α} (hx : x ∉ r.toList cap) :
    r.remove cap x = none := by
  have hfind : (List.range r.count).find? (fun i => r.slots (r.slotOf cap i) = x) = none := by
    rw [List.find?_eq_none]
    intro i hi he
    exact hx (List.mem_map.mpr ⟨i, hi, by simpa using he⟩)
  rw [remove, hfind]

/-- Removing a present entry erases its first occurrence and keeps the order of the others. -/
theorem remove_spec [DecidableEq α] {r : RingBuffer α} (h : WF cap r) {x : α} (hx : x ∈ r.toList cap) :
    ∃ r', r.remove cap x = some r' ∧ WF cap r' ∧ r'.toList cap = (r.toList cap).erase x := by
  obtain ⟨found, hfind⟩ : ∃ found,
      (List.range r.count).find? (fun i => r.slots (r.slotOf cap i) = x) = some found := by
    rw [← Option.isSome_iff_exists, List.find?_isSome]
    obtain ⟨i, hi, he⟩ := List.mem_map.mp hx
    exact ⟨i, hi, by simpa using he⟩
  obtain ⟨hxf, hlt, hfirst⟩ : r.slots (r.slotOf cap found) = x ∧ found < r.count ∧
      ∀ j < found, r.slots (r.slotOf cap j) ≠ x := by
    obtain ⟨hp, i, hi, he, hbefore⟩ := List.find?_eq_some_iff_getElem.mp hfind
    simp only [List.getElem_range] at he hbefore
    subst he
    refine ⟨by simpa using hp, by simpa using hi, fun j hj => ?_⟩
    simpa using hbefore j hj
  have hcount := h.count_le
  have hhead := h.head_lt
  refine ⟨{ r with
      slots := r.closeGap cap found
      count := r.count - 1
      tail := (r.head + (r.count - 1)) % cap }, by rw [remove, hfind], ⟨hhead, ?_, rfl⟩, ?_⟩
  · show r.count - 1 ≤ cap
    omega
  · have herase : (r.toList cap).erase x = (r.toList cap).eraseIdx found := by
      have hidx : (r.toList cap).idxOf? x = some found := by
        rw [List.idxOf?_eq_some_iff]
        refine ⟨by simpa using hlt, by rw [getElem_toList]; simpa using hxf, fun j hj => ?_⟩
        rw [getElem_toList]
        simpa using hfirst j hj
      rw [List.erase_eq_eraseIdx, hidx]
    rw [herase]
    apply List.ext_getElem
    · rw [List.length_eraseIdx_of_lt (by simpa using hlt)]
      simp
    · intro i h1 h2
      have hi : i < r.count - 1 := by simpa using h1
      rw [getElem_toList, List.getElem_eraseIdx]
      show r.closeGap cap found (r.slotOf cap i) = _
      rw [closeGap, h.shift_slots found _ (by omega) i (by omega)]
      by_cases hif : i < found
      · rw [if_neg (by omega), dif_pos hif, getElem_toList]
      · rw [if_pos (by omega), dif_neg hif, getElem_toList]

end RingBuffer

end Lib
