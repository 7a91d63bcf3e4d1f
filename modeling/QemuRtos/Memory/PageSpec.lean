import QemuRtos.Memory.PageAlloc
import QemuRtos.Lib.Bitmap
import QemuRtos.Lib.BitMask
import QemuRtos.Lib.Transition

/-!
# What the page allocator does

The allocator as a set of allocated page addresses. `page_alloc` adds a page that was free, and
returns null if and only if none is; `page_free` removes an allocated page and panics on anything
else. `PagesOk` is the invariant that `page_init` establishes.
-/

namespace QemuRtos

open Lib

namespace PageAllocator

/-- The page addresses that the allocator manages. -/
structure Managed (p : PageAllocator) (a : U64) : Prop where
  aligned : a.toNat % pageSize = 0
  start_le : p.managedStart.toNat ≤ a.toNat
  lt_end : a.toNat < p.managedEnd.toNat

def Allocated (p : PageAllocator) (a : U64) : Prop := p.Managed a ∧ p.bitmapTest (p.pageIndexFromAddr a) = true

/-- The variables that only `page_init` sets. -/
def range (p : PageAllocator) : U64 × U64 × Nat × Nat × Bool :=
  (p.managedStart, p.managedEnd, p.totalPages, p.pageBitmapWords, p.initialized)

end PageAllocator

/-- The invariant of the allocator. Null is not a managed page. -/
structure PagesOk (p : PageAllocator) : Prop where
  initialized : p.initialized = true
  start_align : p.managedStart.toNat % pageSize = 0
  start_pos : 0 < p.managedStart.toNat
  end_eq : p.managedEnd.toNat = p.managedStart.toNat + p.totalPages * pageSize
  capacity : p.totalPages ≤ p.bitmapCapacityPages
  free_eq : p.freePages = (Bitmap.clearBelow p.pageBitmap p.totalPages).card

variable {p : PageAllocator} {m m' : Machine} {a b : U64}

theorem PagesOk.addr_toNat (h : PagesOk p) {i : Nat} (hi : i < p.totalPages) :
    (p.pageAddrFromIndex i).toNat = p.managedStart.toNat + i * pageSize := by
  have he := h.end_eq
  have hlt := p.managedEnd.isLt
  have hmul : i * pageSize < p.totalPages * pageSize := Nat.mul_lt_mul_of_pos_right hi (by decide)
  have hof : (BitVec.ofNat 64 (i * pageSize)).toNat = i * pageSize := by
    rw [BitVec.toNat_ofNat, Nat.mod_eq_of_lt (by omega)]
  rw [PageAllocator.pageAddrFromIndex, BitVec.toNat_add, hof, Nat.mod_eq_of_lt (by omega)]

theorem PagesOk.index_addr (h : PagesOk p) {i : Nat} (hi : i < p.totalPages) :
    p.pageIndexFromAddr (p.pageAddrFromIndex i) = i := by
  have ha := h.addr_toNat hi
  rw [PageAllocator.pageIndexFromAddr, BitVec.toNat_sub_of_le (by rw [BitVec.le_def, ha]; omega), ha,
    Nat.add_sub_cancel_left, Nat.mul_div_cancel _ (by decide)]

theorem PagesOk.managed_addr (h : PagesOk p) {i : Nat} (hi : i < p.totalPages) :
    p.Managed (p.pageAddrFromIndex i) := by
  have ha := h.addr_toNat hi
  have hs := h.start_align
  have he := h.end_eq
  have hmul : i * pageSize < p.totalPages * pageSize := Nat.mul_lt_mul_of_pos_right hi (by decide)
  refine ⟨?_, by omega, by omega⟩
  rw [ha, Nat.add_mul_mod_self_right, hs]

theorem PagesOk.addr_index (h : PagesOk p) (ha : p.Managed a) :
    p.pageIndexFromAddr a < p.totalPages ∧ p.pageAddrFromIndex (p.pageIndexFromAddr a) = a := by
  obtain ⟨hal, hle, hlt⟩ := ha
  have hs := h.start_align
  have he := h.end_eq
  have hidx : p.pageIndexFromAddr a = (a.toNat - p.managedStart.toNat) / pageSize := by
    rw [PageAllocator.pageIndexFromAddr, BitVec.toNat_sub_of_le (by rwa [BitVec.le_def])]
  simp only [pageSize] at *
  have hi : p.pageIndexFromAddr a < p.totalPages := by rw [hidx]; omega
  refine ⟨hi, BitVec.eq_of_toNat_eq ?_⟩
  rw [h.addr_toNat hi, hidx]
  simp only [pageSize]
  omega

theorem PageAllocator.Managed.ne_zero (h : PagesOk p) (ha : p.Managed a) : a ≠ 0 := by
  rintro rfl
  have := h.start_pos
  have := ha.start_le
  simp at this
  omega

/-- `p'` is `p` with the free page `a` taken. -/
structure PageTaken (a : U64) (p p' : PageAllocator) : Prop where
  managed : p.Managed a
  fresh : ¬p.Allocated a
  allocated : ∀ b, p'.Allocated b ↔ p.Allocated b ∨ b = a
  range : p'.range = p.range
  free : p'.freePages + 1 = p.freePages

/-- `p'` is `p` with the allocated page `a` given back. -/
structure PageGiven (a : U64) (p p' : PageAllocator) : Prop where
  held : p.Allocated a
  allocated : ∀ b, p'.Allocated b ↔ p.Allocated b ∧ b ≠ a
  range : p'.range = p.range
  free : p'.freePages = p.freePages + 1

theorem PageAllocator.Managed.congr {p' : PageAllocator} (h : p'.range = p.range) : p'.Managed a ↔ p.Managed a := by
  simp only [PageAllocator.range, Prod.mk.injEq] at h
  exact ⟨fun ⟨h1, h2, h3⟩ => ⟨h1, h.1 ▸ h2, h.2.1 ▸ h3⟩, fun ⟨h1, h2, h3⟩ => ⟨h1, h.1 ▸ h2, h.2.1 ▸ h3⟩⟩

theorem PagesOk.of_range {p' : PageAllocator} (h : PagesOk p) (hr : p'.range = p.range)
    (hfree : p'.freePages = (Bitmap.clearBelow p'.pageBitmap p'.totalPages).card) : PagesOk p' := by
  simp only [PageAllocator.range, Prod.mk.injEq] at hr
  obtain ⟨h1, h2, h3, h4, h5⟩ := hr
  exact ⟨h5.trans h.initialized, by rw [h1]; exact h.start_align, by rw [h1]; exact h.start_pos,
    by rw [h1, h2, h3]; exact h.end_eq,
    by rw [PageAllocator.bitmapCapacityPages, h3, h4]; exact h.capacity, hfree⟩

/-! ### Allocation -/

/-- The scan finds a free page, wherever it starts, unless there is none. -/
theorem PageAllocator.scan_spec (p : PageAllocator) :
    (∃ offset, p.scan = some offset ∧ (p.nextFreeHint + offset) % p.totalPages < p.totalPages ∧
      p.bitmapTest ((p.nextFreeHint + offset) % p.totalPages) = false) ∨
    p.scan = none ∧ ∀ i < p.totalPages, p.bitmapTest i = true := by
  cases hs : p.scan with
  | some offset =>
    obtain ⟨hp, as, bs, he, -⟩ := List.find?_eq_some_iff_append.mp hs
    have hmem : offset ∈ List.range p.totalPages := by rw [he]; simp
    rw [List.mem_range] at hmem
    exact .inl ⟨offset, rfl, Nat.mod_lt _ (by omega), by simpa using hp⟩
  | none =>
    refine .inr ⟨rfl, fun i hi => ?_⟩
    rw [PageAllocator.scan, List.find?_eq_none] at hs
    -- the offset at which the scan looks at page `i`
    have hoff : (i + p.totalPages - p.nextFreeHint % p.totalPages) % p.totalPages < p.totalPages :=
      Nat.mod_lt _ (by omega)
    have hlt := Nat.mod_lt p.nextFreeHint (show p.totalPages > 0 by omega)
    have heq : (p.nextFreeHint + (i + p.totalPages - p.nextFreeHint % p.totalPages) % p.totalPages) %
        p.totalPages = i := by
      rw [Nat.add_mod_mod, ← Nat.mod_add_mod p.nextFreeHint p.totalPages,
        show p.nextFreeHint % p.totalPages + (i + p.totalPages - p.nextFreeHint % p.totalPages) =
          i + p.totalPages by omega, Nat.add_mod_right, Nat.mod_eq_of_lt hi]
    have := hs _ (List.mem_range.mpr hoff)
    rw [heq] at this
    simpa using this

theorem allocated_iff_addr (h : PagesOk p) {i : Nat} (hi : i < p.totalPages) :
    p.Allocated (p.pageAddrFromIndex i) ↔ p.bitmapTest i = true := by
  rw [PageAllocator.Allocated, h.index_addr hi]
  exact and_iff_right (h.managed_addr hi)

/-- `page_alloc` does not panic: it takes a free page, or there is none and it returns null. -/
theorem pageAlloc_spec (h : PagesOk m.pages) :
    ∃ a p', pageAlloc m = .ok (a, { m with pages := p' }) ∧ PagesOk p' ∧
      (a = 0 ∧ p' = m.pages ∧ m.pages.freePages = 0 ∨ a ≠ 0 ∧ PageTaken a m.pages p') := by
  rw [pageAlloc]
  simp only [irqSave, h.initialized, Bool.not_true, Bool.false_eq_true, ↓reduceIte]
  rcases m.pages.scan_spec with ⟨offset, hscan, hlt, hclear⟩ | ⟨hscan, hall⟩
  · simp only [hscan]
    generalize (m.pages.nextFreeHint + offset) % m.pages.totalPages = i at hlt hclear ⊢
    have hmem : i ∈ Bitmap.clearBelow m.pages.pageBitmap m.pages.totalPages :=
      (Bitmap.mem_clearBelow _ i).mpr ⟨hlt, hclear⟩
    have hcard := Bitmap.card_clearBelow_set _ i hmem
    have hfree := h.free_eq
    let p' : PageAllocator := { m.pages.bitmapSet i with
      freePages := m.pages.freePages - 1
      nextFreeHint := if m.pages.totalPages = 0 then 0 else (i + 1) % m.pages.totalPages }
    have hp' : PagesOk p' := h.of_range rfl (by
      show m.pages.freePages - 1 = (Bitmap.clearBelow (Bitmap.set m.pages.pageBitmap i) m.pages.totalPages).card
      omega)
    have hman := h.managed_addr hlt
    refine ⟨m.pages.pageAddrFromIndex i, p', rfl, hp', .inr ⟨hman.ne_zero h, hman, ?_, fun b => ?_, rfl, ?_⟩⟩
    · rw [allocated_iff_addr h hlt, hclear]
      exact Bool.false_ne_true
    · have htest : p'.bitmapTest (m.pages.pageIndexFromAddr b) =
          (decide (i = m.pages.pageIndexFromAddr b) || m.pages.bitmapTest (m.pages.pageIndexFromAddr b)) :=
        Bitmap.test_set ..
      rw [PageAllocator.Allocated, show p'.Managed b ↔ m.pages.Managed b from PageAllocator.Managed.congr rfl,
        show p'.pageIndexFromAddr b = m.pages.pageIndexFromAddr b from rfl, htest, Bool.or_eq_true,
        decide_eq_true_eq]
      constructor
      · rintro ⟨hb, rfl | ht⟩
        · exact .inr (h.addr_index hb).2.symm
        · exact .inl ⟨hb, ht⟩
      · rintro (⟨hb, ht⟩ | rfl)
        · exact ⟨hb, .inr ht⟩
        · exact ⟨hman, .inl (h.index_addr hlt).symm⟩
    · show m.pages.freePages - 1 + 1 = m.pages.freePages
      have := Finset.card_pos.mpr ⟨i, hmem⟩
      omega
  · rw [hscan]
    refine ⟨0, m.pages, rfl, h, .inl ⟨rfl, rfl, ?_⟩⟩
    rw [h.free_eq, Finset.card_eq_zero, Finset.eq_empty_iff_forall_notMem]
    intro i hi
    obtain ⟨hlt, hclear⟩ := (Bitmap.mem_clearBelow _ i).mp hi
    have := hall i hlt
    rw [PageAllocator.bitmapTest] at this
    rw [Bitmap.test, this] at hclear
    cases hclear

/-! ### Release -/

theorem toNat_pageMask (a : U64) : (a &&& pageMask).toNat = a.toNat % pageSize :=
  toNat_and_mask a (k := 12) (by decide)

theorem and_pageMask_eq_zero : a &&& pageMask = 0 ↔ a.toNat % pageSize = 0 := by
  rw [← toNat_pageMask]
  exact ⟨fun h => by rw [h]; rfl, fun h => BitVec.eq_of_toNat_eq h⟩

theorem pageFree_guard : ¬(a &&& pageMask ≠ 0 ∨ a < p.managedStart ∨ a ≥ p.managedEnd) ↔ p.Managed a := by
  rw [not_or, not_or, not_not, and_pageMask_eq_zero, BitVec.lt_def, ge_iff_le, BitVec.le_def]
  exact ⟨fun ⟨h1, h2, h3⟩ => ⟨h1, by omega, by omega⟩, fun ⟨h1, h2, h3⟩ => ⟨h1, by omega, by omega⟩⟩

theorem pageFree_spec (h : PagesOk m.pages) (ha : m.pages.Allocated a) :
    ∃ p', pageFree a m = .ok { m with pages := p' } ∧ PagesOk p' ∧ PageGiven a m.pages p' := by
  obtain ⟨hman, htest⟩ := ha
  obtain ⟨hlt, hidx⟩ := h.addr_index hman
  let i := m.pages.pageIndexFromAddr a
  let p' : PageAllocator := { m.pages.bitmapClear i with
    freePages := m.pages.freePages + 1
    nextFreeHint := if i < m.pages.nextFreeHint then i else m.pages.nextFreeHint }
  have hp' : PagesOk p' := h.of_range rfl (by
    have := Bitmap.card_clearBelow_clear m.pages.pageBitmap i hlt htest
    have hfree := h.free_eq
    show m.pages.freePages + 1 = (Bitmap.clearBelow (Bitmap.clear m.pages.pageBitmap i) m.pages.totalPages).card
    omega)
  refine ⟨p', ?_, hp', ⟨⟨hman, htest⟩, fun b => ?_, rfl, rfl⟩⟩
  · rw [pageFree]
    simp only [irqSave, h.initialized, Bool.not_true, Bool.false_eq_true, ↓reduceIte,
      pageFree_guard.mpr hman, htest]
    rfl
  · have htest' : p'.bitmapTest (m.pages.pageIndexFromAddr b) =
        (!decide (i = m.pages.pageIndexFromAddr b) && m.pages.bitmapTest (m.pages.pageIndexFromAddr b)) :=
      Bitmap.test_clear ..
    rw [PageAllocator.Allocated, show p'.Managed b ↔ m.pages.Managed b from PageAllocator.Managed.congr rfl,
      show p'.pageIndexFromAddr b = m.pages.pageIndexFromAddr b from rfl, htest', Bool.and_eq_true,
      Bool.not_eq_true', decide_eq_false_iff_not]
    constructor
    · rintro ⟨hb, hne, ht⟩
      exact ⟨⟨hb, ht⟩, fun he => hne (by rw [he])⟩
    · rintro ⟨⟨hb, ht⟩, hne⟩
      refine ⟨hb, fun he => hne ?_, ht⟩
      rw [← (h.addr_index hb).2, ← he, hidx]

theorem pageFree_ok (h : PagesOk m.pages) (hfree : pageFree a m = .ok m') :
    m.pages.Allocated a ∧ ∃ p', m' = { m with pages := p' } ∧ PagesOk p' ∧ PageGiven a m.pages p' := by
  have ha : m.pages.Allocated a := by
    rw [pageFree] at hfree
    dsimp only [irqSave] at hfree
    rw [if_neg (by simp [h.initialized])] at hfree
    by_cases hguard : a &&& pageMask ≠ 0 ∨ a < m.pages.managedStart ∨ a ≥ m.pages.managedEnd
    · rw [if_pos hguard] at hfree; cases hfree
    · rw [if_neg hguard] at hfree
      by_cases htest : m.pages.bitmapTest (m.pages.pageIndexFromAddr a) = true
      · exact ⟨pageFree_guard.mp hguard, htest⟩
      · rw [if_pos (by simpa using htest)] at hfree; cases hfree
  obtain ⟨p', heq, hp', hg⟩ := pageFree_spec h ha
  rw [heq] at hfree
  cases hfree
  exact ⟨ha, p', rfl, hp', hg⟩

/-! ### Initialisation -/

theorem pageAlignDown_toNat (a : U64) : (alignDown a (BitVec.ofNat 64 pageSize)).toNat = a.toNat / pageSize * pageSize :=
  toNat_and_not_mask a (k := 12) (by decide)

/-- An address is rounded up to the next page, and to 0 above the last page. -/
theorem pageAlignUp_toNat (a : U64) : (alignUp a (BitVec.ofNat 64 pageSize)).toNat =
    (a.toNat + (pageSize - 1)) % 2 ^ 64 / pageSize * pageSize := by
  have h := toNat_and_not_mask (a + BitVec.ofNat 64 pageSize - 1) (k := 12) (by decide)
  rw [alignUp]
  refine h.trans ?_
  rw [show a + BitVec.ofNat 64 pageSize - 1 = a + BitVec.ofNat 64 (pageSize - 1) by
    simp only [pageSize]; bv_omega, BitVec.toNat_add]
  rfl

theorem PagesOk.free_length {p' : PageAllocator} (h : PagesOk p) (h' : PagesOk p') (hr : p'.range = p.range) {l : List U64}
    (hnd : l.Nodup) (hl : ∀ a ∈ l, p.Allocated a) (halloc : ∀ a, p'.Allocated a ↔ p.Allocated a ∧ a ∉ l) :
    p'.freePages = p.freePages + l.length := by
  have hn : p'.totalPages = p.totalPages := congrArg (fun x => x.2.2.1) hr
  have haddr : ∀ i, p'.pageAddrFromIndex i = p.pageAddrFromIndex i := fun i => by
    rw [PageAllocator.pageAddrFromIndex, PageAllocator.pageAddrFromIndex,
      show p'.managedStart = p.managedStart from congrArg Prod.fst hr]
  have hset : Bitmap.clearBelow p'.pageBitmap p.totalPages =
      Bitmap.clearBelow p.pageBitmap p.totalPages ∪ l.toFinset.image p.pageIndexFromAddr := by
    ext i
    simp only [Bitmap.mem_clearBelow, Finset.mem_union, Finset.mem_image, List.mem_toFinset]
    constructor
    · rintro ⟨hi, hc⟩
      by_cases ha : p.Allocated (p.pageAddrFromIndex i)
      · refine .inr ⟨p.pageAddrFromIndex i, ?_, h.index_addr hi⟩
        by_contra hnot
        have := (halloc _).mpr ⟨ha, hnot⟩
        rw [← haddr, allocated_iff_addr h' (hn ▸ hi)] at this
        exact absurd (this.symm.trans hc) (by decide)
      · refine .inl ⟨hi, ?_⟩
        rw [allocated_iff_addr h hi] at ha
        exact Bool.eq_false_iff.mpr ha
    · rintro (⟨hi, hc⟩ | ⟨a, ha, rfl⟩)
      · refine ⟨hi, Bool.eq_false_iff.mpr fun ht => ?_⟩
        have := ((halloc _).mp (haddr i ▸ (allocated_iff_addr h' (hn ▸ hi)).mpr ht)).1
        rw [allocated_iff_addr h hi] at this
        exact absurd (this.symm.trans hc) (by decide)
      · obtain ⟨hi, he⟩ := h.addr_index (hl a ha).1
        refine ⟨hi, Bool.eq_false_iff.mpr fun ht => ?_⟩
        have := (allocated_iff_addr h' (hn ▸ hi)).mpr ht
        rw [haddr, he] at this
        exact ((halloc a).mp this).2 ha
  have hdisj : Disjoint (Bitmap.clearBelow p.pageBitmap p.totalPages) (l.toFinset.image p.pageIndexFromAddr) := by
    rw [Finset.disjoint_left]
    simp only [Bitmap.mem_clearBelow, Finset.mem_image, List.mem_toFinset]
    rintro i ⟨hi, hc⟩ ⟨a, ha, rfl⟩
    have := (hl a ha).2
    exact absurd (this.symm.trans hc) (by decide)
  have hinj : Set.InjOn p.pageIndexFromAddr l.toFinset := by
    intro a ha b hb he
    rw [← (h.addr_index (hl a (List.mem_toFinset.mp ha)).1).2, he, (h.addr_index (hl b (List.mem_toFinset.mp hb)).1).2]
  rw [h'.free_eq, hn, hset, Finset.card_union_of_disjoint hdisj, ← h.free_eq, Finset.card_image_of_injOn hinj,
    List.toFinset_card_of_nodup hnd]

theorem kernelEnd_alignUp (image : Image) : image.kernelEnd.toNat ≤
    (alignUp image.kernelEnd (BitVec.ofNat 64 pageSize)).toNat ∧
      0 < (alignUp image.kernelEnd (BitVec.ofNat 64 pageSize)).toNat := by
  have h := pageAlignUp_toNat image.kernelEnd
  have hram := image.end_le_ram
  have hstacks := image.stacks_le_end
  have hbase := image.base_le_stacks
  rw [image.ram_end] at hram
  have : (0x88000000 : U64).toNat = 0x88000000 := rfl
  rw [Nat.mod_eq_of_lt (by simp only [pageSize]; omega)] at h
  simp only [pageSize] at h ⊢
  omega

/-- `page_init` makes an allocator with no page allocated. Its range starts above 0 unless the start is 0
or in the last page of the address space. -/
theorem pageInit_ok {memStart memEnd : U64} (h : pageInit memStart memEnd m = .ok m')
    (hpos : 0 < (alignUp memStart (BitVec.ofNat 64 pageSize)).toNat) :
    ∃ p', m' = { m with pages := p' } ∧ PagesOk p' ∧ (∀ a, ¬p'.Allocated a) ∧ p'.nextFreeHint = 0 ∧
      p'.managedStart = alignUp memStart (BitVec.ofNat 64 pageSize) ∧
      p'.managedEnd = alignDown memEnd (BitVec.ofNat 64 pageSize) := by
  rw [pageInit] at h
  dsimp only [irqSave, PageAllocator.bitmapCapacityPages] at h
  by_cases hbits : m.image.pageBitmapBytes % 8 ≠ 0
  · rw [if_pos hbits] at h; cases h
  rw [if_neg hbits] at h
  by_cases hlt : alignDown memEnd (BitVec.ofNat 64 pageSize) < alignUp memStart (BitVec.ofNat 64 pageSize)
  · rw [if_pos hlt] at h; cases h
  rw [if_neg hlt] at h
  by_cases hcap : (alignDown memEnd (BitVec.ofNat 64 pageSize) -
      alignUp memStart (BitVec.ofNat 64 pageSize)).toNat / pageSize > m.image.pageBitmapBytes / 8 * 64
  · simp only [hcap, ↓reduceIte] at h; cases h
  simp only [hcap, ↓reduceIte] at h
  cases h
  have hs := pageAlignUp_toNat memStart
  have he := pageAlignDown_toNat memEnd
  rw [BitVec.lt_def, Nat.not_lt] at hlt
  have hsub := BitVec.toNat_sub_of_le (BitVec.le_def.mpr hlt)
  refine ⟨_, rfl, ⟨rfl, ?_, hpos, ?_, Nat.not_lt.mp hcap, ?_⟩, fun a ha => ?_, rfl, rfl, rfl⟩
  · show (alignUp memStart _).toNat % pageSize = 0
    rw [hs]; exact Nat.mul_mod_left ..
  · show (alignDown memEnd _).toNat = (alignUp memStart _).toNat +
      (alignDown memEnd _ - alignUp memStart _).toNat / pageSize * pageSize
    rw [hsub, hs, he, ← Nat.sub_mul, Nat.mul_div_cancel _ (by decide), ← Nat.add_mul, Nat.add_sub_cancel']
    rw [hs, he] at hlt
    exact Nat.le_of_mul_le_mul_right hlt (by decide)
  · show _ / pageSize = (Bitmap.clearBelow (fun _ => 0) _).card
    rw [Bitmap.clearBelow, Finset.filter_true_of_mem, Finset.card_range]
    intro i _
    simp [Bitmap.test]
  · have := ha.2
    simp [PageAllocator.bitmapTest] at this

end QemuRtos
