import QemuRtos.Memory.HeapOk

/-!
# The heap operations keep the heap in order

`kfree` gives a block back, `heap_grow_pool` adds a page, `kmalloc` serves a request or there is nothing left for its
class, and clients write in what they hold.
-/

namespace QemuRtos

open Lib

variable {lent : List U64} {σ σ' : HeapState} {owned : List (Nat × Nat)} {free : Nat → List Nat}
  {live : List LiveBlock} {mem mem' : Mem} {c page i : Nat} {x y : Nat × Nat} {size : U64}

/-! ### Giving a block back -/

/-- The heap after `kfree` has given block `i` of page `x` back. -/
def HeapState.give (x : Nat × Nat) (i : Nat) (σ : HeapState) : HeapState where
  machine := { σ.machine with mem := giveBlock x.2 x.1 i σ.machine.mem }
  heap := { σ.heap with
    heapFreeBlocksBytes := σ.heap.heapFreeBlocksBytes + classSize x.1
    heapAllocatedBlocksBytes := σ.heap.heapAllocatedBlocksBytes - classSize x.1 }

/-- What clients hold after the block at `addr` has been given back. -/
def dropBlock (addr : Nat) (live : List LiveBlock) : List LiveBlock := live.filter fun b => b.addr ≠ addr

theorem mem_dropBlock {addr : Nat} {b : LiveBlock} : b ∈ dropBlock addr live ↔ b ∈ live ∧ b.addr ≠ addr := by
  rw [dropBlock, List.mem_filter, decide_eq_true_eq]

theorem sum_dropBlock {b : LiveBlock} (hn : (live.map LiveBlock.addr).Nodup) (hb : b ∈ live) :
    ((dropBlock b.addr live).map LiveBlock.blockSize).sum + b.blockSize = (live.map LiveBlock.blockSize).sum := by
  induction live with
  | nil => cases hb
  | cons a l ih =>
    rw [List.map_cons, List.nodup_cons] at hn
    obtain ⟨hnot, hn⟩ := hn
    rw [List.map_cons, List.sum_cons]
    rcases List.mem_cons.mp hb with rfl | hb
    · have hsame : dropBlock b.addr (b :: l) = l := by
        rw [dropBlock, List.filter_cons_of_neg (by simp)]
        refine List.filter_eq_self.mpr fun d hd => decide_eq_true fun he => hnot ?_
        exact List.mem_map.mpr ⟨d, hd, he⟩
      rw [hsame, Nat.add_comm]
    · have hne : a.addr ≠ b.addr := fun he => hnot (he ▸ List.mem_map.mpr ⟨b, hb, rfl⟩)
      have hcons : dropBlock b.addr (a :: l) = a :: dropBlock b.addr l :=
        List.filter_cons_of_pos (decide_eq_true hne)
      rw [hcons, List.map_cons, List.sum_cons, Nat.add_assoc, ih hn hb]

theorem HeapOk.give (h : HeapOk lent σ owned free live) (hx : x ∈ owned) (hi : i < classBlocks x.1)
    (hnot : i ∉ free x.2) {b : LiveBlock} (hb : b ∈ live) (haddr : b.addr = blockAddr x.2 x.1 i)
    (hsize : classIndexForSize b.size = some x.1) :
    HeapOk lent (σ.give x i) owned (Function.update free x.2 (i :: free x.2)) (dropBlock b.addr live) := by
  have hc := h.class_ok hx
  have he : PageEdit x.2 σ.machine.mem (giveBlock x.2 x.1 i σ.machine.mem) :=
    (giveBlock_edited hc hi _).pageEdit hc hi
  have hpage := (h.page x hx).give hc hi hnot (h.place hx).fits
  refine ⟨h.allocator, h.initialized, h.sizes, h.classes, h.frames, h.held, h.nodup,
    fun c hlt => h.pools_edit hx he hlt, h.page_edit hx he hpage, h.count, ?_, ?_, ?_, ?_, ?_, ?_⟩
  · have hsum := h.freeBytes_change hx (i :: free x.2)
    rw [List.length_cons, Nat.succ_mul] at hsum
    show σ.heap.heapFreeBlocksBytes + classSize x.1 = _
    omega
  · have hsum := sum_dropBlock h.liveNodup hb
    rw [← h.allocatedBytes, LiveBlock.blockSize, requestSize_some hsize] at hsum
    show σ.heap.heapAllocatedBlocksBytes - classSize x.1 = _
    omega
  · have hsum := sum_dropBlock h.liveNodup hb
    have htotal := h.totalBytes
    rw [← h.allocatedBytes, LiveBlock.blockSize, requestSize_some hsize] at hsum
    show σ.heap.heapFreeBlocksBytes + classSize x.1 + (σ.heap.heapAllocatedBlocksBytes - classSize x.1) = _
    omega
  · intro d hd
    obtain ⟨hd, hne⟩ := mem_dropBlock.mp hd
    obtain ⟨y, hy, j, hcls, hj, hjn, hdj⟩ := h.taken d hd
    refine ⟨y, hy, j, hcls, hj, ?_, hdj⟩
    by_cases hyx : y.2 = x.2
    · obtain rfl := h.page_inj hy hx hyx
      rw [Function.update_self, List.mem_cons, not_or]
      refine ⟨fun hji => hne ?_, hjn⟩
      rw [hdj, haddr, hji]
    · rw [Function.update_of_ne hyx]
      exact hjn
  · intro y hy j hj hjn
    have hold : j ∉ free y.2 := by
      intro hm
      by_cases hyx : y.2 = x.2
      · rw [hyx, Function.update_self] at hjn
        rw [hyx] at hm
        exact hjn (List.mem_cons_of_mem _ hm)
      · rw [Function.update_of_ne hyx] at hjn
        exact hjn hm
    obtain ⟨d, hd, hdj⟩ := h.covered y hy j hj hold
    refine ⟨d, mem_dropBlock.mpr ⟨hd, fun hde => ?_⟩, hdj⟩
    obtain ⟨rfl, rfl⟩ := h.block_unique hy hx hj hi (hdj.symm.trans (hde.trans haddr))
    rw [Function.update_self] at hjn
    exact hjn List.mem_cons_self
  · exact h.liveNodup.sublist ((List.filter_sublist).map _)

/-- `kfree` of a block that a client holds gives it back. -/
theorem kfree_eq (h : HeapOk lent σ owned free live) {b : LiveBlock} (hb : b ∈ live) :
    ∃ x ∈ owned, ∃ i < classBlocks x.1, kfree b.addr σ = .ok (σ.give x i) ∧ b.addr = blockAddr x.2 x.1 i ∧
      HeapOk lent (σ.give x i) owned (Function.update free x.2 (i :: free x.2)) (dropBlock b.addr live) := by
  obtain ⟨x, hx, i, hsize, hi, hnot, haddr⟩ := h.taken b hb
  refine ⟨x, hx, i, hi, ?_, haddr, h.give hx hi hnot hb haddr hsize⟩
  have hc := h.class_ok hx
  have hplace := h.place hx
  have hpage := h.page x hx
  have hafter := hpage.give hc hi hnot hplace.fits
  have hge := blockAddr_ge x.2 x.1 i
  have hlt := hc.block_lt x.2 hi
  have hpos := hc.size_pos
  obtain ⟨a, ha, hm, -⟩ := h.held x hx
  have hstart := hm.start_le
  have hend := hm.lt_end
  have hne : b.addr ≠ 0 := by omega
  have hoffset : blockAddr x.2 x.1 i - blockAreaStart x.2 = i * classSize x.1 := by
    rw [blockAreaStart_eq hplace.align, blockAddr, Nat.add_sub_cancel_left]
  rw [kfree, if_neg hne, haddr]
  dsimp only [HeapState.irqSave]
  rw [heapAlignDown_block hplace.align hc hi, hpage.blockSize, hpage.blockCount, hoffset, hpage.magic,
    Nat.mul_div_cancel _ hpos, Nat.mul_mod_left, hpage.bitmap i hi, blockAreaStart_eq hplace.align]
  rw [if_neg (by rw [h.initialized]; decide), if_neg, if_neg (not_not_intro rfl), if_neg, if_neg (not_not_intro rfl),
    if_neg (Nat.not_le_of_lt hi), if_neg (by simp [hnot])]
  · have hfinal : HeapPage.blockSize (giveBlock x.2 x.1 i σ.machine.mem) x.2 = classSize x.1 := hafter.blockSize
    rw [giveBlock] at hfinal
    rw [hfinal]
    rfl
  · simp only [heapPageHeaderSize]
    omega
  · show ¬(x.2 < σ.machine.pages.managedStart.toNat ∨ x.2 ≥ σ.machine.pages.managedEnd.toNat)
    omega

/-! ### A new page -/

/-- The heap after `heap_grow_pool` has taken the page `a` for class `c`. -/
def HeapState.grow (c : Nat) (a : U64) (pages : PageAllocator) (σ : HeapState) : HeapState where
  machine := { σ.machine with
    pages := pages
    mem := newPage a.toNat c (σ.heap.heapPools c).pages σ.machine.mem }
  heap := { σ.heap with
    heapPools := Function.update σ.heap.heapPools c { blockSize := classSize c, pages := a.toNat }
    heapPages := σ.heap.heapPages + 1
    heapFreeBlocksBytes := σ.heap.heapFreeBlocksBytes + classBlocks c * classSize c }

theorem poolPages_cons (page c c' : Nat) (owned : List (Nat × Nat)) : poolPages ((c, page) :: owned) c' =
    if c = c' then page :: poolPages owned c' else poolPages owned c' := by
  rw [poolPages, List.filter_cons]
  by_cases h : c = c'
  · rw [if_pos h, if_pos (decide_eq_true h)]
    rfl
  · rw [if_neg h, if_neg fun hd => h (of_decide_eq_true hd)]
    rfl

theorem HeapOk.grow (h : HeapOk lent σ owned free live) (hc : c < heapClassCount) {a : U64} {pages : PageAllocator}
    (hok : PagesOk pages) (ht : PageTaken a σ.machine.pages pages) :
    HeapOk lent (σ.grow c a pages) ((c, a.toNat) :: owned)
      (Function.update free a.toNat (List.range (classBlocks c)).reverse) live := by
  have hfresh : ∀ y ∈ owned, y.2 ≠ a.toNat := fun y hy he =>
    ht.fresh ((h.frames a).mpr (.inr ⟨y, hy, he⟩))
  have hplace : PagePlace a.toNat := by
    refine ⟨ht.managed.aligned, Nat.pos_of_ne_zero fun hz => ?_, Managed.end_le h.allocator ht.managed⟩
    exact ht.managed.ne_zero h.allocator (BitVec.eq_of_toNat_eq hz)
  have hnext : (σ.heap.heapPools c).pages < 2 ^ 64 := by
    refine (h.pools c hc).head_lt fun q hq => ?_
    have := (h.place (mem_poolPages.mp hq)).fits
    have := (by decide : 0 < pageSize)
    omega
  obtain ⟨hpage, hlink, hframe⟩ := newPage_ok hc hnext hplace.fits σ.machine.mem
  have hother : ∀ y ∈ owned, ∀ b, y.2 ≤ b → b < y.2 + pageSize →
      newPage a.toNat c (σ.heap.heapPools c).pages σ.machine.mem b = σ.machine.mem b := by
    intro y hy b h1 h2
    have ha := hplace.apart (h.place hy) (hfresh y hy)
    exact hframe b (by omega)
  have hmem : ∀ y ∈ (c, a.toNat) :: owned, y = (c, a.toNat) ∨ y ∈ owned := fun y hy => List.mem_cons.mp hy
  have hpool : ∀ c' < heapClassCount, Linked (newPage a.toNat c (σ.heap.heapPools c).pages σ.machine.mem) 24
      (σ.heap.heapPools c').pages (poolPages owned c') := by
    intro c' hc'
    refine (h.pools c' hc').congr fun q hq b h1 h2 => hother (c', q) (mem_poolPages.mp hq) b ?_ ?_
    · show q ≤ b
      omega
    · show b < q + pageSize
      simp only [pageSize]
      omega
  refine ⟨hok, h.initialized, ?_, ?_, ?_, ?_, ?_, ?_, ?_, ?_, ?_, h.allocatedBytes, ?_, ?_, ?_, h.liveNodup⟩
  · intro c' hc'
    by_cases he : c' = c
    · subst he
      show (Function.update σ.heap.heapPools c' _ c').blockSize = _
      rw [Function.update_self]
    · show (Function.update σ.heap.heapPools c _ c').blockSize = _
      rw [Function.update_of_ne he]
      exact h.sizes c' hc'
  · intro y hy
    rcases hmem y hy with rfl | hy
    · exact hc
    · exact h.classes y hy
  · intro b
    rw [show (σ.grow c a pages).machine.pages = pages from rfl, ht.allocated, h.frames]
    constructor
    · rintro ((hb | ⟨y, hy, he⟩) | rfl)
      · exact .inl hb
      · exact .inr ⟨y, List.mem_cons_of_mem _ hy, he⟩
      · exact .inr ⟨_, List.mem_cons_self, rfl⟩
    · rintro (hb | ⟨y, hy, he⟩)
      · exact .inl (.inl hb)
      · rcases hmem y hy with rfl | hy
        · exact .inr (BitVec.eq_of_toNat_eq he).symm
        · exact .inl (.inr ⟨y, hy, he⟩)
  · intro y hy
    have hman : ∀ b, pages.Managed b ↔ σ.machine.pages.Managed b := fun b => PageAllocator.Managed.congr ht.range
    rcases hmem y hy with rfl | hy
    · exact ⟨a, rfl, (hman a).mpr ht.managed, fun hp => ht.fresh ((h.frames a).mpr (.inl hp))⟩
    · obtain ⟨b, hb, hbm, hbp⟩ := h.held y hy
      exact ⟨b, hb, (hman b).mpr hbm, hbp⟩
  · rw [List.map_cons, List.nodup_cons]
    refine ⟨fun hm => ?_, h.nodup⟩
    obtain ⟨y, hy, he⟩ := List.mem_map.mp hm
    exact hfresh y hy he
  · intro c' hc'
    rw [poolPages_cons]
    show Linked (newPage a.toNat c (σ.heap.heapPools c).pages σ.machine.mem) 24
      (Function.update σ.heap.heapPools c _ c').pages _
    by_cases he : c' = c
    · subst he
      rw [Function.update_self, if_pos rfl]
      refine Linked.cons_iff.mpr ⟨rfl, Nat.ne_of_gt hplace.pos, ?_⟩
      have hnext' : (newPage a.toNat c' (σ.heap.heapPools c').pages σ.machine.mem).loadLE 8 (a.toNat + 24) =
          (σ.heap.heapPools c').pages := hlink
      rw [hnext']
      exact hpool c' hc'
    · rw [Function.update_of_ne he, if_neg (Ne.symm he)]
      exact hpool c' hc'
  · intro y hy
    rcases hmem y hy with rfl | hy
    · rw [Function.update_self]
      exact hpage
    · rw [Function.update_of_ne (hfresh y hy)]
      exact (h.page y hy).frame (h.class_ok hy) (hother y hy)
  · show σ.heap.heapPages + 1 = _
    rw [h.count, List.length_cons]
  · have hsame : (owned.map fun y => (Function.update free a.toNat (List.range (classBlocks c)).reverse y.2).length *
        classSize y.1) = owned.map fun y => (free y.2).length * classSize y.1 :=
      List.map_congr_left fun y hy => by rw [Function.update_of_ne (hfresh y hy)]
    show σ.heap.heapFreeBlocksBytes + classBlocks c * classSize c = _
    rw [List.map_cons, List.sum_cons, hsame, ← h.freeBytes, Function.update_self, List.length_reverse,
      List.length_range, Nat.add_comm]
  · show σ.heap.heapFreeBlocksBytes + classBlocks c * classSize c + σ.heap.heapAllocatedBlocksBytes = _
    rw [List.map_cons, List.sum_cons, ← h.totalBytes]
    dsimp only
    omega
  · intro b hb
    obtain ⟨y, hy, j, hcls, hj, hjn, hbj⟩ := h.taken b hb
    refine ⟨y, List.mem_cons_of_mem _ hy, j, hcls, hj, ?_, hbj⟩
    rw [Function.update_of_ne (hfresh y hy)]
    exact hjn
  · intro y hy j hj hjn
    rcases hmem y hy with rfl | hy
    · rw [Function.update_self] at hjn
      exact absurd (List.mem_reverse.mpr (List.mem_range.mpr hj)) hjn
    · rw [Function.update_of_ne (hfresh y hy)] at hjn
      exact h.covered y hy j hj hjn

/-- `heap_grow_pool` adds a page, or there is none and nothing changes. -/
theorem heapGrowPool_eq (h : HeapOk lent σ owned free live) (hc : c < heapClassCount) :
    (heapGrowPool c σ = .ok (0, σ) ∧ σ.machine.pages.freePages = 0) ∨
      ∃ a pages, heapGrowPool c σ = .ok (a.toNat, σ.grow c a pages) ∧ PagesOk pages ∧
        PageTaken a σ.machine.pages pages := by
  have hok := class_ok hc
  obtain ⟨a, pages, halloc, hpages, hcase⟩ := pageAlloc_spec h.allocator
  rw [heapGrowPool, halloc]
  rcases hcase with ⟨rfl, rfl, hnone⟩ | ⟨hne, ht⟩
  · exact .inl ⟨rfl, hnone⟩
  · refine .inr ⟨a, pages, ?_, hpages, ht⟩
    have hstart : blockAreaStart a.toNat = a.toNat + heapPageHeaderSize := blockAreaStart_eq ht.managed.aligned
    have hcount : (a.toNat + pageSize - (a.toNat + heapPageHeaderSize)) / classSize c = classBlocks c := by
      rw [classBlocks, Nat.add_sub_add_left]
    rw [ok_bind]
    dsimp only
    rw [if_neg hne, hstart, h.sizes c hc, hcount, if_neg]
    · rfl
    · have h1 := hok.blocks_pos
      have h2 := hok.blocks_le
      omega

/-! ### `kmalloc` -/

theorem heapFindPage_eq {l : List Nat} {fuel : Nat} (hl : Linked mem 24 page l) (hfuel : l.length < fuel) :
    (heapFindPage mem fuel page = .ok 0 ∧ ∀ q ∈ l, HeapPage.freeCount mem q = 0) ∨
      ∃ q ∈ l, heapFindPage mem fuel page = .ok q ∧ HeapPage.freeCount mem q ≠ 0 := by
  induction fuel generalizing page l with
  | zero => exact absurd hfuel (Nat.not_lt_zero _)
  | succ fuel ih =>
    rw [heapFindPage]
    cases l with
    | nil =>
      rw [if_pos (Linked.nil_iff.mp hl)]
      exact .inl ⟨rfl, fun q hq => absurd hq List.not_mem_nil⟩
    | cons q l =>
      obtain ⟨rfl, hne, hl⟩ := Linked.cons_iff.mp hl
      rw [if_neg hne]
      by_cases hq : HeapPage.freeCount mem page = 0
      · rw [if_neg (not_not_intro hq)]
        rcases ih hl (by rw [List.length_cons] at hfuel; omega) with ⟨heq, hall⟩ | ⟨r, hr, heq, hrne⟩
        · refine .inl ⟨heq, fun r hr => ?_⟩
          rcases List.mem_cons.mp hr with rfl | hr
          · exact hq
          · exact hall r hr
        · exact .inr ⟨r, List.mem_cons_of_mem _ hr, heq, hrne⟩
      · rw [if_pos hq]
        exact .inr ⟨page, List.mem_cons_self, rfl, hq⟩

/-- The heap with interrupts masked. -/
def HeapState.masked (σ : HeapState) : HeapState := { σ with machine := { σ.machine with sie := false } }

theorem HeapOk.masked (h : HeapOk lent σ owned free live) : HeapOk lent σ.masked owned free live :=
  ⟨h.allocator, h.initialized, h.sizes, h.classes, h.frames, h.held, h.nodup, h.pools, h.page, h.count, h.freeBytes,
    h.allocatedBytes, h.totalBytes, h.taken, h.covered, h.liveNodup⟩

theorem HeapOk.irqRestore (h : HeapOk lent σ owned free live) (irqState : Bool) :
    HeapOk lent (σ.irqRestore irqState) owned free live :=
  ⟨h.allocator, h.initialized, h.sizes, h.classes, h.frames, h.held, h.nodup, h.pools, h.page, h.count, h.freeBytes,
    h.allocatedBytes, h.totalBytes, h.taken, h.covered, h.liveNodup⟩

/-- The contents of the blocks that clients hold have not changed. -/
def KeepsBlocks (live : List LiveBlock) (mem mem' : Mem) : Prop :=
  ∀ b ∈ live, ∀ a, b.addr ≤ a → a < b.addr + b.blockSize → mem' a = mem a

/-- Where a live block lies. -/
structure BlockPlace (x : Nat × Nat) (i : Nat) (b : LiveBlock) : Prop where
  index : i < classBlocks x.1
  addr : b.addr = blockAddr x.2 x.1 i
  size : b.blockSize = classSize x.1
  ge : x.2 + 48 ≤ b.addr
  le : b.addr + b.blockSize ≤ x.2 + pageSize

theorem HeapOk.block (h : HeapOk lent σ owned free live) {b : LiveBlock} (hb : b ∈ live) :
    ∃ x ∈ owned, ∃ i, classIndexForSize b.size = some x.1 ∧ i ∉ free x.2 ∧ BlockPlace x i b := by
  obtain ⟨x, hx, i, hsize, hi, hnot, haddr⟩ := h.taken b hb
  have hs : b.blockSize = classSize x.1 := requestSize_some hsize
  refine ⟨x, hx, i, hsize, hnot, hi, haddr, hs, ?_, ?_⟩
  · rw [haddr]
    exact blockAddr_ge x.2 x.1 i
  · rw [haddr, hs]
    exact (h.class_ok hx).block_lt x.2 hi

theorem HeapOk.block_header (h : HeapOk lent σ owned free live) {b : LiveBlock} (hb : b ∈ live) (hy : y ∈ owned) :
    b.addr + b.blockSize ≤ y.2 ∨ y.2 + heapPageHeaderSize ≤ b.addr := by
  obtain ⟨x, hx, i, -, -, hp⟩ := h.block hb
  have hge := hp.ge
  have hle := hp.le
  simp only [heapPageHeaderSize, pageSize] at *
  by_cases he : x.2 = y.2
  · omega
  · have ha := (h.place hy).apart (h.place hx) he
    simp only [pageSize] at ha
    omega

theorem takeBlock_outside (hc : ClassOk c) (hi : i < classBlocks c) {a : Nat}
    (ha : a < page ∨ page + heapPageHeaderSize ≤ a) : takeBlock page c i mem a = mem a := by
  have hw := bitmap_word_lt hc hi
  simp only [heapPageHeaderSize] at ha
  rw [takeBlock, HeapPage.setFreeCount, Mem.storeLE_of_disjoint _ (by omega), HeapPage.bitmapSet,
    Mem.store64_of_disjoint _ _ (by omega), HeapPage.setFreeList, Mem.storeLE_of_disjoint _ (by omega)]

theorem HeapOk.take_keeps (h : HeapOk lent σ owned free live) (hx : x ∈ owned) (hi : i < classBlocks x.1) :
    KeepsBlocks live σ.machine.mem (σ.take x i).machine.mem := by
  intro b hb a h1 h2
  have hout := h.block_header hb hx
  exact takeBlock_outside (h.class_ok hx) hi (by omega)

theorem HeapOk.give_keeps (h : HeapOk lent σ owned free live) (hx : x ∈ owned) (hi : i < classBlocks x.1)
    {b : LiveBlock} (haddr : b.addr = blockAddr x.2 x.1 i) :
    KeepsBlocks (dropBlock b.addr live) σ.machine.mem (σ.give x i).machine.mem := by
  intro d hd a h1 h2
  obtain ⟨hd, hne⟩ := mem_dropBlock.mp hd
  have hout := h.block_header hd hx
  simp only [heapPageHeaderSize] at hout
  refine giveBlock_edited (h.class_ok hx) hi σ.machine.mem a (by omega) ?_
  -- another live block is another block of this page, or lies in another page
  obtain ⟨y, hy, j, -, -, hp⟩ := h.block hd
  have hsize := (h.class_ok hx).size_ge
  have hlt := (h.class_ok hx).block_lt x.2 hi
  have hge := blockAddr_ge x.2 x.1 i
  have hdge := hp.ge
  have hdle := hp.le
  simp only [heapMinClass] at hsize
  by_cases hyx : y.2 = x.2
  · obtain rfl := h.page_inj hy hx hyx
    have hji : j ≠ i := by
      rintro rfl
      exact hne (hp.addr.trans haddr.symm)
    have hds := hp.size
    have hda := hp.addr
    rcases blockAddr_apart y.2 y.1 hji with hap | hap
    · omega
    · omega
  · have ha := (h.place hx).apart (h.place hy) hyx
    omega

theorem HeapOk.grow_keeps (h : HeapOk lent σ owned free live) (hc : c < heapClassCount) {a : U64} {pages : PageAllocator}
    (ht : PageTaken a σ.machine.pages pages) : KeepsBlocks live σ.machine.mem (σ.grow c a pages).machine.mem := by
  have hplace : PagePlace a.toNat := by
    refine ⟨ht.managed.aligned, Nat.pos_of_ne_zero fun hz => ?_, Managed.end_le h.allocator ht.managed⟩
    exact ht.managed.ne_zero h.allocator (BitVec.eq_of_toNat_eq hz)
  have hnext : (σ.heap.heapPools c).pages < 2 ^ 64 := by
    refine (h.pools c hc).head_lt fun q hq => ?_
    have := (h.place (mem_poolPages.mp hq)).fits
    have := (by decide : 0 < pageSize)
    omega
  intro b hb x h1 h2
  obtain ⟨y, hy, j, -, -, hp⟩ := h.block hb
  have hne : y.2 ≠ a.toNat := fun he => ht.fresh ((h.frames a).mpr (.inr ⟨y, hy, he⟩))
  have ha := hplace.apart (h.place hy) hne
  have hge := hp.ge
  have hle := hp.le
  exact (newPage_ok hc hnext hplace.fits σ.machine.mem).2.2 x (by omega)

theorem KeepsBlocks.trans {mem'' : Mem} (h : KeepsBlocks live mem mem') (h' : KeepsBlocks live mem' mem'') :
    KeepsBlocks live mem mem'' := fun b hb a h1 h2 => (h' b hb a h1 h2).trans (h b hb a h1 h2)

/-- A call of `kmalloc` that returns a block. -/
structure Served (lent : List U64) (σ : HeapState) (live : List LiveBlock) (size : U64) (block : Nat)
    (σ' : HeapState) : Prop where
  ne_zero : block ≠ 0
  ok : ∃ owned free, HeapOk lent σ' owned free (⟨block, size⟩ :: live)
  keeps : KeepsBlocks live σ.machine.mem σ'.machine.mem

/-- A page of the class with a free block serves the request. -/
theorem HeapOk.serve (h : HeapOk lent σ owned free live) (hx : x ∈ owned) (hfree : free x.2 ≠ [])
    (hsize : classIndexForSize size = some x.1) :
    ∃ block σ', heapAllocBlock x.2 σ = .ok (block, σ') ∧ Served lent σ live size block σ' := by
  cases hf : free x.2 with
  | nil => exact absurd hf hfree
  | cons i rest =>
    have hi : i < classBlocks x.1 := (h.page x hx).lt i (by rw [hf]; exact List.mem_cons_self)
    have hge := blockAddr_ge x.2 x.1 i
    refine ⟨_, _, heapAllocBlock_eq h hx hf, by omega, ⟨_, _, h.take hx hf hsize⟩, h.take_keeps hx hi⟩

/-- What the pages of a class have left. -/
def Exhausted (owned : List (Nat × Nat)) (free : Nat → List Nat) (c : Nat) : Prop :=
  ∀ x ∈ owned, x.1 = c → free x.2 = []

theorem kmalloc_cases (h : HeapOk lent σ owned free live) (size : U64) :
    (kmalloc size σ = .ok (0, σ) ∧ (classIndexForSize size = none ∨ ∃ c, classIndexForSize size = some c ∧
      Exhausted owned free c ∧ σ.machine.pages.freePages = 0)) ∨
    ∃ c block σ', classIndexForSize size = some c ∧ ¬(Exhausted owned free c ∧ σ.machine.pages.freePages = 0) ∧
      kmalloc size σ = .ok (block, σ') ∧ Served lent σ live size block σ' := by
  have hm := h.masked
  rw [kmalloc]
  dsimp only [HeapState.irqSave]
  rw [if_neg (by rw [h.initialized]; decide)]
  cases hsize : classIndexForSize size with
  | none => exact .inl ⟨rfl, .inl rfl⟩
  | some c =>
    have hc := (classIndexForSize_some hsize).1
    have hlen : (poolPages owned c).length < σ.heap.heapPages + 1 := by
      rw [h.count, poolPages, List.length_map]
      exact Nat.lt_succ_of_le (List.length_filter_le ..)
    dsimp only
    rcases heapFindPage_eq (h.pools c hc) hlen with ⟨hfind, hnone⟩ | ⟨q, hq, hfind, hne⟩
    · have hex : Exhausted owned free c := by
        rintro x hx rfl
        have hz := hnone x.2 (mem_poolPages.mpr hx)
        rw [(h.page x hx).freeCount] at hz
        exact List.eq_nil_of_length_eq_zero hz
      rw [hfind, ok_bind, if_pos rfl]
      rcases heapGrowPool_eq hm hc with ⟨hgrow, hfull⟩ | ⟨a, pages, hgrow, hok, ht⟩
      · refine .inl ⟨?_, .inr ⟨c, rfl, hex, hfull⟩⟩
        show (heapGrowPool c σ.masked >>= _) = _
        rw [hgrow]
        rfl
      · have hgrown := hm.grow hc hok ht
        have hpos := (class_ok hc).blocks_pos
        have hfree : Function.update free a.toNat (List.range (classBlocks c)).reverse a.toNat ≠ [] := by
          rw [Function.update_self]
          intro hnil
          have hl := congrArg List.length hnil
          rw [List.length_reverse, List.length_range] at hl
          exact absurd hl (Nat.ne_of_gt hpos)
        obtain ⟨block, σ', heq, hserved⟩ := hgrown.serve (x := (c, a.toNat)) List.mem_cons_self hfree hsize
        refine .inr ⟨c, block, σ'.irqRestore σ.machine.sie, rfl, fun hn => ?_, ?_, hserved.ne_zero, ?_, ?_⟩
        · have hfreed := ht.free
          have hz : σ.masked.machine.pages.freePages = 0 := hn.2
          omega
        · show (heapGrowPool c σ.masked >>= _) = _
          have hne : a.toNat ≠ 0 := fun hz => ht.managed.ne_zero h.allocator (BitVec.eq_of_toNat_eq hz)
          rw [hgrow, ok_bind]
          dsimp only
          rw [if_neg hne, heq]
          rfl
        · obtain ⟨owned', free', hok'⟩ := hserved.ok
          exact ⟨owned', free', hok'.irqRestore _⟩
        · exact (hm.grow_keeps hc ht).trans hserved.keeps
    · have hx := mem_poolPages.mp hq
      have hfree : free q ≠ [] := by
        intro hnil
        rw [(h.page _ hx).freeCount, hnil] at hne
        exact hne rfl
      obtain ⟨block, σ', heq, hserved⟩ := hm.serve hx hfree hsize
      refine .inr ⟨c, block, σ'.irqRestore σ.machine.sie, rfl, fun hn => hfree (hn.1 _ hx rfl), ?_,
        hserved.ne_zero, ?_, hserved.keeps⟩
      · have hqne : q ≠ 0 := Nat.ne_of_gt (h.place hx).pos
        rw [hfind, ok_bind, if_neg hqne, ok_bind]
        dsimp only
        rw [if_neg hqne]
        show (heapAllocBlock q σ.masked >>= _) = _
        rw [heq]
        rfl
      · obtain ⟨owned', free', hok'⟩ := hserved.ok
        exact ⟨owned', free', hok'.irqRestore _⟩

/-! ### Writes of clients -/

theorem HeapOk.write (h : HeapOk lent σ owned free live) {b : LiveBlock} (hb : b ∈ live)
    (hw : ∀ a, a < b.addr ∨ b.addr + b.blockSize ≤ a → mem' a = σ.machine.mem a) :
    HeapOk lent (σ.setMem mem') owned free live := by
  obtain ⟨x, hx, i, -, hnot, hplace⟩ := h.block hb
  have hge := hplace.ge
  have hle := hplace.le
  have he : PageEdit x.2 σ.machine.mem mem' := by
    intro a ha
    refine hw a ?_
    simp only [pageSize] at *
    omega
  have hpage : PageOk mem' x.1 x.2 (free x.2) := by
    refine (h.page x hx).congr (h.class_ok hx) (fun a h1 h2 => hw a ?_) fun j hj a h1 h2 => hw a ?_
    · simp only [heapPageHeaderSize] at *
      omega
    · have hij : i ≠ j := by
        rintro rfl
        exact hnot hj
      have hsize := (h.class_ok hx).size_ge
      have hbs := hplace.size
      have haddr := hplace.addr
      simp only [heapMinClass] at hsize
      rcases blockAddr_apart x.2 x.1 hij with hap | hap
      · omega
      · omega
  have hpages : ∀ y ∈ owned, PageOk mem' y.1 y.2 (free y.2) := by
    have hedit := h.page_edit hx he hpage
    rw [Function.update_eq_self] at hedit
    exact hedit
  exact ⟨h.allocator, h.initialized, h.sizes, h.classes, h.frames, h.held, h.nodup,
    fun c hc => h.pools_edit hx he hc, hpages, h.count, h.freeBytes, h.allocatedBytes, h.totalBytes, h.taken, h.covered,
    h.liveNodup⟩

theorem kzalloc_null (h : kmalloc size σ = .ok (0, σ')) : kzalloc size σ = .ok (0, σ') := by
  rw [kzalloc, h]
  rfl

theorem kzalloc_eq {block : Nat} (h : kmalloc size σ = .ok (block, σ')) (hserved : Served lent σ live size block σ') :
    kzalloc size σ = .ok (block, σ'.setMem (σ'.machine.mem.fill block (requestSize size) 0)) := by
  obtain ⟨hne, ⟨owned, free, hok⟩, -⟩ := hserved
  obtain ⟨x, hx, i, hsize, -, hplace⟩ := hok.block List.mem_cons_self
  have haddr : block = blockAddr x.2 x.1 i := hplace.addr
  have hpage := hok.page x hx
  have hdown : heapAlignDown block pageSize = x.2 := by
    rw [haddr]
    exact heapAlignDown_block (hok.place hx).align (hok.class_ok hx) hplace.index
  rw [kzalloc, h, ok_bind]
  dsimp only
  rw [if_neg hne, hdown, hpage.magic, if_neg (not_not_intro rfl), hpage.blockSize, requestSize_some hsize]

/-! ### Other parts of the kernel -/

theorem HeapOk.write_outside (h : HeapOk lent σ owned free live)
    (hw : ∀ x ∈ owned, ∀ a, x.2 ≤ a → a < x.2 + pageSize → mem' a = σ.machine.mem a) :
    HeapOk lent (σ.setMem mem') owned free live := by
  refine ⟨h.allocator, h.initialized, h.sizes, h.classes, h.frames, h.held, h.nodup, fun c hc => ?_, fun x hx => ?_,
    h.count, h.freeBytes, h.allocatedBytes, h.totalBytes, h.taken, h.covered, h.liveNodup⟩
  · refine (h.pools c hc).congr fun q hq b h1 h2 => hw (c, q) (mem_poolPages.mp hq) b ?_ ?_
    · show q ≤ b
      omega
    · show b < q + pageSize
      simp only [pageSize]
      omega
  · exact (h.page x hx).frame (h.class_ok hx) (hw x hx)

theorem HeapOk.lend (h : HeapOk lent σ owned free live) {a : U64} {pages : PageAllocator} (hok : PagesOk pages)
    (ht : PageTaken a σ.machine.pages pages) :
    HeapOk (a :: lent) { σ with machine := { σ.machine with pages := pages } } owned free live := by
  refine ⟨hok, h.initialized, h.sizes, h.classes, fun b => ?_, fun x hx => ?_, h.nodup, h.pools, h.page, h.count,
    h.freeBytes, h.allocatedBytes, h.totalBytes, h.taken, h.covered, h.liveNodup⟩
  · show pages.Allocated b ↔ _
    rw [ht.allocated, h.frames, List.mem_cons, or_right_comm]
    exact or_congr_left Or.comm
  · obtain ⟨b, hb, hm, hnot⟩ := h.held x hx
    refine ⟨b, hb, (PageAllocator.Managed.congr ht.range).mpr hm, fun hmem => ?_⟩
    rcases List.mem_cons.mp hmem with rfl | hmem
    · exact ht.fresh ((h.frames b).mpr (.inr ⟨x, hx, hb⟩))
    · exact hnot hmem

theorem HeapOk.unlend (h : HeapOk lent σ owned free live) {a : U64} (ha : a ∈ lent) {pages : PageAllocator}
    (hok : PagesOk pages) (hg : PageGiven a σ.machine.pages pages) :
    HeapOk (lent.filter (· ≠ a)) { σ with machine := { σ.machine with pages := pages } } owned free live := by
  refine ⟨hok, h.initialized, h.sizes, h.classes, fun b => ?_, fun x hx => ?_, h.nodup, h.pools, h.page, h.count,
    h.freeBytes, h.allocatedBytes, h.totalBytes, h.taken, h.covered, h.liveNodup⟩
  · show pages.Allocated b ↔ _
    rw [hg.allocated, h.frames, List.mem_filter, decide_eq_true_eq]
    have hown : (∃ x ∈ owned, x.2 = b.toNat) → b ≠ a := by
      rintro ⟨x, hx, hb⟩ rfl
      obtain ⟨d, hd, -, hnot⟩ := h.held x hx
      rw [BitVec.eq_of_toNat_eq (hd.symm.trans hb)] at hnot
      exact hnot ha
    rw [or_and_right]
    exact or_congr_right (and_iff_left_of_imp hown)
  · obtain ⟨b, hb, hm, hnot⟩ := h.held x hx
    refine ⟨b, hb, (PageAllocator.Managed.congr hg.range).mpr hm, fun hmem => hnot ?_⟩
    exact (List.mem_filter.mp hmem).1

end QemuRtos
