import QemuRtos.Memory.HeapSpec

/-!
# What the heap operations do

`HeapOk` is the invariant of the heap: the pools list the pages that it has taken from the page allocator, every page
is in order, and the blocks that are not free are those that clients hold.
-/

namespace QemuRtos

open Lib

/-- A block that a client holds, with the size it has asked for. -/
structure LiveBlock where
  addr : Nat
  size : U64
deriving DecidableEq

/-- The size of the class that serves a request. -/
def requestSize (size : U64) : Nat := ((classIndexForSize size).map classSize).getD 0

def LiveBlock.blockSize (b : LiveBlock) : Nat := requestSize b.size

/-- The pages of a class, in the order of its pool, out of all pages with their classes. -/
def poolPages (owned : List (Nat × Nat)) (c : Nat) : List Nat := (owned.filter fun x => x.1 = c).map Prod.snd

/-- The heap has taken the pages `owned`, and other parts of the kernel hold the pages `lent`; `free` are the free blocks
of each page, and `live` is what clients hold. -/
structure HeapOk (lent : List U64) (σ : HeapState) (owned : List (Nat × Nat)) (free : Nat → List Nat)
    (live : List LiveBlock) : Prop where
  allocator : PagesOk σ.machine.pages
  initialized : σ.heap.heapInitialized = true
  sizes : ∀ c < heapClassCount, (σ.heap.heapPools c).blockSize = classSize c
  classes : ∀ x ∈ owned, x.1 < heapClassCount
  frames : ∀ a : U64, σ.machine.pages.Allocated a ↔ a ∈ lent ∨ ∃ x ∈ owned, x.2 = a.toNat
  held : ∀ x ∈ owned, ∃ a : U64, x.2 = a.toNat ∧ σ.machine.pages.Managed a ∧ a ∉ lent
  nodup : (owned.map Prod.snd).Nodup
  pools : ∀ c < heapClassCount, Linked σ.machine.mem 24 (σ.heap.heapPools c).pages (poolPages owned c)
  page : ∀ x ∈ owned, PageOk σ.machine.mem x.1 x.2 (free x.2)
  count : σ.heap.heapPages = owned.length
  freeBytes : σ.heap.heapFreeBlocksBytes = (owned.map fun x => (free x.2).length * classSize x.1).sum
  allocatedBytes : σ.heap.heapAllocatedBlocksBytes = (live.map LiveBlock.blockSize).sum
  totalBytes : σ.heap.heapFreeBlocksBytes + σ.heap.heapAllocatedBlocksBytes =
    (owned.map fun x => classBlocks x.1 * classSize x.1).sum
  taken : ∀ b ∈ live, ∃ x ∈ owned, ∃ i, classIndexForSize b.size = some x.1 ∧ i < classBlocks x.1 ∧ i ∉ free x.2 ∧
    b.addr = blockAddr x.2 x.1 i
  covered : ∀ x ∈ owned, ∀ i < classBlocks x.1, i ∉ free x.2 → ∃ b ∈ live, b.addr = blockAddr x.2 x.1 i
  liveNodup : (live.map LiveBlock.addr).Nodup

variable {lent : List U64} {σ σ' : HeapState} {owned : List (Nat × Nat)} {free : Nat → List Nat}
  {live : List LiveBlock} {mem mem' : Mem} {c page i : Nat} {x y : Nat × Nat} {size : U64}

/-! ### Sizes -/

theorem classIndexForSize_some (h : classIndexForSize size = some c) : c < heapClassCount ∧
    size.toNat ≤ classSize c ∧ ∀ s ∈ heapClassSizes, size.toNat ≤ s → classSize c ≤ s := by
  rw [classIndexForSize] at h
  split at h
  · cases h
  obtain ⟨hlt, hle, hfirst⟩ := List.findIdx?_eq_some_iff_getElem.mp h
  have hsize : classSize c = heapClassSizes[c] := by
    rw [classSize, List.getD_eq_getElem?_getD, List.getElem?_eq_getElem hlt, Option.getD_some]
  have hle : size.toNat ≤ classSize c := by
    rw [hsize]
    exact of_decide_eq_true hle
  refine ⟨hlt, hle, fun s hs hss => ?_⟩
  obtain ⟨j, hj, rfl⟩ := List.getElem_of_mem hs
  rcases Nat.lt_or_ge j c with hjc | hcj
  · have hno := hfirst j hjc
    rw [Bool.not_eq_true, decide_eq_false_iff_not] at hno
    exact absurd hss hno
  · rw [hsize]
    have hsorted : heapClassSizes.Pairwise (· ≤ ·) := by decide
    rcases Nat.lt_or_eq_of_le hcj with hlt' | rfl
    · exact List.pairwise_iff_getElem.mp hsorted c j hlt hj hlt'
    · exact le_refl _

theorem classIndexForSize_none : classIndexForSize size = none ↔ size = 0 ∨ size.toNat > heapMaxClass := by
  rw [classIndexForSize]
  split
  · rename_i h
    exact iff_of_true rfl h
  · rename_i h
    refine iff_of_false (fun hn => ?_) h
    rw [List.findIdx?_eq_none_iff] at hn
    have hmax := hn heapMaxClass (by decide)
    rw [decide_eq_false_iff_not] at hmax
    exact h (.inr (Nat.lt_of_not_le hmax))

theorem requestSize_some (h : classIndexForSize size = some c) : requestSize size = classSize c := by
  rw [requestSize, h]
  rfl

/-! ### Pages -/

theorem Managed.end_le {p : PageAllocator} (h : PagesOk p) {a : U64} (ha : p.Managed a) : a.toNat + pageSize ≤ 2 ^ 64 := by
  have h1 := ha.aligned
  have h2 := ha.lt_end
  have h3 := h.end_eq
  have h4 := h.start_align
  have h5 := p.managedEnd.isLt
  simp only [pageSize] at *
  omega

/-- Where a heap page lies. -/
structure PagePlace (page : Nat) : Prop where
  align : page % pageSize = 0
  pos : 0 < page
  fits : page + pageSize ≤ 2 ^ 64

theorem HeapOk.place (h : HeapOk lent σ owned free live) (hx : x ∈ owned) : PagePlace x.2 := by
  obtain ⟨a, ha, hm, -⟩ := h.held x hx
  have hne := hm.ne_zero h.allocator
  refine ⟨?_, ?_, ?_⟩
  · rw [ha]
    exact hm.aligned
  · rw [ha]
    exact Nat.pos_of_ne_zero fun hz => hne (BitVec.eq_of_toNat_eq hz)
  · rw [ha]
    exact Managed.end_le h.allocator hm

theorem HeapOk.class_ok (h : HeapOk lent σ owned free live) (hx : x ∈ owned) : ClassOk x.1 :=
  QemuRtos.class_ok (h.classes x hx)

theorem HeapOk.page_inj (h : HeapOk lent σ owned free live) (hx : x ∈ owned) (hy : y ∈ owned) (he : x.2 = y.2) : x = y :=
  List.inj_on_of_nodup_map h.nodup hx hy he

theorem PagePlace.apart {q : Nat} (hp : PagePlace page) (hq : PagePlace q) (hne : q ≠ page) :
    q + pageSize ≤ page ∨ page + pageSize ≤ q := by
  have h1 := hp.align
  have h2 := hq.align
  simp only [pageSize] at *
  omega

/-- Only the page has changed, and not its link to the next one. -/
def PageEdit (page : Nat) (mem mem' : Mem) : Prop := ∀ x,
  x < page ∨ page + 24 ≤ x ∧ x < page + 32 ∨ page + pageSize ≤ x → mem' x = mem x

theorem Edited.pageEdit (h : Edited page (blockAddr page c i) mem mem') (hc : ClassOk c) (hi : i < classBlocks c) :
    PageEdit page mem mem' := by
  have h1 := hc.block_lt page hi
  have h2 := blockAddr_ge page c i
  have h3 := hc.size_ge
  intro x hx
  simp only [pageSize, heapMinClass] at *
  exact h x (by omega) (by omega)

theorem mem_poolPages {q : Nat} : q ∈ poolPages owned c ↔ (c, q) ∈ owned := by
  rw [poolPages, List.mem_map]
  constructor
  · rintro ⟨y, hy, rfl⟩
    obtain ⟨hy, hc⟩ := List.mem_filter.mp hy
    rw [← of_decide_eq_true hc]
    exact hy
  · intro h
    exact ⟨(c, q), List.mem_filter.mpr ⟨h, decide_eq_true rfl⟩, rfl⟩

theorem HeapOk.pools_edit (h : HeapOk lent σ owned free live) (hx : x ∈ owned)
    (he : PageEdit x.2 σ.machine.mem mem') {c : Nat} (hc : c < heapClassCount) :
    Linked mem' 24 (σ.heap.heapPools c).pages (poolPages owned c) := by
  refine (h.pools c hc).congr fun q hq b h1 h2 => he b ?_
  have hq := mem_poolPages.mp hq
  by_cases hne : q = x.2
  · omega
  · have ha := (h.place hx).apart (h.place hq) hne
    simp only [pageSize] at *
    omega

theorem HeapOk.page_edit (h : HeapOk lent σ owned free live) (hx : x ∈ owned) (he : PageEdit x.2 σ.machine.mem mem')
    {free' : List Nat} (hpage : PageOk mem' x.1 x.2 free') :
    ∀ y ∈ owned, PageOk mem' y.1 y.2 (Function.update free x.2 free' y.2) := by
  intro y hy
  by_cases hne : y.2 = x.2
  · obtain rfl := h.page_inj hy hx hne
    rw [Function.update_self]
    exact hpage
  · rw [Function.update_of_ne hne]
    refine (h.page y hy).frame (h.class_ok hy) fun b h1 h2 => he b ?_
    have ha := (h.place hx).apart (h.place hy) hne
    omega

theorem sum_map_change {α : Type} {l : List α} (hn : l.Nodup) {a : α} (ha : a ∈ l) {f g : α → Nat}
    (hfg : ∀ b ∈ l, b ≠ a → g b = f b) : (l.map g).sum + f a = (l.map f).sum + g a := by
  induction l with
  | nil => cases ha
  | cons b l ih =>
    obtain ⟨hnot, hn⟩ := List.nodup_cons.mp hn
    rw [List.map_cons, List.sum_cons, List.map_cons, List.sum_cons]
    rcases List.mem_cons.mp ha with rfl | ha
    · have hsame : l.map g = l.map f := by
        refine List.map_congr_left fun b hb => hfg b (List.mem_cons_of_mem _ hb) ?_
        rintro rfl
        exact hnot hb
      rw [hsame]
      omega
    · have hne : b ≠ a := by
        rintro rfl
        exact hnot ha
      have h1 := ih hn ha fun b hb => hfg b (List.mem_cons_of_mem _ hb)
      have h2 := hfg b List.mem_cons_self hne
      omega

theorem HeapOk.freeBytes_change (h : HeapOk lent σ owned free live) (hx : x ∈ owned) (free' : List Nat) :
    (owned.map fun y => (Function.update free x.2 free' y.2).length * classSize y.1).sum +
      (free x.2).length * classSize x.1 = σ.heap.heapFreeBlocksBytes + free'.length * classSize x.1 := by
  have hn : owned.Nodup := List.Nodup.of_map _ h.nodup
  have hs := sum_map_change hn hx (f := fun y => (free y.2).length * classSize y.1)
    (g := fun y => (Function.update free x.2 free' y.2).length * classSize y.1) fun y hy hne => by
      rw [Function.update_of_ne fun he => hne (h.page_inj hy hx he)]
  rw [h.freeBytes, hs, Function.update_self]

/-! ### Blocks -/

/-- The live blocks are at most one for each index of a page. -/
theorem HeapOk.block_unique (h : HeapOk lent σ owned free live) (hx : x ∈ owned) (hy : y ∈ owned) {j : Nat}
    (hi : i < classBlocks x.1) (hj : j < classBlocks y.1) (he : blockAddr x.2 x.1 i = blockAddr y.2 y.1 j) :
    x = y ∧ i = j := by
  have hp := blockAddr_page (h.place hx).align (h.place hy).align (h.class_ok hx) (h.class_ok hy) hi hj he
  obtain rfl := h.page_inj hx hy hp
  exact ⟨rfl, (h.class_ok hx).block_inj he⟩

/-- The heap after `heap_alloc_block` has taken block `i` of page `x`. -/
def HeapState.take (x : Nat × Nat) (i : Nat) (σ : HeapState) : HeapState where
  machine := { σ.machine with mem := takeBlock x.2 x.1 i σ.machine.mem }
  heap := { σ.heap with
    heapFreeBlocksBytes := σ.heap.heapFreeBlocksBytes - classSize x.1
    heapAllocatedBlocksBytes := σ.heap.heapAllocatedBlocksBytes + classSize x.1 }

theorem HeapOk.take (h : HeapOk lent σ owned free live) (hx : x ∈ owned) {rest : List Nat} (hfree : free x.2 = i :: rest)
    (hsize : classIndexForSize size = some x.1) :
    HeapOk lent (σ.take x i) owned (Function.update free x.2 rest) (⟨blockAddr x.2 x.1 i, size⟩ :: live) := by
  have hc := h.class_ok hx
  have hpage := h.page x hx
  rw [hfree] at hpage
  have hi := hpage.lt i List.mem_cons_self
  obtain ⟨hnot, -⟩ := List.nodup_cons.mp hpage.nodup
  have he : PageEdit x.2 σ.machine.mem (takeBlock x.2 x.1 i σ.machine.mem) :=
    (takeBlock_edited hc hi _).pageEdit hc hi
  have hnew : ∀ y ∈ owned, ∀ j, j ∉ free y.2 → j ∉ Function.update free x.2 rest y.2 := by
    intro y hy j hj
    by_cases hne : y.2 = x.2
    · rw [hne, Function.update_self]
      rw [hne, hfree] at hj
      exact fun hm => hj (List.mem_cons_of_mem _ hm)
    · rw [Function.update_of_ne hne]
      exact hj
  refine ⟨h.allocator, h.initialized, h.sizes, h.classes, h.frames, h.held, h.nodup,
    fun c hlt => h.pools_edit hx he hlt, h.page_edit hx he (hpage.take hc), h.count, ?_, ?_, ?_, ?_, ?_, ?_⟩
  · have hsum := h.freeBytes_change hx rest
    rw [hfree, List.length_cons, Nat.succ_mul] at hsum
    show σ.heap.heapFreeBlocksBytes - classSize x.1 = _
    omega
  · show σ.heap.heapAllocatedBlocksBytes + classSize x.1 = _
    rw [List.map_cons, List.sum_cons, h.allocatedBytes, LiveBlock.blockSize, requestSize_some hsize, Nat.add_comm]
  · have hsum := h.freeBytes_change hx rest
    have htotal := h.totalBytes
    rw [hfree, List.length_cons, Nat.succ_mul] at hsum
    show σ.heap.heapFreeBlocksBytes - classSize x.1 + (σ.heap.heapAllocatedBlocksBytes + classSize x.1) = _
    omega
  · intro b hb
    rcases List.mem_cons.mp hb with rfl | hb
    · refine ⟨x, hx, i, hsize, hi, ?_, rfl⟩
      rw [Function.update_self]
      exact hnot
    · obtain ⟨y, hy, j, hcls, hj, hjn, haddr⟩ := h.taken b hb
      exact ⟨y, hy, j, hcls, hj, hnew y hy j hjn, haddr⟩
  · intro y hy j hj hjn
    by_cases hne : y.2 = x.2
    · obtain rfl := h.page_inj hy hx hne
      by_cases hji : j = i
      · subst hji
        exact ⟨_, List.mem_cons_self, rfl⟩
      · rw [Function.update_self] at hjn
        obtain ⟨b, hb, haddr⟩ := h.covered y hy j hj (by
          rw [hfree, List.mem_cons, not_or]
          exact ⟨hji, hjn⟩)
        exact ⟨b, List.mem_cons_of_mem _ hb, haddr⟩
    · rw [Function.update_of_ne hne] at hjn
      obtain ⟨b, hb, haddr⟩ := h.covered y hy j hj hjn
      exact ⟨b, List.mem_cons_of_mem _ hb, haddr⟩
  · rw [List.map_cons, List.nodup_cons]
    refine ⟨fun hm => ?_, h.liveNodup⟩
    obtain ⟨b, hb, haddr⟩ := List.mem_map.mp hm
    obtain ⟨y, hy, j, -, hj, hjn, hbj⟩ := h.taken b hb
    obtain ⟨rfl, rfl⟩ := h.block_unique hx hy hi hj (haddr.symm.trans hbj)
    rw [hfree] at hjn
    exact hjn List.mem_cons_self

theorem heapAllocBlock_eq (h : HeapOk lent σ owned free live) (hx : x ∈ owned) {rest : List Nat}
    (hfree : free x.2 = i :: rest) : heapAllocBlock x.2 σ = .ok (blockAddr x.2 x.1 i, σ.take x i) := by
  have hc := h.class_ok hx
  have hpage := h.page x hx
  rw [hfree] at hpage
  have hi := hpage.lt i List.mem_cons_self
  obtain ⟨hl, hne, -⟩ := Linked.cons_iff.mp hpage.list
  have hcount := hpage.freeCount
  rw [List.length_cons] at hcount
  have hafter := hpage.take hc
  have hmid : Edited x.2 (blockAddr x.2 x.1 i) σ.machine.mem
      (HeapPage.setFreeList x.2 (σ.machine.mem.loadLE 8 (blockAddr x.2 x.1 i)) σ.machine.mem) := setFreeList_edited _
  have hge := blockAddr_ge x.2 x.1 i
  have hsize : HeapPage.blockSize (HeapPage.setFreeList x.2 (σ.machine.mem.loadLE 8 (blockAddr x.2 x.1 i))
      σ.machine.mem) x.2 = classSize x.1 := by
    rw [← hpage.blockSize]
    exact Mem.loadLE_congr fun b h1 h2 => hmid b (by omega) (by omega)
  have hblocks : HeapPage.blockCount (HeapPage.setFreeList x.2 (σ.machine.mem.loadLE 8 (blockAddr x.2 x.1 i))
      σ.machine.mem) x.2 = classBlocks x.1 := by
    rw [← hpage.blockCount]
    exact Mem.loadLE_congr fun b h1 h2 => hmid b (by omega) (by omega)
  have hindex : (blockAddr x.2 x.1 i - blockAreaStart x.2) / classSize x.1 = i := by
    rw [blockAreaStart_eq (h.place hx).align]
    exact hc.block_index
  have hbit : HeapPage.bitmapTest (HeapPage.setFreeList x.2 (σ.machine.mem.loadLE 8 (blockAddr x.2 x.1 i))
      σ.machine.mem) x.2 i = false := by
    rw [bitmapTest_setFreeList, hpage.bitmap i hi]
    simp
  rw [heapAllocBlock]
  dsimp only
  rw [hl, hcount, if_neg (by omega), hsize, hblocks, hindex, hbit, if_neg (by simp; omega)]
  have hfinal : HeapPage.blockSize (takeBlock x.2 x.1 i σ.machine.mem) x.2 = classSize x.1 := hafter.blockSize
  rw [takeBlock] at hfinal
  rw [hfinal]
  rfl

end QemuRtos
