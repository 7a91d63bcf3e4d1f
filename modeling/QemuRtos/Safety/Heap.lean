import QemuRtos.Memory.HeapRun

/-!
# Safety of the kernel heap

What clients rely on in every state that the heap reaches, however its clients and the other users of the page
allocator interleave.
-/

namespace QemuRtos

open Lib

variable {σ σ' : HeapState} {s t u : HeapState × Held} {held : Held} {pages : List U64} {l m : List HeapOp}
  {owned : List (Nat × Nat)} {free : Nat → List Nat} {live : List LiveBlock} {lent : List U64} {size : U64} {x : Nat × Nat}

/-! ### Blocks -/

/-- Two blocks do not overlap. -/
def LiveBlock.Apart (b d : LiveBlock) : Prop :=
  b.addr + b.blockSize ≤ d.addr ∨ d.addr + d.blockSize ≤ b.addr

/-- The blocks that clients hold are aligned, large enough and no larger than needed, apart from each other, from the
headers of the heap and from the pages that others hold. -/
structure BlocksSafe (σ : HeapState) (held : Held) : Prop where
  aligned : ∀ b ∈ held.blocks, b.addr % heapAlignment = 0
  fits : ∀ b ∈ held.blocks, b.size.toNat ≤ b.blockSize ∧ b.blockSize ∈ heapClassSizes ∧
    ∀ n ∈ heapClassSizes, b.size.toNat ≤ n → b.blockSize ≤ n
  apart : held.blocks.Pairwise LiveBlock.Apart
  /-- A block lies behind the header of a page that the heap has taken from the page allocator. -/
  inside : ∀ b ∈ held.blocks, ∃ a : U64, σ.machine.pages.Allocated a ∧ a ∉ held.pages ∧
    a.toNat + heapPageHeaderSize ≤ b.addr ∧ b.addr + b.blockSize ≤ a.toNat + pageSize ∧
    HeapPage.magic σ.machine.mem a.toNat = heapPageMagic ∧ HeapPage.blockSize σ.machine.mem a.toNat = b.blockSize

theorem HeapOk.addr_inj (h : HeapOk lent σ owned free live) {b d : LiveBlock} (hb : b ∈ live) (hd : d ∈ live)
    (he : b.addr = d.addr) : b = d :=
  List.inj_on_of_nodup_map h.liveNodup hb hd he

theorem HeapOk.blocks_apart (h : HeapOk lent σ owned free live) {b d : LiveBlock} (hb : b ∈ live) (hd : d ∈ live)
    (hne : b ≠ d) : b.Apart d := by
  obtain ⟨x, hx, i, -, -, hbp⟩ := h.block hb
  obtain ⟨y, hy, j, -, -, hdp⟩ := h.block hd
  have h1 := hbp.ge
  have h2 := hbp.le
  have h3 := hdp.ge
  have h4 := hdp.le
  by_cases hxy : y.2 = x.2
  · obtain rfl := h.page_inj hy hx hxy
    have hij : i ≠ j := by
      rintro rfl
      exact hne (h.addr_inj hb hd (hbp.addr.trans hdp.addr.symm))
    rw [LiveBlock.Apart, hbp.addr, hdp.addr, hbp.size, hdp.size]
    exact blockAddr_apart y.2 y.1 hij
  · have ha := (h.place hx).apart (h.place hy) hxy
    rw [LiveBlock.Apart]
    omega

theorem heapRun_blocksSafe (h : HeapRun σ pages l t) : BlocksSafe t.1 t.2 := by
  obtain ⟨owned, free, hok⟩ := h.inv
  refine ⟨fun b hb => ?_, fun b hb => ?_, ?_, fun b hb => ?_⟩
  · obtain ⟨x, hx, i, -, -, hplace⟩ := hok.block hb
    rw [hplace.addr]
    exact blockAddr_align (hok.place hx).align (hok.class_ok hx)
  · obtain ⟨x, hx, i, hsize, -, hplace⟩ := hok.block hb
    obtain ⟨hc, hle, hleast⟩ := classIndexForSize_some hsize
    rw [hplace.size]
    refine ⟨hle, ?_, hleast⟩
    rw [classSize, List.getD_eq_getElem?_getD, List.getElem?_eq_getElem hc, Option.getD_some]
    exact List.getElem_mem hc
  · have hnodup : t.2.blocks.Nodup := List.Nodup.of_map _ hok.liveNodup
    exact hnodup.imp_of_mem fun hb hd hne => hok.blocks_apart hb hd hne
  · obtain ⟨x, hx, i, -, -, hplace⟩ := hok.block hb
    obtain ⟨a, ha, -, hnot⟩ := hok.held x hx
    have hge := hplace.ge
    have hle := hplace.le
    refine ⟨a, (hok.frames a).mpr (.inr ⟨x, hx, ha⟩), hnot, ?_, ?_, ?_, ?_⟩
    · rw [← ha]
      exact hge
    · rw [← ha]
      exact hle
    · rw [← ha]
      exact (hok.page x hx).magic
    · rw [← ha, hplace.size]
      exact (hok.page x hx).blockSize

theorem heapRun_blocksSafe_sample : ∃ σ t, HeapRun σ [] [.kmalloc 1000, .pageAlloc, .kmalloc 600] t ∧
    t.2 = ⟨[⟨0x80040430, 600⟩, ⟨0x80040830, 1000⟩], [0x80041000]⟩ ∧ BlocksSafe t.1 t.2 := by
  obtain ⟨σ, t, hrun, ht⟩ := heapRun_of_check (l := [.kmalloc 1000, .pageAlloc, .kmalloc 600])
    (p := fun t => t.2 = ⟨[⟨0x80040430, 600⟩, ⟨0x80040830, 1000⟩], [0x80041000]⟩) (by decide +kernel)
  exact ⟨σ, t, hrun, of_decide_eq_true ht, heapRun_blocksSafe hrun⟩

/-! ### Steps that keep to the rules -/

/-- No step of clients that keep to the rules ends in a panic. -/
theorem heapRun_progress (h : HeapRun σ pages l t) {op : HeapOp} (ha : op.Allowed t) :
    ∃ u, heapStep op t = .ok u := by
  obtain ⟨u, hu, -⟩ := heapStep_ok h.inv ha
  exact ⟨u, hu⟩

theorem heapRun_progress_sample : ∃ σ t, HeapRun σ [] [.kmalloc 1000, .write 0x80040830 [1, 2]] t ∧
    ∃ u, heapStep (.kfree 0x80040830) t = .ok u := by
  obtain ⟨σ, t, hrun, ht⟩ := heapRun_of_check (l := [.kmalloc 1000, .write 0x80040830 [1, 2]])
    (p := fun t => (HeapOp.kfree 0x80040830).Allowed t) (by decide +kernel)
  exact ⟨σ, t, hrun, heapRun_progress hrun (of_decide_eq_true ht)⟩

/-- The step neither frees the block at `addr` nor writes the byte at `a`. -/
def HeapOp.Spares (addr a : Nat) : HeapOp → Prop
  | .kfree ptr => ptr ≠ addr
  | .write dst bytes => a < dst ∨ dst + bytes.length ≤ a
  | _ => True

theorem HeapInv.step_keeps {op : HeapOp} (h : HeapInv s) (ha : op.Allowed s) (hx : heapStep op s = .ok t) {b : LiveBlock}
    (hb : b ∈ s.2.blocks) {a : Nat} (hge : b.addr ≤ a) (hlt : a < b.addr + b.blockSize) (hs : op.Spares b.addr a) :
    b ∈ t.2.blocks ∧ t.1.machine.mem a = s.1.machine.mem a := by
  obtain ⟨σ, held⟩ := s
  obtain ⟨owned, free, hok⟩ := h
  obtain ⟨⟨addr, σ'⟩, heq, hx⟩ := bind_eq_ok.mp hx
  obtain rfl := Except.ok.inj hx
  cases op with
  | kmalloc size =>
    rcases kmalloc_cases hok size with ⟨hk, -⟩ | ⟨c, block, σ'', -, -, hk, hserved⟩
    · obtain ⟨rfl, rfl⟩ := Prod.mk.inj (Except.ok.inj (hk.symm.trans heq))
      exact ⟨hb, rfl⟩
    · obtain ⟨rfl, rfl⟩ := Prod.mk.inj (Except.ok.inj (hk.symm.trans heq))
      refine ⟨?_, hserved.keeps b hb a hge hlt⟩
      show b ∈ (held.after _ _).blocks
      rw [Held.after, if_neg hserved.ne_zero]
      exact List.mem_cons_of_mem _ hb
  | kzalloc size =>
    rcases kmalloc_cases hok size with ⟨hk, -⟩ | ⟨c, block, σ'', -, -, hk, hserved⟩
    · obtain ⟨rfl, rfl⟩ := Prod.mk.inj (Except.ok.inj ((kzalloc_null hk).symm.trans heq))
      exact ⟨hb, rfl⟩
    · obtain ⟨rfl, rfl⟩ := Prod.mk.inj (Except.ok.inj ((kzalloc_eq hk hserved).symm.trans heq))
      constructor
      · show b ∈ (held.after _ _).blocks
        rw [Held.after, if_neg hserved.ne_zero]
        exact List.mem_cons_of_mem _ hb
      · -- the new block is apart from the old one, so its zeros are elsewhere
        obtain ⟨owned', free', hok'⟩ := hserved.ok
        have hne : b ≠ ⟨block, size⟩ := by
          rintro rfl
          exact (List.nodup_cons.mp (List.Nodup.of_map _ hok'.liveNodup)).1 hb
        have hapart := hok'.blocks_apart (List.mem_cons_of_mem _ hb) List.mem_cons_self hne
        rw [LiveBlock.Apart] at hapart
        exact (Mem.fill_of_disjoint _ _ (by
          change b.addr + b.blockSize ≤ block ∨ block + requestSize size ≤ b.addr at hapart
          omega)).trans (hserved.keeps b hb a hge hlt)
  | kfree ptr =>
    rcases ha with rfl | ⟨d, hd, rfl⟩
    · obtain ⟨rfl, rfl⟩ := Prod.mk.inj (Except.ok.inj heq)
      exact ⟨mem_dropBlock.mpr ⟨hb, fun he => hs he.symm⟩, rfl⟩
    · obtain ⟨y, hy, i, hi, hk, haddr, -⟩ := kfree_eq hok hd
      rw [heapExec, hk] at heq
      obtain ⟨rfl, rfl⟩ := Prod.mk.inj (Except.ok.inj heq)
      have hb' : b ∈ dropBlock d.addr held.blocks := mem_dropBlock.mpr ⟨hb, fun he => hs he.symm⟩
      exact ⟨hb', hok.give_keeps hy hi haddr b hb' a hge hlt⟩
  | pageAlloc =>
    obtain ⟨⟨page, machine⟩, hp, heq⟩ := bind_eq_ok.mp heq
    obtain ⟨rfl, rfl⟩ := Prod.mk.inj (Except.ok.inj heq)
    obtain ⟨page', pages, hpa, -, -⟩ := pageAlloc_spec hok.allocator
    obtain ⟨rfl, rfl⟩ := Prod.mk.inj (Except.ok.inj (hpa.symm.trans hp))
    refine ⟨?_, rfl⟩
    show b ∈ (held.after _ _).blocks
    rw [Held.after]
    split
    · exact hb
    · exact hb
  | pageFree page =>
    obtain ⟨machine, hp, heq⟩ := bind_eq_ok.mp heq
    obtain ⟨rfl, rfl⟩ := Prod.mk.inj (Except.ok.inj heq)
    obtain ⟨-, pages, rfl, -, -⟩ := pageFree_ok hok.allocator hp
    exact ⟨hb, rfl⟩
  | write dst bytes =>
    obtain ⟨rfl, rfl⟩ := Prod.mk.inj (Except.ok.inj heq)
    exact ⟨hb, writeBytes_outside _ hs⟩

/-- What is in a block stays there, until its holder writes it or frees the block. -/
theorem heapRun_contents (h : HeapRun σ pages l s) (hrun : Run heapStep HeapOp.Allowed s m u) {b : LiveBlock}
    (hb : b ∈ s.2.blocks) {a : Nat} (hge : b.addr ≤ a) (hlt : a < b.addr + b.blockSize)
    (hs : ∀ op ∈ m, op.Spares b.addr a) : b ∈ u.2.blocks ∧ u.1.machine.mem a = s.1.machine.mem a := by
  have hinv := h.inv
  clear h
  induction hrun with
  | nil s => exact ⟨hb, rfl⟩
  | @cons s t u op m ha hx _ ih =>
    obtain ⟨hb', hmem⟩ := hinv.step_keeps ha hx hb hge hlt (hs op List.mem_cons_self)
    obtain ⟨hbu, hmem'⟩ := ih hb' (fun op hop => hs op (List.mem_cons_of_mem _ hop)) (hinv.step ha hx)
    exact ⟨hbu, hmem'.trans hmem⟩

theorem heapRun_contents_sample : ∃ s u : HeapState × Held,
    Run heapStep HeapOp.Allowed s [.kfree 0x80040430, .kzalloc 1024] u ∧ ⟨0x80040830, 1000⟩ ∈ u.2.blocks ∧
      u.1.machine.mem 0x80040831 = s.1.machine.mem 0x80040831 := by
  obtain ⟨σ, s, hrun, hs⟩ := heapRun_of_check
    (l := [.kmalloc 1000, .kmalloc 600, .write 0x80040830 [1, 2, 3]])
    (p := fun s => decide (⟨0x80040830, 1000⟩ ∈ s.2.blocks) &&
      checkRun heapStep HeapOp.Allowed (fun _ => true) [.kfree 0x80040430, .kzalloc 1024] s) (by decide +kernel)
  rw [Bool.and_eq_true_iff] at hs
  obtain ⟨u, hu, -⟩ := run_of_checkRun hs.2
  refine ⟨s, u, hu, heapRun_contents hrun hu (of_decide_eq_true hs.1) (by decide) (by decide) fun op hop => ?_⟩
  rcases List.mem_pair.mp hop with rfl | rfl
  · show 0x80040430 ≠ 0x80040830
    decide
  · trivial

/-! ### What the heap keeps in its pages -/

/-- A heap page of class `c`: its header, its bitmap and its list of free blocks agree with what clients hold. -/
structure HeapPageSafe (mem : Mem) (blocks : List LiveBlock) (c page : Nat) : Prop where
  magic : HeapPage.magic mem page = heapPageMagic
  blockSize : HeapPage.blockSize mem page = classSize c
  blockCount : HeapPage.blockCount mem page = classBlocks c
  classIndex : HeapPage.classIndex mem page = c
  /-- A bit is set while a client holds the block. -/
  bitmap : ∀ i < classBlocks c, HeapPage.bitmapTest mem page i = true ↔ ∃ b ∈ blocks, b.addr = blockAddr page c i
  /-- The list runs through the other blocks, each once. -/
  freeList : ∃ l : List Nat, Linked mem 0 (HeapPage.freeList mem page) l ∧ l.Nodup ∧
    HeapPage.freeCount mem page = l.length ∧
    ∀ a, a ∈ l ↔ ∃ i < classBlocks c, HeapPage.bitmapTest mem page i = false ∧ a = blockAddr page c i

theorem HeapOk.pageSafe (h : HeapOk lent σ owned free live) (hx : x ∈ owned) :
    HeapPageSafe σ.machine.mem live x.1 x.2 := by
  have hpage := h.page x hx
  have hc := h.class_ok hx
  refine ⟨hpage.magic, hpage.blockSize, hpage.blockCount, hpage.classIndex, fun i hi => ?_,
    (free x.2).map (blockAddr x.2 x.1), hpage.list, hpage.nodup.map fun i j he => hc.block_inj he, ?_, fun a => ?_⟩
  · rw [hpage.bitmap i hi, Bool.not_eq_true', decide_eq_false_iff_not]
    constructor
    · exact h.covered x hx i hi
    · rintro ⟨b, hb, haddr⟩
      obtain ⟨y, hy, j, -, hj, hnot, hbj⟩ := h.taken b hb
      obtain ⟨rfl, rfl⟩ := h.block_unique hx hy hi hj (haddr.symm.trans hbj)
      exact hnot
  · rw [hpage.freeCount, List.length_map]
  · rw [List.mem_map]
    constructor
    · rintro ⟨i, hi, rfl⟩
      refine ⟨i, hpage.lt i hi, ?_, rfl⟩
      rw [hpage.bitmap i (hpage.lt i hi), Bool.not_eq_false', decide_eq_true_eq]
      exact hi
    · rintro ⟨i, hi, hclear, rfl⟩
      rw [hpage.bitmap i hi, Bool.not_eq_false', decide_eq_true_eq] at hclear
      exact ⟨i, hclear, rfl⟩

theorem poolPages_nodup (h : (owned.map Prod.snd).Nodup) (c : Nat) : (poolPages owned c).Nodup :=
  h.sublist (List.filter_sublist.map _)

/-- The seven pools are lists of heap pages, each page of the heap is in the list of its class and in no other, and
the pages of the heap are those that the page allocator has given out and nobody else holds. -/
theorem heapRun_pages (h : HeapRun σ pages l t) : ∃ pool : Nat → List Nat,
    (∀ c < heapClassCount, Linked t.1.machine.mem 24 (t.1.heap.heapPools c).pages (pool c) ∧ (pool c).Nodup ∧
      ∀ page ∈ pool c, HeapPageSafe t.1.machine.mem t.2.blocks c page) ∧
    (∀ c d, c ≠ d → (pool c).Disjoint (pool d)) ∧
    ∀ a : U64, t.1.machine.pages.Allocated a ∧ a ∉ t.2.pages ↔ ∃ c < heapClassCount, a.toNat ∈ pool c := by
  obtain ⟨owned, free, hok⟩ := h.inv
  refine ⟨poolPages owned, fun c hc => ⟨hok.pools c hc, poolPages_nodup hok.nodup c, fun page hp => ?_⟩, ?_, fun a => ?_⟩
  · exact hok.pageSafe (mem_poolPages.mp hp)
  · intro c d hne page hp hq
    exact hne (congrArg Prod.fst (hok.page_inj (mem_poolPages.mp hp) (mem_poolPages.mp hq) rfl))
  · constructor
    · rintro ⟨ha, hnot⟩
      obtain ⟨x, hx, he⟩ := ((hok.frames a).mp ha).resolve_left hnot
      refine ⟨x.1, hok.classes x hx, mem_poolPages.mpr ?_⟩
      rw [← he]
      exact hx
    · rintro ⟨c, -, hp⟩
      have hx := mem_poolPages.mp hp
      obtain ⟨d, hd, -, hnot⟩ := hok.held _ hx
      refine ⟨(hok.frames a).mpr (.inr ⟨_, hx, rfl⟩), ?_⟩
      rw [BitVec.eq_of_toNat_eq hd]
      exact hnot

theorem heapRun_pages_sample : ∃ t : HeapState × Held, t.2.blocks.length = 2 ∧ ∃ pool : Nat → List Nat,
    (∀ c < heapClassCount, Linked t.1.machine.mem 24 (t.1.heap.heapPools c).pages (pool c) ∧ (pool c).Nodup ∧
      ∀ page ∈ pool c, HeapPageSafe t.1.machine.mem t.2.blocks c page) ∧
    (∀ c d, c ≠ d → (pool c).Disjoint (pool d)) ∧
    ∀ a : U64, t.1.machine.pages.Allocated a ∧ a ∉ t.2.pages ↔ ∃ c < heapClassCount, a.toNat ∈ pool c := by
  obtain ⟨σ, t, hrun, ht⟩ := heapRun_of_check (l := [.kmalloc 1000, .kmalloc 1200])
    (p := fun t => t.2.blocks.length = 2) (by decide +kernel)
  exact ⟨t, of_decide_eq_true ht, heapRun_pages hrun⟩

/-! ### The counters -/

theorem heapQuery_eq (hinit : σ.heap.heapInitialized = true) (panic : Panic) (value : Heap → Nat) :
    heapQuery panic value σ = .ok (value σ.heap, σ) := by
  rw [heapQuery]
  dsimp only [HeapState.irqSave]
  rw [if_neg (by rw [hinit]; decide)]
  rfl

/-- The queries count the pages that the heap has taken and the bytes of its blocks, free and held. -/
theorem heapRun_counters (h : HeapRun σ pages l t) : ∃ taken : List U64, taken.Nodup ∧
    (∀ a, a ∈ taken ↔ t.1.machine.pages.Allocated a ∧ a ∉ t.2.pages) ∧
    heapPageCount t.1 = .ok (taken.length, t.1) ∧
    heapAllocatedBytes t.1 = .ok ((t.2.blocks.map LiveBlock.blockSize).sum, t.1) ∧
    heapFreeBytes t.1 = .ok ((taken.map fun a => HeapPage.freeCount t.1.machine.mem a.toNat *
      HeapPage.blockSize t.1.machine.mem a.toNat).sum, t.1) ∧
    t.1.heap.heapFreeBlocksBytes + t.1.heap.heapAllocatedBlocksBytes = (taken.map fun a =>
      HeapPage.blockCount t.1.machine.mem a.toNat * HeapPage.blockSize t.1.machine.mem a.toNat).sum := by
  obtain ⟨owned, free, hok⟩ := h.inv
  have hround : ∀ x ∈ owned, (BitVec.ofNat 64 x.2).toNat = x.2 := by
    intro x hx
    obtain ⟨a, ha, -⟩ := hok.held x hx
    rw [ha, BitVec.ofNat_toNat, BitVec.setWidth_eq]
  have hsum : ∀ f : Nat → Nat, ∀ g : Nat × Nat → Nat, (∀ x ∈ owned, f x.2 = g x) →
      ((owned.map fun x => BitVec.ofNat 64 x.2).map fun a => f a.toNat).sum = (owned.map g).sum := by
    intro f g hfg
    rw [List.map_map]
    congr 1
    refine List.map_congr_left fun x hx => ?_
    rw [Function.comp_apply, hround x hx, hfg x hx]
  refine ⟨owned.map fun x => BitVec.ofNat 64 x.2, ?_, fun a => ?_, ?_, ?_, ?_, ?_⟩
  · refine List.Nodup.map_on (fun x hx y hy he => ?_) (List.Nodup.of_map _ hok.nodup)
    have := congrArg BitVec.toNat he
    rw [hround x hx, hround y hy] at this
    exact hok.page_inj hx hy this
  · rw [List.mem_map]
    constructor
    · rintro ⟨x, hx, rfl⟩
      obtain ⟨d, hd, -, hnot⟩ := hok.held x hx
      rw [hd, BitVec.ofNat_toNat, BitVec.setWidth_eq]
      exact ⟨(hok.frames d).mpr (.inr ⟨x, hx, hd⟩), hnot⟩
    · rintro ⟨ha, hnot⟩
      obtain ⟨x, hx, he⟩ := ((hok.frames a).mp ha).resolve_left hnot
      refine ⟨x, hx, ?_⟩
      rw [he, BitVec.ofNat_toNat, BitVec.setWidth_eq]
  · rw [heapPageCount, heapQuery_eq hok.initialized, hok.count, List.length_map]
  · rw [heapAllocatedBytes, heapQuery_eq hok.initialized, hok.allocatedBytes]
  · rw [heapFreeBytes, heapQuery_eq hok.initialized, hok.freeBytes]
    rw [hsum (fun a => HeapPage.freeCount t.1.machine.mem a * HeapPage.blockSize t.1.machine.mem a) _ fun x hx => by
      rw [(hok.page x hx).freeCount, (hok.page x hx).blockSize]]
  · rw [hok.totalBytes]
    rw [hsum (fun a => HeapPage.blockCount t.1.machine.mem a * HeapPage.blockSize t.1.machine.mem a) _ fun x hx => by
      rw [(hok.page x hx).blockCount, (hok.page x hx).blockSize]]

theorem heapRun_counters_sample : ∃ t : HeapState × Held, ∃ taken : List U64, taken.Nodup ∧
    (∀ a, a ∈ taken ↔ t.1.machine.pages.Allocated a ∧ a ∉ t.2.pages) ∧
    heapPageCount t.1 = .ok (taken.length, t.1) ∧ heapAllocatedBytes t.1 = .ok (2048, t.1) := by
  obtain ⟨σ, t, hrun, ht⟩ := heapRun_of_check (l := [.kmalloc 1000, .kmalloc 600])
    (p := fun t => (t.2.blocks.map LiveBlock.blockSize).sum = 2048) (by decide +kernel)
  obtain ⟨taken, hnodup, hmem, hcount, hbytes, -⟩ := heapRun_counters hrun
  rw [of_decide_eq_true ht] at hbytes
  exact ⟨t, taken, hnodup, hmem, hcount, hbytes⟩

/-! ### Requests -/

theorem classSize_inj {c d : Nat} (hc : c < heapClassCount) (hd : d < heapClassCount) (h : classSize c = classSize d) :
    c = d := by
  have hinj : ∀ c < heapClassCount, ∀ d < heapClassCount, classSize c = classSize d → c = d := by decide
  exact hinj c hc d hd h

/-- A class is exhausted if its pages, as the page allocator and the headers show them, have no free block. -/
theorem HeapOk.exhausted_iff (h : HeapOk lent σ owned free live) {c : Nat} (hc : c < heapClassCount) :
    Exhausted owned free c ↔ ∀ a : U64, σ.machine.pages.Allocated a → a ∉ lent →
      HeapPage.blockSize σ.machine.mem a.toNat = classSize c → HeapPage.freeCount σ.machine.mem a.toNat = 0 := by
  constructor
  · intro hex a ha hnot hsize
    obtain ⟨x, hx, he⟩ := ((h.frames a).mp ha).resolve_left hnot
    rw [← he, (h.page x hx).blockSize] at hsize
    rw [← he, (h.page x hx).freeCount, hex x hx (classSize_inj (h.classes x hx) hc hsize), List.length_nil]
  · rintro hall x hx rfl
    obtain ⟨a, ha, -, hnot⟩ := h.held x hx
    have hz := hall a ((h.frames a).mpr (.inr ⟨x, hx, ha⟩)) hnot (by rw [← ha, (h.page x hx).blockSize])
    rw [← ha, (h.page x hx).freeCount] at hz
    exact List.eq_nil_of_length_eq_zero hz

/-- A request returns null if and only if its size is 0 or too large, or no page of its class has a free block and the
page allocator has no page left. Then nothing has changed. -/
theorem heapRun_kmalloc (h : HeapRun σ pages l t) (size : U64) : ∃ block σ', kmalloc size t.1 = .ok (block, σ') ∧
    (block = 0 ↔ size = 0 ∨ heapMaxClass < size.toNat ∨ t.1.machine.pages.freePages = 0 ∧
      ∀ a : U64, t.1.machine.pages.Allocated a → a ∉ t.2.pages →
        HeapPage.blockSize t.1.machine.mem a.toNat = requestSize size → HeapPage.freeCount t.1.machine.mem a.toNat = 0) ∧
    (block = 0 → σ' = t.1) := by
  obtain ⟨owned, free, hok⟩ := h.inv
  rcases kmalloc_cases hok size with ⟨heq, hreason⟩ | ⟨c, block, σ', hsize, hroom, heq, hserved⟩
  · refine ⟨0, t.1, heq, iff_of_true rfl ?_, fun _ => rfl⟩
    rcases hreason with hnone | ⟨c, hsize, hex, hfull⟩
    · rcases classIndexForSize_none.mp hnone with hz | hlarge
      · exact .inl hz
      · exact .inr (.inl hlarge)
    · rw [requestSize_some hsize]
      exact .inr (.inr ⟨hfull, (hok.exhausted_iff (classIndexForSize_some hsize).1).mp hex⟩)
  · refine ⟨block, σ', heq, iff_of_false hserved.ne_zero ?_, fun hz => absurd hz hserved.ne_zero⟩
    have hsome : ¬(size = 0 ∨ size.toNat > heapMaxClass) := by
      rw [← classIndexForSize_none, hsize]
      exact Option.some_ne_none c
    rw [requestSize_some hsize, ← hok.exhausted_iff (classIndexForSize_some hsize).1]
    rintro (hz | hlarge | ⟨hfull, hex⟩)
    · exact hsome (.inl hz)
    · exact hsome (.inr hlarge)
    · exact hroom ⟨hex, hfull⟩

theorem heapRun_kmalloc_sample : ∃ t : HeapState × Held, t.1.machine.pages.freePages = 0 ∧ ∃ block σ',
    kmalloc 2048 t.1 = .ok (block, σ') ∧
    (block = 0 ↔ (2048 : U64) = 0 ∨ heapMaxClass < (2048 : U64).toNat ∨ t.1.machine.pages.freePages = 0 ∧
      ∀ a : U64, t.1.machine.pages.Allocated a → a ∉ t.2.pages → HeapPage.blockSize t.1.machine.mem a.toNat =
        requestSize 2048 → HeapPage.freeCount t.1.machine.mem a.toNat = 0) ∧
    (block = 0 → σ' = t.1) := by
  obtain ⟨σ, t, hrun, ht⟩ := heapRun_of_check (l := [.kmalloc 1000, .pageAlloc])
    (p := fun t => t.1.machine.pages.freePages = 0) (by decide +kernel)
  exact ⟨t, of_decide_eq_true ht, heapRun_kmalloc hrun 2048⟩

/-- `kzalloc` returns what `kmalloc` returns, with every byte of the block zero and all others as `kmalloc` leaves them. -/
theorem heapRun_kzalloc (h : HeapRun σ pages l t) (size : U64) : ∃ block σ' mem,
    kmalloc size t.1 = .ok (block, σ') ∧ kzalloc size t.1 = .ok (block, σ'.setMem mem) ∧
    (∀ a, block ≠ 0 → block ≤ a → a < block + requestSize size → mem a = 0) ∧
    ∀ a, block = 0 ∨ a < block ∨ block + requestSize size ≤ a → mem a = σ'.machine.mem a := by
  obtain ⟨owned, free, hok⟩ := h.inv
  rcases kmalloc_cases hok size with ⟨heq, -⟩ | ⟨c, block, σ', -, -, heq, hserved⟩
  · exact ⟨0, t.1, t.1.machine.mem, heq, kzalloc_null heq, fun a hne => absurd rfl hne, fun a _ => rfl⟩
  · refine ⟨block, σ', _, heq, kzalloc_eq heq hserved, fun a _ hge hlt => Mem.fill_of_mem _ _ hge hlt, fun a ha => ?_⟩
    exact Mem.fill_of_disjoint _ _ (ha.resolve_left hserved.ne_zero)

theorem heapRun_kzalloc_sample : ∃ t : HeapState × Held, t.2.blocks = [] ∧ ∃ block σ' mem,
    kmalloc 600 t.1 = .ok (block, σ') ∧ kzalloc 600 t.1 = .ok (block, σ'.setMem mem) ∧
    (∀ a, block ≠ 0 → block ≤ a → a < block + 1024 → mem a = 0) ∧
    ∀ a, block = 0 ∨ a < block ∨ block + 1024 ≤ a → mem a = σ'.machine.mem a := by
  obtain ⟨σ, t, hrun, ht⟩ := heapRun_of_check (l := [.kmalloc 1000, .write 0x80040830 [1, 2], .kfree 0x80040830])
    (p := fun t => t.2.blocks = []) (by decide +kernel)
  exact ⟨t, of_decide_eq_true ht, heapRun_kzalloc hrun 600⟩

/-! ### Misuse -/

theorem heapAlignDown_page {page ptr : Nat} (hp : page % pageSize = 0) (hge : page ≤ ptr) (hlt : ptr < page + pageSize) :
    heapAlignDown ptr pageSize = page := by
  rw [heapAlignDown]
  simp only [pageSize] at *
  omega

theorem HeapOk.kfree_error (h : HeapOk lent σ owned free live) (hx : x ∈ owned) {ptr : Nat} (hge : x.2 ≤ ptr)
    (hlt : ptr < x.2 + pageSize) (hnot : ∀ b ∈ live, b.addr ≠ ptr) :
    ∃ panic, kfree ptr σ = .error panic ∧ ∀ i < classBlocks x.1, ptr = blockAddr x.2 x.1 i → panic = "double kfree" := by
  have hpage := h.page x hx
  have hplace := h.place hx
  have hpos := (h.class_ok hx).size_pos
  have hstart := blockAreaStart_eq hplace.align
  obtain ⟨a, ha, hm, -⟩ := h.held x hx
  have hms := hm.start_le
  have hme := hm.lt_end
  have hne : ptr ≠ 0 := by
    have := hplace.pos
    omega
  rw [kfree, if_neg hne]
  dsimp only [HeapState.irqSave]
  rw [heapAlignDown_page hplace.align hge hlt, hstart, hpage.magic, hpage.blockSize, hpage.blockCount,
    if_neg (by rw [h.initialized]; decide), if_neg, if_neg (not_not_intro rfl)]
  swap
  · show ¬(x.2 < σ.machine.pages.managedStart.toNat ∨ x.2 ≥ σ.machine.pages.managedEnd.toNat)
    omega
  by_cases hin : ptr < x.2 + heapPageHeaderSize ∨ ptr ≥ x.2 + pageSize
  · rw [if_pos hin]
    refine ⟨_, rfl, fun i hi he => ?_⟩
    have := blockAddr_ge x.2 x.1 i
    simp only [heapPageHeaderSize] at hin
    omega
  rw [if_neg hin]
  have hblock : ∀ i, ptr = blockAddr x.2 x.1 i → ptr - (x.2 + heapPageHeaderSize) = i * classSize x.1 := by
    rintro i rfl
    rw [blockAddr, Nat.add_sub_cancel_left]
  by_cases hmod : (ptr - (x.2 + heapPageHeaderSize)) % classSize x.1 ≠ 0
  · rw [if_pos hmod]
    refine ⟨_, rfl, fun i hi he => ?_⟩
    rw [hblock i he, Nat.mul_mod_left] at hmod
    exact absurd rfl hmod
  rw [if_neg hmod]
  by_cases hidx : (ptr - (x.2 + heapPageHeaderSize)) / classSize x.1 ≥ classBlocks x.1
  · rw [if_pos hidx]
    refine ⟨_, rfl, fun i hi he => ?_⟩
    rw [hblock i he, Nat.mul_div_cancel _ hpos] at hidx
    omega
  rw [if_neg hidx]
  have hi : (ptr - (x.2 + heapPageHeaderSize)) / classSize x.1 < classBlocks x.1 := Nat.lt_of_not_le hidx
  have haddr : ptr = blockAddr x.2 x.1 ((ptr - (x.2 + heapPageHeaderSize)) / classSize x.1) := by
    rw [blockAddr, Nat.div_mul_cancel (Nat.dvd_of_mod_eq_zero (not_not.mp hmod))]
    omega
  have hclear : HeapPage.bitmapTest σ.machine.mem x.2 ((ptr - (x.2 + heapPageHeaderSize)) / classSize x.1) = false := by
    refine Bool.eq_false_iff.mpr fun hset => ?_
    obtain ⟨b, hb, he⟩ := ((h.pageSafe hx).bitmap _ hi).mp hset
    exact hnot b hb (he.trans haddr.symm)
  rw [hclear, if_pos (by decide)]
  exact ⟨_, rfl, fun i _ _ => rfl⟩

/-- Into the pages of the heap, `kfree` accepts exactly the blocks that clients hold, and calls a free block a double
free. -/
theorem heapRun_kfree (h : HeapRun σ pages l t) {a : U64} (ha : t.1.machine.pages.Allocated a) (hnot : a ∉ t.2.pages)
    {ptr : Nat} (hge : a.toNat ≤ ptr) (hlt : ptr < a.toNat + pageSize) :
    ((∃ σ', kfree ptr t.1 = .ok σ') ↔ ∃ b ∈ t.2.blocks, b.addr = ptr) ∧
    ∀ i < HeapPage.blockCount t.1.machine.mem a.toNat, (∀ b ∈ t.2.blocks, b.addr ≠ ptr) →
      ptr = a.toNat + heapPageHeaderSize + i * HeapPage.blockSize t.1.machine.mem a.toNat →
      kfree ptr t.1 = .error "double kfree" := by
  obtain ⟨owned, free, hok⟩ := h.inv
  obtain ⟨x, hx, he⟩ := ((hok.frames a).mp ha).resolve_left hnot
  rw [← he] at hge hlt ⊢
  have hmiss : (∀ b ∈ t.2.blocks, b.addr ≠ ptr) → _ := hok.kfree_error hx hge hlt
  constructor
  · constructor
    · rintro ⟨σ', heq⟩
      by_contra hno
      obtain ⟨panic, herr, -⟩ := hmiss fun b hb hbp => hno ⟨b, hb, hbp⟩
      rw [herr] at heq
      cases heq
    · rintro ⟨b, hb, rfl⟩
      obtain ⟨y, -, i, -, heq, -⟩ := kfree_eq hok hb
      exact ⟨_, heq⟩
  · intro i hi hno hptr
    obtain ⟨panic, herr, hdouble⟩ := hmiss hno
    rw [(hok.page x hx).blockCount] at hi
    rw [(hok.page x hx).blockSize] at hptr
    rw [herr, hdouble i hi hptr]

theorem heapRun_kfree_sample : ∃ t : HeapState × Held, kfree 0x80040830 t.1 = .error "double kfree" := by
  obtain ⟨σ, t, hrun, ht⟩ := heapRun_of_check (l := [.kmalloc 1000, .kfree 0x80040830])
    (p := fun t => t.2.blocks = [] && t.2.pages = [] && HeapPage.blockCount t.1.machine.mem 0x80040000 = 3 &&
      HeapPage.blockSize t.1.machine.mem 0x80040000 = 1024 && t.1.machine.pages.managedStart = 0x80040000 &&
      t.1.machine.pages.managedEnd = 0x80042000 && t.1.machine.pages.bitmapTest (t.1.machine.pages.pageIndexFromAddr 0x80040000))
    (by decide +kernel)
  simp only [Bool.and_eq_true, decide_eq_true_eq] at ht
  obtain ⟨⟨⟨⟨⟨⟨hblocks, hpages⟩, hcount⟩, hsize⟩, hstart⟩, hend⟩, htest⟩ := ht
  have ha : t.1.machine.pages.Allocated 0x80040000 := by
    refine ⟨⟨by decide, ?_, ?_⟩, htest⟩
    · rw [hstart]
    · rw [hend]
      decide
  have h := (heapRun_kfree hrun ha (by rw [hpages]; exact List.not_mem_nil) (show (0x80040000 : U64).toNat ≤ 0x80040830 by decide)
    (by decide)).2
  refine ⟨t, h 2 ?_ ?_ ?_⟩
  · show 2 < HeapPage.blockCount t.1.machine.mem 0x80040000
    rw [hcount]
    decide
  · rw [hblocks]
    intro b hb
    cases hb
  · show 0x80040830 = 0x80040000 + heapPageHeaderSize + 2 * HeapPage.blockSize t.1.machine.mem 0x80040000
    rw [hsize]
    rfl

end QemuRtos
