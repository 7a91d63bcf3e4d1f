import QemuRtos.Lib.LinkedMem
import QemuRtos.Memory.Heap
import QemuRtos.Memory.PageSpec

/-!
# What one heap page holds

`PageOk` says how the header, the free list and the bitmap of a heap page agree, and how each edit of a page keeps
them in agreement.
-/

namespace QemuRtos

open Lib

variable {mem mem' : Mem} {page block c i j n : Nat} {free : List Nat}

/-- The block size of a class. -/
def classSize (c : Nat) : Nat := heapClassSizes.getD c 0

/-- How many blocks a page of the class has. -/
def classBlocks (c : Nat) : Nat := (pageSize - heapPageHeaderSize) / classSize c

def blockAddr (page c i : Nat) : Nat := page + heapPageHeaderSize + i * classSize c

/-- The geometry of a class. -/
structure ClassOk (c : Nat) : Prop where
  size_ge : heapMinClass ≤ classSize c
  size_align : classSize c % heapAlignment = 0
  size_lt : classSize c < 2 ^ 16
  blocks_pos : 0 < classBlocks c
  blocks_le : classBlocks c ≤ pageSize / heapMinClass
  fits : heapPageHeaderSize + classBlocks c * classSize c ≤ pageSize

theorem class_ok (hc : c < heapClassCount) : ClassOk c := by
  have h : ∀ c < heapClassCount, heapMinClass ≤ classSize c ∧ classSize c % heapAlignment = 0 ∧
      classSize c < 2 ^ 16 ∧ 0 < classBlocks c ∧ classBlocks c ≤ pageSize / heapMinClass ∧
      heapPageHeaderSize + classBlocks c * classSize c ≤ pageSize := by decide
  obtain ⟨h1, h2, h3, h4, h5, h6⟩ := h c hc
  exact ⟨h1, h2, h3, h4, h5, h6⟩

theorem ClassOk.size_pos (h : ClassOk c) : 0 < classSize c := Nat.lt_of_lt_of_le (by decide) h.size_ge

theorem blockAddr_ge (page c i : Nat) : page + 48 ≤ blockAddr page c i := Nat.le_add_right ..

theorem ClassOk.block_lt (h : ClassOk c) (page : Nat) (hi : i < classBlocks c) :
    blockAddr page c i + classSize c ≤ page + pageSize := by
  have hmul : i * classSize c + classSize c ≤ classBlocks c * classSize c := by
    rw [← Nat.succ_mul]
    exact Nat.mul_le_mul_right _ hi
  have hfits := h.fits
  rw [blockAddr]
  omega

theorem blockAddr_apart (page c : Nat) (hne : i ≠ j) :
    blockAddr page c i + classSize c ≤ blockAddr page c j ∨ blockAddr page c j + classSize c ≤ blockAddr page c i := by
  have hmul : ∀ a b : Nat, a < b → a * classSize c + classSize c ≤ b * classSize c := by
    intro a b hlt
    rw [← Nat.succ_mul]
    exact Nat.mul_le_mul_right _ hlt
  rw [blockAddr, blockAddr]
  rcases Nat.lt_or_gt_of_ne hne with hlt | hlt
  · have := hmul i j hlt
    omega
  · have := hmul j i hlt
    omega

theorem ClassOk.block_index (h : ClassOk c) : (blockAddr page c i - (page + heapPageHeaderSize)) / classSize c = i := by
  rw [blockAddr, Nat.add_sub_cancel_left, Nat.mul_div_cancel _ h.size_pos]

theorem ClassOk.block_inj (h : ClassOk c) (he : blockAddr page c i = blockAddr page c j) : i = j := by
  calc
    i = (blockAddr page c i - (page + heapPageHeaderSize)) / classSize c := h.block_index.symm
    _ = j := by rw [he, h.block_index]

theorem blockAddr_page {page' c' i' : Nat} (hp : page % pageSize = 0) (hp' : page' % pageSize = 0)
    (hc : ClassOk c) (hc' : ClassOk c') (hi : i < classBlocks c) (hi' : i' < classBlocks c')
    (he : blockAddr page c i = blockAddr page' c' i') : page = page' := by
  have h1 := hc.block_lt page hi
  have h2 := hc'.block_lt page' hi'
  have h3 := blockAddr_ge page c i
  have h4 := blockAddr_ge page' c' i'
  have h5 := hc.size_pos
  have h6 := hc'.size_pos
  simp only [pageSize] at *
  omega

theorem blockAreaStart_eq (hp : page % pageSize = 0) : blockAreaStart page = page + heapPageHeaderSize := by
  rw [blockAreaStart, heapAlignUp]
  simp only [pageSize, heapPageHeaderSize, heapAlignment] at *
  omega

theorem blockAddr_align (hp : page % pageSize = 0) (h : ClassOk c) : blockAddr page c i % heapAlignment = 0 := by
  have hs := h.size_align
  have hm : i * classSize c % heapAlignment = 0 := by
    rw [Nat.mul_mod, hs, Nat.mul_zero, Nat.zero_mod]
  rw [blockAddr]
  simp only [pageSize, heapPageHeaderSize, heapAlignment] at *
  omega

theorem heapAlignDown_block (hp : page % pageSize = 0) (h : ClassOk c) (hi : i < classBlocks c) :
    heapAlignDown (blockAddr page c i) pageSize = page := by
  have h1 := h.block_lt page hi
  have h2 := blockAddr_ge page c i
  have h3 := h.size_pos
  rw [heapAlignDown]
  simp only [pageSize] at *
  omega

/-! ### One page -/

/-- The page of class `c` whose free blocks are `free`, in the order of its list. -/
structure PageOk (mem : Mem) (c page : Nat) (free : List Nat) : Prop where
  magic : HeapPage.magic mem page = heapPageMagic
  blockSize : HeapPage.blockSize mem page = classSize c
  blockCount : HeapPage.blockCount mem page = classBlocks c
  freeCount : HeapPage.freeCount mem page = free.length
  classIndex : HeapPage.classIndex mem page = c
  list : Linked mem 0 (HeapPage.freeList mem page) (free.map (blockAddr page c))
  nodup : free.Nodup
  lt : ∀ i ∈ free, i < classBlocks c
  bitmap : ∀ i < classBlocks c, HeapPage.bitmapTest mem page i = !decide (i ∈ free)

theorem PageOk.length_le (h : PageOk mem c page free) : free.length ≤ classBlocks c := by
  have hsub : free ⊆ List.range (classBlocks c) := fun i hi => List.mem_range.mpr (h.lt i hi)
  have := (List.subperm_of_subset h.nodup hsub).length_le
  rwa [List.length_range] at this

theorem bitmap_word_lt (hc : ClassOk c) (hi : i < classBlocks c) : i / 64 < 2 := by
  have := hc.blocks_le
  simp only [pageSize, heapMinClass] at this
  omega

/-- A page only depends on its header and on the links of its free blocks. -/
theorem PageOk.congr (h : PageOk mem c page free) (hc : ClassOk c)
    (hheader : ∀ x, page ≤ x → x < page + heapPageHeaderSize → mem' x = mem x)
    (hfree : ∀ i ∈ free, ∀ x, blockAddr page c i ≤ x → x < blockAddr page c i + 8 → mem' x = mem x) :
    PageOk mem' c page free := by
  have hload : ∀ n a, page ≤ a → a + n ≤ page + heapPageHeaderSize → mem'.loadLE n a = mem.loadLE n a :=
    fun n a h1 h2 => Mem.loadLE_congr fun x h3 h4 => hheader x (by omega) (by omega)
  have hword : ∀ w < 2, HeapPage.allocatedBitmap mem' page w = HeapPage.allocatedBitmap mem page w := by
    intro w hw
    rw [HeapPage.allocatedBitmap, HeapPage.allocatedBitmap, Mem.load64, Mem.load64,
      hload 8 _ (by omega) (by simp only [heapPageHeaderSize]; omega)]
  refine ⟨?_, ?_, ?_, ?_, ?_, ?_, h.nodup, h.lt, fun i hi => ?_⟩
  · rw [← h.magic, HeapPage.magic, HeapPage.magic, Mem.load64, Mem.load64,
      hload 8 page (le_refl _) (by simp only [heapPageHeaderSize]; omega)]
  · rw [← h.blockSize]
    exact hload 2 _ (by omega) (by simp only [heapPageHeaderSize]; omega)
  · rw [← h.blockCount]
    exact hload 2 _ (by omega) (by simp only [heapPageHeaderSize]; omega)
  · rw [← h.freeCount]
    exact hload 2 _ (by omega) (by simp only [heapPageHeaderSize]; omega)
  · conv_rhs => rw [← h.classIndex]
    exact hload 2 _ (by omega) (by simp only [heapPageHeaderSize]; omega)
  · have hl : HeapPage.freeList mem' page = HeapPage.freeList mem page :=
      hload 8 _ (by omega) (by simp only [heapPageHeaderSize]; omega)
    rw [hl]
    refine h.list.congr fun b hb x h1 h2 => ?_
    obtain ⟨i, hi, rfl⟩ := List.mem_map.mp hb
    exact hfree i hi x h1 h2
  · rw [← h.bitmap i hi, HeapPage.bitmapTest, HeapPage.bitmapTest, Bitmap.test, Bitmap.test,
      hword _ (bitmap_word_lt hc hi)]

theorem PageOk.frame (h : PageOk mem c page free) (hc : ClassOk c)
    (hs : ∀ x, page ≤ x → x < page + pageSize → mem' x = mem x) : PageOk mem' c page free := by
  refine h.congr hc (fun x h1 h2 => hs x h1 ?_) fun i hi x h1 h2 => hs x ?_ ?_
  · simp only [heapPageHeaderSize, pageSize] at *
    omega
  · have := blockAddr_ge page c i
    omega
  · have h3 := hc.block_lt page (h.lt i hi)
    have h4 := hc.size_ge
    simp only [heapMinClass] at h4
    omega

/-! ### Edits of a page -/

/-- Besides the 8 bytes at `block`, only the free count, the free list and the bitmap of the page have changed. -/
def Edited (page block : Nat) (mem mem' : Mem) : Prop := ∀ x,
  x < page + 12 ∨ page + 14 ≤ x ∧ x < page + 16 ∨ page + 24 ≤ x ∧ x < page + 32 ∨ page + 48 ≤ x →
    x < block ∨ block + 8 ≤ x → mem' x = mem x

theorem Edited.trans {mem'' : Mem} (h : Edited page block mem mem') (h' : Edited page block mem' mem'') :
    Edited page block mem mem'' := fun x hx hb => (h' x hx hb).trans (h x hx hb)

theorem PageOk.edited (h : PageOk mem c page free) {free' : List Nat} (hb : page + 48 ≤ block)
    (he : Edited page block mem mem') (hcount : HeapPage.freeCount mem' page = free'.length)
    (hlist : Linked mem' 0 (HeapPage.freeList mem' page) (free'.map (blockAddr page c)))
    (hnodup : free'.Nodup) (hlt : ∀ i ∈ free', i < classBlocks c)
    (hbitmap : ∀ i < classBlocks c, HeapPage.bitmapTest mem' page i = !decide (i ∈ free')) :
    PageOk mem' c page free' := by
  have hload : ∀ n a, a + n ≤ page + 48 → (∀ x, a ≤ x → x < a + n → x < page + 12 ∨ page + 14 ≤ x ∧ x < page + 16) →
      mem'.loadLE n a = mem.loadLE n a := by
    intro n a hn ha
    refine Mem.loadLE_congr fun x h1 h2 => he x ?_ (.inl (by omega))
    rcases ha x h1 h2 with hx | hx
    · exact .inl hx
    · exact .inr (.inl hx)
  refine ⟨?_, ?_, ?_, hcount, ?_, hlist, hnodup, hlt, hbitmap⟩
  · rw [← h.magic, HeapPage.magic, HeapPage.magic, Mem.load64, Mem.load64, hload 8 page (by omega) (by omega)]
  · rw [← h.blockSize]
    exact hload 2 _ (by omega) (by omega)
  · rw [← h.blockCount]
    exact hload 2 _ (by omega) (by omega)
  · conv_rhs => rw [← h.classIndex]
    exact hload 2 _ (by omega) (by omega)

theorem setFreeCount_edited (hb : page + 48 ≤ block) (mem : Mem) :
    Edited page block mem (HeapPage.setFreeCount page n mem) :=
  fun x hx _ => Mem.storeLE_of_disjoint mem (by omega)

theorem setFreeList_edited (mem : Mem) : Edited page block mem (HeapPage.setFreeList page n mem) :=
  fun x hx _ => Mem.storeLE_of_disjoint mem (by omega)

theorem bitmapSet_edited (hi : i / 64 < 2) (mem : Mem) : Edited page block mem (HeapPage.bitmapSet page i mem) :=
  fun x hx _ => Mem.store64_of_disjoint mem _ (by omega)

theorem bitmapClear_edited (hi : i / 64 < 2) (mem : Mem) : Edited page block mem (HeapPage.bitmapClear page i mem) :=
  fun x hx _ => Mem.store64_of_disjoint mem _ (by omega)

/-! What the setters do to the fields. -/

@[simp] theorem freeCount_setFreeCount (hn : n < 2 ^ 16) :
    HeapPage.freeCount (HeapPage.setFreeCount page n mem) page = n := by
  rw [HeapPage.freeCount, HeapPage.setFreeCount, Mem.loadLE_storeLE]
  exact Nat.mod_eq_of_lt hn

@[simp] theorem freeList_setFreeCount :
    HeapPage.freeList (HeapPage.setFreeCount page n mem) page = HeapPage.freeList mem page :=
  Mem.loadLE_storeLE_disjoint mem (by omega)

@[simp] theorem bitmapTest_setFreeCount :
    HeapPage.bitmapTest (HeapPage.setFreeCount page n mem) page i = HeapPage.bitmapTest mem page i := by
  have hw : HeapPage.allocatedBitmap (HeapPage.setFreeCount page n mem) page = HeapPage.allocatedBitmap mem page := by
    funext w
    rw [HeapPage.allocatedBitmap, HeapPage.allocatedBitmap, Mem.load64, Mem.load64, HeapPage.setFreeCount,
      Mem.loadLE_storeLE_disjoint mem (by omega)]
  rw [HeapPage.bitmapTest, HeapPage.bitmapTest, hw]

@[simp] theorem freeList_setFreeList (hn : n < 2 ^ 64) :
    HeapPage.freeList (HeapPage.setFreeList page n mem) page = n := by
  rw [HeapPage.freeList, HeapPage.setFreeList, Mem.loadLE_storeLE]
  exact Nat.mod_eq_of_lt hn

@[simp] theorem freeCount_setFreeList :
    HeapPage.freeCount (HeapPage.setFreeList page n mem) page = HeapPage.freeCount mem page :=
  Mem.loadLE_storeLE_disjoint mem (by omega)

@[simp] theorem bitmapTest_setFreeList :
    HeapPage.bitmapTest (HeapPage.setFreeList page n mem) page i = HeapPage.bitmapTest mem page i := by
  have hw : HeapPage.allocatedBitmap (HeapPage.setFreeList page n mem) page = HeapPage.allocatedBitmap mem page := by
    funext w
    rw [HeapPage.allocatedBitmap, HeapPage.allocatedBitmap, Mem.load64, Mem.load64, HeapPage.setFreeList,
      Mem.loadLE_storeLE_disjoint mem (by omega)]
  rw [HeapPage.bitmapTest, HeapPage.bitmapTest, hw]

@[simp] theorem freeList_bitmapSet :
    HeapPage.freeList (HeapPage.bitmapSet page i mem) page = HeapPage.freeList mem page :=
  Mem.loadLE_storeLE_disjoint mem (by omega)

@[simp] theorem freeCount_bitmapSet :
    HeapPage.freeCount (HeapPage.bitmapSet page i mem) page = HeapPage.freeCount mem page :=
  Mem.loadLE_storeLE_disjoint mem (by omega)

@[simp] theorem freeList_bitmapClear :
    HeapPage.freeList (HeapPage.bitmapClear page i mem) page = HeapPage.freeList mem page :=
  Mem.loadLE_storeLE_disjoint mem (by omega)

@[simp] theorem freeCount_bitmapClear :
    HeapPage.freeCount (HeapPage.bitmapClear page i mem) page = HeapPage.freeCount mem page :=
  Mem.loadLE_storeLE_disjoint mem (by omega)

theorem allocatedBitmap_store64 (w : Nat) (v : U64) :
    HeapPage.allocatedBitmap (mem.store64 (page + 32 + 8 * w) v) page =
      Function.update (HeapPage.allocatedBitmap mem page) w v := by
  funext w'
  by_cases hw : w' = w
  · subst hw
    rw [Function.update_self, HeapPage.allocatedBitmap, Mem.load64_store64]
  · rw [Function.update_of_ne hw, HeapPage.allocatedBitmap, HeapPage.allocatedBitmap,
      Mem.load64_store64_disjoint mem v (by omega)]

theorem bitmapTest_bitmapSet :
    HeapPage.bitmapTest (HeapPage.bitmapSet page i mem) page j =
      (decide (i = j) || HeapPage.bitmapTest mem page j) := by
  rw [HeapPage.bitmapTest, HeapPage.bitmapSet, allocatedBitmap_store64]
  exact Bitmap.test_set _ i j

theorem bitmapTest_bitmapClear :
    HeapPage.bitmapTest (HeapPage.bitmapClear page i mem) page j =
      (!decide (i = j) && HeapPage.bitmapTest mem page j) := by
  rw [HeapPage.bitmapTest, HeapPage.bitmapClear, allocatedBitmap_store64]
  exact Bitmap.test_clear _ i j

/-! ### Taking a block -/

/-- The memory after `heap_alloc_block` has taken block `i`. -/
def takeBlock (page c i : Nat) (mem : Mem) : Mem :=
  let mem := HeapPage.setFreeList page (mem.loadLE 8 (blockAddr page c i)) mem
  let mem := HeapPage.bitmapSet page i mem
  HeapPage.setFreeCount page (HeapPage.freeCount mem page - 1) mem

theorem takeBlock_edited (hc : ClassOk c) (hi : i < classBlocks c) (mem : Mem) :
    Edited page (blockAddr page c i) mem (takeBlock page c i mem) :=
  ((setFreeList_edited mem).trans (bitmapSet_edited (bitmap_word_lt hc hi) _)).trans
    (setFreeCount_edited (blockAddr_ge page c i) _)

theorem Edited.linked {a : Nat} (he : Edited page (blockAddr page c i) mem mem') (hc : ClassOk c) (hnot : i ∉ free)
    (h : Linked mem 0 a (free.map (blockAddr page c))) : Linked mem' 0 a (free.map (blockAddr page c)) := by
  refine h.congr fun b hb x h1 h2 => ?_
  obtain ⟨j, hj, rfl⟩ := List.mem_map.mp hb
  have hne : i ≠ j := fun he => hnot (he ▸ hj)
  have hge := blockAddr_ge page c j
  have hs := hc.size_ge
  simp only [heapMinClass] at hs
  refine he x (by omega) ?_
  rcases blockAddr_apart page c hne with ha | ha
  · omega
  · omega

theorem PageOk.take (h : PageOk mem c page (i :: free)) (hc : ClassOk c) :
    PageOk (takeBlock page c i mem) c page free := by
  obtain ⟨hnot, hnodup⟩ := List.nodup_cons.mp h.nodup
  have hi := h.lt i List.mem_cons_self
  have he : Edited page (blockAddr page c i) mem (takeBlock page c i mem) := takeBlock_edited hc hi mem
  obtain ⟨-, -, hl⟩ := Linked.cons_iff.mp h.list
  have hcount := h.freeCount
  have hle := h.length_le
  have hblocks := hc.blocks_le
  simp only [pageSize, heapMinClass] at hblocks
  rw [List.length_cons] at hcount hle
  refine h.edited (blockAddr_ge page c i) he ?_ ?_ hnodup (fun j hj => h.lt j (List.mem_cons_of_mem i hj)) ?_
  · rw [takeBlock, freeCount_setFreeCount, freeCount_bitmapSet, freeCount_setFreeList, hcount]
    · rfl
    · rw [freeCount_bitmapSet, freeCount_setFreeList, hcount]
      omega
  · have hlist : HeapPage.freeList (takeBlock page c i mem) page = mem.loadLE 8 (blockAddr page c i) := by
      rw [takeBlock, freeList_setFreeCount, freeList_bitmapSet, freeList_setFreeList (Mem.loadLE_lt mem 8 _)]
    rw [hlist]
    exact he.linked hc hnot hl
  · intro j hj
    rw [takeBlock, bitmapTest_setFreeCount, bitmapTest_bitmapSet, bitmapTest_setFreeList, h.bitmap j hj]
    by_cases hij : i = j
    · subst hij
      simp [hnot]
    · have hji : j ≠ i := fun he => hij he.symm
      simp [hij, hji]

/-! ### Giving a block back -/

/-- The memory after `kfree` has given block `i` back. -/
def giveBlock (page c i : Nat) (mem : Mem) : Mem :=
  let mem := HeapPage.bitmapClear page i mem
  let mem := HeapPage.pushFree page (blockAddr page c i) mem
  HeapPage.setFreeCount page (HeapPage.freeCount mem page + 1) mem

theorem pushFree_edited (mem : Mem) : Edited page block mem (HeapPage.pushFree page block mem) := by
  intro x hx hb
  rw [HeapPage.pushFree]
  exact (setFreeList_edited _ x hx hb).trans (Mem.storeLE_of_disjoint mem (by omega))

theorem giveBlock_edited (hc : ClassOk c) (hi : i < classBlocks c) (mem : Mem) :
    Edited page (blockAddr page c i) mem (giveBlock page c i mem) :=
  ((bitmapClear_edited (bitmap_word_lt hc hi) mem).trans (pushFree_edited _)).trans
    (setFreeCount_edited (blockAddr_ge page c i) _)

theorem freeCount_pushFree (hb : page + 48 ≤ block) :
    HeapPage.freeCount (HeapPage.pushFree page block mem) page = HeapPage.freeCount mem page := by
  rw [HeapPage.pushFree, freeCount_setFreeList]
  exact Mem.loadLE_storeLE_disjoint mem (by omega)

theorem bitmapTest_pushFree (hb : page + 48 ≤ block) (hi : i / 64 < 2) :
    HeapPage.bitmapTest (HeapPage.pushFree page block mem) page i = HeapPage.bitmapTest mem page i := by
  rw [HeapPage.pushFree, bitmapTest_setFreeList, HeapPage.bitmapTest, HeapPage.bitmapTest, Bitmap.test, Bitmap.test,
    HeapPage.allocatedBitmap, HeapPage.allocatedBitmap, Mem.load64, Mem.load64,
    Mem.loadLE_storeLE_disjoint mem (by omega)]

theorem pushFree_link (hb : page + 48 ≤ block) :
    (HeapPage.pushFree page block mem).loadLE 8 block = HeapPage.freeList mem page := by
  rw [HeapPage.pushFree, HeapPage.setFreeList, Mem.loadLE_storeLE_disjoint _ (by omega), Mem.loadLE_storeLE]
  exact Nat.mod_eq_of_lt (Mem.loadLE_lt mem 8 _)

theorem PageOk.give (h : PageOk mem c page free) (hc : ClassOk c) (hi : i < classBlocks c) (hnot : i ∉ free)
    (hend : page + pageSize ≤ 2 ^ 64) : PageOk (giveBlock page c i mem) c page (i :: free) := by
  have hge := blockAddr_ge page c i
  have hlt := hc.block_lt page hi
  have hpos := hc.size_pos
  have he : Edited page (blockAddr page c i) mem (giveBlock page c i mem) := giveBlock_edited hc hi mem
  have hle := h.length_le
  have hblocks := hc.blocks_le
  simp only [pageSize, heapMinClass] at hblocks hlt hend
  refine h.edited hge he ?_ ?_ (List.nodup_cons.mpr ⟨hnot, h.nodup⟩) ?_ ?_
  · rw [giveBlock, freeCount_setFreeCount, freeCount_pushFree hge, freeCount_bitmapClear, h.freeCount]
    · rfl
    · rw [freeCount_pushFree hge, freeCount_bitmapClear, h.freeCount]
      omega
  · have hhead : HeapPage.freeList (giveBlock page c i mem) page = blockAddr page c i := by
      rw [giveBlock, freeList_setFreeCount, HeapPage.pushFree, freeList_setFreeList (by omega)]
    have hlink : (giveBlock page c i mem).loadLE 8 (blockAddr page c i + 0) = HeapPage.freeList mem page := by
      rw [giveBlock, HeapPage.setFreeCount, Mem.loadLE_storeLE_disjoint _ (by omega), Nat.add_zero,
        pushFree_link hge, freeList_bitmapClear]
    rw [hhead]
    refine Linked.cons_iff.mpr ⟨rfl, by omega, ?_⟩
    rw [hlink]
    exact he.linked hc hnot h.list
  · intro j hj
    rcases List.mem_cons.mp hj with rfl | hj
    · exact hi
    · exact h.lt j hj
  · intro j hj
    rw [giveBlock, bitmapTest_setFreeCount, bitmapTest_pushFree hge (bitmap_word_lt hc hj), bitmapTest_bitmapClear,
      h.bitmap j hj]
    by_cases hij : i = j
    · subst hij
      simp
    · have hji : j ≠ i := fun he => hij he.symm
      simp [hij, hji]

/-! ### A new page -/

/-- The memory of a new page of class `c`. -/
def newPage (page c next : Nat) (mem : Mem) : Mem :=
  (List.range (classBlocks c)).foldl (fun mem i => HeapPage.pushFree page (blockAddr page c i) mem)
    (HeapPage.init page (classSize c) (classBlocks c) c next mem)

theorem init_eq (bs bc ci next : Nat) (mem : Mem) : HeapPage.init page bs bc ci next mem =
    ((((((((((mem.store64 page heapPageMagic).storeLE 2 (page + 8) bs).storeLE 2 (page + 10) bc).storeLE 2
      (page + 12) bc).storeLE 2 (page + 14) ci).storeLE 8 (page + 16) 0).storeLE 8 (page + 24) next).store64
      (page + 32 + 8 * 0) 0).store64 (page + 32 + 8 * 1) 0)) := rfl

/-- The header of a new page before its blocks are linked. -/
structure Initialized (mem : Mem) (page c next : Nat) : Prop where
  magic : HeapPage.magic mem page = heapPageMagic
  blockSize : HeapPage.blockSize mem page = classSize c
  blockCount : HeapPage.blockCount mem page = classBlocks c
  freeCount : HeapPage.freeCount mem page = classBlocks c
  classIndex : HeapPage.classIndex mem page = c
  freeList : HeapPage.freeList mem page = 0
  next : HeapPage.next mem page = next
  bitmap : ∀ i < classBlocks c, HeapPage.bitmapTest mem page i = false

theorem init_initialized (page : Nat) (hc : c < heapClassCount) {next : Nat} (hnext : next < 2 ^ 64) (mem : Mem) :
    Initialized (HeapPage.init page (classSize c) (classBlocks c) c next mem) page c next := by
  have hok := class_ok hc
  have hsize := hok.size_lt
  have hblocks := hok.blocks_le
  simp only [pageSize, heapMinClass, heapClassCount] at hblocks hc
  rw [init_eq]
  refine ⟨?_, ?_, ?_, ?_, ?_, ?_, ?_, fun i hi => ?_⟩
  · rw [HeapPage.magic, Mem.load64]
    simp (disch := omega) only [Mem.store64, Mem.loadLE_storeLE_disjoint]
    exact Mem.load64_store64 mem page heapPageMagic
  · rw [HeapPage.blockSize]
    simp (disch := omega) only [Mem.store64, Mem.loadLE_storeLE_disjoint, Mem.loadLE_storeLE]
    omega
  · rw [HeapPage.blockCount]
    simp (disch := omega) only [Mem.store64, Mem.loadLE_storeLE_disjoint, Mem.loadLE_storeLE]
    omega
  · rw [HeapPage.freeCount]
    simp (disch := omega) only [Mem.store64, Mem.loadLE_storeLE_disjoint, Mem.loadLE_storeLE]
    omega
  · rw [HeapPage.classIndex]
    simp (disch := omega) only [Mem.store64, Mem.loadLE_storeLE_disjoint, Mem.loadLE_storeLE]
    omega
  · rw [HeapPage.freeList]
    simp (disch := omega) only [Mem.store64, Mem.loadLE_storeLE_disjoint, Mem.loadLE_storeLE]
    rfl
  · rw [HeapPage.next]
    simp (disch := omega) only [Mem.store64, Mem.loadLE_storeLE_disjoint, Mem.loadLE_storeLE]
    omega
  · have hw := bitmap_word_lt hok hi
    have hzero : HeapPage.allocatedBitmap (HeapPage.init page (classSize c) (classBlocks c) c next mem) page (i / 64) =
        0 := by
      rw [init_eq, allocatedBitmap_store64, allocatedBitmap_store64]
      rcases (by omega : i / 64 = 0 ∨ i / 64 = 1) with h0 | h1
      · rw [h0, Function.update_of_ne (by decide), Function.update_self]
      · rw [h1, Function.update_self]
    rw [← init_eq, HeapPage.bitmapTest, Bitmap.test, hzero]
    simp

/-- The header of a new page is the only thing that is written before its blocks are linked. -/
theorem init_outside {bs bc ci next x : Nat} (hx : x < page ∨ page + heapPageHeaderSize ≤ x) :
    HeapPage.init page bs bc ci next mem x = mem x := by
  simp only [heapPageHeaderSize] at hx
  rw [init_eq, Mem.store64_of_disjoint _ _ (by omega), Mem.store64_of_disjoint _ _ (by omega),
    Mem.storeLE_of_disjoint _ (by omega), Mem.storeLE_of_disjoint _ (by omega), Mem.storeLE_of_disjoint _ (by omega),
    Mem.storeLE_of_disjoint _ (by omega), Mem.storeLE_of_disjoint _ (by omega), Mem.storeLE_of_disjoint _ (by omega),
    Mem.store64_of_disjoint _ _ (by omega)]

/-- The first `n` blocks of a page have been linked. -/
structure LinkedBlocks (page c n : Nat) (mem mem' : Mem) : Prop where
  list : Linked mem' 0 (HeapPage.freeList mem' page) ((List.range n).reverse.map (blockAddr page c))
  kept : ∀ x, x < page + 16 ∨ page + 24 ≤ x ∧ x < page + 48 ∨ page + pageSize ≤ x → mem' x = mem x

theorem linkedBlocks (hc : ClassOk c) (hend : page + pageSize ≤ 2 ^ 64) (hfree : HeapPage.freeList mem page = 0)
    (hn : n ≤ classBlocks c) : LinkedBlocks page c n mem
      ((List.range n).foldl (fun mem i => HeapPage.pushFree page (blockAddr page c i) mem) mem) := by
  induction n with
  | zero => exact ⟨hfree, fun _ _ => rfl⟩
  | succ n ih =>
    have ih := ih (by omega)
    rw [List.range_succ, List.foldl_append]
    generalize (List.range n).foldl (fun mem i => HeapPage.pushFree page (blockAddr page c i) mem) mem = mem' at ih ⊢
    show LinkedBlocks page c (n + 1) mem (HeapPage.pushFree page (blockAddr page c n) mem')
    have hge := blockAddr_ge page c n
    have hlt := hc.block_lt page (show n < classBlocks c by omega)
    have hsize := hc.size_ge
    have he : Edited page (blockAddr page c n) mem' _ := pushFree_edited mem'
    simp only [heapMinClass] at hsize
    refine ⟨?_, fun x hx => ?_⟩
    · have hnot : n ∉ (List.range n).reverse := by simp
      have hhead : HeapPage.freeList (HeapPage.pushFree page (blockAddr page c n) mem') page = blockAddr page c n := by
        rw [HeapPage.pushFree, freeList_setFreeList (by omega)]
      rw [List.range_succ, List.reverse_append, List.reverse_singleton, List.singleton_append, List.map_cons, hhead]
      refine Linked.cons_iff.mpr ⟨rfl, by omega, ?_⟩
      rw [Nat.add_zero, pushFree_link hge]
      exact he.linked hc hnot ih.list
    · rw [← ih.kept x hx, HeapPage.pushFree, HeapPage.setFreeList, Mem.storeLE_of_disjoint _ (by omega),
        Mem.storeLE_of_disjoint _ (by omega)]

theorem newPage_ok (hc : c < heapClassCount) {next : Nat} (hnext : next < 2 ^ 64) (hend : page + pageSize ≤ 2 ^ 64)
    (mem : Mem) : PageOk (newPage page c next mem) c page (List.range (classBlocks c)).reverse ∧
      HeapPage.next (newPage page c next mem) page = next ∧
      ∀ x, x < page ∨ page + pageSize ≤ x → newPage page c next mem x = mem x := by
  have hok := class_ok hc
  have hi := init_initialized page hc hnext mem
  have hl := linkedBlocks hok hend hi.freeList (le_refl _)
  change LinkedBlocks page c (classBlocks c) _ (newPage page c next mem) at hl
  have hload : ∀ n a, a + n ≤ page + 16 ∨ page + 24 ≤ a ∧ a + n ≤ page + 48 → (newPage page c next mem).loadLE n a =
      (HeapPage.init page (classSize c) (classBlocks c) c next mem).loadLE n a :=
    fun n a ha => Mem.loadLE_congr fun x h1 h2 => hl.kept x (by omega)
  refine ⟨⟨?_, ?_, ?_, ?_, ?_, hl.list, ?_, ?_, fun i hlt => ?_⟩, ?_, fun x hx => ?_⟩
  · rw [← hi.magic, HeapPage.magic, HeapPage.magic, Mem.load64, Mem.load64, hload 8 page (by omega)]
  · rw [← hi.blockSize]
    exact hload 2 _ (by omega)
  · rw [← hi.blockCount]
    exact hload 2 _ (by omega)
  · rw [List.length_reverse, List.length_range]
    conv_rhs => rw [← hi.freeCount]
    exact hload 2 _ (by omega)
  · conv_rhs => rw [← hi.classIndex]
    exact hload 2 _ (by omega)
  · exact List.nodup_reverse.mpr List.nodup_range
  · intro i hm
    exact List.mem_range.mp (List.mem_reverse.mp hm)
  · have hw := bitmap_word_lt hok hlt
    have hb := hi.bitmap i hlt
    have hmem : i ∈ (List.range (classBlocks c)).reverse := List.mem_reverse.mpr (List.mem_range.mpr hlt)
    rw [decide_eq_true hmem, Bool.not_true, ← hb, HeapPage.bitmapTest, HeapPage.bitmapTest, Bitmap.test, Bitmap.test,
      HeapPage.allocatedBitmap, HeapPage.allocatedBitmap, Mem.load64, Mem.load64, hload 8 _ (by omega)]
  · exact (hload 8 (page + 24) (by omega)).trans hi.next
  · rw [hl.kept x (by simp only [pageSize] at *; omega), init_outside (by
      simp only [heapPageHeaderSize, pageSize] at *
      omega)]

end QemuRtos
