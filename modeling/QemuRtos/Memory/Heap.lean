import QemuRtos.Lib.Bitmap
import QemuRtos.Lib.ByteMem
import QemuRtos.Memory.PageAlloc

/-!
# The kernel heap (`memory/heap.c`)

Seven pools of blocks of fixed sizes. A pool is a linked list of pages from the page allocator; a page starts with
a header, and its free blocks form a linked list through their first words. Addresses are natural numbers, since
no managed page ends above the address space.
-/

namespace QemuRtos

open Lib

def heapAlignment : Nat := 16
def heapMinClass : Nat := 32
def heapMaxClass : Nat := 2048
def heapClassCount : Nat := 7
def heapPageMagic : U64 := 0x5148525448454150

/-- `HEAP_BITMAP_WORDS`. -/
def heapBitmapWords : Nat := (pageSize / heapMinClass + 63) / 64

/-- `sizeof(heap_page_t)`. -/
def heapPageHeaderSize : Nat := 48

def heapClassSizes : List Nat := [32, 64, 128, 256, 512, 1024, 2048]

structure HeapPool where
  blockSize : Nat
  pages : Nat

/-- The static variables of `heap.c`. -/
structure Heap where
  heapPools : Nat → HeapPool
  heapPages : Nat
  heapFreeBlocksBytes : Nat
  heapAllocatedBlocksBytes : Nat
  heapInitialized : Bool

/-- The machine with the heap's variables. -/
structure HeapState where
  machine : Machine
  heap : Heap

namespace HeapState

def irqSave (σ : HeapState) : Bool × HeapState :=
  (σ.machine.sie, { σ with machine := { σ.machine with sie := false } })

def irqRestore (irqState : Bool) (σ : HeapState) : HeapState :=
  { σ with machine := { σ.machine with sie := irqState } }

def setMem (σ : HeapState) (mem : Mem) : HeapState := { σ with machine := { σ.machine with mem := mem } }

end HeapState

/-! The fields of a `heap_page_t` in memory. -/

namespace HeapPage

def magic (mem : Mem) (page : Nat) : U64 := mem.load64 page
def blockSize (mem : Mem) (page : Nat) : Nat := mem.loadLE 2 (page + 8)
def blockCount (mem : Mem) (page : Nat) : Nat := mem.loadLE 2 (page + 10)
def freeCount (mem : Mem) (page : Nat) : Nat := mem.loadLE 2 (page + 12)
def classIndex (mem : Mem) (page : Nat) : Nat := mem.loadLE 2 (page + 14)
def freeList (mem : Mem) (page : Nat) : Nat := mem.loadLE 8 (page + 16)
def next (mem : Mem) (page : Nat) : Nat := mem.loadLE 8 (page + 24)
def allocatedBitmap (mem : Mem) (page : Nat) : Bitmap := fun word => mem.load64 (page + 32 + 8 * word)

def setFreeCount (page count : Nat) (mem : Mem) : Mem := mem.storeLE 2 (page + 12) count
def setFreeList (page block : Nat) (mem : Mem) : Mem := mem.storeLE 8 (page + 16) block

def bitmapTest (mem : Mem) (page index : Nat) : Bool := (allocatedBitmap mem page).test index

def bitmapSet (page index : Nat) (mem : Mem) : Mem :=
  mem.store64 (page + 32 + 8 * (index / 64))
    (allocatedBitmap mem page (index / 64) ||| ((1 : U64) <<< (index % 64)))

def bitmapClear (page index : Nat) (mem : Mem) : Mem :=
  mem.store64 (page + 32 + 8 * (index / 64))
    (allocatedBitmap mem page (index / 64) &&& ~~~((1 : U64) <<< (index % 64)))

/-- The fields of a new page, without its free list. -/
def init (page blockSize blockCount classIndex next : Nat) (mem : Mem) : Mem :=
  let mem := mem.store64 page heapPageMagic
  let mem := mem.storeLE 2 (page + 8) blockSize
  let mem := mem.storeLE 2 (page + 10) blockCount
  let mem := mem.storeLE 2 (page + 12) blockCount
  let mem := mem.storeLE 2 (page + 14) classIndex
  let mem := setFreeList page 0 mem
  let mem := mem.storeLE 8 (page + 24) next
  (List.range heapBitmapWords).foldl (fun mem i => mem.store64 (page + 32 + 8 * i) 0) mem

/-- `block->next = page->free_list; page->free_list = block`. -/
def pushFree (page block : Nat) (mem : Mem) : Mem :=
  setFreeList page block (mem.storeLE 8 block (freeList mem page))

end HeapPage

def heapAlignUp (value alignment : Nat) : Nat := (value + alignment - 1) / alignment * alignment

def heapAlignDown (value alignment : Nat) : Nat := value / alignment * alignment

def blockAreaStart (page : Nat) : Nat := heapAlignUp (page + heapPageHeaderSize) heapAlignment

def classIndexForSize (size : U64) : Option Nat :=
  if size = 0 ∨ size.toNat > heapMaxClass then none
  else heapClassSizes.findIdx? fun classSize => size.toNat ≤ classSize

def heapGrowPool (classIndex : Nat) (σ : HeapState) : Except Panic (Nat × HeapState) := do
  let (rawPage, machine) ← pageAlloc σ.machine
  if rawPage = 0 then .ok (0, { σ with machine := machine })
  else
    let page := rawPage.toNat
    let pool := σ.heap.heapPools classIndex
    let blockStart := blockAreaStart page
    let blockCount := (page + pageSize - blockStart) / pool.blockSize
    if blockCount = 0 ∨ blockCount > pageSize / heapMinClass then .error "invalid heap block count"
    else
      let mem := HeapPage.init page pool.blockSize blockCount classIndex pool.pages machine.mem
      let mem := (List.range blockCount).foldl
        (fun mem i => HeapPage.pushFree page (blockStart + i * pool.blockSize) mem) mem
      .ok (page,
        { machine := { machine with mem := mem }
          heap := { σ.heap with
            heapPools := Function.update σ.heap.heapPools classIndex { pool with pages := page }
            heapPages := σ.heap.heapPages + 1
            heapFreeBlocksBytes := σ.heap.heapFreeBlocksBytes + blockCount * pool.blockSize } })

def heapAllocBlock (page : Nat) (σ : HeapState) : Except Panic (Nat × HeapState) :=
  let mem := σ.machine.mem
  if HeapPage.freeList mem page = 0 ∨ HeapPage.freeCount mem page = 0 then .error "heap page has no free blocks"
  else
    let block := HeapPage.freeList mem page
    let mem := HeapPage.setFreeList page (mem.loadLE 8 block) mem
    let blockIndex := (block - blockAreaStart page) / HeapPage.blockSize mem page
    if blockIndex ≥ HeapPage.blockCount mem page ∨ HeapPage.bitmapTest mem page blockIndex then
      .error "heap free list corruption"
    else
      let mem := HeapPage.bitmapSet page blockIndex mem
      let mem := HeapPage.setFreeCount page (HeapPage.freeCount mem page - 1) mem
      .ok (block,
        { machine := { σ.machine with mem := mem }
          heap := { σ.heap with
            heapFreeBlocksBytes := σ.heap.heapFreeBlocksBytes - HeapPage.blockSize mem page
            heapAllocatedBlocksBytes := σ.heap.heapAllocatedBlocksBytes + HeapPage.blockSize mem page } })

def heapInit (σ : HeapState) : HeapState :=
  let (irqState, σ) := σ.irqSave
  HeapState.irqRestore irqState
    { σ with
      heap :=
        { heapPools := fun i => { blockSize := heapClassSizes.getD i 0, pages := 0 }
          heapPages := 0
          heapFreeBlocksBytes := 0
          heapAllocatedBlocksBytes := 0
          heapInitialized := true } }

/-- The loop of `kmalloc` that looks for a page with a free block. The fuel is more than the number of heap pages. -/
def heapFindPage (mem : Mem) : Nat → Nat → Except Panic Nat
  | 0, _ => .error "heap page list does not end"
  | fuel + 1, page =>
    if page = 0 then .ok 0
    else if HeapPage.freeCount mem page ≠ 0 then .ok page
    else heapFindPage mem fuel (HeapPage.next mem page)

def kmalloc (size : U64) (σ : HeapState) : Except Panic (Nat × HeapState) :=
  let (irqState, σ) := σ.irqSave
  if !σ.heap.heapInitialized then .error "kmalloc before heap_init"
  else match classIndexForSize size with
    | none => .ok (0, σ.irqRestore irqState)
    | some classIndex => do
      let found ← heapFindPage σ.machine.mem (σ.heap.heapPages + 1) (σ.heap.heapPools classIndex).pages
      let (page, σ) ← if found = 0 then heapGrowPool classIndex σ else .ok (found, σ)
      if page = 0 then .ok (0, σ.irqRestore irqState)
      else
        let (block, σ) ← heapAllocBlock page σ
        .ok (block, σ.irqRestore irqState)

def kzalloc (size : U64) (σ : HeapState) : Except Panic (Nat × HeapState) := do
  let (block, σ) ← kmalloc size σ
  if block = 0 then .ok (0, σ)
  else
    let page := heapAlignDown block pageSize
    if HeapPage.magic σ.machine.mem page ≠ heapPageMagic then .error "kzalloc invalid heap page"
    else .ok (block, σ.setMem (σ.machine.mem.fill block (HeapPage.blockSize σ.machine.mem page) 0))

def kfree (ptr : Nat) (σ : HeapState) : Except Panic HeapState :=
  if ptr = 0 then .ok σ
  else
    let (irqState, σ) := σ.irqSave
    let mem := σ.machine.mem
    let page := heapAlignDown ptr pageSize
    let blockStart := blockAreaStart page
    let offset := ptr - blockStart
    let blockIndex := offset / HeapPage.blockSize mem page
    if !σ.heap.heapInitialized then .error "kfree before heap_init"
    else if page < (pageManagedStart σ.machine).toNat ∨ page ≥ (pageManagedEnd σ.machine).toNat then
      .error "kfree invalid heap address"
    else if HeapPage.magic mem page ≠ heapPageMagic then .error "kfree invalid heap page"
    else if ptr < blockStart ∨ ptr ≥ page + pageSize then .error "kfree pointer outside heap blocks"
    else if offset % HeapPage.blockSize mem page ≠ 0 then .error "kfree interior pointer"
    else if blockIndex ≥ HeapPage.blockCount mem page then .error "kfree block index out of range"
    else if !HeapPage.bitmapTest mem page blockIndex then .error "double kfree"
    else
      let mem := HeapPage.bitmapClear page blockIndex mem
      let mem := HeapPage.pushFree page ptr mem
      let mem := HeapPage.setFreeCount page (HeapPage.freeCount mem page + 1) mem
      .ok (HeapState.irqRestore irqState
        { machine := { σ.machine with mem := mem }
          heap := { σ.heap with
            heapFreeBlocksBytes := σ.heap.heapFreeBlocksBytes + HeapPage.blockSize mem page
            heapAllocatedBlocksBytes := σ.heap.heapAllocatedBlocksBytes - HeapPage.blockSize mem page } })

/-- The three queries, which differ in what they return and in their panic. -/
def heapQuery (panic : Panic) (value : Heap → Nat) (σ : HeapState) : Except Panic (Nat × HeapState) :=
  let (irqState, σ) := σ.irqSave
  if !σ.heap.heapInitialized then .error panic
  else .ok (value σ.heap, σ.irqRestore irqState)

def heapPageCount : HeapState → Except Panic (Nat × HeapState) :=
  heapQuery "heap_page_count before heap_init" Heap.heapPages

def heapFreeBytes : HeapState → Except Panic (Nat × HeapState) :=
  heapQuery "heap_free_bytes before heap_init" Heap.heapFreeBlocksBytes

def heapAllocatedBytes : HeapState → Except Panic (Nat × HeapState) :=
  heapQuery "heap_allocated_bytes before heap_init" Heap.heapAllocatedBlocksBytes

end QemuRtos
