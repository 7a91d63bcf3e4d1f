import QemuRtos.State

/-!
# The bitmap page allocator (`memory/page_alloc.c`)

One bit for each managed page, set while the page is allocated. `pageAlloc` scans from
`nextFreeHint` and wraps around; `pageFree` clears the bit of a page it has checked. Both mask
interrupts while they run.
-/

namespace QemuRtos

open Lib

def pageSize : Nat := 4096
def pageMask : U64 := 4095

def irqSave (m : Machine) : Bool × Machine := (m.sie, { m with sie := false })

def irqRestore (state : Bool) (m : Machine) : Machine := { m with sie := state }

def alignUp (value alignment : U64) : U64 := (value + alignment - 1) &&& ~~~(alignment - 1)

def alignDown (value alignment : U64) : U64 := value &&& ~~~(alignment - 1)

namespace PageAllocator

def bitmapCapacityPages (p : PageAllocator) : Nat := p.pageBitmapWords * 64

def bitmapTest (p : PageAllocator) (index : Nat) : Bool :=
  p.pageBitmap (index / 64) &&& ((1 : U64) <<< (index % 64)) != 0

def bitmapSet (p : PageAllocator) (index : Nat) : PageAllocator :=
  let word := p.pageBitmap (index / 64) ||| ((1 : U64) <<< (index % 64))
  { p with pageBitmap := Function.update p.pageBitmap (index / 64) word }

def bitmapClear (p : PageAllocator) (index : Nat) : PageAllocator :=
  let word := p.pageBitmap (index / 64) &&& ~~~((1 : U64) <<< (index % 64))
  { p with pageBitmap := Function.update p.pageBitmap (index / 64) word }

def pageAddrFromIndex (p : PageAllocator) (index : Nat) : U64 :=
  p.managedStart + BitVec.ofNat 64 (index * pageSize)

def pageIndexFromAddr (p : PageAllocator) (addr : U64) : Nat :=
  (addr - p.managedStart).toNat / pageSize

end PageAllocator

def pageInit (memStart memEnd : U64) (m : Machine) : Except Panic Machine :=
  let (irqState, m) := irqSave m
  if m.image.pageBitmapBytes % 8 ≠ 0 then .error "page bitmap is not word aligned"
  else
    let managedStart := alignUp memStart (BitVec.ofNat 64 pageSize)
    let managedEnd := alignDown memEnd (BitVec.ofNat 64 pageSize)
    if managedEnd < managedStart then .error "invalid physical memory range"
    else
      let totalPages := (managedEnd - managedStart).toNat / pageSize
      let p : PageAllocator :=
        { pageBitmap := fun _ => 0
          pageBitmapWords := m.image.pageBitmapBytes / 8
          managedStart := managedStart
          managedEnd := managedEnd
          totalPages := totalPages
          freePages := totalPages
          nextFreeHint := 0
          initialized := true }
      if totalPages > p.bitmapCapacityPages then .error "page bitmap too small"
      else .ok (irqRestore irqState { m with pages := p })

/-- The distance from the hint of the first free page of the scan. -/
def PageAllocator.scan (p : PageAllocator) : Option Nat :=
  (List.range p.totalPages).find? fun offset => !p.bitmapTest ((p.nextFreeHint + offset) % p.totalPages)

def pageAlloc (m : Machine) : Except Panic (U64 × Machine) :=
  let (irqState, m) := irqSave m
  if !m.pages.initialized then .error "page_alloc before page_init"
  else match m.pages.scan with
    | some offset =>
      let i := (m.pages.nextFreeHint + offset) % m.pages.totalPages
      let p := m.pages.bitmapSet i
      let p := { p with
        freePages := p.freePages - 1
        nextFreeHint := if p.totalPages = 0 then 0 else (i + 1) % p.totalPages }
      .ok (p.pageAddrFromIndex i, irqRestore irqState { m with pages := p })
    | none => .ok (0, irqRestore irqState m)

def pageFree (page : U64) (m : Machine) : Except Panic Machine :=
  let (irqState, m) := irqSave m
  if !m.pages.initialized then .error "page_free before page_init"
  else if page &&& pageMask ≠ 0 ∨ page < m.pages.managedStart ∨ page ≥ m.pages.managedEnd then
    .error "invalid page_free address"
  else
    let index := m.pages.pageIndexFromAddr page
    if !m.pages.bitmapTest index then .error "double page_free"
    else
      let p := m.pages.bitmapClear index
      let p := { p with
        freePages := p.freePages + 1
        nextFreeHint := if index < p.nextFreeHint then index else p.nextFreeHint }
      .ok (irqRestore irqState { m with pages := p })

def pageManagedStart (m : Machine) : U64 := m.pages.managedStart

def pageManagedEnd (m : Machine) : U64 := m.pages.managedEnd

def pageRangeIsManagedPageContained (p : PageAllocator) (addr len : U64) : Bool :=
  if !p.initialized || len = 0 then false
  else
    let last := addr + len - 1
    if last < addr then false
    else if addr < p.managedStart || last ≥ p.managedEnd then false
    else addr &&& ~~~pageMask = last &&& ~~~pageMask

end QemuRtos
