import QemuRtos.Memory.PageAlloc

/-!
# Sv39 page tables (`memory/vm.c`)

Page tables are frames of 512 eight-byte entries in physical memory. A space is the address of its
root table; a null `vm_space_t *` is `none`. `vmWalk` descends from the root, building missing
tables on request and rolling them back when memory runs out. The TLB is not part of the state, so
`flush_active_address_space` has no counterpart.
-/

namespace QemuRtos

open Lib

def vmOk : Int := 0
def vmErrInvalid : Int := -1
def vmErrNoMemory : Int := -2
def vmErrExists : Int := -3
def vmErrNotMapped : Int := -4
def vmErrBusy : Int := -5

def vmPteV : U64 := 1
def vmPteR : U64 := 2
def vmPteW : U64 := 4
def vmPteX : U64 := 8
def vmPteU : U64 := 16
def vmPteG : U64 := 32
def vmPteA : U64 := 64
def vmPteD : U64 := 128

def vmPageOffsetMask : U64 := 0xfff
def vmTranslateInvalid : U64 := 0xffffffffffffffff

def sv39Levels : Nat := 3
def sv39EntriesPerTable : Nat := 512
def sv39PteFlagMask : U64 := 0x3ff

def memoryZero (ptr : U64) (size : Nat) (mem : Mem) : Mem := mem.fill ptr.toNat size 0

def pageAligned (addr : U64) : Bool := addr &&& pageMask = 0

def vaIsCanonical (va : U64) : Bool :=
  let sign : U64 := 1 <<< 38
  let highMask : U64 := ~~~((sign <<< 1) - 1)
  if va &&& sign = 0 then va &&& highMask = 0 else va &&& highMask = highMask

def pteIsValid (pte : U64) : Bool := pte &&& vmPteV ≠ 0

def pteIsLeaf (pte : U64) : Bool := pte &&& (vmPteR ||| vmPteW ||| vmPteX) ≠ 0

def pteToPa (pte : U64) : U64 := (pte >>> 10) <<< 12

def paToPte (pa flags : U64) : U64 := ((pa >>> 12) <<< 10) ||| flags

def vpnIndex (va : U64) (level : Nat) : Nat := ((va >>> (12 + level * 9)) &&& 511).toNat

def flagsAreValid (flags : U64) : Bool :=
  let knownFlags := vmPteV ||| vmPteR ||| vmPteW ||| vmPteX ||| vmPteU ||| vmPteG ||| vmPteA ||| vmPteD
  if flags &&& ~~~knownFlags ≠ 0 then false
  else if flags &&& vmPteV = 0 then false
  else if flags &&& (vmPteR ||| vmPteX) = 0 then false
  else if flags &&& vmPteW ≠ 0 ∧ flags &&& vmPteR = 0 then false
  else true

/-- The address of entry `i` of a table. -/
def pteAddr (table : U64) (i : Nat) : U64 := table + BitVec.ofNat 64 (8 * i)

/-- Entry `i` of a table. -/
def tableEntry (mem : Mem) (table : U64) (i : Nat) : U64 := mem.load64 (pteAddr table i).toNat

/-- Undo the tables a walk installed, the last one first: each is the address of the entry that
points to it and its own address. -/
def rollbackAllocatedTables : List (U64 × U64) → Machine → Except Panic Machine
  | [], m => .ok m
  | (pte, table) :: rest, m => do
    let m ← pageFree table { m with mem := m.mem.store64 pte.toNat 0 }
    rollbackAllocatedTables rest m

def tableContainsLeaf (mem : Mem) : Nat → U64 → Bool
  | 0, table => (List.range sv39EntriesPerTable).any fun i => pteIsValid (tableEntry mem table i)
  | level + 1, table => (List.range sv39EntriesPerTable).any fun i =>
      let pte := tableEntry mem table i
      pteIsValid pte && (pteIsLeaf pte || tableContainsLeaf mem level (pteToPa pte))

def freeEmptyTableChildren : Nat → U64 → Machine → Except Panic Machine
  | 0, _, m => .ok m
  | level + 1, table, m => (List.range sv39EntriesPerTable).foldlM (fun m i =>
      let pte := tableEntry m.mem table i
      if !pteIsValid pte then .ok m
      else do
        let child := pteToPa pte
        let m ← freeEmptyTableChildren level child m
        let m ← pageFree child m
        .ok { m with mem := m.mem.store64 (pteAddr table i).toNat 0 }) m

def vmSpaceInit (space : Option VmSpace) (m : Machine) :
    Except Panic (Int × Option VmSpace × Machine) :=
  match space with
  | none => .ok (vmErrInvalid, space, m)
  | some _ => do
    let (irqState, m) := irqSave m
    let (root, m) ← pageAlloc m
    if root = 0 then .ok (vmErrNoMemory, space, irqRestore irqState m)
    else
      let m := { m with mem := memoryZero root pageSize m.mem }
      .ok (vmOk, some { root := root }, irqRestore irqState m)

def vmSpaceDestroy (space : Option VmSpace) (m : Machine) :
    Except Panic (Int × Option VmSpace × Machine) :=
  match space with
  | none => .ok (vmErrInvalid, space, m)
  | some sp =>
    if sp.root = 0 then .ok (vmErrInvalid, space, m)
    else
      let (irqState, m) := irqSave m
      if tableContainsLeaf m.mem (sv39Levels - 1) sp.root then
        .ok (vmErrBusy, space, irqRestore irqState m)
      else do
        let m ← freeEmptyTableChildren (sv39Levels - 1) sp.root m
        let m ← pageFree sp.root m
        .ok (vmOk, some { root := 0 }, irqRestore irqState m)

/-- The loop of `vm_walk` from a table at `level`; `allocated` lists what it installed so far, the
last first. -/
def vmWalkFrom (va : U64) (alloc : Bool) :
    Nat → U64 → List (U64 × U64) → Machine → Except Panic (U64 × Machine)
  | 0, table, _, m => .ok (pteAddr table (vpnIndex va 0), m)
  | level + 1, table, allocated, m =>
    let pte := pteAddr table (vpnIndex va (level + 1))
    let entry := m.mem.load64 pte.toNat
    if pteIsValid entry then
      if pteIsLeaf entry then .ok (0, m)
      else vmWalkFrom va alloc level (pteToPa entry) allocated m
    else if !alloc then .ok (0, m)
    else do
      let (nextTable, m) ← pageAlloc m
      if nextTable = 0 then do
        let m ← rollbackAllocatedTables allocated m
        .ok (0, m)
      else
        let mem := memoryZero nextTable pageSize m.mem
        let mem := mem.store64 pte.toNat (paToPte nextTable vmPteV)
        vmWalkFrom va alloc level nextTable ((pte, nextTable) :: allocated) { m with mem := mem }

def vmWalk (space : Option VmSpace) (va : U64) (alloc : Bool) (m : Machine) :
    Except Panic (U64 × Machine) :=
  match space with
  | none => .ok (0, m)
  | some sp =>
    if sp.root = 0 ∨ !vaIsCanonical va then .ok (0, m)
    else vmWalkFrom va alloc (sv39Levels - 1) sp.root [] m

def vmMapPage (space : Option VmSpace) (va pa flags : U64) (m : Machine) :
    Except Panic (Int × Machine) :=
  match space with
  | none => .ok (vmErrInvalid, m)
  | some sp =>
    if sp.root = 0 ∨ !vaIsCanonical va ∨ !pageAligned va ∨ !pageAligned pa ∨ !flagsAreValid flags then
      .ok (vmErrInvalid, m)
    else do
      let (irqState, m) := irqSave m
      let (pte, m) ← vmWalk space va true m
      if pte = 0 then .ok (vmErrNoMemory, irqRestore irqState m)
      else if pteIsValid (m.mem.load64 pte.toNat) then .ok (vmErrExists, irqRestore irqState m)
      else
        let m := { m with mem := m.mem.store64 pte.toNat (paToPte pa flags) }
        .ok (vmOk, irqRestore irqState m)

def vmUnmapPage (space : Option VmSpace) (va : U64) (m : Machine) : Except Panic (Int × Machine) :=
  match space with
  | none => .ok (vmErrInvalid, m)
  | some sp =>
    if sp.root = 0 ∨ !vaIsCanonical va ∨ !pageAligned va then .ok (vmErrInvalid, m)
    else do
      let (irqState, m) := irqSave m
      let (pte, m) ← vmWalk space va false m
      if pte = 0 ∨ !pteIsValid (m.mem.load64 pte.toNat) ∨ !pteIsLeaf (m.mem.load64 pte.toNat) then
        .ok (vmErrNotMapped, irqRestore irqState m)
      else
        let m := { m with mem := m.mem.store64 pte.toNat 0 }
        .ok (vmOk, irqRestore irqState m)

def vmTranslate (space : Option VmSpace) (va : U64) (m : Machine) : Except Panic (U64 × Machine) := do
  let (irqState, m) := irqSave m
  let (pte, m) ← vmWalk space va false m
  if pte = 0 ∨ !pteIsValid (m.mem.load64 pte.toNat) ∨ !pteIsLeaf (m.mem.load64 pte.toNat) then
    .ok (vmTranslateInvalid, irqRestore irqState m)
  else
    .ok (pteToPa (m.mem.load64 pte.toNat) ||| (va &&& vmPageOffsetMask), irqRestore irqState m)

/-- `vm_get_mapping` with non-null result pointers: the status, and `*pa` and `*flags` when it
writes them. -/
def vmGetMapping (space : Option VmSpace) (va : U64) (m : Machine) :
    Except Panic (Int × Option (U64 × U64) × Machine) := do
  let (irqState, m) := irqSave m
  let (pte, m) ← vmWalk space va false m
  let entry := m.mem.load64 pte.toNat
  if pte = 0 ∨ !pteIsValid entry ∨ !pteIsLeaf entry then
    .ok (vmErrNotMapped, none, irqRestore irqState m)
  else
    .ok (vmOk, some (pteToPa entry ||| (va &&& vmPageOffsetMask), entry &&& sv39PteFlagMask),
      irqRestore irqState m)

end QemuRtos
