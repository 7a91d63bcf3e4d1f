import QemuRtos.User.Task

/-!
# The kernel page table (`memory/paging.c`)

`pagingInitKernel` builds the kernel space: an identity map of the kernel image, of the managed pages and of the two
device windows, and the trampoline page at its user address. The bounds of the image are the linker's symbols.
-/

namespace QemuRtos

open Lib

def uart0Base : U64 := 0x10000000
def clintMmioBase : U64 := 0x02000000
def clintMmioSize : U64 := 0x00010000

def textFlags : U64 := vmPteV ||| vmPteR ||| vmPteX ||| vmPteA
def roFlags : U64 := vmPteV ||| vmPteR ||| vmPteA
def rwFlags : U64 := vmPteV ||| vmPteR ||| vmPteW ||| vmPteA ||| vmPteD

/-- The symbols `paging.c` takes from the linker script, with what the script says of their order and alignment. -/
structure LinkerSymbols where
  textStart : U64
  trampolineStart : U64
  trampolineEnd : U64
  textEnd : U64
  rodataStart : U64
  rodataEnd : U64
  dataStart : U64
  kernelEnd : U64
  ramEnd : U64
  text_align : textStart.toNat % pageSize = 0
  trampoline_align : trampolineStart.toNat % pageSize = 0
  rodata_align : rodataStart.toNat % pageSize = 0
  data_align : dataStart.toNat % pageSize = 0
  ram_align : ramEnd.toNat % pageSize = 0
  text_le_trampoline : textStart.toNat ≤ trampolineStart.toNat
  /-- `.text.trampoline` is not empty and fits a page. -/
  trampoline_page : trampolineStart.toNat < trampolineEnd.toNat ∧
    trampolineEnd.toNat ≤ trampolineStart.toNat + pageSize
  trampoline_le_text : trampolineEnd.toNat ≤ textEnd.toNat
  text_le_rodata : textEnd.toNat ≤ rodataStart.toNat
  rodata_le_end : rodataStart.toNat ≤ rodataEnd.toNat
  rodata_le_data : rodataEnd.toNat ≤ dataStart.toNat
  data_le_end : dataStart.toNat ≤ kernelEnd.toNat
  /-- The assertion that ends the script. -/
  kernel_le_ram : kernelEnd.toNat ≤ ramEnd.toNat
  /-- RAM lies below the pages that every user space reserves. -/
  ram_below : ramEnd.toNat ≤ userTrampolineVa.toNat
  uart_apart : uart0Base.toNat + pageSize ≤ textStart.toNat ∨ ramEnd.toNat ≤ uart0Base.toNat
  clint_apart : (clintMmioBase + clintMmioSize).toNat ≤ textStart.toNat ∨ ramEnd.toNat ≤ clintMmioBase.toNat

/-- A page that `vm_map_page` is asked to map. -/
structure PageMapping where
  va : U64
  pa : U64
  flags : U64

def mapPage (space : VmSpace) (panic : Panic) (x : PageMapping) (m : Machine) : Except Panic Machine := do
  let (result, m) ← vmMapPage (some space) x.va x.pa x.flags m
  if result ≠ vmOk then .error panic else .ok m

/-- The pages of a range, each mapped to itself. The bounds are aligned outwards, so the loop of `map_range` makes a
whole number of steps and does not wrap. -/
def rangePages (start stop flags : U64) : List PageMapping :=
  let alignedStart := alignDown start (BitVec.ofNat 64 pageSize)
  let alignedEnd := alignUp stop (BitVec.ofNat 64 pageSize)
  (List.range ((alignedEnd.toNat - alignedStart.toNat) / pageSize)).map fun i =>
    let addr := alignedStart + BitVec.ofNat 64 (i * pageSize)
    ⟨addr, addr, flags⟩

def mapRange (space : VmSpace) (start stop flags : U64) (m : Machine) : Except Panic Machine :=
  (rangePages start stop flags).foldlM (fun m x => mapPage space "kernel identity map failed" x m) m

/-- `paging_init_kernel`, with the value for `satp`. The static `kernel_space` and `kernel_satp` are written at the end:
no call in between reads them. -/
def pagingInitKernel (sym : LinkerSymbols) (m : Machine) : Except Panic (U64 × Machine) := do
  let (result, space, m) ← vmSpaceInit (some m.kernelSpace) m
  let kernelSpace := space.getD m.kernelSpace
  if result ≠ vmOk then .error "kernel page table init failed"
  else do
    let m ← mapRange kernelSpace sym.textStart sym.textEnd textFlags m
    let m ← mapRange kernelSpace sym.rodataStart sym.rodataEnd roFlags m
    let m ← mapRange kernelSpace sym.dataStart sym.kernelEnd rwFlags m
    let m ← mapRange kernelSpace (pageManagedStart m) sym.ramEnd rwFlags m
    let m ← mapRange kernelSpace uart0Base (uart0Base + BitVec.ofNat 64 pageSize) rwFlags m
    let m ← mapRange kernelSpace clintMmioBase (clintMmioBase + clintMmioSize) rwFlags m
    if sym.trampolineStart = sym.trampolineEnd ∨
        sym.trampolineEnd - sym.trampolineStart > BitVec.ofNat 64 pageSize ∨ sym.trampolineStart &&& pageMask ≠ 0 then
      .error "kernel trampoline map failed"
    else do
      let m ← mapPage kernelSpace "kernel trampoline map failed" ⟨userTrampolineVa, sym.trampolineStart, textFlags⟩ m
      let satp := satpModeSv39 ||| (kernelSpace.root >>> 12)
      .ok (satp, { m with kernelSpace := kernelSpace, kernelSatp := satp })

end QemuRtos
