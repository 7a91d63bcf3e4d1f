import QemuRtos.Memory.Vm

/-!
# User address ranges (`memory/user_space.c`)

User mappings live between the first page and 1 GiB, outside the two device windows. Every task
also maps the trampoline and its trap context at the top of the address space, without `U`.
-/

namespace QemuRtos

open Lib

def userSpaceBase : U64 := 0x1000
def userSpaceCodeBase : U64 := userSpaceBase
def userSpaceStackTop : U64 := 0x40000000
def userSpaceStackBase : U64 := userSpaceStackTop - 0x1000
def userSpaceTop : U64 := userSpaceStackTop - 1
def userSpaceSv39Maxva : U64 := 0x4000000000
def userTrampolineVa : U64 := userSpaceSv39Maxva - 0x1000
def userTrapContextVa : U64 := userTrampolineVa - 0x1000

def userSpaceClintBase : U64 := 0x02000000
def userSpaceClintEnd : U64 := 0x02010000
def userSpaceUart0Base : U64 := 0x10000000
def userSpaceUart0End : U64 := userSpaceUart0Base + 0x1000

def rangesOverlap (aStart aEnd bStart bEnd : U64) : Bool := aStart < bEnd && bStart < aEnd

def rangeOverlapsPlatformMmio (va endVa : U64) : Bool :=
  rangesOverlap va endVa userSpaceClintBase userSpaceClintEnd ||
    rangesOverlap va endVa userSpaceUart0Base userSpaceUart0End

def userPaRangeIsValid (pa size : U64) (m : Machine) : Bool :=
  let endPa := pa + size
  if size = 0 || endPa < pa then false
  else pageManagedStart m ≤ pa && endPa ≤ pageManagedEnd m

def userSpaceVaRangeIsValid (va size : U64) : Bool :=
  let endVa := va + size
  if size = 0 || endVa < va then false
  else if va < userSpaceBase || endVa - 1 > userSpaceTop then false
  else !rangeOverlapsPlatformMmio va endVa

def userSpaceMapPage (space : Option VmSpace) (va pa flags : U64) (m : Machine) :
    Except Panic (Int × Machine) :=
  if !userSpaceVaRangeIsValid va 0x1000 ∨ !userPaRangeIsValid pa 0x1000 m ∨
      flags &&& vmPteU = 0 ∨ flags &&& vmPteG ≠ 0 then
    .ok (vmErrInvalid, m)
  else vmMapPage space va pa flags m

def userSpaceMapCodePage (space : Option VmSpace) (pa : U64) : Machine → Except Panic (Int × Machine) :=
  userSpaceMapPage space userSpaceCodeBase pa (vmPteV ||| vmPteR ||| vmPteX ||| vmPteU ||| vmPteA)

def userSpaceMapStackPage (space : Option VmSpace) (pa : U64) : Machine → Except Panic (Int × Machine) :=
  userSpaceMapPage space userSpaceStackBase pa
    (vmPteV ||| vmPteR ||| vmPteW ||| vmPteU ||| vmPteA ||| vmPteD)

def userSpaceMapTrapSupport (space : Option VmSpace) (trapContextPa : U64) (m : Machine) :
    Except Panic (Int × Machine) :=
  let trampolineStart := m.image.trampolineStart
  let trampolineEnd := m.image.trampolineEnd
  if (space.all fun sp => sp.root = 0) ∨ trampolineStart = trampolineEnd ∨
      trampolineEnd - trampolineStart > 0x1000 ∨ trampolineStart &&& pageMask ≠ 0 ∨
      !userPaRangeIsValid trapContextPa 0x1000 m then
    .ok (vmErrInvalid, m)
  else do
    let trampolineFlags := vmPteV ||| vmPteR ||| vmPteX ||| vmPteA
    let contextFlags := vmPteV ||| vmPteR ||| vmPteW ||| vmPteA ||| vmPteD
    let (result, m) ← vmMapPage space userTrampolineVa trampolineStart trampolineFlags m
    if result ≠ vmOk then .ok (result, m)
    else do
      let (result, m) ← vmMapPage space userTrapContextVa trapContextPa contextFlags m
      if result ≠ vmOk then do
        let (_, m) ← vmUnmapPage space userTrampolineVa m
        .ok (result, m)
      else .ok (vmOk, m)

end QemuRtos
