import QemuRtos.Memory.UserSpace

/-!
# User tasks (`user/task.c`)

A task owns an address space and three pages: code, stack and trap context. `userTaskInit` builds
them and `userTaskDestroy` releases them after `userTaskMarkExited`. A null task pointer is `0`;
the trap frame at the start of a trap context is the frame at that address in the frame store.
-/

namespace QemuRtos

open Lib

def sstatusSie : U64 := 0x2
def sstatusSpie : U64 := 0x20
def sstatusSpp : U64 := 0x100
def satpModeSv39 : U64 := 8 <<< 60

def memoryCopy (dst : U64) (src : List Byte) (mem : Mem) : Mem := mem.writeBytes dst.toNat src

def userTaskReset (task : U64) (k : Kernel) : Kernel :=
  k.setTask task fun _ =>
    { state := .unused
      addressSpace := { root := 0 }
      userSatp := 0
      exitCode := 0
      codePage := 0
      stackPage := 0
      trapContext := 0 }

/-- `page_free` of a page pointer that may be null. -/
def pageFreeIfPresent (page : U64) (m : Machine) : Except Panic Machine :=
  if page ≠ 0 then pageFree page m else .ok m

/-- The first half of `user_task_release_resources`: unmap the four pages and destroy the space. -/
def userTaskReleaseSpace (sp : VmSpace) (m : Machine) : Except Panic Machine :=
  if sp.root ≠ 0 then do
    let (_, m) ← vmUnmapPage (some sp) userSpaceCodeBase m
    let (_, m) ← vmUnmapPage (some sp) userSpaceStackBase m
    let (_, m) ← vmUnmapPage (some sp) userTrampolineVa m
    let (_, m) ← vmUnmapPage (some sp) userTrapContextVa m
    let (_, _, m) ← vmSpaceDestroy (some sp) m
    .ok m
  else .ok m

def userTaskReleaseResources (task : U64) (k : Kernel) : Except Panic Kernel := do
  let t := k.tasks task
  let m ← userTaskReleaseSpace t.addressSpace k.machine
  let m ← pageFreeIfPresent t.codePage m
  let m ← pageFreeIfPresent t.stackPage m
  let m ← pageFreeIfPresent t.trapContext m
  let k := { k with machine := m }
  .ok (k.setTask task fun t =>
    { t with
      addressSpace := { root := 0 }
      userSatp := 0
      codePage := 0
      stackPage := 0
      trapContext := 0 })

def userTaskCleanupPartial (task : U64) (k : Kernel) : Except Panic Kernel := do
  let k ← userTaskReleaseResources task k
  .ok (userTaskReset task k)

def userTaskCanInit (task : U64) (k : Kernel) : Bool :=
  if task = 0 then false
  else
    let t := k.tasks task
    if t.state = .unused then true
    else t.state = .destroyed && t.addressSpace.root = 0 && t.userSatp = 0 && t.codePage = 0 &&
      t.stackPage = 0 && t.trapContext = 0

/-- The three page allocations of `user_task_init`, made before any of them is checked. -/
def userTaskAllocPages (task : U64) (k : Kernel) : Except Panic Kernel := do
  let (codePage, m) ← pageAlloc k.machine
  let (stackPage, m) ← pageAlloc m
  let (trapContext, m) ← pageAlloc m
  let k := { k with machine := m }
  .ok (k.setTask task fun t =>
    { t with codePage := codePage, stackPage := stackPage, trapContext := trapContext })

/-- The mappings of `user_task_init`, up to the first that fails. -/
def userTaskMapPages (t : UserTask) (m : Machine) : Except Panic (Bool × Machine) := do
  let (result, m) ← userSpaceMapCodePage (some t.addressSpace) t.codePage m
  if result ≠ vmOk then .ok (false, m)
  else do
    let (result, m) ← userSpaceMapStackPage (some t.addressSpace) t.stackPage m
    if result ≠ vmOk then .ok (false, m)
    else do
      let (result, m) ← userSpaceMapTrapSupport (some t.addressSpace) t.trapContext m
      .ok (result = vmOk, m)

/-- The last part of `user_task_init`: fill in the trap context and publish the task. -/
def userTaskPublish (task : U64) (k : Kernel) : Kernel :=
  let userSatp := satpModeSv39 ||| ((k.tasks task).addressSpace.root >>> 12)
  let context := (k.tasks task).trapContext
  let fields : UserTrapContext :=
    { kernelSatp := k.machine.kernelSatp
      userSatp := userSatp
      kernelTrapHandler := k.machine.image.trapHandleUser
      kernelTrapContext := context
      kernelStvec := k.machine.image.trapEntry
      kernelSp := 0 }
  let k := { k with contexts := Function.update k.contexts context fields }
  let k := k.setFrame context fun frame =>
    { frame with sp := userSpaceStackTop, mepc := userSpaceCodeBase, mstatus := sstatusSpie }
  k.setTask task fun t => { t with userSatp := userSatp, state := .ready }

/-- `user_task_init`; a null `program` is `none`. -/
def userTaskInit (task : U64) (program : Option (List Byte)) (k : Kernel) : Except Panic (Int × Kernel) :=
  match program with
  | none => .ok (-1, k)
  | some bytes =>
    if task = 0 ∨ bytes.length = 0 ∨ bytes.length > pageSize ∨ !userTaskCanInit task k then .ok (-1, k)
    else do
      let k := userTaskReset task k
      let (result, space, m) ← vmSpaceInit (some (k.tasks task).addressSpace) k.machine
      let k := { k with machine := m }
      if result ≠ vmOk then .ok (-1, userTaskReset task k)
      else do
        let k := k.setTask task fun t => { t with addressSpace := space.getD t.addressSpace }
        let k ← userTaskAllocPages task k
        let t := k.tasks task
        if t.codePage = 0 ∨ t.stackPage = 0 ∨ t.trapContext = 0 then do
          let k ← userTaskCleanupPartial task k
          .ok (-1, k)
        else do
          let mem := memoryZero t.codePage pageSize k.machine.mem
          let mem := memoryZero t.stackPage pageSize mem
          let mem := memoryZero t.trapContext pageSize mem
          let mem := memoryCopy t.codePage bytes mem
          let k := { k with machine := { k.machine with mem := mem } }
          let k := k.setFrame t.trapContext fun _ => {}
          let (mapped, m) ← userTaskMapPages t k.machine
          let k := { k with machine := m }
          if !mapped then do
            let k ← userTaskCleanupPartial task k
            .ok (-1, k)
          else .ok (0, userTaskPublish task k)

def userTaskIsReady (task : U64) (k : Kernel) : Bool :=
  let t := k.tasks task
  task ≠ 0 && t.state = .ready && t.addressSpace.root ≠ 0 && t.userSatp ≠ 0 && t.trapContext ≠ 0

def userTaskSetKernelSp (task kernelSp : U64) (k : Kernel) : Int × Kernel :=
  if !userTaskIsReady task k ∨ kernelSp = 0 then (-1, k)
  else
    let context := (k.tasks task).trapContext
    let fields := { k.contexts context with kernelSp := kernelSp }
    (0, { k with contexts := Function.update k.contexts context fields })

def userTaskMarkExited (task exitCode : U64) (k : Kernel) : Int × Kernel :=
  if !userTaskIsReady task k then (-1, k)
  else (0, k.setTask task fun t => { t with state := .exited, exitCode := exitCode })

def userTaskDestroy (task : U64) (k : Kernel) : Except Panic (Int × Kernel) :=
  if task = 0 ∨ (k.tasks task).state ≠ .exited then .ok (-1, k)
  else do
    let k ← userTaskReleaseResources task k
    .ok (0, k.setTask task fun t => { t with state := .destroyed })

/-- The address of the task's trap frame; null unless the task is ready. -/
def userTaskTrapFrame (task : U64) (k : Kernel) : U64 :=
  if userTaskIsReady task k then (k.tasks task).trapContext else 0

def userTaskSatp (task : U64) (k : Kernel) : U64 :=
  if userTaskIsReady task k then (k.tasks task).userSatp else 0

end QemuRtos
