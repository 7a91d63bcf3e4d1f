import QemuRtos.Lib.RingBuffer
import QemuRtos.Lib.ByteMem

/-!
# The kernel state

The data types of the kernel under the names of its headers, and `Kernel`, the record of all its
static variables. Pointers, registers and tick counts are 64-bit words (`U64`, null is `0`); thread
identifiers, array indices and counters are natural numbers.

Objects that the kernel reaches through typed pointers (trap frames, wait queues, mutexes, user
tasks) live in stores indexed by their address. Physical memory, where page tables, user pages,
descriptors and buffers live, is byte-addressed (`Machine.mem`).
-/

namespace QemuRtos

open Lib

abbrev U32 := BitVec 32
abbrev U64 := BitVec 64

/-- The message of a `PANIC`. A function that panics returns it as its error. -/
abbrev Panic := String

/-! ## Physical memory and the page allocator (`memory/page_alloc.c`, `memory/vm.h`) -/

/-- Addresses fixed by the linker script: kernel symbols below `__kernel_end`, RAM above. -/
structure Image where
  kernelEnd : U64
  ramEnd : U64
  pageBitmapBytes : Nat
  threadStacks : U64
  trampolineStart : U64
  trampolineEnd : U64
  threadTrampoline : U64
  nullTask : U64
  trapEntry : U64
  trapHandleUser : U64
  firstUserExitReturn : U64
  accelRequest : U64
  /-- `KERNEL_BASE` is below every kernel object. -/
  base_le_stacks : 0x80000000 ≤ threadStacks.toNat
  stacks_align : threadStacks.toNat % 16 = 0
  /-- The thread stacks are part of `.bss`. -/
  stacks_le_end : threadStacks.toNat + 8 * 4096 ≤ kernelEnd.toNat
  /-- The assertion that ends the linker script. -/
  end_le_ram : kernelEnd.toNat ≤ ramEnd.toNat
  /-- `RAM_END`, 128 MiB above `KERNEL_BASE`. -/
  ram_end : ramEnd = 0x88000000
  /-- The page bitmap reserves one bit for each page of RAM. -/
  bitmap_bytes : pageBitmapBytes = 4096

/-- The static variables of `page_alloc.c`. -/
structure PageAllocator where
  pageBitmap : Nat → U64
  pageBitmapWords : Nat
  managedStart : U64
  managedEnd : U64
  totalPages : Nat
  freePages : Nat
  nextFreeHint : Nat
  initialized : Bool

structure VmSpace where
  root : U64
deriving DecidableEq

/-- The hart's interrupt-enable bit (`sstatus.SIE`), physical memory with its allocator, and the
kernel's own address space. -/
structure Machine where
  image : Image
  sie : Bool
  mem : Mem
  pages : PageAllocator
  kernelSpace : VmSpace
  kernelSatp : U64

/-! ## Threads (`core/thread.h`, `core/trap.h`) -/

def threadNullTid : Nat := 0
def threadInvalidTid : Nat := 65535
def threadMax : Nat := 8
def threadStackSize : Nat := 4096
def threadQuantumTicks : Nat := 10
def waitOk : Int := 0
def waitTimeout : Int := -1

/-- The saved registers of a trap, in the order of `trap_frame_t`. -/
structure TrapFrame where
  ra : U64 := 0
  sp : U64 := 0
  gp : U64 := 0
  tp : U64 := 0
  t0 : U64 := 0
  t1 : U64 := 0
  t2 : U64 := 0
  s0 : U64 := 0
  s1 : U64 := 0
  a0 : U64 := 0
  a1 : U64 := 0
  a2 : U64 := 0
  a3 : U64 := 0
  a4 : U64 := 0
  a5 : U64 := 0
  a6 : U64 := 0
  a7 : U64 := 0
  s2 : U64 := 0
  s3 : U64 := 0
  s4 : U64 := 0
  s5 : U64 := 0
  s6 : U64 := 0
  s7 : U64 := 0
  s8 : U64 := 0
  s9 : U64 := 0
  s10 : U64 := 0
  s11 : U64 := 0
  t3 : U64 := 0
  t4 : U64 := 0
  t5 : U64 := 0
  t6 : U64 := 0
  mepc : U64 := 0
  mstatus : U64 := 0
  mcause : U64 := 0
  mtval : U64 := 0

inductive ThreadState
  | unused | ready | running | blocked | exited
deriving DecidableEq

inductive ThreadWaitReason
  | none | sleep | queue | queueTimeout
deriving DecidableEq

/-- The thread control block, `thread_t`. -/
structure Thread where
  tid : Nat
  state : ThreadState
  waitReason : ThreadWaitReason
  waitQueue : U64
  kernelSp : U64
  trapFrame : U64
  addressSpace : U64
  userTask : U64
  quantumTicks : Nat
  inReadyQueue : Bool
  inSleepQueue : Bool
  inWaitQueue : Bool
  wakeTick : U64
  waitResult : Int
  entry : U64
  arg : U64
  name : Option String

structure WaitQueue where
  ring : RingBuffer Nat
  name : Option String

structure UsercopyProbe where
  active : Bool
  pcStart : U64
  pcEnd : U64
  fixupPc : U64
  userStart : U64
  userEnd : U64
  faultCause : U64
deriving DecidableEq

/-- The static variables of `thread.c`, with the trap frames and the wait queues by address.
`sleepQueue` lists the used prefix of its array. -/
structure Sched where
  threads : Nat → Thread
  frames : U64 → TrapFrame
  usercopyProbes : Nat → UsercopyProbe
  readyQueue : RingBuffer Nat
  sleepQueue : List Nat
  waitQueues : U64 → WaitQueue
  currentThread : Option Nat
  threadsInitialized : Bool
  threadsStarted : Bool
  rescheduleRequested : Bool
  preemptDisableDepth : Nat

/-! ## User tasks (`user/task.h`) -/

inductive UserTaskState
  | unused | ready | exited | destroyed
deriving DecidableEq

structure UserTask where
  state : UserTaskState
  addressSpace : VmSpace
  userSatp : U64
  exitCode : U64
  codePage : U64
  stackPage : U64
  trapContext : U64
deriving DecidableEq

/-- The fields of `user_trap_context_t` after its frame, which lives in the frame store. -/
structure UserTrapContext where
  kernelSatp : U64
  userSatp : U64
  kernelTrapHandler : U64
  kernelTrapContext : U64
  kernelStvec : U64
  kernelSp : U64

/-! ## Mutexes, timer and accelerator -/

/-- `mutex_t` without its embedded wait queue, which lives in the wait-queue store. -/
structure Mutex where
  owner : Nat
  name : Option String

/-- The static variables of `timer.c`. -/
structure Timer where
  ticks : U64
  nextCompare : Nat

/-- `accel_request_state_t` without its embedded wait queue. -/
structure AccelRequest where
  cmd : U64
  inUse : Bool
  completed : Bool
  result : Int
  resetRequiredAfterTimeout : Bool
  submitterTid : Nat

/-- The registers of the simulated accelerator, `accel_mmio_region_t`. -/
structure AccelMmio where
  id : U32
  status : U32
  control : U32
  irqStatus : U32
  irqAck : U32
  cmdBase : U64
deriving DecidableEq

/-- All static state of the kernel. -/
structure Kernel where
  machine : Machine
  sched : Sched
  trapSelftestSeen : Bool
  userExitCode : U64
  timer : Timer
  tasks : U64 → UserTask
  contexts : U64 → UserTrapContext
  mutexes : U64 → Mutex
  accelRequest : AccelRequest
  accelMmio : AccelMmio
  accelBound : Bool

namespace Sched

def setThread (s : Sched) (tid : Nat) (f : Thread → Thread) : Sched :=
  { s with threads := Function.update s.threads tid (f (s.threads tid)) }

def setFrame (s : Sched) (frame : U64) (f : TrapFrame → TrapFrame) : Sched :=
  { s with frames := Function.update s.frames frame (f (s.frames frame)) }

section

variable (s : Sched) (tid : Nat) (f : Thread → Thread) (frame : U64) (g : TrapFrame → TrapFrame)

@[simp] theorem setThread_self : (s.setThread tid f).threads tid = f (s.threads tid) := by
  simp [setThread]

theorem setThread_of_ne {t : Nat} (h : t ≠ tid) : (s.setThread tid f).threads t = s.threads t := by
  simp [setThread, h]

@[simp] theorem setThread_frames : (s.setThread tid f).frames = s.frames := rfl
@[simp] theorem setThread_usercopyProbes : (s.setThread tid f).usercopyProbes = s.usercopyProbes := rfl
@[simp] theorem setThread_readyQueue : (s.setThread tid f).readyQueue = s.readyQueue := rfl
@[simp] theorem setThread_sleepQueue : (s.setThread tid f).sleepQueue = s.sleepQueue := rfl
@[simp] theorem setThread_waitQueues : (s.setThread tid f).waitQueues = s.waitQueues := rfl
@[simp] theorem setThread_currentThread : (s.setThread tid f).currentThread = s.currentThread := rfl
@[simp] theorem setThread_threadsStarted : (s.setThread tid f).threadsStarted = s.threadsStarted := rfl
@[simp] theorem setThread_preemptDisableDepth :
    (s.setThread tid f).preemptDisableDepth = s.preemptDisableDepth := rfl

@[simp] theorem setFrame_self : (s.setFrame frame g).frames frame = g (s.frames frame) := by
  simp [setFrame]

theorem setFrame_of_ne {a : U64} (h : a ≠ frame) : (s.setFrame frame g).frames a = s.frames a := by
  simp [setFrame, h]

@[simp] theorem setFrame_threads : (s.setFrame frame g).threads = s.threads := rfl
@[simp] theorem setFrame_readyQueue : (s.setFrame frame g).readyQueue = s.readyQueue := rfl
@[simp] theorem setFrame_sleepQueue : (s.setFrame frame g).sleepQueue = s.sleepQueue := rfl
@[simp] theorem setFrame_waitQueues : (s.setFrame frame g).waitQueues = s.waitQueues := rfl
@[simp] theorem setFrame_currentThread : (s.setFrame frame g).currentThread = s.currentThread := rfl
@[simp] theorem setFrame_threadsStarted : (s.setFrame frame g).threadsStarted = s.threadsStarted := rfl
@[simp] theorem setFrame_preemptDisableDepth :
    (s.setFrame frame g).preemptDisableDepth = s.preemptDisableDepth := rfl

end

end Sched

namespace Kernel

def irqSave (k : Kernel) : Bool × Kernel :=
  (k.machine.sie, { k with machine := { k.machine with sie := false } })

def irqRestore (k : Kernel) (irqState : Bool) : Kernel :=
  { k with machine := { k.machine with sie := irqState } }

def setTask (k : Kernel) (task : U64) (f : UserTask → UserTask) : Kernel :=
  { k with tasks := Function.update k.tasks task (f (k.tasks task)) }

def setFrame (k : Kernel) (frame : U64) (f : TrapFrame → TrapFrame) : Kernel :=
  { k with sched := k.sched.setFrame frame f }

end Kernel

/-! ### A small machine, for examples -/

/-- An image as the linker lays it out, for the examples of runs. -/
def sampleImage : Image where
  kernelEnd := 0x80040000
  ramEnd := 0x88000000
  pageBitmapBytes := 4096
  threadStacks := 0x80020000
  trampolineStart := 0x80001000
  trampolineEnd := 0x80002000
  threadTrampoline := 0x80003000
  nullTask := 0x80003100
  trapEntry := 0x80003200
  trapHandleUser := 0x80003300
  firstUserExitReturn := 0x80003400
  accelRequest := 0x80030000
  base_le_stacks := by decide
  stacks_align := by decide
  stacks_le_end := by decide
  end_le_ram := by decide
  ram_end := rfl
  bitmap_bytes := rfl

/-- The machine before the boot code runs. -/
def sampleMachine : Machine where
  image := sampleImage
  sie := false
  mem := fun _ => 0
  pages :=
    { pageBitmap := fun _ => 0
      pageBitmapWords := 0
      managedStart := 0
      managedEnd := 0
      totalPages := 0
      freePages := 0
      nextFreeHint := 0
      initialized := false }
  kernelSpace := ⟨0⟩
  kernelSatp := 0

end QemuRtos
