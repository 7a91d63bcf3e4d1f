import QemuRtos.Core.Sync
import QemuRtos.User.AccelSyscall

/-!
# The running system

The kernel with the calls its threads are blocked in, and the steps it can take: calls made by
kernel code, system calls and timer interrupts, and a thread going on after a wait. A step that
blocks or switches ends with another thread running. `Enabled` is what the callers promise.
-/

namespace QemuRtos

open Lib

/-- What a thread does after the control trap it is in. -/
inductive Call
  /-- Code outside the calls below, or user mode. -/
  | idle
  | lock (call : LockCall)
  | submit (sub : Submission)
  | userMemset (u : UserMemset) (sub : Submission)
deriving DecidableEq

/-- The kernel, the calls in progress, and what clients have set up: the wait queues and mutexes
they initialised, and which thread holds which mutex. -/
structure System where
  kernel : Kernel
  calls : Nat → Call
  queues : List U64
  mutexes : List U64
  holds : Nat → U64 → Bool

inductive Op
  | threadCreate (name : Option String) (entry arg : U64)
  | threadCreateUser (name : Option String) (task : U64)
  | threadStart
  | userTaskInit (task : U64) (program : Option (List Byte))
  | waitQueueInit (queue : U64) (name : Option String)
  | wakeOne (queue : U64)
  | wakeAll (queue : U64)
  /-- `thread_yield`, `thread_sleep`, the waits and `thread_exit` of a kernel thread. -/
  | control (t : ControlTrap) (site : TrapSite)
  /-- A system call of a user thread; `site` is for the wait of the accelerator call. -/
  | ecall (regs : TrapFrame) (site : TrapSite)
  | timer (mtime : Nat) (site : TrapSite)
  /-- The current thread goes on after the trap of its call. -/
  | resume (site : TrapSite)
  | mutexInit (mutex : U64) (name : Option String)
  | mutexLock (mutex : U64) (site : TrapSite)
  | mutexLockTimeout (mutex ticks : U64) (site : TrapSite)
  | mutexTrylock (mutex : U64)
  | mutexUnlock (mutex : U64)
  | accelSubmit (cmd ticks : U64) (site : TrapSite)
  | accelControl (control : U32)
  | accelAck (mask : U32)
  | accelStep
  | dispatchIrqs
  /-- Other code allocates a page, frees one, or changes memory. -/
  | pageAlloc
  | pageFree (page : U64)
  | write (mem : Mem)

namespace System

/-- The boot code from `page_init` to `thread_init`: the allocator gets the RAM above the kernel, the
drivers are probed and the threads set up. No thread is in a call, and the one queue is the
accelerator's. -/
def boot (k : Kernel) : Except Panic System := do
  let m ← pageInit k.machine.image.kernelEnd k.machine.image.ramEnd k.machine
  let k ← driverProbeAll { k with machine := m }
  let k ← threadInit k
  .ok {
    kernel := k
    calls := fun _ => .idle
    queues := if k.accelBound then [accelWaiters k.machine.image] else []
    mutexes := []
    holds := fun _ _ => false }

def setKernel (σ : System) (k : Kernel) : System := { σ with kernel := k }

def setCall (σ : System) (tid : Nat) (call : Call) : System :=
  { σ with calls := Function.update σ.calls tid call }

def setHolds (σ : System) (tid : Nat) (mutex : U64) (held : Bool) : System :=
  { σ with holds := Function.update σ.holds tid (Function.update (σ.holds tid) mutex held) }

def current (σ : System) : Nat := σ.kernel.sched.currentThread.getD threadNullTid

/-- A lock call of `tid` on `mutex` has run up to `p`. A lock call fails with `WAIT_TIMEOUT`. -/
def lockProgress (σ : System) (tid : Nat) (mutex : U64) (site : TrapSite) (p : Progress LockCall Int) :
    Except Panic System :=
  match p with
  | .ret result k =>
    let σ := (σ.setKernel k).setCall tid .idle
    .ok (if result = waitTimeout then σ else σ.setHolds tid mutex true)
  | .trap regs next k => do
    let k ← controlTrap regs site k
    .ok ((σ.setKernel k).setCall tid (.lock next))

/-- A submission by kernel code has run up to `p`. -/
def submitProgress (σ : System) (tid : Nat) (site : TrapSite) (p : Progress Submission Int) :
    Except Panic System :=
  match p with
  | .ret _ k => .ok ((σ.setKernel k).setCall tid .idle)
  | .trap regs next k => do
    let k ← controlTrap regs site k
    .ok ((σ.setKernel k).setCall tid (.submit next))

/-- An accelerator system call from `frame` has run up to `p`; at its end the user frame is
resumed. -/
def memsetProgress (σ : System) (tid : Nat) (frame : U64) (site : TrapSite)
    (p : Progress (UserMemset × Submission) Int) : Except Panic System :=
  match p with
  | .ret result k => do
    let (_, k) ← trapReturnFromHandler frame (userAccelReturn frame result k)
    .ok ((σ.setKernel k).setCall tid .idle)
  | .trap regs (u, sub) k => do
    let k ← controlTrap regs site k
    .ok ((σ.setKernel k).setCall tid (.userMemset u sub))

/-- A system call of thread `tid`. -/
def ecall (tid : Nat) (regs : TrapFrame) (site : TrapSite) (σ : System) : Except Panic System := do
  let k := σ.kernel
  let frame := (k.tasks (k.sched.threads tid).userTask).trapContext
  let (action, k) ← trapHandle 0 frame (trapEnter frame (ecallFrame k.machine.sie regs) k)
  match action with
  | .resume next => do
    let (_, k) ← trapReturnFromHandler next k
    .ok (σ.setKernel k)
  | .accelMemset frame => do
    let p ← userAccelSyscallMemset frame k
    σ.memsetProgress tid frame site p

/-- The `a0` with which a thread goes on after its control trap. -/
def resumedA0 (σ : System) (tid : Nat) : U64 :=
  (σ.kernel.sched.frames (σ.kernel.sched.threads tid).trapFrame).a0

def resume (tid : Nat) (site : TrapSite) (σ : System) : Except Panic System :=
  match σ.calls tid with
  | .idle => .ok σ
  | .lock call => do
    let p ← call.resume (σ.resumedA0 tid) σ.kernel
    σ.lockProgress tid call.mutex site p
  | .submit sub => do
    let p ← sub.resume (σ.resumedA0 tid) σ.kernel
    σ.submitProgress tid site p
  | .userMemset u sub => do
    let p ← sub.resume (σ.resumedA0 tid) σ.kernel
    let p ← userAccelAfterSubmit u p
    σ.memsetProgress tid u.frame site p

/-- A timer interrupt: on the current thread's stack in kernel code, in its trap context in user
mode. -/
def timer (mtime : Nat) (site : TrapSite) (σ : System) : Except Panic System := do
  let k := σ.kernel
  let task := (k.sched.threads σ.current).userTask
  let frame := if task = 0 then site.frame else (k.tasks task).trapContext
  let k ← takeTrap mtime frame (timerFrame (task = 0) k.machine.sie site.regs) k
  .ok (σ.setKernel k)

/-- One step of the system. -/
def exec (op : Op) (σ : System) : Except Panic System :=
  let k := σ.kernel
  match op with
  | .threadCreate name entry arg => do
    let (_, k) ← QemuRtos.threadCreate name entry arg k
    .ok (σ.setKernel k)
  | .threadCreateUser name task => do
    let (_, k) ← QemuRtos.threadCreateUser name task k
    .ok (σ.setKernel k)
  | .threadStart => do
    let (frame, k) ← QemuRtos.threadStart k
    let (_, k) ← trapReturnFromHandler frame k
    .ok (σ.setKernel k)
  | .userTaskInit task program => do
    let (_, k) ← QemuRtos.userTaskInit task program k
    .ok (σ.setKernel k)
  | .waitQueueInit queue name => do
    let k ← QemuRtos.waitQueueInit queue name k
    .ok { σ with kernel := k, queues := queue :: σ.queues }
  | .wakeOne queue => do
    let (_, k) ← waitQueueWakeOne queue k
    .ok (σ.setKernel k)
  | .wakeAll queue => do
    let k ← waitQueueWakeAll queue k
    .ok (σ.setKernel k)
  | .control t site => do
    let k ← controlTrap t site k
    .ok (σ.setKernel k)
  | .ecall regs site => σ.ecall σ.current regs site
  | .timer mtime site => σ.timer mtime site
  | .resume site => σ.resume σ.current site
  | .mutexInit mutex name => do
    let k ← QemuRtos.mutexInit mutex name k
    .ok { σ with kernel := k, queues := mutexWaiters mutex :: σ.queues, mutexes := mutex :: σ.mutexes }
  | .mutexLock mutex site => do
    let p ← QemuRtos.mutexLock mutex k
    σ.lockProgress σ.current mutex site p
  | .mutexLockTimeout mutex ticks site => do
    let p ← QemuRtos.mutexLockTimeout mutex ticks k
    σ.lockProgress σ.current mutex site p
  | .mutexTrylock mutex => do
    let (result, k) ← QemuRtos.mutexTrylock mutex k
    .ok (if result = 1 then (σ.setKernel k).setHolds σ.current mutex true else σ.setKernel k)
  | .mutexUnlock mutex => do
    let k ← QemuRtos.mutexUnlock mutex k
    .ok ((σ.setKernel k).setHolds σ.current mutex false)
  | .accelSubmit cmd ticks site => do
    let p ← accelSubmitSyncTimeout cmd ticks k
    σ.submitProgress σ.current site p
  | .accelControl control => .ok (σ.setKernel (accelWriteControlRaw control k).2)
  | .accelAck mask => .ok (σ.setKernel (accelAckIrq mask k).2)
  | .accelStep => .ok (σ.setKernel (platformAccelStep k))
  | .dispatchIrqs => do
    let k ← platformDispatchPendingIrqs k
    .ok (σ.setKernel k)
  | .pageAlloc => do
    let (_, m) ← QemuRtos.pageAlloc k.machine
    .ok (σ.setKernel { k with machine := m })
  | .pageFree page => do
    let m ← QemuRtos.pageFree page k.machine
    .ok (σ.setKernel { k with machine := m })
  | .write mem => .ok (σ.setKernel (k.setMem fun _ => mem))

/-! ## What callers promise -/

/-- The static initialisers, and the trap self test of the boot code. -/
structure Fresh (k : Kernel) : Prop where
  selftest : k.trapSelftestSeen = true
  unbound : k.accelBound = false
  tasks : ∀ task, (k.tasks task).state = .unused
  mmio : k.accelMmio = accelMmioInit

/-- `c` is the current thread, it runs kernel code outside the calls, and is not the null thread. -/
structure InKernel (σ : System) (c : Nat) : Prop where
  current : σ.kernel.sched.currentThread = some c
  idle : σ.calls c = .idle
  real : c ≠ threadNullTid
  kernel : (σ.kernel.sched.threads c).userTask = 0

/-- The current thread is not in the middle of a call. -/
def Quiet (σ : System) : Prop := ∀ c, σ.kernel.sched.currentThread = some c → σ.calls c = .idle

/-- Code that sets the system up: the boot code, or a kernel thread. -/
def InSetup (σ : System) : Prop := ∀ c, σ.kernel.sched.currentThread = some c → InKernel σ c

/-- A control trap that thread `c` may execute: the null thread only yields, and a wait is on an
initialised queue. -/
def ControlAllowed (σ : System) (c : Nat) (t : ControlTrap) : Prop :=
  t.op = threadTrapYield ∨ c ≠ threadNullTid ∧
    (t.op = threadTrapExit ∨ t.op = threadTrapSleep ∨
      (t.op = threadTrapWait ∨ t.op = threadTrapWaitTimeout) ∧ t.arg0 ∈ σ.queues)

/-- What the caller of each step promises. -/
def Enabled (op : Op) (σ : System) : Prop :=
  let k := σ.kernel
  let image := k.machine.image
  match op with
  | .threadCreate .. | .threadCreateUser .. | .userTaskInit .. => InSetup σ
  | .threadStart => k.sched.threadsStarted = false
  | .waitQueueInit queue _ => InSetup σ ∧ queue ∉ σ.queues
  | .wakeOne queue | .wakeAll queue => Quiet σ ∧ queue ∈ σ.queues
  | .control t site => ∃ c, k.sched.currentThread = some c ∧ σ.calls c = .idle ∧
      (k.sched.threads c).userTask = 0 ∧ ControlAllowed σ c t ∧ OnStack image c site.frame
  | .ecall _ site => ∃ c, k.sched.currentThread = some c ∧ σ.calls c = .idle ∧
      (k.sched.threads c).userTask ≠ 0 ∧ OnStack image c site.frame
  | .timer _ site => match k.sched.currentThread with
    | none => OnBootStack image site.frame
    | some c => if (k.sched.threads c).userTask = 0 then k.machine.sie = true ∧ OnStack image c site.frame
        else σ.calls c = .idle
  | .resume site => ∃ c, k.sched.currentThread = some c ∧ σ.calls c ≠ .idle ∧ OnStack image c site.frame
  | .mutexInit mutex _ => InSetup σ ∧ mutex ∉ σ.mutexes ∧ mutexWaiters mutex ∉ σ.queues
  | .mutexLock mutex site | .mutexLockTimeout mutex _ site => ∃ c, InKernel σ c ∧ mutex ∈ σ.mutexes ∧
      (k.mutexes mutex).owner ≠ c ∧ OnStack image c site.frame
  | .mutexTrylock mutex => ∃ c, InKernel σ c ∧ mutex ∈ σ.mutexes ∧ (k.mutexes mutex).owner ≠ c
  | .mutexUnlock mutex => ∃ c, InKernel σ c ∧ mutex ∈ σ.mutexes ∧ (k.mutexes mutex).owner = c
  | .accelSubmit _ _ site => InSetup σ ∧ ∀ c, k.sched.currentThread = some c → OnStack image c site.frame
  | .accelControl _ | .accelAck _ => InSetup σ
  | .accelStep | .dispatchIrqs | .pageAlloc | .pageFree _ | .write _ => Quiet σ

/-- A user thread is only created for a task that no thread has. -/
def AttachOnce (op : Op) (σ : System) : Prop :=
  match op with
  | .threadCreateUser _ task => ∀ t, tidIsReal t → (σ.kernel.sched.threads t).userTask ≠ task
  | _ => True

end System

/-! ### The kernel before boot, for examples -/

/-- The kernel before the boot code runs, with its static initialisers. -/
def sampleKernel : Kernel where
  machine := sampleMachine
  sched :=
    { threads := unusedThread
      frames := fun _ => {}
      usercopyProbes := fun _ => noProbe
      readyQueue := { slots := fun _ => 0, head := 0, tail := 0, count := 0 }
      sleepQueue := []
      waitQueues := fun _ => { ring := { slots := fun _ => 0, head := 0, tail := 0, count := 0 }, name := none }
      currentThread := none
      threadsInitialized := false
      threadsStarted := false
      rescheduleRequested := false
      preemptDisableDepth := 0 }
  trapSelftestSeen := true
  userExitCode := 0
  timer := { ticks := 0, nextCompare := 0 }
  tasks := fun _ =>
    { state := .unused, addressSpace := ⟨0⟩, userSatp := 0, exitCode := 0, codePage := 0, stackPage := 0,
      trapContext := 0 }
  contexts := fun _ =>
    { kernelSatp := 0, userSatp := 0, kernelTrapHandler := 0, kernelTrapContext := 0, kernelStvec := 0, kernelSp := 0 }
  mutexes := fun _ => { owner := mutexNoOwner, name := none }
  accelRequest :=
    { cmd := 0, inUse := false, completed := false, result := 0, resetRequiredAfterTimeout := false
      submitterTid := threadInvalidTid }
  accelMmio := accelMmioInit
  accelBound := false

end QemuRtos
