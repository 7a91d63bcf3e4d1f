import QemuRtos.Core.ThreadsOk
import QemuRtos.Core.SyncSpec
import QemuRtos.User.SyscallSpec
import QemuRtos.User.TaskSpec
import QemuRtos.User.AccelSyscallSpec
import QemuRtos.System

/-!
# What a step of the system does

`Stepped op σ σ'` says it once for every step: which threads are woken and why, how the current thread
leaves, and what happens to its call and to the mutexes. `SysOk` is the invariant of all runs. Each step
from a state that keeps it is `Stepped` (`exec_stepped`, in `SystemExec.lean`), and each `Stepped` step
keeps it (`Stepped.sysOk`, in `SystemOk.lean`).
-/

namespace QemuRtos

open Lib

/-! ### Before a trap -/

/-- What thread `c` has changed when it executes a trap: what the driver changes, and the trap context
of its user task, where a system call has saved its registers. -/
structure Entered (c : Nat) (k k₁ : Kernel) : Prop where
  eq : k₁ = { k with
    machine := k₁.machine
    accelRequest := k₁.accelRequest
    accelMmio := k₁.accelMmio
    sched := { k.sched with frames := k₁.sched.frames } }
  kept : ({ k.machine with sie := k₁.machine.sie } : Machine).Kept k₁.machine
  frames : ∀ a, k₁.sched.frames a = k.sched.frames a ∨ (k.sched.threads c).userTask ≠ 0 ∧
    a = (k.tasks (k.sched.threads c).userTask).trapContext ∧ (k₁.sched.frames a).mstatus &&& sstatusSpp = 0

variable {c : Nat} {k k' k₁ k₂ : Kernel}

theorem DriverChange.entered (h : DriverChange k k') : Entered c k k' where
  eq := by rw [h.eq]
  kept := h.kept
  frames a := .inl (by rw [h.eq])

theorem Entered.refl (c : Nat) (k : Kernel) : Entered c k k := (DriverChange.refl k).entered

theorem Entered.trans_driver (h : Entered c k k₁) (h' : DriverChange k₁ k₂) : Entered c k k₂ where
  eq := by rw [h'.eq, h.eq]
  kept := (h.kept.setSie k₂.machine.sie).trans h'.kept
  frames a := by
    have : k₂.sched = k₁.sched := by rw [h'.eq]
    rw [this]
    exact h.frames a

theorem Entered.trapEnter {frame : U64} {regs : TrapFrame} (htask : (k.sched.threads c).userTask ≠ 0)
    (hframe : frame = (k.tasks (k.sched.threads c).userTask).trapContext)
    (hspp : regs.mstatus &&& sstatusSpp = 0) : Entered c k (QemuRtos.trapEnter frame regs k) where
  eq := rfl
  kept := .refl _
  frames a := by
    rw [trapEnter_sched]
    by_cases ha : a = frame
    · subst ha; rw [Sched.setFrame_self]; exact .inr ⟨htask, hframe, hspp⟩
    · exact .inl (Sched.setFrame_of_ne _ _ _ ha)

namespace System

/-- The initialised wait queues. -/
def queueSet (σ : System) : Set U64 := {q | q ∈ σ.queues}

/-- Whether a thread is in the middle of a call. -/
def busy (σ : System) (t : Nat) : Bool := σ.calls t ≠ .idle

def now (σ : System) : U64 := σ.kernel.timer.ticks

variable {σ σ' : System}

/-- What a thread in a call may rely on. -/
def CallOk (σ : System) (t : Nat) : Call → Prop
  | .idle => True
  | .lock call => call.tid = t ∧ call.mutex ∈ σ.mutexes ∧ (σ.kernel.sched.threads t).userTask = 0
  | .submit sub => σ.kernel.accelBound = true ∧ sub.ticks ≠ 0 ∧ (σ.kernel.sched.threads t).userTask = 0
  | .userMemset u sub => σ.kernel.accelBound = true ∧ sub.ticks ≠ 0 ∧
      u.task = (σ.kernel.sched.threads t).userTask ∧ u.task ≠ 0 ∧
      u.frame = (σ.kernel.tasks u.task).trapContext ∧ sub.cmd = u.cmd ∧ sub.ticks = u.timeoutTicks

/-- The invariant of all runs. -/
structure SysOk (σ : System) : Prop where
  sched : SchedInv σ.queueSet σ.kernel.sched
  seen : σ.kernel.trapSelftestSeen = true
  pages : PagesOk σ.kernel.machine.pages
  /-- The allocator manages memory above the kernel image. -/
  above : σ.kernel.machine.image.kernelEnd.toNat ≤ σ.kernel.machine.pages.managedStart.toNat
  accelQueue : σ.kernel.accelBound = true → accelWaiters σ.kernel.machine.image ∈ σ.queues
  mutexQueue : ∀ mutex ∈ σ.mutexes, mutex ≠ 0 ∧ mutexWaiters mutex ∈ σ.queues
  threads : ThreadsOk σ.busy σ.kernel
  call : ∀ t, σ.CallOk t (σ.calls t)

theorem SysOk.real_of_userTask (h : SysOk σ) (hcur : σ.kernel.sched.currentThread = some c)
    (htask : (σ.kernel.sched.threads c).userTask ≠ 0) : tidIsReal c := by
  obtain ⟨-, hrun⟩ := h.sched.started hcur
  refine (real_or_null hrun.lt).resolve_right ?_
  rintro rfl
  exact htask h.sched.ok.null.task

/-- The ticks that a step asks to wait for. -/
def requested (σ : System) (op : Op) : Option U64 :=
  match op with
  | .control t site => if t.op = threadTrapSleep then some t.arg0
      else if t.op = threadTrapWaitTimeout then some (t.arg1.getD site.regs.a1) else none
  | .ecall regs _ => if regs.a7 = userSyscallSleep then some regs.a0
      else if regs.a7 = userSyscallAccelMemset ∧ regs.a3 ≠ ticksForever then some regs.a3 else none
  | .mutexLockTimeout _ ticks _ => some ticks
  | .accelSubmit _ ticks _ => if ticks ≠ ticksForever then some ticks else none
  | .resume _ => match σ.calls σ.current with
    | .submit sub | .userMemset _ sub => if sub.ticks ≠ ticksForever then some sub.ticks else none
    | .idle | .lock _ => none
  | _ => none

/-- The tick at which a wait requested by the step ends. -/
def wakeTick (σ : System) (op : Op) : Option U64 := (σ.requested op).map (σ.now + ·)

/-- The queue that a call waits on. -/
def waitsOn (σ : System) : Call → Option U64
  | .idle => none
  | .lock call => some (mutexWaiters call.mutex)
  | .submit _ | .userMemset .. => some (accelWaiters σ.kernel.machine.image)

/-! ### The steps -/

/-- The frame of a user thread's traps from user mode is the trap context of its task. -/
structure UserFrame (k : Kernel) (c : Nat) (frame mstatus : U64) : Prop where
  task : (k.sched.threads c).userTask ≠ 0
  frame : frame = (k.tasks (k.sched.threads c).userTask).trapContext
  spp : mstatus &&& sstatusSpp = 0

/-- The frame of a kernel thread's traps is on its stack. -/
structure KernelFrame (k : Kernel) (c : Nat) (frame : U64) : Prop where
  task : (k.sched.threads c).userTask = 0
  frame : OnStack k.machine.image c frame

/-- Why the current thread `c` traps to `frame`: how it leaves, and the call it is in afterwards. -/
inductive Traps (σ : System) (op : Op) (c : Nat) (frame mstatus : U64) : Leave → Call → Prop
  /-- A control trap outside the calls. -/
  | kernel {l : Leave} (hidle : σ.calls c = .idle) (hframe : KernelFrame σ.kernel c frame)
    (hpark : ∀ b, l = .park b → b.wakeTick = σ.wakeTick op ∧
      ∀ q, b.queue = some q → q ∈ σ.queues ∧ ∃ t site, op = .control t site ∧ t.arg0 = q ∧
        (t.op = threadTrapWait ∨ t.op = threadTrapWaitTimeout)) :
    Traps σ op c frame mstatus l .idle
  /-- A system call that does not wait for the accelerator. -/
  | user {l : Leave} (hidle : σ.calls c = .idle) (hframe : UserFrame σ.kernel c frame mstatus)
    (hne : l ≠ .retire) (hpark : ∀ b, l = .park b → b = ⟨none, σ.wakeTick op⟩) :
    Traps σ op c frame mstatus l .idle
  /-- The return of the accelerator system call. -/
  | memset (hcall : σ.calls c = .idle ∨ ∃ u sub, σ.calls c = .userMemset u sub)
    (hframe : UserFrame σ.kernel c frame mstatus) : Traps σ op c frame mstatus .stay .idle
  /-- The wait of a call. -/
  | waits {call : Call} (hcall : σ.CallOk c call) (hbusy : call ≠ .idle)
    (hbefore : σ.calls c = .idle ∨ σ.calls c = call) (hframe : OnStack σ.kernel.machine.image c frame)
    (hspp : mstatus &&& sstatusSpp ≠ 0) (hspie : mstatus &&& sstatusSpie = 0)
    (hlock : ∀ lock, call = .lock lock → (σ.kernel.mutexes lock.mutex).owner ≠ mutexNoOwner ∧
      (σ.kernel.mutexes lock.mutex).owner ≠ c ∧ lock.timed = (σ.wakeTick op).isSome) :
    Traps σ op c frame mstatus (.park ⟨σ.waitsOn call, σ.wakeTick op⟩) call

/-- The end of a lock call of thread `c`. -/
def lockReturned (σ : System) (c : Nat) (mutex : U64) (r : Int) (k : Kernel) : System :=
  let σ := (σ.setKernel k).setCall c .idle
  if r = waitTimeout then σ else σ.setHolds c mutex true

end System

/-- The step creates a thread. -/
def Op.Creates : Op → Prop
  | .threadCreate .. | .threadCreateUser .. => True
  | _ => False

namespace System

/-- What a step does. -/
inductive Stepped (σ : System) (op : Op) : System → Prop
  /-- The driver or the allocator runs, or nothing happens. -/
  | driver {k' : Kernel} (hk : DriverChange σ.kernel k') (hsie : k'.machine.sie = σ.kernel.machine.sie) :
    Stepped σ op (σ.setKernel k')
  /-- A submission returns. -/
  | submitted {c : Nat} {k' : Kernel} (hcur : σ.kernel.sched.currentThread = some c)
    (hcall : σ.calls c = .idle ∨ ∃ sub, σ.calls c = .submit sub) (hk : DriverChange σ.kernel k') :
    Stepped σ op ((σ.setKernel k').setCall c .idle)
  /-- Threads that wait on a queue are woken. -/
  | woken {k' : Kernel} {s' : Sched} {queue : U64} (hk : DriverChange σ.kernel k')
    (hsie : k'.machine.sie = σ.kernel.machine.sie) (hq : queue ∈ σ.queues)
    (hop : op = .wakeOne queue ∨ op = .wakeAll queue ∨
      op = .dispatchIrqs ∧ queue = accelWaiters σ.kernel.machine.image)
    (hw : WokenSeq σ.queueSet (EventWake queue) σ.kernel.sched s') (hs : SchedInv σ.queueSet s') :
    Stepped σ op (σ.setKernel { k' with sched := s' })
  /-- A thread is created. -/
  | installed {tid : Nat} {th : Thread} {own : Set U64} {k' : Kernel} (hop : op.Creates)
    (hi : Installed σ.queueSet tid th own σ.kernel.sched k'.sched)
    (hk : k' = { σ.kernel with sched := k'.sched, contexts := k'.contexts })
    (hs : SchedInv σ.queueSet k'.sched) (hready : th.state = .ready)
    (hown : ∀ a ∈ own, OnStack σ.kernel.machine.image tid a)
    (hplace : OnStack σ.kernel.machine.image tid th.trapFrame ∧ th.userTask = 0 ∨
      userTaskIsReady th.userTask σ.kernel ∧ th.trapFrame = (σ.kernel.tasks th.userTask).trapContext ∧
        ∀ t, tidIsReal t → (σ.kernel.sched.threads t).userTask ≠ th.userTask) :
    Stepped σ op (σ.setKernel k')
  /-- The first thread starts. -/
  | started {s₁ : Sched} {k' : Kernel} (hst : σ.kernel.sched.threadsStarted = false)
    (hd : Dispatched σ.kernel.sched.next σ.kernel.sched s₁)
    (hs : SchedInv σ.queueSet { s₁ with
      threadsStarted := true, rescheduleRequested := σ.kernel.sched.rescheduleRequested })
    (hr : Returned (σ.kernel.sched.threads σ.kernel.sched.next).trapFrame { σ.kernel with
      machine := { σ.kernel.machine with sie := false }
      sched := { s₁ with
        threadsStarted := true, rescheduleRequested := σ.kernel.sched.rescheduleRequested } } k') :
    Stepped σ op (σ.setKernel k')
  /-- A user task is set up. -/
  | taskInit {task : U64} {k' : Kernel} (h : TaskInitialized task σ.kernel k') : Stepped σ op (σ.setKernel k')
  /-- A wait queue is set up. -/
  | queueInit {queue : U64} {s' : Sched} (hq : queue ∉ σ.queues) (hnil : s'.waits queue = [])
    (hthreads : s'.threads = σ.kernel.sched.threads) (hframes : s'.frames = σ.kernel.sched.frames)
    (hstatics : s'.statics = σ.kernel.sched.statics)
    (hqueues : s'.ready = σ.kernel.sched.ready ∧ s'.sleepQueue = σ.kernel.sched.sleepQueue)
    (hothers : ∀ q ≠ queue, s'.waitQueues q = σ.kernel.sched.waitQueues q)
    (hs : SchedInv (insert queue σ.queueSet) s') :
    Stepped σ op { σ with kernel := { σ.kernel with sched := s' }, queues := queue :: σ.queues }
  /-- A mutex is set up. -/
  | mutexInit {mutex : U64} {name : Option String} {s' : Sched} (hne : mutex ≠ 0) (hm : mutex ∉ σ.mutexes)
    (hq : mutexWaiters mutex ∉ σ.queues) (hnil : s'.waits (mutexWaiters mutex) = [])
    (hthreads : s'.threads = σ.kernel.sched.threads) (hframes : s'.frames = σ.kernel.sched.frames)
    (hstatics : s'.statics = σ.kernel.sched.statics)
    (hqueues : s'.ready = σ.kernel.sched.ready ∧ s'.sleepQueue = σ.kernel.sched.sleepQueue)
    (hothers : ∀ q ≠ mutexWaiters mutex, s'.waitQueues q = σ.kernel.sched.waitQueues q)
    (hs : SchedInv (insert (mutexWaiters mutex) σ.queueSet) s') :
    Stepped σ op { σ with
      kernel := { σ.kernel with sched := s' }.setMutex mutex fun _ => { owner := mutexNoOwner, name := name }
      queues := mutexWaiters mutex :: σ.queues
      mutexes := mutex :: σ.mutexes }
  /-- A timer interrupt: threads whose tick has come are woken, and the current thread may be switched
  out. -/
  | timer {c : Nat} {frame : U64} {regs : TrapFrame} {s₁ s₂ s₃ : Sched} {l : Leave} {next : U64}
    {timer : Timer} {k' : Kernel} (hop : ∃ mtime site, op = .timer mtime site)
    (hcur : σ.kernel.sched.currentThread = some c) (hidle : σ.calls c = .idle)
    (hframe : KernelFrame σ.kernel c frame ∨ UserFrame σ.kernel c frame regs.mstatus)
    (hw : WokenSeq σ.queueSet (TimerWake (σ.now + 1)) (σ.kernel.sched.setFrame frame fun _ => regs) s₁)
    (hs : SchedInv σ.queueSet s₁) (ht : Touched c s₁ s₂) (hl : l = .stay ∨ l = .requeue)
    (hleft : Left σ.queueSet c frame s₂ l next s₃) (hcharge : Calm s₁ → Charged c s₁ l s₃)
    (hticks : timer.ticks = σ.now + 1) (hr : Returned next { σ.kernel with sched := s₃, timer := timer } k') : Stepped σ op (σ.setKernel k')
  /-- A timer interrupt before the first thread starts. -/
  | bootTimer {frame : U64} {regs : TrapFrame} {timer : Timer} {k' : Kernel}
    (hop : ∃ mtime site, op = .timer mtime site)
    (hcur : σ.kernel.sched.currentThread = none) (hframe : OnBootStack σ.kernel.machine.image frame)
    (hticks : timer.ticks = σ.now + 1)
    (hr : Returned frame { σ.kernel with
      sched := σ.kernel.sched.setFrame frame fun _ => regs, timer := timer } k') : Stepped σ op (σ.setKernel k')
  /-- Any other trap of the current thread. -/
  | trapped {c : Nat} {frame : U64} {f : TrapFrame} {l : Leave} {call : Call} {k₁ k' : Kernel}
    (hcur : σ.kernel.sched.currentThread = some c) (hk : Entered c σ.kernel k₁)
    (hsie : σ.calls c ≠ .idle → k₁.machine.sie = false)
    (hwhy : Traps σ op c frame f.mstatus l call) (ht : Trapped σ.queueSet c frame f l k₁ k')
    (hstay : l = .stay → (σ.kernel.sched.threads c).userTask ≠ 0 → (k'.sched.threads c).trapFrame = frame) :
    Stepped σ op ((σ.setKernel k').setCall c call)
  /-- A user thread exits, and its task is destroyed. -/
  | exited {c : Nat} {frame : U64} {regs : TrapFrame} {s' : Sched} {next : U64} {m : Machine} {t : UserTask}
    {k' : Kernel} (hcur : σ.kernel.sched.currentThread = some c) (hidle : σ.calls c = .idle)
    (hframe : UserFrame σ.kernel c frame regs.mstatus)
    (hsw : Switched σ.queueSet (Retired c) (σ.kernel.sched.setFrame frame fun _ => regs) s' next)
    (hm : ({ σ.kernel.machine with sie := m.sie } : Machine).Kept m) (ht : t.state = .destroyed)
    (hr : Returned next { σ.kernel with
      machine := m
      sched := s'
      tasks := Function.update σ.kernel.tasks (σ.kernel.sched.threads c).userTask t } k') :
    Stepped σ op (σ.setKernel k')
  /-- A lock call returns. -/
  | locked {c : Nat} {call : LockCall} {entry : LockEntry} {r : Int} {k' : Kernel}
    (hcur : σ.kernel.sched.currentThread = some c) (hcall : σ.CallOk c (.lock call))
    (hentry : σ.calls c = .idle ∧ (∀ a0, entry ≠ .resume a0) ∨
      σ.calls c = .lock call ∧ entry = .resume (σ.resumedA0 c))
    (ho : LockOutcome σ.kernel call entry (.ret r k')) : Stepped σ op (σ.lockReturned c call.mutex r k')
  /-- A mutex is unlocked, and handed to the first waiter if there is one. -/
  | unlocked {c next : Nat} {mutex : U64} {s' : Sched} (hop : op = .mutexUnlock mutex) (hcur : InKernel σ c)
    (hm : mutex ∈ σ.mutexes)
    (howner : (σ.kernel.mutexes mutex).owner = c) (hs : SchedInv σ.queueSet s')
    (hnext : next = mutexNoOwner ∧ σ.kernel.sched.waits (mutexWaiters mutex) = [] ∧ s' = σ.kernel.sched ∨
      (σ.kernel.sched.waits (mutexWaiters mutex)).head? = some next ∧
        Woken σ.queueSet next waitOk σ.kernel.sched s') :
    Stepped σ op ((σ.setKernel ({ σ.kernel with sched := s' }.setMutex mutex
      fun m => { m with owner := next })).setHolds c mutex false)

end System

end QemuRtos
