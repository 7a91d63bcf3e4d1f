import QemuRtos.Core.Sched
import QemuRtos.User.Task

/-!
# Threads (`core/thread.c`)

Creation and start of threads, the wake calls, and the handlers of the traps through which a
thread yields, sleeps, waits or exits. A handler takes the address of the frame the trap saved and
returns the address of the frame to resume. Trace events and console output are left out.
-/

namespace QemuRtos

open Lib

def trapFrameStackSize : U64 := 288

def threadTrapYield : U64 := 1
def threadTrapExit : U64 := 2
def threadTrapSleep : U64 := 3
def threadTrapWait : U64 := 4
def threadTrapWaitTimeout : U64 := 5

def mcauseBreakpoint : U64 := 3
def mcauseEcallUMode : U64 := 8
def mcauseInstructionPageFault : U64 := 12
def mcauseLoadPageFault : U64 := 13
def mcauseStorePageFault : U64 := 15

def trapCauseIsUsercopyRecoverable (cause : U64) : Bool :=
  cause = mcauseLoadPageFault || cause = mcauseStorePageFault

def waitQueueInit (queue : U64) (name : Option String) (k : Kernel) : Except Panic Kernel :=
  if queue = 0 then .error "wait_queue_init null queue"
  else
    let (irqState, k) := k.irqSave
    let ring := { (k.sched.waitQueues queue).ring with head := 0, tail := 0, count := 0 }
    let waitQueues := Function.update k.sched.waitQueues queue { ring := ring, name := name }
    .ok (Kernel.irqRestore { k with sched := { k.sched with waitQueues := waitQueues } } irqState)

def waitQueueWakeOne (queue : U64) (k : Kernel) : Except Panic (Nat × Kernel) :=
  if queue = 0 then .error "wait_queue_wake_one null queue"
  else do
    let (irqState, k) := k.irqSave
    let (tid, s) ← k.sched.preemptDisable.wakeOne queue
    let s ← s.preemptEnable
    .ok (tid, Kernel.irqRestore { k with sched := s } irqState)

def waitQueueWakeAll (queue : U64) (k : Kernel) : Except Panic Kernel :=
  if queue = 0 then .error "wait_queue_wake_all null queue"
  else do
    let (irqState, k) := k.irqSave
    let s := k.sched.preemptDisable
    let s ← s.wakeAllLoop queue ((s.waitQueues queue).ring.count + 1)
    let s ← s.preemptEnable
    .ok (Kernel.irqRestore { k with sched := s } irqState)

/-! ## Creation and start -/

def threadStackTop (tid : Nat) (image : Image) : U64 :=
  alignDown (image.threadStacks + BitVec.ofNat 64 ((tid + 1) * threadStackSize)) 16

/-- A trap frame at this address lies on the stack of the thread. -/
def OnStack (image : Image) (tid : Nat) (frame : U64) : Prop :=
  image.threadStacks.toNat + tid * threadStackSize ≤ frame.toNat ∧
    frame.toNat + trapFrameStackSize.toNat ≤ image.threadStacks.toNat + (tid + 1) * threadStackSize

/-- A trap frame at this address lies on the boot stack: in the kernel image, but on no thread's stack. -/
def OnBootStack (image : Image) (frame : U64) : Prop :=
  frame ≠ 0 ∧ frame.toNat < image.kernelEnd.toNat ∧ ∀ tid < threadMax, ¬OnStack image tid frame

/-- A trap frame at this address lies in a page, above the kernel image. -/
def InPages (image : Image) (frame : U64) : Prop := image.kernelEnd.toNat ≤ frame.toNat

def prepareInitialTrapFrame (tid : Nat) (image : Image) (s : Sched) : Sched :=
  let stackTop := threadStackTop tid image
  let frame := alignDown (stackTop - trapFrameStackSize) 16
  let s := s.setFrame frame fun _ =>
    { sp := stackTop, mepc := image.threadTrampoline, mstatus := sstatusSpp ||| sstatusSpie }
  s.setThread tid fun th => { th with kernelSp := stackTop, trapFrame := frame }

def installThread (tid : Nat) (name : Option String) (entry arg : U64) (k : Kernel) :
    Except Panic Kernel :=
  if !tidIsValid tid then .error "invalid thread install tid"
  else
    let s := k.sched.setThread tid fun th =>
      { th with
        tid := tid
        state := .ready
        waitReason := .none
        waitQueue := 0
        quantumTicks := 0
        inReadyQueue := false
        inSleepQueue := false
        inWaitQueue := false
        wakeTick := 0
        waitResult := waitOk
        entry := entry
        arg := arg
        name := name
        addressSpace := 0
        userTask := 0 }
    let s := s.usercopyProbeClear tid
    .ok { k with sched := prepareInitialTrapFrame tid k.machine.image s }

/-- `&task->address_space`, after the state word of `user_task_t`. -/
def userTaskAddressSpace (task : U64) : U64 := task + 8

def installUserThread (tid : Nat) (name : Option String) (task : U64) (k : Kernel) :
    Except Panic Kernel :=
  let frame := userTaskTrapFrame task k
  if !tidIsValid tid ∨ !userTaskIsReady task k ∨ frame = 0 then .error "invalid user thread install"
  else
    let stackTop := threadStackTop tid k.machine.image
    let s := k.sched.setThread tid fun th =>
      { th with
        tid := tid
        state := .ready
        waitReason := .none
        waitQueue := 0
        kernelSp := stackTop
        trapFrame := frame
        addressSpace := userTaskAddressSpace task
        userTask := task
        quantumTicks := 0
        inReadyQueue := false
        inSleepQueue := false
        inWaitQueue := false
        wakeTick := 0
        waitResult := waitOk
        entry := 0
        arg := 0
        name := name }
    let (result, k) := userTaskSetKernelSp task stackTop { k with sched := s }
    if result < 0 then .error "user task kernel stack attach failed"
    else .ok { k with sched := k.sched.usercopyProbeClear tid }

/-- The table entry that `thread_init` gives every thread. -/
def unusedThread (tid : Nat) : Thread :=
  { tid := tid
    state := .unused
    waitReason := .none
    waitQueue := 0
    kernelSp := 0
    trapFrame := 0
    addressSpace := 0
    userTask := 0
    quantumTicks := 0
    inReadyQueue := false
    inSleepQueue := false
    inWaitQueue := false
    wakeTick := 0
    waitResult := waitOk
    entry := 0
    arg := 0
    name := none }

def threadInit (k : Kernel) : Except Panic Kernel := do
  let (irqState, k) := k.irqSave
  let s :=
    { k.sched with
      threads := fun tid => if tid < threadMax then unusedThread tid else k.sched.threads tid
      usercopyProbes := fun tid => if tid < threadMax then noProbe else k.sched.usercopyProbes tid
      readyQueue := { k.sched.readyQueue with head := 0, tail := 0, count := 0 }
      sleepQueue := []
      currentThread := none
      threadsStarted := false
      threadsInitialized := true
      rescheduleRequested := false
      preemptDisableDepth := 0 }
  let k ← installThread threadNullTid (some "null") k.machine.image.nullTask 0 { k with sched := s }
  .ok (k.irqRestore irqState)

/-- The first table entry that creation may take. -/
def Sched.freeTid (s : Sched) : Option Nat :=
  (List.range' 1 (threadMax - 1)).find? fun tid =>
    (s.threads tid).state = .unused || (s.threads tid).state = .exited

def threadCreate (name : Option String) (entry arg : U64) (k : Kernel) : Except Panic (Int × Kernel) :=
  if !k.sched.threadsInitialized ∨ entry = 0 then .ok (-1, k)
  else
    let (irqState, k) := k.irqSave
    match k.sched.freeTid with
    | none => .ok (-1, k.irqRestore irqState)
    | some tid => do
      let k ← installThread tid name entry arg k
      let s ← k.sched.readyEnqueue tid
      .ok (tid, Kernel.irqRestore { k with sched := s } irqState)

def threadCreateUser (name : Option String) (task : U64) (k : Kernel) : Except Panic (Int × Kernel) :=
  if !k.sched.threadsInitialized ∨ !userTaskIsReady task k then .ok (-1, k)
  else
    let (irqState, k) := k.irqSave
    match k.sched.freeTid with
    | none => .ok (-1, k.irqRestore irqState)
    | some tid => do
      let k ← installUserThread tid name task k
      let s ← k.sched.readyEnqueue tid
      .ok (tid, Kernel.irqRestore { k with sched := s } irqState)

/-- `thread_start` up to its trap return: the frame of the first thread. Interrupts stay masked
until that frame is restored. -/
def threadStart (k : Kernel) : Except Panic (U64 × Kernel) :=
  if !k.sched.threadsInitialized ∨ k.sched.threadsStarted then
    .error "thread_start called before init or after start"
  else do
    let (_, k) := k.irqSave
    let (next, s) ← k.sched.pickNextThread
    let s := s.setThread next fun th => { th with state := .running, quantumTicks := 0 }
    let s := { s with currentThread := some next, threadsStarted := true }
    .ok ((s.threads next).trapFrame, { k with sched := s })

def threadCurrentTid (k : Kernel) : Nat :=
  match k.sched.currentThread with
  | none => threadNullTid
  | some current => (k.sched.threads current).tid

/-! ## User copy probes -/

def threadUsercopyProbeBegin (probe : UsercopyProbe) (k : Kernel) : Int × Kernel :=
  let (irqState, k) := k.irqSave
  match k.sched.currentThread with
  | none => (-1, k.irqRestore irqState)
  | some current =>
    let tid := (k.sched.threads current).tid
    if tid = threadNullTid ∨ probe.pcStart ≥ probe.pcEnd ∨ probe.fixupPc = 0 ∨
        probe.userStart ≥ probe.userEnd ∨ !trapCauseIsUsercopyRecoverable probe.faultCause then
      (-1, k.irqRestore irqState)
    else if (k.sched.usercopyProbes tid).active then (-1, k.irqRestore irqState)
    else
      let probes := Function.update k.sched.usercopyProbes tid { probe with active := true }
      (0, Kernel.irqRestore { k with sched := { k.sched with usercopyProbes := probes } } irqState)

def threadUsercopyProbeEnd (k : Kernel) : Kernel :=
  let (irqState, k) := k.irqSave
  match k.sched.currentThread with
  | none => k.irqRestore irqState
  | some current =>
    let tid := (k.sched.threads current).tid
    if tid = threadNullTid then k.irqRestore irqState
    else Kernel.irqRestore { k with sched := k.sched.usercopyProbeClear tid } irqState

/-- Whether the page fault in `frame` is one the current thread's probe expects; if so the frame
resumes at the fixup. -/
def threadUsercopyProbeRecover (frame : U64) (cause : U64) (k : Kernel) : Bool × Kernel :=
  match k.sched.currentThread with
  | none => (false, k)
  | some current =>
    let tid := (k.sched.threads current).tid
    let probe := k.sched.usercopyProbes tid
    let f := k.sched.frames frame
    if frame = 0 ∨ tid = threadNullTid ∨ !trapCauseIsUsercopyRecoverable cause then (false, k)
    else if !probe.active ∨ cause ≠ probe.faultCause ∨ f.mepc < probe.pcStart ∨ f.mepc ≥ probe.pcEnd ∨
        f.mtval < probe.userStart ∨ f.mtval ≥ probe.userEnd then (false, k)
    else
      let k := k.setFrame frame fun f => { f with mepc := probe.fixupPc }
      let probes := Function.update k.sched.usercopyProbes tid { probe with active := false }
      (true, { k with sched := { k.sched with usercopyProbes := probes } })

/-! ## Timer ticks -/

/-- The quantum accounting of `thread_on_timer_tick`. -/
def Sched.chargeQuantum (s : Sched) : Sched :=
  match s.currentThread with
  | none => s
  | some current =>
    if (s.threads current).tid = threadNullTid ∨ (s.threads current).state ≠ .running then s
    else
      let s := if (s.threads current).quantumTicks < threadQuantumTicks then
          s.setThread current fun th => { th with quantumTicks := th.quantumTicks + 1 }
        else s
      if (s.threads current).quantumTicks ≥ threadQuantumTicks then { s with rescheduleRequested := true }
      else s

def threadOnTimerTick (k : Kernel) : Except Panic Kernel :=
  if !k.sched.threadsStarted then .ok k
  else do
    let s ← k.sched.wakeSleepers k.timer.ticks
    .ok { k with sched := s.chargeQuantum }

/-! ## Switches -/

/-- The fields that `switch_to_next_from_trap` resets in a thread that exits. -/
def Thread.retire (th : Thread) : Thread :=
  { th with
    trapFrame := 0
    kernelSp := 0
    quantumTicks := 0
    waitReason := .none
    waitQueue := 0
    inReadyQueue := false
    inSleepQueue := false
    inWaitQueue := false
    wakeTick := 0
    waitResult := waitOk
    addressSpace := 0
    userTask := 0
    state := .exited }

/-- The fields set in a thread that is switched out but stays ready. -/
def Thread.requeue (frame sp : U64) (th : Thread) : Thread :=
  { th with trapFrame := frame, kernelSp := sp, state := .ready }

/-- The fields that `sleep_current_from_trap` and `block_current_from_trap` set before they put the
thread in a queue. -/
def Thread.beginBlock (frame sp : U64) (reason : ThreadWaitReason) (th : Thread) : Thread :=
  { th with
    trapFrame := frame
    kernelSp := sp
    quantumTicks := 0
    waitReason := reason
    waitResult := waitOk
    state := .blocked }

/-- The branch of `switch_to_next_from_trap` that requeues the current thread. -/
def requeueCurrent (frame : U64) (prev : Nat) (s : Sched) : Except Panic Sched :=
  if (s.threads prev).tid = threadNullTid then .error "attempted to requeue null thread"
  else
    let s := s.setThread prev (Thread.requeue frame (s.frames frame).sp)
    s.readyEnqueue (s.threads prev).tid

/-- Mark the user task of a thread that exits, if it has one. -/
def exitUserTask (frame task : U64) (k : Kernel) : Except Panic Kernel :=
  if task = 0 then .ok k
  else
    let f := k.sched.frames frame
    let (result, k) := userTaskMarkExited task f.a0 k
    if f.mstatus &&& sstatusSpp ≠ 0 ∨ result < 0 then .error "user task exit invariant violation"
    else .ok k

/-- The branch of `switch_to_next_from_trap` in which the current thread exits: the user task to
destroy after the switch, or null. -/
def retireCurrent (frame : U64) (prev : Nat) (k : Kernel) : Except Panic (U64 × Kernel) :=
  let thread := k.sched.threads prev
  if thread.tid = threadNullTid then .error "null thread cannot exit"
  else do
    let k ← exitUserTask frame thread.userTask k
    let s := (k.sched.setThread prev Thread.retire).usercopyProbeClear thread.tid
    .ok (thread.userTask, { k with sched := s })

/-- The two branches of `switch_to_next_from_trap`. -/
def leaveCurrent (frame : U64) (requeue : Bool) (prev : Nat) (k : Kernel) :
    Except Panic (U64 × Kernel) :=
  if requeue then do
    let s ← requeueCurrent frame prev k.sched
    .ok (0, { k with sched := s })
  else retireCurrent frame prev k

/-- Destroy the user task of a thread that has exited, if it had one. -/
def destroyExitedTask (task : U64) (k : Kernel) : Except Panic Kernel :=
  if task = 0 then .ok k
  else do
    let (result, k) ← userTaskDestroy task k
    if result < 0 then .error "user task destroy failed" else .ok k

def switchToNextFromTrap (frame : U64) (requeue : Bool) (k : Kernel) : Except Panic (U64 × Kernel) :=
  let (irqState, k) := k.irqSave
  let k := { k with sched := k.sched.preemptDisable }
  match k.sched.currentThread with
  | none => .error "trap switch without running thread"
  | some prev =>
    if (k.sched.threads prev).state ≠ .running then .error "trap switch without running thread"
    else do
      let (exitedUserTask, k) ← leaveCurrent frame requeue prev k
      let (nextFrame, s) ← k.sched.dispatchNext
      let k ← destroyExitedTask exitedUserTask { k with sched := s }
      let s ← k.sched.preemptEnable
      .ok (nextFrame, Kernel.irqRestore { k with sched := s } irqState)

def threadExitCurrentFromTrap (frame : U64) : Kernel → Except Panic (U64 × Kernel) :=
  switchToNextFromTrap frame false

def switchNullToNextFromTrap (frame : U64) (k : Kernel) : Except Panic (U64 × Kernel) :=
  let (irqState, k) := k.irqSave
  let s := k.sched.preemptDisable
  match s.currentThread with
  | none => .error "null switch without running null thread"
  | some prev =>
    if (s.threads prev).tid ≠ threadNullTid ∨ (s.threads prev).state ≠ .running then
      .error "null switch without running null thread"
    else do
      let s := s.setThread prev (Thread.requeue frame (s.frames frame).sp)
      let (next, s) ← s.pickNextThread
      if (s.threads next).tid = threadNullTid ∨ (s.threads next).trapFrame = 0 then
        .error "null switch without ready real thread"
      else do
        let s := s.runThread next
        let nextFrame := (s.threads next).trapFrame
        let s ← s.preemptEnable
        .ok (nextFrame, Kernel.irqRestore { k with sched := s } irqState)

def threadYieldCurrentFromTrap (frame : U64) (k : Kernel) : Except Panic (U64 × Kernel) :=
  match k.sched.currentThread with
  | none => .ok (frame, k)
  | some current =>
    if !k.sched.threadsStarted then .ok (frame, k)
    else if k.sched.readyEmpty then
      .ok (frame, { k with sched := k.sched.setThread current fun th => { th with quantumTicks := 0 } })
    else if (k.sched.threads current).tid = threadNullTid then switchNullToNextFromTrap frame k
    else switchToNextFromTrap frame true k

def sleepCurrentFromTrap (frame : U64) (ticks : U64) (k : Kernel) : Except Panic (U64 × Kernel) :=
  let (irqState, k) := k.irqSave
  let s := k.sched.preemptDisable
  match s.currentThread with
  | none => .error "sleep without running thread"
  | some prev =>
    if (s.threads prev).state ≠ .running then .error "sleep without running thread"
    else if (s.threads prev).tid = threadNullTid then .error "null thread cannot sleep"
    else do
      let wakeTick := k.timer.ticks + ticks
      let s := s.setThread prev (Thread.beginBlock frame (s.frames frame).sp .sleep)
      let s ← s.sleepEnqueue (s.threads prev).tid wakeTick
      let (nextFrame, s) ← s.dispatchNext
      let s ← s.preemptEnable
      .ok (nextFrame, Kernel.irqRestore { k with sched := s } irqState)

def threadSleepCurrentFromTrap (frame : U64) (ticks : U64) (k : Kernel) : Except Panic (U64 × Kernel) :=
  match k.sched.currentThread with
  | none => .ok (frame, k)
  | some current =>
    if !k.sched.threadsStarted then .ok (frame, k)
    else if (k.sched.threads current).tid = threadNullTid then .error "null thread cannot sleep"
    else if ticks = 0 then threadYieldCurrentFromTrap frame k
    else sleepCurrentFromTrap frame ticks k

def blockCurrentFromTrap (frame queue : U64) (timeoutTicks : U64) (k : Kernel) :
    Except Panic (U64 × Kernel) :=
  let (irqState, k) := k.irqSave
  let s := k.sched.preemptDisable
  match s.currentThread with
  | none => .error "wait without running thread"
  | some prev =>
    if (s.threads prev).state ≠ .running then .error "wait without running thread"
    else if (s.threads prev).tid = threadNullTid then .error "null thread cannot wait"
    else do
      let reason := if timeoutTicks = 0 then .queue else .queueTimeout
      let s := s.setThread prev (Thread.beginBlock frame (s.frames frame).sp reason)
      let s ← s.waitEnqueue queue (s.threads prev).tid
      let s ← s.sleepEnqueueIfTimed timeoutTicks (s.threads prev).tid (k.timer.ticks + timeoutTicks)
      let (nextFrame, s) ← s.dispatchNext
      let s ← s.preemptEnable
      .ok (nextFrame, Kernel.irqRestore { k with sched := s } irqState)

def threadHandleControlTrapFromTrap (frame : U64) (k : Kernel) : Except Panic (U64 × Kernel) :=
  let op := (k.sched.frames frame).a7
  let arg0 := (k.sched.frames frame).a0
  let k := k.setFrame frame fun f => { f with mepc := f.mepc + 4 }
  if !k.sched.threadsStarted then .ok (frame, k)
  else if op = threadTrapYield then threadYieldCurrentFromTrap frame k
  else if op = threadTrapExit then switchToNextFromTrap frame false k
  else if op = threadTrapSleep then threadSleepCurrentFromTrap frame arg0 k
  else if op = threadTrapWait then
    if arg0 = 0 then .error "wait control trap null queue"
    else match k.sched.currentThread with
      | none => .ok (frame, k)
      | some current =>
        if (k.sched.threads current).tid = threadNullTid then .error "null thread cannot wait"
        else blockCurrentFromTrap frame arg0 0 k
  else if op = threadTrapWaitTimeout then
    let ticks := (k.sched.frames frame).a1
    let expired := k.setFrame frame fun f => { f with a0 := intReg waitTimeout }
    if arg0 = 0 then .error "timed wait control trap null queue"
    else match k.sched.currentThread with
      | none => .ok (frame, expired)
      | some current =>
        if (k.sched.threads current).tid = threadNullTid then .error "null thread cannot timed wait"
        else if ticks = 0 then .ok (frame, expired)
        else blockCurrentFromTrap frame arg0 ticks k
  else .error "unknown thread control trap"

def threadMaybePreemptFromTrap (frame : U64) (k : Kernel) : Except Panic (U64 × Kernel) :=
  if !k.sched.rescheduleRequested then .ok (frame, k)
  else if !k.sched.currentIsPreemptible then
    match k.sched.currentThread with
    | none => .ok (frame, k)
    | some current =>
      if k.sched.threadsStarted ∧ (k.sched.threads current).tid ≠ threadNullTid ∧ k.sched.readyEmpty then
        let s := k.sched.setThread current fun th => { th with quantumTicks := 0 }
        .ok (frame, { k with sched := { s with rescheduleRequested := false } })
      else .ok (frame, k)
  else switchToNextFromTrap frame true k

/-- The user task that a frame belongs to, null when it is not a user frame of the current thread. -/
def threadCurrentUserTaskForFrame (frame : U64) (k : Kernel) : U64 :=
  match k.sched.currentThread with
  | none => 0
  | some current =>
    let thread := k.sched.threads current
    if frame = 0 ∨ thread.userTask = 0 ∨ (k.sched.frames frame).mstatus &&& sstatusSpp ≠ 0 then 0
    else if thread.trapFrame = frame then thread.userTask
    else if userTaskTrapFrame thread.userTask k ≠ frame then 0
    else thread.userTask

def threadSetCurrentTrapFrameFromTrap (frame : U64) (k : Kernel) : Kernel :=
  match k.sched.currentThread with
  | none => k
  | some current =>
    if frame = 0 then k
    else { k with sched := k.sched.setThread current fun th => { th with trapFrame := frame } }

end QemuRtos
