import QemuRtos.Memory.PageAlloc

/-!
# Queues and wake-ups of the scheduler (`core/thread.c`)

The static helpers of `thread.c` that move a thread between the ready queue, the sleep queue and
the wait queues. Every one checks the thread's state and membership flags first and panics when
they do not fit.
-/

namespace QemuRtos

open Lib

/-- `THREAD_MAX - 1`, the capacity of every thread queue. -/
def queueCap : Nat := threadMax - 1

def tidIsValid (tid : Nat) : Bool := tid < threadMax

def tidIsReal (tid : Nat) : Bool := threadNullTid < tid && tid < threadMax

/-- A C integer in a register, sign-extended. -/
def intReg (i : Int) : U64 := BitVec.ofInt 64 i

/-- `tid_queue_pop` and `wait_queue_pop`. -/
def tidQueuePop (queue : RingBuffer Nat) : Nat × RingBuffer Nat :=
  match queue.pop queueCap with
  | none => (threadInvalidTid, queue)
  | some popped => popped

def noProbe : UsercopyProbe :=
  { active := false, pcStart := 0, pcEnd := 0, fixupPc := 0, userStart := 0, userEnd := 0, faultCause := 0 }

namespace Sched

def usercopyProbeClear (tid : Nat) (s : Sched) : Sched :=
  if tidIsValid tid then { s with usercopyProbes := Function.update s.usercopyProbes tid noProbe } else s

def waitQueuePush (queue : U64) (tid : Nat) (s : Sched) : Except Panic Sched :=
  match (s.waitQueues queue).ring.push queueCap tid with
  | none => .error "wait queue full"
  | some ring =>
    let waitQueue := { s.waitQueues queue with ring := ring }
    .ok { s with waitQueues := Function.update s.waitQueues queue waitQueue }

def waitQueuePop (queue : U64) (s : Sched) : Nat × Sched :=
  let (tid, ring) := tidQueuePop (s.waitQueues queue).ring
  let waitQueue := { s.waitQueues queue with ring := ring }
  (tid, { s with waitQueues := Function.update s.waitQueues queue waitQueue })

/-- `wait_queue_remove`; `none` for its result `-1`. -/
def waitQueueRemove (queue : U64) (tid : Nat) (s : Sched) : Option Sched :=
  match (s.waitQueues queue).ring.remove queueCap tid with
  | none => none
  | some ring =>
    let waitQueue := { s.waitQueues queue with ring := ring }
    some { s with waitQueues := Function.update s.waitQueues queue waitQueue }

def sleepQueuePeek (s : Sched) : Nat := s.sleepQueue.headD threadInvalidTid

/-- Insert before the first sleeper that wakes later. -/
def sleepQueueInsert (tid : Nat) (s : Sched) : Except Panic Sched :=
  if s.sleepQueue.length = queueCap then .error "sleep queue full"
  else
    let notLater := fun i => (s.threads i).wakeTick ≤ (s.threads tid).wakeTick
    .ok { s with sleepQueue := s.sleepQueue.takeWhile notLater ++ tid :: s.sleepQueue.dropWhile notLater }

def sleepQueuePopHead (s : Sched) : Nat × Sched :=
  (s.sleepQueue.headD threadInvalidTid, { s with sleepQueue := s.sleepQueue.tail })

/-- `sleep_queue_remove`; `none` for its result `-1`. -/
def sleepQueueRemove (tid : Nat) (s : Sched) : Option Sched :=
  if tid ∈ s.sleepQueue then some { s with sleepQueue := s.sleepQueue.erase tid } else none

def readyEnqueue (tid : Nat) (s : Sched) : Except Panic Sched :=
  let thread := s.threads tid
  if !tidIsReal tid then .error "attempted to enqueue non-real thread"
  else if thread.state ≠ .ready ∨ thread.inReadyQueue ∨ thread.inSleepQueue ∨ thread.inWaitQueue then
    .error "ready queue invariant violation"
  else match s.readyQueue.push queueCap tid with
    | none => .error "ready queue full"
    | some ring => .ok ({ s with readyQueue := ring }.setThread tid fun th => { th with inReadyQueue := true })

def readyDequeue (s : Sched) : Except Panic (Nat × Sched) :=
  let (tid, ring) := tidQueuePop s.readyQueue
  let s := { s with readyQueue := ring }
  if tid = threadInvalidTid then .ok (threadInvalidTid, s)
  else if !tidIsReal tid then .error "ready queue contained invalid tid"
  else if (s.threads tid).state ≠ .ready ∨ !(s.threads tid).inReadyQueue then
    .error "ready queue contained non-ready thread"
  else .ok (tid, s.setThread tid fun th => { th with inReadyQueue := false })

def sleepEnqueue (tid : Nat) (wakeTick : U64) (s : Sched) : Except Panic Sched :=
  let thread := s.threads tid
  if !tidIsReal tid then .error "attempted to sleep non-real thread"
  else if thread.state ≠ .blocked ∨ thread.inReadyQueue ∨ thread.inSleepQueue ∨
      (thread.waitReason ≠ .sleep ∧ thread.waitReason ≠ .queueTimeout) then
    .error "sleep queue invariant violation"
  else do
    let s := s.setThread tid fun th => { th with wakeTick := wakeTick }
    let s ← s.sleepQueueInsert tid
    .ok (s.setThread tid fun th => { th with inSleepQueue := true })

def waitEnqueue (queue : U64) (tid : Nat) (s : Sched) : Except Panic Sched :=
  let thread := s.threads tid
  if queue = 0 then .error "wait enqueue null queue"
  else if !tidIsReal tid then .error "attempted to block non-real thread"
  else if thread.state ≠ .blocked ∨ thread.inReadyQueue ∨ thread.inWaitQueue ∨
      (thread.waitReason ≠ .queue ∧ thread.waitReason ≠ .queueTimeout) ∨ thread.waitQueue ≠ 0 then
    .error "wait queue invariant violation"
  else do
    let s ← s.waitQueuePush queue tid
    .ok (s.setThread tid fun th => { th with inWaitQueue := true, waitQueue := queue })

def waitDequeue (queue : U64) (s : Sched) : Except Panic (Nat × Sched) :=
  let (tid, s) := s.waitQueuePop queue
  if tid = threadInvalidTid then .ok (threadInvalidTid, s)
  else if !tidIsReal tid then .error "wait queue contained invalid tid"
  else if (s.threads tid).state ≠ .blocked ∨ !(s.threads tid).inWaitQueue ∨
      (s.threads tid).waitQueue ≠ queue then
    .error "wait queue contained non-blocked thread"
  else .ok (tid, s.setThread tid fun th => { th with inWaitQueue := false, waitQueue := 0 })

def waitRemove (tid : Nat) (s : Sched) : Except Panic Sched :=
  let queue := (s.threads tid).waitQueue
  if queue = 0 ∨ !(s.threads tid).inWaitQueue then .error "wait remove invariant violation"
  else match s.waitQueueRemove queue tid with
    | none => .error "wait remove missing tid"
    | some s => .ok (s.setThread tid fun th => { th with inWaitQueue := false, waitQueue := 0 })

def timeoutRemove (tid : Nat) (s : Sched) : Except Panic Sched :=
  if !(s.threads tid).inSleepQueue then .error "timeout remove invariant violation"
  else match s.sleepQueueRemove tid with
    | none => .error "timeout remove missing tid"
    | some s => .ok (s.setThread tid fun th => { th with inSleepQueue := false, wakeTick := 0 })

/-- The part of `wake_blocked_thread` after the thread has left its queues: deliver the result in
the saved `a0` and make the thread ready. -/
def deliverResult (tid : Nat) (result : Int) (s : Sched) : Sched :=
  let s := s.setThread tid fun th => { th with waitReason := .none, wakeTick := 0, waitResult := result }
  let frame := (s.threads tid).trapFrame
  let s := if frame ≠ 0 then s.setFrame frame fun f => { f with a0 := intReg result } else s
  s.setThread tid fun th => { th with state := .ready }

/-- `if (thread->in_sleep_queue) timeout_remove(tid)`. -/
def timeoutRemoveIfQueued (tid : Nat) (s : Sched) : Except Panic Sched :=
  if (s.threads tid).inSleepQueue then s.timeoutRemove tid else .ok s

/-- `if (thread->in_wait_queue) wait_remove(tid)`. -/
def waitRemoveIfQueued (tid : Nat) (s : Sched) : Except Panic Sched :=
  if (s.threads tid).inWaitQueue then s.waitRemove tid else .ok s

def wakeBlockedThread (tid : Nat) (result : Int) (s : Sched) : Except Panic Sched :=
  if (s.threads tid).state ≠ .blocked ∨ (s.threads tid).inReadyQueue then
    .error "wake blocked invariant violation"
  else do
    let s ← s.timeoutRemoveIfQueued tid
    let s ← s.waitRemoveIfQueued tid
    (s.deliverResult tid result).readyEnqueue tid

def sleepDequeueExpired (now : U64) (s : Sched) : Except Panic (Nat × Sched) :=
  let tid := s.sleepQueuePeek
  let thread := s.threads tid
  if tid = threadInvalidTid then .ok (threadInvalidTid, s)
  else if thread.state ≠ .blocked ∨ !thread.inSleepQueue ∨
      (thread.waitReason ≠ .sleep ∧ thread.waitReason ≠ .queueTimeout) then
    .error "sleep queue contained non-timeout thread"
  else if thread.wakeTick > now then .ok (threadInvalidTid, s)
  else
    let (popped, s) := s.sleepQueuePopHead
    .ok (popped, s.setThread tid fun th => { th with inSleepQueue := false })

/-- The body of the loop of `wake_sleepers` for a thread that left the sleep queue. -/
def wakeExpired (tid : Nat) (s : Sched) : Except Panic Sched :=
  let thread := s.threads tid
  if thread.waitReason = .queueTimeout then
    if !thread.inWaitQueue then .error "timed wait missing wait queue membership"
    else do
      let s ← s.waitRemove tid
      s.wakeBlockedThread tid waitTimeout
  else if thread.waitReason = .sleep then
    (s.setThread tid fun th => { th with wakeTick := 0 }).wakeBlockedThread tid waitOk
  else .error "unexpected timeout wait reason"

/-- The loop of `wake_sleepers`, for at most `fuel` rounds. -/
def wakeSleepersLoop (now : U64) : Nat → Sched → Except Panic Sched
  | 0, _ => .error "wake_sleepers out of fuel"
  | fuel + 1, s => do
    let (tid, s) ← s.sleepDequeueExpired now
    if tid = threadInvalidTid then .ok s
    else do
      let s ← s.wakeExpired tid
      wakeSleepersLoop now fuel s

/-- Every round but the last takes one thread out of the sleep queue. -/
def wakeSleepers (now : U64) (s : Sched) : Except Panic Sched :=
  s.wakeSleepersLoop now (s.sleepQueue.length + 1)

def preemptDisable (s : Sched) : Sched := { s with preemptDisableDepth := s.preemptDisableDepth + 1 }

def preemptEnable (s : Sched) : Except Panic Sched :=
  if s.preemptDisableDepth = 0 then .error "preempt enable underflow"
  else .ok { s with preemptDisableDepth := s.preemptDisableDepth - 1 }

/-- The body of `wait_queue_wake_one`: the woken thread, if there is one. -/
def wakeOne (queue : U64) (s : Sched) : Except Panic (Nat × Sched) := do
  let (tid, s) ← s.waitDequeue queue
  if tid = threadInvalidTid then .ok (tid, s)
  else do
    let s ← s.wakeBlockedThread tid waitOk
    .ok (tid, s)

/-- The loop of `wait_queue_wake_all`, for at most `fuel` rounds. -/
def wakeAllLoop (queue : U64) : Nat → Sched → Except Panic Sched
  | 0, _ => .error "wait_queue_wake_all out of fuel"
  | fuel + 1, s => do
    let (tid, s) ← s.wakeOne queue
    if tid = threadInvalidTid then .ok s else wakeAllLoop queue fuel s

def pickNextThread (s : Sched) : Except Panic (Nat × Sched) := do
  let (tid, s) ← s.readyDequeue
  if tid = threadInvalidTid then .ok (threadNullTid, s) else .ok (tid, s)

def readyEmpty (s : Sched) : Bool := s.readyQueue.count = 0

def currentIsPreemptible (s : Sched) : Bool :=
  s.threadsStarted && s.currentThread.any fun current =>
    (s.threads current).tid ≠ threadNullTid && (s.threads current).state = .running &&
      s.preemptDisableDepth = 0 && !s.readyEmpty

/-- Make `next` the running thread. -/
def runThread (next : Nat) (s : Sched) : Sched :=
  { (s.setThread next fun th => { th with state := .running, quantumTicks := 0 }) with
    currentThread := some next
    rescheduleRequested := false }

/-- `if (timeout_ticks != 0) sleep_enqueue(tid, wake_tick)`. -/
def sleepEnqueueIfTimed (timeoutTicks : U64) (tid : Nat) (wakeTick : U64) (s : Sched) :
    Except Panic Sched :=
  if timeoutTicks ≠ 0 then s.sleepEnqueue tid wakeTick else .ok s

/-- The switch to the next thread, common to `switch_to_next_from_trap`, `sleep_current_from_trap`
and `block_current_from_trap`: the frame to return to. -/
def dispatchNext (s : Sched) : Except Panic (U64 × Sched) := do
  let (next, s) ← s.pickNextThread
  if (s.threads next).trapFrame = 0 then .error "next thread has no trap frame"
  else .ok ((s.threads next).trapFrame, s.runThread next)

end Sched

end QemuRtos
