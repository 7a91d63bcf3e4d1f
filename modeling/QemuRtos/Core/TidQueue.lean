import QemuRtos.State

/-!
# Rings of thread identifiers (`core/thread.c`)

`tid_queue_t`, and `wait_queue_t` without its name, with the 16-bit fields and the loops of the source, for any
`THREAD_MAX`. The capacity `cap` stands for `THREAD_MAX - 1`. Indices are computed in `int` or `unsigned int`, where
they do not overflow, and stored in `uint16_t`.
-/

namespace QemuRtos

open Lib

abbrev U16 := BitVec 16

def uint16Max : U16 := 0xFFFF

/-- `THREAD_INVALID_TID` in a `tid_t`. -/
def invalidTid : U16 := BitVec.ofNat 16 threadInvalidTid

structure TidQueue where
  tids : Nat → U16
  head : U16
  tail : U16
  count : U16

namespace TidQueue

variable (cap : Nat) (tid : U16) (queue : TidQueue)

/-- `(uint16_t)(n % (THREAD_MAX - 1))`. -/
def ringIndex (n : Nat) : U16 := BitVec.ofNat 16 (n % cap)

/-- `tid_queue_init` and `wait_queue_init`; the array keeps what it holds. -/
def init : TidQueue := { queue with head := 0, tail := 0, count := 0 }

def empty : Bool := queue.count = 0

def full : Bool := queue.count.toNat = cap

/-- What a push that finds room does, in both kinds of queue. -/
def append : TidQueue :=
  { queue with
    tids := Function.update queue.tids queue.tail.toNat tid
    tail := ringIndex cap (queue.tail.toNat + 1)
    count := queue.count + 1 }

/-- `tid_queue_push`. -/
def push : Int × TidQueue := if queue.full cap then (-1, queue) else (0, queue.append cap tid)

/-- `tid_queue_pop`. -/
def pop : U16 × TidQueue :=
  if queue.empty then (invalidTid, queue)
  else (queue.tids queue.head.toNat,
    { queue with head := ringIndex cap (queue.head.toNat + 1), count := queue.count - 1 })

def waitQueuePush : Except Panic TidQueue :=
  if queue.full cap then .error "wait queue full" else .ok (queue.append cap tid)

def waitQueuePop : U16 × TidQueue := queue.pop cap

/-- The search of `wait_queue_remove`, from the distance `i` on. -/
def findFrom (i : U16) : U16 :=
  if i < queue.count then
    let index := ringIndex cap (queue.head.toNat + i.toNat)
    if queue.tids index.toNat = tid then i else findFrom (i + 1)
  else uint16Max
termination_by queue.count.toNat - i.toNat
decreasing_by bv_omega

/-- The second loop of `wait_queue_remove`: close the gap in ring order, from the distance `i` on. -/
def closeGapFrom (i : U16) (tids : Nat → U16) : Nat → U16 :=
  if i.toNat + 1 < queue.count.toNat then
    let dst := ringIndex cap (queue.head.toNat + i.toNat)
    let src := ringIndex cap (queue.head.toNat + i.toNat + 1)
    closeGapFrom (i + 1) (Function.update tids dst.toNat (tids src.toNat))
  else tids
termination_by queue.count.toNat - i.toNat
decreasing_by bv_omega

def waitQueueRemove : Int × TidQueue :=
  let found := queue.findFrom cap tid 0
  if found = uint16Max then (-1, queue)
  else
    let tids := queue.closeGapFrom cap found queue.tids
    let count := queue.count - 1
    (0, { queue with tids := tids, count := count, tail := ringIndex cap (queue.head.toNat + count.toNat) })

end TidQueue

/-! ### Sequences of calls -/

inductive QueueOp
  | tidPush (tid : U16)
  | tidPop
  | waitPush (tid : U16)
  | waitPop
  | waitRemove (tid : U16)

inductive QueueOut
  | status (result : Int)
  | tid (tid : U16)
  | done
deriving DecidableEq

/-- A call on a queue. -/
def TidQueue.exec (cap : Nat) : QueueOp → TidQueue → Except Panic (QueueOut × TidQueue)
  | .tidPush tid, queue =>
    let (result, queue) := queue.push cap tid
    .ok (.status result, queue)
  | .tidPop, queue =>
    let (tid, queue) := queue.pop cap
    .ok (.tid tid, queue)
  | .waitPush tid, queue => do
    let queue ← queue.waitQueuePush cap tid
    .ok (.done, queue)
  | .waitPop, queue =>
    let (tid, queue) := queue.waitQueuePop cap
    .ok (.tid tid, queue)
  | .waitRemove tid, queue =>
    let (result, queue) := queue.waitQueueRemove cap tid
    .ok (.status result, queue)

end QemuRtos
