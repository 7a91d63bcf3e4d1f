import QemuRtos.Core.Blocking

/-!
# Mutexes (`core/sync.c`)

The lock calls mask interrupts, wait on the mutex's queue while it is owned, and find out after each
wait whether the unlocking thread handed the mutex to them. `LockCall` is the rest of a lock call
that waits.
-/

namespace QemuRtos

open Lib

def mutexNoOwner : Nat := threadInvalidTid

/-- `&mutex->waiters`. -/
def mutexWaiters (mutex : U64) : U64 := mutex + 8

/-- A lock call after its wait, with its locals. -/
inductive LockCall
  | lock (mutex : U64) (tid : Nat) (irqState : Bool)
  | lockTimeout (mutex : U64) (tid : Nat) (irqState : Bool)
deriving DecidableEq

def LockCall.mutex : LockCall → U64
  | .lock mutex _ _ => mutex
  | .lockTimeout mutex _ _ => mutex

def LockCall.tid : LockCall → Nat
  | .lock _ tid _ => tid
  | .lockTimeout _ tid _ => tid

def Kernel.setMutex (k : Kernel) (mutex : U64) (f : Mutex → Mutex) : Kernel :=
  { k with mutexes := Function.update k.mutexes mutex (f (k.mutexes mutex)) }

def requireThreadContext (k : Kernel) : Except Panic Nat :=
  let tid := threadCurrentTid k
  if tid = threadNullTid then .error "sync operation outside real thread context" else .ok tid

def mutexInit (mutex : U64) (name : Option String) (k : Kernel) : Except Panic Kernel :=
  if mutex = 0 then .error "mutex_init null mutex"
  else do
    let (irqState, k) := k.irqSave
    let k := k.setMutex mutex fun _ => { owner := mutexNoOwner, name := name }
    let k ← waitQueueInit (mutexWaiters mutex) name k
    .ok (k.irqRestore irqState)

/-- The loop of `mutex_lock`, from its test. -/
def mutexLockLoop (mutex : U64) (tid : Nat) (irqState : Bool) (k : Kernel) :
    Except Panic (Progress LockCall Int) :=
  if (k.mutexes mutex).owner ≠ mutexNoOwner then do
    let regs ← waitQueueSleep (mutexWaiters mutex) k
    .ok (.trap regs (.lock mutex tid irqState) k)
  else
    let k := k.setMutex mutex fun m => { m with owner := tid }
    .ok (.ret 0 (k.irqRestore irqState))

def mutexLock (mutex : U64) (k : Kernel) : Except Panic (Progress LockCall Int) :=
  if mutex = 0 then .error "mutex_lock null mutex"
  else do
    let (irqState, k) := k.irqSave
    let tid ← requireThreadContext k
    if (k.mutexes mutex).owner = tid then .error "recursive mutex lock"
    else mutexLockLoop mutex tid irqState k

/-- The loop of `mutex_lock`, from the return of its wait. -/
def mutexLockResume (mutex : U64) (tid : Nat) (irqState : Bool) (k : Kernel) :
    Except Panic (Progress LockCall Int) :=
  if (k.mutexes mutex).owner = tid then .ok (.ret 0 (k.irqRestore irqState))
  else mutexLockLoop mutex tid irqState k

/-- The loop of `mutex_lock_timeout`, from the result of its wait. -/
def mutexLockTimeoutResume (mutex : U64) (tid : Nat) (irqState : Bool) (result : Int) (k : Kernel) :
    Except Panic (Progress LockCall Int) :=
  if result = waitTimeout then .ok (.ret waitTimeout (k.irqRestore irqState))
  else if (k.mutexes mutex).owner ≠ tid then .error "timed mutex wake without ownership"
  else .ok (.ret waitOk (k.irqRestore irqState))

def mutexLockTimeout (mutex ticks : U64) (k : Kernel) : Except Panic (Progress LockCall Int) :=
  if mutex = 0 then .error "mutex_lock_timeout null mutex"
  else do
    let (irqState, k) := k.irqSave
    let tid ← requireThreadContext k
    if (k.mutexes mutex).owner = tid then .error "recursive mutex timed lock"
    else if (k.mutexes mutex).owner = mutexNoOwner then
      let k := k.setMutex mutex fun m => { m with owner := tid }
      .ok (.ret waitOk (k.irqRestore irqState))
    else if ticks = 0 then .ok (.ret waitTimeout (k.irqRestore irqState))
    else match ← waitQueueSleepTimeout (mutexWaiters mutex) ticks k with
      | .inl result => mutexLockTimeoutResume mutex tid irqState result k
      | .inr regs => .ok (.trap regs (.lockTimeout mutex tid irqState) k)

def mutexTrylock (mutex : U64) (k : Kernel) : Except Panic (Int × Kernel) :=
  if mutex = 0 then .error "mutex_trylock null mutex"
  else do
    let (irqState, k) := k.irqSave
    let tid ← requireThreadContext k
    if (k.mutexes mutex).owner = tid then .error "recursive mutex trylock"
    else if (k.mutexes mutex).owner ≠ mutexNoOwner then .ok (0, k.irqRestore irqState)
    else
      let k := k.setMutex mutex fun m => { m with owner := tid }
      .ok (1, k.irqRestore irqState)

def mutexUnlock (mutex : U64) (k : Kernel) : Except Panic Kernel :=
  if mutex = 0 then .error "mutex_unlock null mutex"
  else do
    let (irqState, k) := k.irqSave
    let tid ← requireThreadContext k
    if (k.mutexes mutex).owner ≠ tid then .error "mutex unlock by non-owner"
    else do
      let (nextOwner, k) ← waitQueueWakeOne (mutexWaiters mutex) k
      let owner := if nextOwner = threadInvalidTid then mutexNoOwner else nextOwner
      let k := k.setMutex mutex fun m => { m with owner := owner }
      .ok (k.irqRestore irqState)

/-- A lock call goes on after its trap, with the `a0` that the trap returned. -/
def LockCall.resume (call : LockCall) (a0 : U64) (k : Kernel) : Except Panic (Progress LockCall Int) :=
  match call with
  | .lock mutex tid irqState => mutexLockResume mutex tid irqState k
  | .lockTimeout mutex tid irqState => mutexLockTimeoutResume mutex tid irqState (regInt a0) k

end QemuRtos
