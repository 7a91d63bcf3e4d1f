import QemuRtos.Core.Sync
import QemuRtos.Core.ThreadSpec
import QemuRtos.Drivers.AccelSpec

/-!
# What a lock call does

`LockOutcome` lists the ways a lock call, or the rest of one, can run up to its return or its next wait.
The other calls on a mutex run to their end.
-/

namespace QemuRtos

open Lib

def LockCall.irqState : LockCall → Bool
  | .lock _ _ irqState => irqState
  | .lockTimeout _ _ irqState => irqState

def LockCall.timed : LockCall → Bool
  | .lock .. => false
  | .lockTimeout .. => true

/-- Where a lock call starts to run: at its beginning, with the ticks it may wait for, or after a wait that
left this value in `a0`. -/
inductive LockEntry
  | call (ticks : Option U64)
  | resume (a0 : U64)

theorem LockEntry.call_ne (ticks : Option U64) (a0 : U64) : LockEntry.call ticks ≠ .resume a0 := nofun

def LockEntry.ticks : LockEntry → Option U64
  | .call ticks => ticks
  | .resume _ => none

variable {k k' : Kernel} {mutex ticks : U64} {tid : Nat} {irqState : Bool} {p : Progress LockCall Int}
  {entry : LockEntry}

/-- Its caller owns the mutex, because it was free or because it was handed over; or the call has timed
out; or the mutex is owned and the caller waits for it. -/
inductive LockOutcome (k : Kernel) (call : LockCall) (entry : LockEntry) : Progress LockCall Int → Prop
  | acquired (hfree : (k.mutexes call.mutex).owner = mutexNoOwner) :
    LockOutcome k call entry
      (.ret waitOk ((k.setMutex call.mutex fun m => { m with owner := call.tid }).irqRestore call.irqState))
  | granted (howner : (k.mutexes call.mutex).owner = call.tid) (a0 : U64) (hentry : entry = .resume a0)
    (hresult : call.timed = true → regInt a0 ≠ waitTimeout) :
    LockOutcome k call entry (.ret waitOk (k.irqRestore call.irqState))
  | timedOut (htimed : call.timed = true) (hresult : ∀ a0, entry = .resume a0 → regInt a0 = waitTimeout) :
    LockOutcome k call entry (.ret waitTimeout (k.irqRestore call.irqState))
  | waits (hne : entry.ticks ≠ some 0) (htimed : call.timed = entry.ticks.isSome)
    (hst : k.sched.threadsStarted = true) (howned : (k.mutexes call.mutex).owner ≠ mutexNoOwner)
    (hother : (k.mutexes call.mutex).owner ≠ call.tid) :
    LockOutcome k call entry (.trap (waitTrap (mutexWaiters call.mutex) entry.ticks) call k.irqSave.2)

theorem requireThreadContext_ok (h : requireThreadContext k = .ok tid) :
    tid = threadCurrentTid k ∧ tid ≠ threadNullTid := by
  rw [requireThreadContext] at h
  split at h
  · cases h
  · rename_i hne
    cases h
    exact ⟨rfl, hne⟩

theorem mutexLockLoop_outcome (hne : (k.mutexes mutex).owner ≠ tid) (hticks : entry.ticks = none)
    (h : mutexLockLoop mutex tid irqState k.irqSave.2 = .ok p) :
    LockOutcome k (.lock mutex tid irqState) entry p := by
  rw [mutexLockLoop] at h
  split at h
  · rename_i howned
    obtain ⟨regs, hw, h⟩ := bind_eq_ok.mp h
    cases h
    obtain ⟨hst, rfl⟩ := waitQueueSleep_ok hw
    rw [← hticks]
    exact @LockOutcome.waits k (.lock mutex tid irqState) entry (by rw [hticks]; exact nofun) (by rw [hticks]; rfl) hst
      howned hne
  · rename_i hfree
    cases h
    exact @LockOutcome.acquired k (.lock mutex tid irqState) entry (not_not.mp hfree)

theorem mutexLock_outcome (h : mutexLock mutex k = .ok p) :
    threadCurrentTid k ≠ threadNullTid ∧ (k.mutexes mutex).owner ≠ threadCurrentTid k ∧
      LockOutcome k (.lock mutex (threadCurrentTid k) k.machine.sie) (.call none) p := by
  rw [mutexLock] at h
  split at h
  · cases h
  · obtain ⟨tid, hreq, h⟩ := bind_eq_ok.mp h
    obtain ⟨rfl, hnull⟩ := requireThreadContext_ok hreq
    split at h
    · cases h
    · rename_i hne
      exact ⟨hnull, hne, mutexLockLoop_outcome hne rfl h⟩

theorem mutexLockTimeout_outcome (h : mutexLockTimeout mutex ticks k = .ok p) :
    threadCurrentTid k ≠ threadNullTid ∧ (k.mutexes mutex).owner ≠ threadCurrentTid k ∧
      LockOutcome k (.lockTimeout mutex (threadCurrentTid k) k.machine.sie) (.call (some ticks)) p := by
  rw [mutexLockTimeout] at h
  split at h
  · cases h
  · obtain ⟨tid, hreq, h⟩ := bind_eq_ok.mp h
    obtain ⟨rfl, hnull⟩ := requireThreadContext_ok hreq
    split at h
    · cases h
    · rename_i hne
      refine ⟨hnull, hne, ?_⟩
      split at h
      · rename_i hfree
        cases h
        exact @LockOutcome.acquired k (.lockTimeout mutex _ k.machine.sie) _ hfree
      · rename_i howned
        split at h
        · cases h
          exact @LockOutcome.timedOut k (.lockTimeout mutex _ k.machine.sie) _ rfl nofun
        · obtain ⟨r, hw, h⟩ := bind_eq_ok.mp h
          split at h
          · obtain ⟨rfl, -⟩ := waitQueueSleepTimeout_ret hw
            cases h
            exact @LockOutcome.timedOut k (.lockTimeout mutex _ k.machine.sie) _ rfl nofun
          · obtain ⟨hst, rfl, hz⟩ := waitQueueSleepTimeout_trap hw
            cases h
            exact @LockOutcome.waits k (.lockTimeout mutex _ k.machine.sie) (.call (some ticks))
              (fun he => hz (Option.some.inj he)) rfl hst howned hne

/-- The rest of a lock call after its wait, with the result that the wait delivered in `a0`. -/
theorem lockResume_outcome {call : LockCall} {a0 : U64} (hsie : k.machine.sie = false)
    (h : call.resume a0 k = .ok p) : LockOutcome k call (.resume a0) p := by
  have hsave : k.irqSave.2 = k := by rw [Kernel.irqSave, ← hsie]
  cases call with
  | lock mutex tid irqState =>
    rw [LockCall.resume, mutexLockResume] at h
    split at h
    · rename_i howner
      cases h
      exact @LockOutcome.granted k (.lock mutex tid irqState) _ howner a0 rfl fun htimed => absurd htimed Bool.false_ne_true
    · rename_i hne
      rw [← hsave] at h
      exact mutexLockLoop_outcome hne rfl h
  | lockTimeout mutex tid irqState =>
    rw [LockCall.resume, mutexLockTimeoutResume] at h
    split at h
    · rename_i htimeout
      cases h
      exact @LockOutcome.timedOut k (.lockTimeout mutex tid irqState) _ rfl fun a he => by cases he; exact htimeout
    · rename_i hok
      split at h
      · cases h
      · rename_i howner
        cases h
        exact @LockOutcome.granted k (.lockTimeout mutex tid irqState) _ (not_not.mp howner) a0 rfl fun _ => hok

theorem LockOutcome.ret_cases {call : LockCall} {r : Int}
    (h : LockOutcome k call entry (.ret r k')) :
    r = waitOk ∧ (k'.mutexes call.mutex).owner = call.tid ∧
        (∀ m, m ≠ call.mutex → (k'.mutexes m).owner = (k.mutexes m).owner) ∧
        ((k.mutexes call.mutex).owner = mutexNoOwner ∨ (k.mutexes call.mutex).owner = call.tid) ∨
      r = waitTimeout ∧ k'.mutexes = k.mutexes ∧ call.timed = true ∧
        ∀ a0, entry = .resume a0 → regInt a0 = waitTimeout := by
  cases h with
  | acquired hfree =>
    refine .inl ⟨rfl, ?_, fun m hm => ?_, .inl hfree⟩
    · show (Function.update k.mutexes call.mutex _ call.mutex).owner = _
      rw [Function.update_self]
    · show (Function.update k.mutexes call.mutex _ m).owner = _
      rw [Function.update_of_ne hm]
  | granted howner => exact .inl ⟨rfl, howner, fun _ _ => rfl, .inr howner⟩
  | timedOut htimed hresult => exact .inr ⟨rfl, rfl, htimed, hresult⟩

/-- A timed lock call that does not wait is not woken without its mutex. -/
theorem mutexLockTimeout_ne_error :
    mutexLockTimeout mutex ticks k ≠ .error "timed mutex wake without ownership" := by
  unfold mutexLockTimeout requireThreadContext waitQueueSleepTimeout
  split
  · simp
  · dsimp only
    split
    · simp
    · simp only [ok_bind]
      split
      · simp
      · split
        · exact nofun
        · split
          · exact nofun
          · split
            · simp [mutexLockTimeoutResume]
            · split
              · simp
              · simp

/-! ### The calls that do not block -/

variable {Q : Set U64} {r : Int}

theorem mutexTrylock_ok (h : mutexTrylock mutex k = .ok (r, k')) :
    threadCurrentTid k ≠ threadNullTid ∧ (k.mutexes mutex).owner ≠ threadCurrentTid k ∧
      (r = 0 ∧ k' = k ∧ (k.mutexes mutex).owner ≠ mutexNoOwner ∨
        r = 1 ∧ k' = k.setMutex mutex (fun m => { m with owner := threadCurrentTid k }) ∧
          (k.mutexes mutex).owner = mutexNoOwner) := by
  rw [mutexTrylock] at h
  split at h
  · cases h
  · obtain ⟨tid, hreq, h⟩ := bind_eq_ok.mp h
    obtain ⟨rfl, hnull⟩ := requireThreadContext_ok hreq
    split at h
    · cases h
    · rename_i hne
      refine ⟨hnull, hne, ?_⟩
      split at h
      · rename_i howned
        cases h
        exact .inl ⟨rfl, rfl, howned⟩
      · rename_i hfree
        cases h
        exact .inr ⟨rfl, rfl, not_not.mp hfree⟩

theorem mutexUnlock_ok (hinv : SchedInv Q k.sched) (hq : mutexWaiters mutex ∈ Q)
    (h : mutexUnlock mutex k = .ok k') :
    (k.mutexes mutex).owner = threadCurrentTid k ∧ ∃ (next : Nat) (s' : Sched),
      k' = { k with sched := s' }.setMutex mutex (fun m => { m with owner := next }) ∧ SchedInv Q s' ∧
        (next = mutexNoOwner ∧ k.sched.waits (mutexWaiters mutex) = [] ∧ s' = k.sched ∨
          (k.sched.waits (mutexWaiters mutex)).head? = some next ∧ Woken Q next waitOk k.sched s') := by
  rw [mutexUnlock] at h
  split at h
  · cases h
  · obtain ⟨tid, hreq, h⟩ := bind_eq_ok.mp h
    obtain ⟨rfl, -⟩ := requireThreadContext_ok hreq
    split at h
    · cases h
    · rename_i howner
      obtain ⟨tid, s', heq, hs', hcase⟩ := waitQueueWakeOne_spec (k := k.irqSave.2) hinv hq
      obtain ⟨⟨next, k₁⟩, hwake, h⟩ := bind_eq_ok.mp h
      cases hwake.symm.trans heq
      cases h
      refine ⟨not_not.mp howner, if tid = threadInvalidTid then mutexNoOwner else tid, s', rfl, hs', ?_⟩
      rcases hcase with ⟨rfl, hnil, rfl⟩ | ⟨hhead, hw⟩
      · exact .inl ⟨rfl, hnil, rfl⟩
      · rw [if_neg (tidIsReal_ne_invalid hw.real)]
        exact .inr ⟨hhead, hw⟩

theorem mutexInit_ok {name : Option String} (hinv : SchedInv Q k.sched) (hq : mutexWaiters mutex ∉ Q)
    (h : mutexInit mutex name k = .ok k') :
    mutex ≠ 0 ∧ ∃ s', k' = { k with sched := s' }.setMutex mutex (fun _ => { owner := mutexNoOwner, name := name }) ∧
      s'.waits (mutexWaiters mutex) = [] ∧ s'.threads = k.sched.threads ∧ s'.frames = k.sched.frames ∧
      s'.statics = k.sched.statics ∧ (s'.ready = k.sched.ready ∧ s'.sleepQueue = k.sched.sleepQueue) ∧
      (∀ q ≠ mutexWaiters mutex, s'.waitQueues q = k.sched.waitQueues q) ∧
      SchedInv (insert (mutexWaiters mutex) Q) s' := by
  rw [mutexInit] at h
  split at h
  · cases h
  · rename_i hz
    by_cases hw : mutexWaiters mutex = 0
    · obtain ⟨k₁, hinit, -⟩ := bind_eq_ok.mp h
      simp only [waitQueueInit, hw, ↓reduceIte] at hinit
      cases hinit
    · obtain ⟨s', heq, hnil, hth, hfr, hrd, hsl, hst, hoth, hs'⟩ := waitQueueInit_spec
        (k := k.irqSave.2.setMutex mutex fun _ => { owner := mutexNoOwner, name := name }) hinv hq hw name
      obtain ⟨k₁, hinit, h⟩ := bind_eq_ok.mp h
      cases hinit.symm.trans heq
      cases h
      exact ⟨hz, s', rfl, hnil, hth, hfr, hst, ⟨hrd, hsl⟩, hoth, hs'⟩

end QemuRtos
