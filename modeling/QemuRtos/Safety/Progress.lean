import QemuRtos.Safety.Mutex
import QemuRtos.Safety.TrapReturn
import QemuRtos.Safety.TaskCopy
import QemuRtos.SystemAccel

/-!
# No panic

In every state of every run, a step whose caller keeps its promises succeeds: none of the checks of the scheduler,
of its queues, of the mutexes, of the trap return and of the accelerator driver that end in a panic can fail.
-/

namespace QemuRtos

open Lib

variable {Q : Set U64} {c t : Nat} {frame mstatus mutex queue cmd ticks : U64} {k k' k₁ : Kernel} {l : Leave}
  {e : TrapExit}

/-! ### Calls that wait -/

theorem waitQueueSleep_exists (hst : k.sched.threadsStarted = true) (hq : queue ≠ 0) :
    ∃ regs, waitQueueSleep queue k = .ok regs := by
  rw [waitQueueSleep, if_neg (by simp [hst]), if_neg hq]
  exact ⟨_, rfl⟩

theorem waitQueueSleepTimeout_exists (ticks : U64) (hst : k.sched.threadsStarted = true) (hq : queue ≠ 0) :
    ∃ r, waitQueueSleepTimeout queue ticks k = .ok r := by
  rw [waitQueueSleepTimeout, if_neg (by simp [hst]), if_neg hq]
  split
  · exact ⟨_, rfl⟩
  · exact ⟨_, rfl⟩

/-- A kernel thread that calls the lock functions. -/
structure Locks (mutex : U64) (k : Kernel) : Prop where
  mutex_ne : mutex ≠ 0
  waiters_ne : mutexWaiters mutex ≠ 0
  thread : threadCurrentTid k ≠ threadNullTid
  started : k.sched.threadsStarted = true

theorem Locks.context (h : Locks mutex k) : requireThreadContext k.irqSave.2 = .ok (threadCurrentTid k) :=
  if_neg h.thread

theorem mutexLock_exists (h : Locks mutex k) (hne : (k.mutexes mutex).owner ≠ threadCurrentTid k) :
    ∃ p, mutexLock mutex k = .ok p := by
  rw [mutexLock, if_neg h.mutex_ne]
  show ∃ p, (requireThreadContext k.irqSave.2 >>= fun tid =>
    if (k.mutexes mutex).owner = tid then Except.error "recursive mutex lock"
    else mutexLockLoop mutex tid k.machine.sie k.irqSave.2) = .ok p
  rw [h.context, ok_bind, if_neg hne, mutexLockLoop]
  by_cases howned : (k.irqSave.2.mutexes mutex).owner ≠ mutexNoOwner
  · obtain ⟨regs, heq⟩ := waitQueueSleep_exists (k := k.irqSave.2) h.started h.waiters_ne
    rw [if_pos howned, heq]
    exact ⟨_, rfl⟩
  · rw [if_neg howned]
    exact ⟨_, rfl⟩

theorem mutexLockTimeout_exists (ticks : U64) (h : Locks mutex k)
    (hne : (k.mutexes mutex).owner ≠ threadCurrentTid k) : ∃ p, mutexLockTimeout mutex ticks k = .ok p := by
  rw [mutexLockTimeout, if_neg h.mutex_ne]
  show ∃ p, (requireThreadContext k.irqSave.2 >>= _) = .ok p
  rw [h.context, ok_bind]
  split
  · rename_i howner
    exact absurd howner hne
  split
  · exact ⟨_, rfl⟩
  split
  · exact ⟨_, rfl⟩
  obtain ⟨r, heq⟩ := waitQueueSleepTimeout_exists (k := k.irqSave.2) ticks h.started h.waiters_ne
  cases r with
  | inr regs => exact ⟨_, bind_eq_ok.mpr ⟨_, heq, rfl⟩⟩
  | inl result =>
    -- a wait that does not block has timed out
    obtain ⟨rfl, -⟩ := waitQueueSleepTimeout_ret heq
    exact ⟨_, bind_eq_ok.mpr ⟨_, heq, if_pos rfl⟩⟩

theorem mutexTrylock_exists (h : Locks mutex k) (hne : (k.mutexes mutex).owner ≠ threadCurrentTid k) :
    ∃ r k', mutexTrylock mutex k = .ok (r, k') := by
  rw [mutexTrylock, if_neg h.mutex_ne]
  show ∃ r k', (requireThreadContext k.irqSave.2 >>= fun tid =>
    if (k.mutexes mutex).owner = tid then Except.error "recursive mutex trylock"
    else if (k.mutexes mutex).owner ≠ mutexNoOwner then .ok (0, k.irqSave.2.irqRestore k.machine.sie)
    else .ok (1, (k.irqSave.2.setMutex mutex fun m => { m with owner := tid }).irqRestore k.machine.sie)) = .ok (r, k')
  rw [h.context, ok_bind, if_neg hne]
  split
  · exact ⟨_, _, rfl⟩
  · exact ⟨_, _, rfl⟩

theorem mutexUnlock_exists (h : Locks mutex k) (hinv : SchedInv Q k.sched) (hq : mutexWaiters mutex ∈ Q)
    (howner : (k.mutexes mutex).owner = threadCurrentTid k) : ∃ k', mutexUnlock mutex k = .ok k' := by
  obtain ⟨tid, s', hwake, -, -⟩ := waitQueueWakeOne_spec (k := k.irqSave.2) hinv hq
  rw [mutexUnlock, if_neg h.mutex_ne]
  show ∃ k', (requireThreadContext k.irqSave.2 >>= fun tid =>
    if (k.mutexes mutex).owner ≠ tid then Except.error "mutex unlock by non-owner"
    else waitQueueWakeOne (mutexWaiters mutex) k.irqSave.2 >>= fun r => .ok ((r.2.setMutex mutex fun m =>
      { m with owner := if r.1 = threadInvalidTid then mutexNoOwner else r.1 }).irqRestore k.machine.sie)) = .ok k'
  rw [h.context, ok_bind, if_neg (not_not_intro howner), hwake]
  exact ⟨_, rfl⟩

theorem mutexInit_exists (name : Option String) (hz : mutex ≠ 0) (hw : mutexWaiters mutex ≠ 0) :
    ∃ k', mutexInit mutex name k = .ok k' := by
  rw [mutexInit, if_neg hz]
  show ∃ k', (waitQueueInit (mutexWaiters mutex) name
    (k.irqSave.2.setMutex mutex fun _ => { owner := mutexNoOwner, name := name }) >>= fun k' =>
      .ok (k'.irqRestore k.machine.sie)) = .ok k'
  rw [waitQueueInit, if_neg hw]
  exact ⟨_, rfl⟩

/-! ### The accelerator -/

theorem accelSubmitLoop_exists (sub : Submission) (hst : k.sched.threadsStarted = true)
    (hq : accelWaiters k.machine.image ≠ 0) : ∃ p, accelSubmitLoop sub k = .ok p := by
  rw [accelSubmitLoop]
  split
  · exact ⟨_, rfl⟩
  split
  · obtain ⟨regs, heq⟩ := waitQueueSleep_exists hst hq
    rw [heq]
    exact ⟨_, rfl⟩
  · obtain ⟨r, heq⟩ := waitQueueSleepTimeout_exists sub.ticks hst hq
    rw [heq]
    cases r with
    | inl result => exact ⟨_, rfl⟩
    | inr regs => exact ⟨_, rfl⟩

theorem submissionResume_exists (sub : Submission) (a0 : U64) (hst : k.sched.threadsStarted = true)
    (hq : accelWaiters k.machine.image ≠ 0) : ∃ p, sub.resume a0 k = .ok p := by
  rw [Submission.resume]
  split
  · exact accelSubmitLoop_exists sub hst hq
  split
  · exact ⟨_, rfl⟩
  · exact accelSubmitLoop_exists sub hst hq

theorem accelSubmitSyncTimeout_exists (cmd ticks : U64) (hst : k.sched.threadsStarted = true)
    (hq : accelWaiters k.machine.image ≠ 0) : ∃ p, accelSubmitSyncTimeout cmd ticks k = .ok p := by
  by_cases hc : Claims cmd ticks k
  · rw [accelSubmitSyncTimeout_claims hc]
    exact accelSubmitLoop_exists _ hst hq
  · obtain ⟨r, f, heq, -⟩ := accelSubmitSyncTimeout_refused hc
    exact ⟨_, heq⟩

theorem dispatchIrqs_exists (hinv : SchedInv Q k.sched) (hbound : k.accelBound = true)
    (hq : accelWaiters k.machine.image ∈ Q) : ∃ k', platformDispatchPendingIrqs k = .ok k' := by
  rw [platformDispatchPendingIrqs]
  split
  · exact ⟨_, rfl⟩
  rw [if_neg (by simp [hbound]), accelIrqHandler]
  split
  · exact ⟨_, rfl⟩
  dsimp only
  split
  · exact ⟨_, rfl⟩
  · obtain ⟨s', heq, -⟩ := waitQueueWakeAll_spec
      (k := ackAndStep (knownIrq k) (accelRecordCompletion k.accelMmio.irqStatus k.irqSave.2)) hinv hq
    exact ⟨_, bind_eq_ok.mpr ⟨_, heq, rfl⟩⟩

/-! ### The accelerator system call -/

theorem copyUserTaskLoop_exists (space : VmSpace) (kernelPtr userVa : U64) (len : Nat) (write : Bool) (copied : Nat)
    (m : Machine) : ∃ r mem, copyUserTaskLoop space kernelPtr userVa len write copied m = .ok (r, { m with mem := mem }) := by
  induction h : len - copied using Nat.strong_induction_on generalizing copied m with
  | _ n ih =>
    subst h
    rw [copyUserTaskLoop]
    split
    · rename_i hlt
      obtain ⟨entry, hget⟩ := vmGetMapping_lookup space (userVa + BitVec.ofNat 64 copied) m
      dsimp only
      rw [hget _ rfl]
      cases entry with
      | none => exact ⟨_, m.mem, rfl⟩
      | some pte =>
        rw [ok_bind]
        dsimp only
        rw [if_neg (not_not_intro rfl)]
        have hrest := and_pageMask_lt (userVa + BitVec.ofNat 64 copied)
        let copied' := copied + min (len - copied) (pageSize - ((userVa + BitVec.ofNat 64 copied) &&& pageMask).toNat)
        have hdec : len - copied' < len - copied := by
          simp only [copied']
          omega
        obtain ⟨r, mem, heq⟩ := ih _ hdec copied' _ rfl
        exact ⟨r, mem, heq⟩
    · exact ⟨_, m.mem, rfl⟩

theorem copyToUserTask_exists (task dst src len : U64) (k : Kernel) :
    ∃ r f, copyToUserTask task dst src len k = .ok (r, k.setMem f) := by
  rw [copyToUserTask]
  split
  · exact ⟨_, id, rfl⟩
  split
  · exact ⟨_, id, rfl⟩
  rw [copyUserTaskBytes]
  split
  · exact ⟨_, id, rfl⟩
  cases hready : userTaskIsReady task k with
  | false =>
    rw [usercopyTaskValidate, if_pos (by simp [hready])]
    exact ⟨_, id, rfl⟩
  | true =>
    obtain ⟨r, heq, -, -⟩ := usercopyTaskValidate_eq hready dst len true
    rw [heq, ok_bind]
    dsimp only
    split
    · exact ⟨_, id, rfl⟩
    · obtain ⟨r', mem, hloop⟩ := copyUserTaskLoop_exists (k.tasks task).addressSpace src dst len.toNat true 0 k.machine
      rw [hloop]
      exact ⟨r', fun _ => mem, rfl⟩

theorem accelReset_ok (hbound : k.accelBound = true) (hfree : k.accelRequest.inUse = false) :
    ∃ k', accelReset k = (accelOk, k') ∧ k'.machine.pages = k.machine.pages := by
  rw [accelReset, accelWriteControlRaw, if_neg (by decide), if_neg (by simp [hbound])]
  dsimp only [Kernel.irqSave]
  rw [if_neg (by simp [hfree]), if_neg (fun h => absurd h.2 (by decide))]
  exact ⟨_, rfl, rfl⟩

/-- The pages of an accelerator call are still its own. -/
structure PagesHeld (u : UserMemset) (p : PageAllocator) : Prop where
  cmd : p.Allocated u.cmd
  bounce : p.Allocated u.bouncePage
  ne : u.cmd ≠ u.bouncePage

theorem userAccelMemsetFinish_exists {u : UserMemset} {r : Int} (hok : PagesOk k.machine.pages)
    (h : PagesHeld u k.machine.pages)
    (hreset : r = userAccelErrTimeout → u.timeoutTicks ≠ 0 → k.accelBound = true ∧ k.accelRequest.inUse = false) :
    ∃ r' k', userAccelMemsetFinish u r k = .ok (r', k') := by
  obtain ⟨k₁, h₁, hp₁⟩ : ∃ k₁, userAccelResetAfterTimeout u r k = .ok k₁ ∧ k₁.machine.pages = k.machine.pages := by
    rw [userAccelResetAfterTimeout]
    by_cases ht : r = userAccelErrTimeout ∧ u.timeoutTicks ≠ 0
    · obtain ⟨hbound, hfree⟩ := hreset ht.1 ht.2
      obtain ⟨k₁, heq, hpages⟩ := accelReset_ok hbound hfree
      rw [if_pos ht, heq]
      exact ⟨k₁, if_neg (not_not_intro rfl), hpages⟩
    · rw [if_neg ht]
      exact ⟨k, rfl, rfl⟩
  obtain ⟨r₂, f, h₂⟩ : ∃ r₂ f, userAccelCopyback u r k₁ = .ok (r₂, k₁.setMem f) := by
    rw [userAccelCopyback]
    split
    · obtain ⟨r₂, f, heq⟩ := copyToUserTask_exists u.task u.userDst u.bouncePage u.len k₁
      rw [heq]
      exact ⟨_, f, rfl⟩
    · exact ⟨r, id, rfl⟩
  rw [← hp₁] at h hok
  obtain ⟨p₃, h₃, hok₃, hg₃⟩ := pageFree_spec (m := (k₁.setMem f).machine) hok h.bounce
  obtain ⟨p₄, h₄, -, -⟩ := pageFree_spec (m := { (k₁.setMem f).machine with pages := p₃ }) hok₃
    ((hg₃.allocated _).mpr ⟨h.cmd, h.ne⟩)
  exact ⟨_, _, bind_eq_ok.mpr ⟨_, h₁, bind_eq_ok.mpr ⟨_, h₂, bind_eq_ok.mpr ⟨_, h₃, bind_eq_ok.mpr ⟨_, h₄, rfl⟩⟩⟩⟩⟩

theorem Waited.pages {sub : Submission} {timedOut : Bool} {r : Int} (h : Waited sub timedOut k (.ret r k')) :
    k'.machine.pages = k.machine.pages := by
  generalize hp : Progress.ret r k' = p at h
  cases h with
  | waits => cases hp
  | completed => cases hp; rfl
  | timedOut => cases hp; rfl

theorem userAccelAfterSubmit_exists {u : UserMemset} {sub : Submission} {timedOut : Bool} {p : Progress Submission Int}
    (hw : Waited sub timedOut k p) (hok : PagesOk k.machine.pages) (h : PagesHeld u k.machine.pages) (hbound : k.accelBound = true) :
    ∃ p', userAccelAfterSubmit u p = .ok p' := by
  cases p with
  | trap regs next k' => exact ⟨_, rfl⟩
  | ret r k' =>
    obtain ⟨pending, hr⟩ := hw.released
    obtain ⟨r', k'', heq⟩ := userAccelMemsetFinish_exists (k := k') (r := r) (hw.pages ▸ hok) (hw.pages ▸ h)
      fun _ _ => ⟨hr.bound.trans hbound, hr.free⟩
    exact ⟨_, bind_eq_ok.mpr ⟨_, heq, rfl⟩⟩

theorem pageFreeIfPresent_exists (page : U64) {m : Machine} (h : PagesOk m.pages)
    (hp : page ≠ 0 → m.pages.Allocated page) : ∃ p', pageFreeIfPresent page m = .ok { m with pages := p' } ∧
      PagesOk p' ∧ ∀ b ≠ page, m.pages.Allocated b → p'.Allocated b := by
  rw [pageFreeIfPresent]
  by_cases hz : page = 0
  · rw [if_neg (not_not_intro hz)]
    exact ⟨m.pages, rfl, h, fun b _ hb => hb⟩
  · obtain ⟨p', heq, hok, hg⟩ := pageFree_spec h (hp hz)
    rw [if_pos hz]
    exact ⟨p', heq, hok, fun b hne hb => (hg.allocated b).mpr ⟨hb, hne⟩⟩

theorem userAccelSyscallMemset_exists {task : U64} (hz : frame ≠ 0) (htask : threadCurrentUserTaskForFrame frame k = task)
    (hready : userTaskIsReady task k = true) (hp : PagesOk k.machine.pages) (hbound : k.accelBound = true)
    (hst : k.sched.threadsStarted = true) (hq : accelWaiters k.machine.image ≠ 0) :
    ∃ p, userAccelSyscallMemset frame k = .ok p := by
  have hne : threadCurrentUserTaskForFrame frame k ≠ 0 := by
    rw [htask]
    exact (userTaskIsReady_iff.mp hready).1
  rw [userAccelSyscallMemset]
  dsimp only
  rw [if_neg hz, if_neg hne, htask, userAccelMemsetImpl]
  split
  · exact ⟨_, rfl⟩
  obtain ⟨r, heq, -, -⟩ := usercopyTaskValidate_eq hready (k.sched.frames frame).a0 (k.sched.frames frame).a1 true
  rw [heq, ok_bind]
  dsimp only
  split
  · exact ⟨_, rfl⟩
  obtain ⟨cmd, p₁, h₁, hok₁, hcase₁⟩ := pageAlloc_spec hp
  obtain ⟨bounce, p₂, h₂, hok₂, hcase₂⟩ := pageAlloc_spec (m := { k.machine with pages := p₁ }) hok₁
  rw [h₁, ok_bind]
  dsimp only
  rw [h₂, ok_bind]
  dsimp only
  have hcmd : cmd ≠ 0 → p₂.Allocated cmd := by
    intro hne
    have ht := (hcase₁.resolve_left fun h => hne h.1).2
    have hin : p₁.Allocated cmd := (ht.allocated cmd).mpr (.inr rfl)
    rcases hcase₂ with ⟨-, rfl, -⟩ | ⟨-, ht₂⟩
    · exact hin
    · exact (ht₂.allocated cmd).mpr (.inl hin)
  have hbounce : bounce ≠ 0 → p₂.Allocated bounce := fun hne =>
    ((hcase₂.resolve_left fun h => hne h.1).2.allocated bounce).mpr (.inr rfl)
  have hdistinct : cmd ≠ 0 → bounce ≠ 0 → cmd ≠ bounce := by
    rintro hne hne' rfl
    exact (hcase₂.resolve_left fun h => hne' h.1).2.fresh
      (((hcase₁.resolve_left fun h => hne h.1).2.allocated cmd).mpr (.inr rfl))
  split
  · -- one of the two pages is missing
    obtain ⟨p₃, h₃, hok₃, hkept⟩ :=
      pageFreeIfPresent_exists cmd (m := { k.machine with pages := p₂ }) hok₂ hcmd
    obtain ⟨p₄, h₄, -⟩ := pageFreeIfPresent_exists bounce (m := { k.machine with pages := p₃ }) hok₃
      fun hne => by
        by_cases hz : cmd = 0
        · rw [hz] at hkept
          exact hkept bounce hne (hbounce hne)
        · exact hkept bounce (hdistinct hz hne).symm (hbounce hne)
    rw [h₃, ok_bind, h₄, ok_bind]
    exact ⟨_, rfl⟩
  · rename_i hboth
    obtain ⟨hc₀, hb₀⟩ := not_or.mp hboth
    have hheld : PagesHeld
        { frame := frame, task := task, userDst := (k.sched.frames frame).a0, len := (k.sched.frames frame).a1,
          timeoutTicks := (k.sched.frames frame).a3, cmd := cmd, bouncePage := bounce } p₂ :=
      ⟨hcmd hc₀, hbounce hb₀, hdistinct hc₀ hb₀⟩
    let k₂ : Kernel := { k with machine := { k.machine with
      pages := p₂
      mem := writeMemsetCmd cmd bounce (k.sched.frames frame).a1 ((k.sched.frames frame).a2.setWidth 32)
        k.machine.mem } }
    show ∃ p, (accelSubmitSyncTimeout cmd (k.sched.frames frame).a3 k₂ >>= fun p => userAccelAfterSubmit _ p) = .ok p
    by_cases hclaim : Claims cmd (k.sched.frames frame).a3 k₂
    · rw [accelSubmitSyncTimeout_claims hclaim]
      obtain ⟨p, heq⟩ := accelSubmitLoop_exists (k := accelClaim cmd k₂.irqSave.2)
        { cmd := cmd, ticks := (k.sched.frames frame).a3, irqState := k₂.machine.sie } hst hq
      rw [heq, ok_bind]
      exact userAccelAfterSubmit_exists (accelSubmitLoop_waited heq) hok₂ hheld hbound
    · obtain ⟨r, f, heq, hticks⟩ := accelSubmitSyncTimeout_refused hclaim
      rw [heq, ok_bind]
      obtain ⟨r', k', hfin⟩ := userAccelMemsetFinish_exists (k := k₂.setMem f) (r := r) hok₂ hheld
        fun ht hne => absurd (hticks ht) hne
      exact ⟨_, bind_eq_ok.mpr ⟨_, hfin, rfl⟩⟩

namespace System

variable {σ σ' σ₀ : System} {op : Op} {saved : Nat → U64} {call : Call}

/-! ### Returns -/

theorem ExitOk.returns (he : ExitOk σ e c frame mstatus l call) (h : SysOk σ) (hs : SavedOk σ saved) :
    ∃ r k', trapReturnFromHandler e.frame e.kernel = .ok (r, k') := by
  obtain ⟨d, -, hcur, ⟨hready, hframe, hspp, -⟩ | ⟨-, hspp, -⟩⟩ := he.selects h hs
  · obtain ⟨k', heq⟩ := trapReturn_user hcur hready hframe hspp
    exact ⟨_, k', heq⟩
  · exact ⟨_, _, trapReturn_supervisor hspp⟩

theorem takeTrap_of_returns {mtime : Nat} {regs : TrapFrame} {r : TrapReturn}
    (hx : takeTrapExit mtime frame regs k = .ok (some e))
    (hr : trapReturnFromHandler e.frame e.kernel = .ok (r, k')) : takeTrap mtime frame regs k = .ok k' := by
  obtain ⟨⟨action, k₁⟩, h₁, hx⟩ := bind_eq_ok.mp hx
  cases action with
  | accelMemset frame => cases hx
  | resume next =>
    obtain rfl := Option.some.inj (Except.ok.inj hx)
    exact bind_eq_ok.mpr ⟨_, h₁, bind_eq_ok.mpr ⟨_, hr, rfl⟩⟩

theorem controlTrap_exists {t : ControlTrap} {site : TrapSite} (h : SysOk σ) (hs : SavedOk σ saved)
    (hcur : σ.kernel.sched.currentThread = some c) (hk : Entered c σ.kernel k₁)
    (hon : OnStack σ.kernel.machine.image c site.frame)
    (hok : ControlOk σ.queueSet c (ebreakFrame t k₁.machine.sie site.regs) k₁.sched) :
    ∃ k', controlTrap t site k₁ = .ok k' := by
  obtain ⟨e, mstatus, l, heq, hexit⟩ := exitOk_of_control h hcur hk hon hok .idle
  obtain ⟨r, k', hr⟩ := hexit.returns h hs
  exact ⟨k', takeTrap_of_returns heq hr⟩

theorem lockProgress_exists {lock : LockCall} {entry : LockEntry} {site : TrapSite} {p : Progress LockCall Int}
    (h : SysOk σ) (hs : SavedOk σ saved) (hcur : σ.kernel.sched.currentThread = some c) (hc : tidIsReal c)
    (hcall : σ.CallOk c (.lock lock)) (hon : OnStack σ.kernel.machine.image c site.frame)
    (ho : LockOutcome σ.kernel lock entry p) : ∃ σ', σ.lockProgress c lock.mutex site p = .ok σ' := by
  cases p with
  | ret r k => exact ⟨_, rfl⟩
  | trap regs next k =>
    cases ho with
    | waits =>
      obtain ⟨k', heq⟩ := controlTrap_exists h hs hcur (DriverChange.irqSave _).entered hon
        (controlOk_waitTrap hc (h.mutexQueue _ hcall.2.1).2)
      exact ⟨_, bind_eq_ok.mpr ⟨_, heq, rfl⟩⟩

theorem submitProgress_exists {sub : Submission} {site : TrapSite} {p : Progress Submission Int} (h : SysOk σ)
    (hs : SavedOk σ saved) (hcur : σ.kernel.sched.currentThread = some c) (hc : tidIsReal c)
    (hbound : σ.kernel.accelBound = true) (hon : OnStack σ.kernel.machine.image c site.frame)
    (hp : SubmitProgress σ.kernel sub p) : ∃ σ', σ.submitProgress c site p = .ok σ' := by
  cases p with
  | ret r k => exact ⟨_, rfl⟩
  | trap regs next k =>
    obtain ⟨hk, -, -, -, rfl⟩ := hp
    obtain ⟨k', heq⟩ := controlTrap_exists h hs hcur hk.entered hon (controlOk_waitTrap hc (h.accelQueue hbound))
    exact ⟨_, bind_eq_ok.mpr ⟨_, heq, rfl⟩⟩

theorem memsetProgress_exists {k₀ : Kernel} {u : UserMemset} {sub : Submission} {site : TrapSite} {saved₁ : Option U64}
    {p : Progress (UserMemset × Submission) Int} (h : SysOk σ) (hs : SavedOk σ saved)
    (hcur : σ.kernel.sched.currentThread = some c) (hk₀ : Entered c σ.kernel k₀)
    (hframe : UserFrame σ.kernel c frame (k₀.sched.frames frame).mstatus)
    (hbound : σ.kernel.accelBound = true) (hon : OnStack σ.kernel.machine.image c site.frame)
    (hp : MemsetProgress k₀ u sub p) (hsaved : saved₁ = some frame ∨ saved₁ = none) :
    ∃ σ', σ.memsetProgress c frame site p = .ok σ' := by
  obtain ⟨e, a, mstatus, l, call, heq, hexit, -⟩ :=
    memsetExit_ok h hcur hk₀ hframe (.inr hbound) hon hp hsaved
  obtain ⟨r, k', hr⟩ := hexit.returns h hs
  cases p with
  | ret result k =>
    obtain rfl := Option.some.inj (Except.ok.inj heq)
    exact ⟨_, bind_eq_ok.mpr ⟨_, hr, rfl⟩⟩
  | trap regs next k =>
    exact ⟨_, bind_eq_ok.mpr ⟨_, takeTrap_of_returns heq hr, rfl⟩⟩

/-! ### What holds in every reachable state -/

/-- The invariants that keep the panics away. -/
structure Sound (σ : System) : Prop where
  sys : SysOk σ
  saved : ∃ saved, SavedOk σ saved
  mutex : MutexInv σ
  accel : AccelOk σ
  bound : σ.kernel.accelBound = true

theorem accelWriteControlRaw_bound (control : U32) (k : Kernel) :
    (accelWriteControlRaw control k).2.accelBound = k.accelBound := by
  simp only [accelWriteControlRaw]
  split
  · rfl
  split
  · rfl
  split
  · rfl
  split
  · rfl
  split
  · rfl
  · rfl

theorem accelAckIrq_bound (mask : U32) (k : Kernel) : (accelAckIrq mask k).2.accelBound = k.accelBound := by
  simp only [accelAckIrq]
  split
  · rfl
  split
  · rfl
  split
  · rfl
  · rfl

theorem IrqOutcome.bound {Q : Set U64} (ho : IrqOutcome Q k k') : k'.accelBound = k.accelBound := by
  cases ho with
  | none => rfl
  | spurious => rfl
  | completed => rfl

theorem AccelStepped.bound (hs : AccelStepped σ op σ') (h : AccelOk σ) (hb : σ.kernel.accelBound = true) :
    σ'.kernel.accelBound = true := by
  cases hs with
  | kept hk => exact hk.kernel.bound.trans hb
  | waits hcur hs hk =>
    obtain ⟨-, -, -, hbound, -⟩ := h.submits hs
    exact hk.bound.trans hbound
  | returned hs hr hk =>
    obtain ⟨-, -, -, hbound, -⟩ := h.submits hs
    rcases hk with hk | hk
    · exact hk.bound.trans (hr.bound.trans hbound)
    · exact hk.bound.trans ((accelWriteControlRaw_bound _ _).trans (hr.bound.trans hbound))
  | ran => exact hb
  | written => exact (accelWriteControlRaw_bound _ _).trans hb
  | acked => exact (accelAckIrq_bound _ _).trans hb
  | dispatched hop ho => exact (IrqOutcome.bound ho).trans hb

theorem Runs.bound {l : List Op} (hrun : Runs σ l σ') (h : DriverOk σ) (hb : σ.kernel.accelBound = true) :
    σ'.kernel.accelBound = true := by
  induction hrun with
  | nil => exact hb
  | cons hp hx _ ih => exact ih (h.step hp.1 hp.2 hx) ((exec_accel h.sys hp.1 hx).bound h.accel hb)

theorem MutexRuns.sound {l : List Op} (hf : Fresh k) (hboot : boot k = .ok σ₀) (hrun : MutexRuns σ₀ l σ) :
    Sound σ := by
  obtain ⟨saved, hsaving⟩ := hrun.runs.saving
  obtain ⟨hsys, hsaved⟩ := hsaving.ok hf hboot
  have hb := boot_ok hf hboot
  exact ⟨hsys, ⟨saved, hsaved⟩, (hrun.inv hb.runOk hb.mutexInv).2, (hrun.runs.driverOk hf hboot).accel,
    hrun.runs.bound ⟨hb.ok, boot_accelOk hf hboot⟩ hb.bound⟩

theorem Sound.accelQueue (h : Sound σ) : accelWaiters σ.kernel.machine.image ∈ σ.queueSet := h.sys.accelQueue h.bound

theorem Sound.accelQueue_ne (h : Sound σ) : accelWaiters σ.kernel.machine.image ≠ 0 :=
  h.sys.sched.ok.queue_ne_zero h.accelQueue

/-- What the caller of a step promises beyond `Enabled`. Two steps are left out: the setup of a user task, and the
exit of a user thread, which also walk page tables that other code may have overwritten. -/
def Promised (op : Op) (σ : System) : Prop :=
  match op with
  | .userTaskInit _ _ => False
  | .ecall regs _ => regs.a7 ≠ userSyscallExit
  | .waitQueueInit queue _ => queue ≠ 0
  | .mutexInit mutex _ => mutex ≠ 0 ∧ mutexWaiters mutex ≠ 0
  | .accelSubmit _ _ _ => σ.kernel.sched.threadsStarted = true
  | .pageFree page => σ.kernel.machine.pages.Allocated page
  | .resume _ => match σ.calls σ.current with
    | .userMemset u _ => PagesHeld u σ.kernel.machine.pages
    | _ => True
  | _ => True

/-! ### One lemma for each kind of step -/

theorem InKernel.locks {mutex : U64} (h : SysOk σ) (hc : InKernel σ c) (hm : mutex ∈ σ.mutexes) :
    Locks mutex σ.kernel := by
  obtain ⟨hne, hq⟩ := h.mutexQueue mutex hm
  refine ⟨hne, h.sched.ok.queue_ne_zero hq, ?_, (h.sched.started hc.current).1⟩
  rw [threadCurrentTid_eq h hc.current]
  exact hc.real

theorem threadStart_exists (h : Sound σ) (hst : σ.kernel.sched.threadsStarted = false) :
    ∃ σ', exec .threadStart σ = .ok σ' := by
  obtain ⟨s₁, heq, hd, hs⟩ := threadStart_spec h.sys.sched hst
  have hhalt : Halted σ.kernel.sched := by
    rcases h.sys.sched.phase with ⟨-, -, hh⟩ | ⟨ht, -⟩
    · exact hh
    · rw [hst] at ht
      cases ht
  have hnone : σ.kernel.sched.currentThread = none := by
    rcases h.sys.sched.phase with ⟨-, hn, -⟩ | ⟨ht, -⟩
    · exact hn
    · rw [hst] at ht
      cases ht
  have hcur : s₁.currentThread = some σ.kernel.sched.next := congrArg (·.2.1) hd.statics
  have hrun := (hs.started hcur).2
  have ha := hd.anchor h.sys.sched.ok hhalt σ.kernel.sched.next
  simp only [Thread.anchor, Prod.mk.injEq] at ha
  obtain ⟨-, htask, hlive⟩ := ha
  have hrunning : (s₁.threads σ.kernel.sched.next).state = .running := hrun.state
  rw [hrunning] at hlive
  let k₁ : Kernel := { σ.kernel with
    machine := { σ.kernel.machine with sie := false }
    sched := { s₁ with threadsStarted := true, rescheduleRequested := σ.kernel.sched.rescheduleRequested } }
  have hreturn : ∃ r k', trapReturnFromHandler (σ.kernel.sched.threads σ.kernel.sched.next).trapFrame k₁ = .ok (r, k') := by
    by_cases hstack : (σ.kernel.sched.threads σ.kernel.sched.next).userTask = 0 ∨ σ.busy σ.kernel.sched.next = true
    · -- a kernel thread starts in the frame on its stack
      obtain ⟨saved, hsaved⟩ := h.saved
      have hframe := (hsaved _ hrun.lt hlive.symm (by rw [hnone]; exact fun he => by cases he) hstack).spp
      refine ⟨_, _, trapReturn_supervisor (k := k₁) ?_⟩
      show (s₁.frames _).mstatus &&& sstatusSpp ≠ 0
      rw [hd.frames]
      exact hframe
    · -- a user thread starts in the trap context of its task
      obtain ⟨hne, hidle⟩ := not_or.mp hstack
      have hreal : tidIsReal σ.kernel.sched.next := by
        refine (real_or_null hrun.lt).resolve_right fun hnull => ?_
        rw [hnull] at hne
        exact hne h.sys.sched.ok.null.task
      have hthread := h.sys.threads.thread _ hreal
      have hready := hthread.ready hne
      have hcontext := hthread.context hne (Bool.not_eq_true _ ▸ hidle)
      have htask₁ : (k₁.sched.threads σ.kernel.sched.next).userTask =
          (σ.kernel.sched.threads σ.kernel.sched.next).userTask := htask
      have hframe : (σ.kernel.sched.threads σ.kernel.sched.next).trapFrame =
          (k₁.tasks (k₁.sched.threads σ.kernel.sched.next).userTask).trapContext := by
        rw [htask₁]
        exact hcontext
      have hspp : (k₁.sched.frames (σ.kernel.sched.threads σ.kernel.sched.next).trapFrame).mstatus &&& sstatusSpp = 0 := by
        show (s₁.frames _).mstatus &&& sstatusSpp = 0
        rw [hd.frames, hcontext]
        exact (h.sys.threads.contexts _ hready).2
      obtain ⟨k', hr⟩ := trapReturn_user (k := k₁) (c := σ.kernel.sched.next) hcur (by rw [htask₁]; exact hready)
        hframe hspp
      exact ⟨_, k', hr⟩
  obtain ⟨r, k', hr⟩ := hreturn
  exact ⟨_, bind_eq_ok.mpr ⟨_, heq, bind_eq_ok.mpr ⟨_, hr, rfl⟩⟩⟩

theorem control_exists {t : ControlTrap} {site : TrapSite} (h : Sound σ) (hen : Enabled (.control t site) σ) :
    ∃ σ', exec (.control t site) σ = .ok σ' := by
  obtain ⟨c, hcur, -, htask, hallow, hon⟩ := hen
  obtain ⟨saved, hsaved⟩ := h.saved
  have hlt := (h.sys.sched.started hcur).2.lt
  obtain ⟨k', heq⟩ := controlTrap_exists h.sys hsaved hcur (.refl c _) hon (hallow.controlOk hlt htask)
  exact ⟨_, bind_eq_ok.mpr ⟨_, heq, rfl⟩⟩

theorem takeTrap_unstarted_exists (mtime : Nat) (frame : U64) {regs : TrapFrame} (h : SchedInv Q k.sched)
    (hcur : k.sched.currentThread = none)
    (hcause : regs.mcause = mcauseInterrupt ||| scauseSupervisorTimerInterrupt) :
    ∃ k', takeTrap mtime frame regs k = .ok k' := by
  have hst : (trapEnter frame regs k).sched.threadsStarted = false := by
    rcases h.phase with ⟨hst, -⟩ | ⟨-, d, hrun⟩
    · exact hst
    · rw [hrun.current] at hcur
      cases hcur
  let timer : Timer := { ticks := k.timer.ticks + 1, nextCompare := timerNextCompare mtime k.timer.nextCompare }
  let k₁ : Kernel := { trapEnter frame regs k with timer := timer }
  have htick : timerHandleInterrupt mtime (trapEnter frame regs k) = .ok k₁ := by
    rw [timerHandleInterrupt, threadOnTimerTick]
    exact if_pos (by simpa using hst)
  have hpre : threadMaybePreemptFromTrap frame k₁ = .ok (frame, k₁) := by
    have hnot : k₁.sched.currentIsPreemptible = false := by
      rw [Sched.currentIsPreemptible, show k₁.sched.currentThread = none from hcur]
      exact Bool.and_false _
    rw [threadMaybePreemptFromTrap, hnot, show k₁.sched.currentThread = none from hcur]
    split
    · rfl
    · rfl
  have hret : ∃ p, trapReturnFromHandler frame k₁ = .ok p := by
    rw [trapReturnFromHandler, threadCurrentUserTaskForFrame, show k₁.sched.currentThread = none from hcur]
    exact ⟨_, rfl⟩
  obtain ⟨p, hp⟩ := hret
  refine ⟨p.2, ?_⟩
  rw [takeTrap, trapHandle_timer (by rw [trapEnter_frame]; exact hcause), htick]
  simp only [ok_bind, hpre, resuming_ok]
  exact bind_eq_ok.mpr ⟨p, hp, rfl⟩

theorem timer_exists {mtime : Nat} {site : TrapSite} (h : Sound σ) (hen : Enabled (.timer mtime site) σ) :
    ∃ σ', exec (.timer mtime site) σ = .ok σ' := by
  obtain ⟨saved, hsaved⟩ := h.saved
  cases hcur : σ.kernel.sched.currentThread with
  | none =>
    have hcause : (timerFrame ((σ.kernel.sched.threads σ.current).userTask = 0) σ.kernel.machine.sie site.regs).mcause =
        mcauseInterrupt ||| scauseSupervisorTimerInterrupt := rfl
    obtain ⟨k', heq⟩ := takeTrap_unstarted_exists mtime
      (if (σ.kernel.sched.threads σ.current).userTask = 0 then site.frame
        else (σ.kernel.tasks (σ.kernel.sched.threads σ.current).userTask).trapContext) h.sys.sched hcur hcause
    exact ⟨_, bind_eq_ok.mpr ⟨_, heq, rfl⟩⟩
  | some c =>
    have hz : (if (σ.kernel.sched.threads c).userTask = 0 then site.frame
        else (σ.kernel.tasks (σ.kernel.sched.threads c).userTask).trapContext) ≠ 0 := by
      simp only [Enabled, hcur] at hen
      by_cases htask : (σ.kernel.sched.threads c).userTask = 0
      · rw [if_pos htask] at hen ⊢
        exact hen.2.ne_zero
      · rw [if_neg htask]
        have hready := (h.sys.threads.thread c (h.sys.real_of_userTask hcur htask)).ready htask
        exact (userTaskIsReady_iff.mp hready).2.2.2.2
    have hcause : (timerFrame ((σ.kernel.sched.threads c).userTask = 0) σ.kernel.machine.sie site.regs).mcause =
        mcauseInterrupt ||| scauseSupervisorTimerInterrupt := rfl
    obtain ⟨_, _, _, _, _, _, -, -, -, -, -, -, -, -, heq⟩ := trapHandle_timer_ok mtime h.sys.sched hcur hz hcause
    have hx : ∃ x, trapExit (.timer mtime site) σ = .ok x := by
      simp only [trapExit, takeTrapExit, current_eq hcur, heq, ok_bind]
      exact ⟨_, rfl⟩
    obtain ⟨x, hx⟩ := hx
    obtain ⟨e, rfl, c, frame, mstatus, l, call, hexit, -⟩ := trapExit_timer h.sys hcur hen hx
    obtain ⟨r, k', hr⟩ := hexit.returns h.sys hsaved
    exact ⟨_, bind_eq_ok.mpr ⟨_, takeTrap_of_returns hx hr, rfl⟩⟩

theorem ecall_exists {regs : TrapFrame} {site : TrapSite} (h : Sound σ) (hen : Enabled (.ecall regs site) σ)
    (hexit : regs.a7 ≠ userSyscallExit) : ∃ σ', exec (.ecall regs site) σ = .ok σ' := by
  obtain ⟨c, hcur, hidle, htask, hon⟩ := hen
  obtain ⟨saved, hsaved⟩ := h.saved
  have hready := (h.sys.threads.thread c (h.sys.real_of_userTask hcur htask)).ready htask
  obtain ⟨frame, hctx⟩ : ∃ frame, frame = (σ.kernel.tasks (σ.kernel.sched.threads c).userTask).trapContext := ⟨_, rfl⟩
  show ∃ σ', σ.ecall σ.current regs site = .ok σ'
  rw [current_eq hcur, ecall]
  simp only [← hctx]
  let k₀ := trapEnter frame (ecallFrame σ.kernel.machine.sie regs) σ.kernel
  have hf : k₀.sched.frames frame = ecallFrame σ.kernel.machine.sie regs := trapEnter_frame ..
  have hframe : UserFrame σ.kernel c frame (ecallFrame σ.kernel.machine.sie regs).mstatus := by
    refine ⟨htask, hctx, ?_⟩
    show trapStatus false _ _ &&& sstatusSpp = 0
    rw [trapStatus_spp]
    rfl
  have hz : frame ≠ 0 := by
    rw [hctx]
    exact (userTaskIsReady_iff.mp hready).2.2.2.2
  have hs₀ : SchedInv σ.queueSet k₀.sched := by
    rw [trapEnter_sched]
    exact h.sys.sched.setFrame _
  have hspp : (k₀.sched.frames frame).mstatus &&& sstatusSpp = 0 := by
    rw [hf]
    exact hframe.spp
  rw [trapHandle_ecall (by rw [hf]; rfl)]
  by_cases haccel : regs.a7 = userSyscallAccelMemset
  · rw [userSyscallDispatch_memset hz (by rw [hf]; exact haccel), ok_bind]
    have htask₀ := threadCurrentUserTaskForFrame_eq (k := k₀) hcur hready hctx hspp
    obtain ⟨p, hp⟩ := userAccelSyscallMemset_exists (k := k₀) hz htask₀ hready h.sys.pages h.bound
      (h.sys.sched.started hcur).1 h.accelQueue_ne
    obtain ⟨u, sub, hprog, -⟩ := userAccelSyscallMemset_progress hp
    obtain ⟨σ', heq⟩ := memsetProgress_exists h.sys hsaved hcur (.trapEnter htask hctx hframe.spp)
      (by rw [hf]; exact hframe) h.bound hon hprog (.inl rfl)
    exact ⟨σ', bind_eq_ok.mpr ⟨p, hp, heq⟩⟩
  · obtain ⟨l, g, next, s', heq, -⟩ := userSyscallDispatch_spec (k := k₀) hs₀ hcur hready hctx hspp
      (by rw [hf]; exact hexit) (by rw [hf]; exact haccel)
    obtain ⟨next', l', hact, hok⟩ := ecallExit_user h.sys hcur hframe hexit haccel heq
    obtain rfl := TrapAction.resume.inj hact
    obtain ⟨r, k', hr⟩ := hok.returns h.sys hsaved
    rw [heq, ok_bind]
    exact ⟨_, bind_eq_ok.mpr ⟨_, hr, rfl⟩⟩

theorem mutexLock_exec_exists {mutex : U64} {site : TrapSite} (h : Sound σ) (hen : Enabled (.mutexLock mutex site) σ) :
    ∃ σ', exec (.mutexLock mutex site) σ = .ok σ' := by
  obtain ⟨c, hc, hm, hne, hon⟩ := hen
  obtain ⟨saved, hsaved⟩ := h.saved
  have htid := threadCurrentTid_eq h.sys hc.current
  obtain ⟨p, hp⟩ := mutexLock_exists (hc.locks h.sys hm) (by rw [htid]; exact hne)
  obtain ⟨-, -, ho⟩ := mutexLock_outcome hp
  rw [htid] at ho
  have hcall : σ.CallOk c (.lock (.lock mutex c σ.kernel.machine.sie)) := ⟨rfl, hm, hc.kernel⟩
  obtain ⟨σ', heq⟩ := lockProgress_exists h.sys hsaved hc.current (hc.real_tid h.sys) hcall hon ho
  rw [← current_eq hc.current] at heq
  exact ⟨σ', bind_eq_ok.mpr ⟨p, hp, heq⟩⟩

theorem mutexLockTimeout_exec_exists {mutex ticks : U64} {site : TrapSite} (h : Sound σ)
    (hen : Enabled (.mutexLockTimeout mutex ticks site) σ) :
    ∃ σ', exec (.mutexLockTimeout mutex ticks site) σ = .ok σ' := by
  obtain ⟨c, hc, hm, hne, hon⟩ := hen
  obtain ⟨saved, hsaved⟩ := h.saved
  have htid := threadCurrentTid_eq h.sys hc.current
  obtain ⟨p, hp⟩ := mutexLockTimeout_exists ticks (hc.locks h.sys hm) (by rw [htid]; exact hne)
  obtain ⟨-, -, ho⟩ := mutexLockTimeout_outcome hp
  rw [htid] at ho
  have hcall : σ.CallOk c (.lock (.lockTimeout mutex c σ.kernel.machine.sie)) := ⟨rfl, hm, hc.kernel⟩
  obtain ⟨σ', heq⟩ := lockProgress_exists h.sys hsaved hc.current (hc.real_tid h.sys) hcall hon ho
  rw [← current_eq hc.current] at heq
  exact ⟨σ', bind_eq_ok.mpr ⟨p, hp, heq⟩⟩

theorem resume_exists {site : TrapSite} (h : Sound σ) (hen : Enabled (.resume site) σ) (hpr : Promised (.resume site) σ) :
    ∃ σ', exec (.resume site) σ = .ok σ' := by
  obtain ⟨c, hcur, hbusy, hon⟩ := hen
  obtain ⟨saved, hsaved⟩ := h.saved
  have hc : tidIsReal c := h.sys.threads.real c (decide_eq_true hbusy)
  have hsie : σ.kernel.machine.sie = false := h.sys.threads.masked c hcur (decide_eq_true hbusy)
  have hst := (h.sys.sched.started hcur).1
  have hok := h.sys.call c
  have hpr : match σ.calls c with
      | .userMemset u _ => PagesHeld u σ.kernel.machine.pages
      | _ => True := by
    rw [← current_eq hcur]
    exact hpr
  show ∃ σ', σ.resume σ.current site = .ok σ'
  rw [current_eq hcur, resume]
  cases hcall : σ.calls c with
  | idle => exact absurd hcall hbusy
  | lock lock =>
    rw [hcall] at hok
    obtain ⟨p, hp⟩ := h.mutex.resumes h.sys hcur hcall
    obtain ⟨σ', heq⟩ := lockProgress_exists h.sys hsaved hcur hc hok hon (lockResume_outcome hsie hp)
    exact ⟨σ', bind_eq_ok.mpr ⟨p, hp, heq⟩⟩
  | submit sub =>
    rw [hcall] at hok
    obtain ⟨p, hp⟩ := submissionResume_exists sub (σ.resumedA0 c) hst h.accelQueue_ne
    obtain ⟨σ', heq⟩ := submitProgress_exists h.sys hsaved hcur hc h.bound hon (submissionResume_progress hsie hp)
    exact ⟨σ', bind_eq_ok.mpr ⟨p, hp, heq⟩⟩
  | userMemset u sub =>
    rw [hcall] at hok hpr
    obtain ⟨p, hp⟩ := submissionResume_exists sub (σ.resumedA0 c) hst h.accelQueue_ne
    obtain ⟨p₁, hp₁⟩ := userAccelAfterSubmit_exists (submissionResume_waited hp) h.sys.pages hpr h.bound
    obtain ⟨σ', heq⟩ := memsetProgress_exists h.sys hsaved hcur (.refl c _) (userMemset_frame h.sys hc hok) h.bound hon
      (userAccelAfterSubmit_progress (submissionResume_progress hsie hp) hp₁) (.inr rfl)
    exact ⟨σ', bind_eq_ok.mpr ⟨p, hp, bind_eq_ok.mpr ⟨p₁, hp₁, heq⟩⟩⟩

theorem accelSubmit_exists {site : TrapSite} (h : Sound σ) (hen : Enabled (.accelSubmit cmd ticks site) σ)
    (hst : σ.kernel.sched.threadsStarted = true) : ∃ σ', exec (.accelSubmit cmd ticks site) σ = .ok σ' := by
  obtain ⟨saved, hsaved⟩ := h.saved
  obtain ⟨c, hcur⟩ : ∃ c, σ.kernel.sched.currentThread = some c := by
    rcases h.sys.sched.phase with ⟨hf, -⟩ | ⟨-, c, hrun⟩
    · rw [hst] at hf
      cases hf
    · exact ⟨c, hrun.current⟩
  obtain ⟨p, hp⟩ := accelSubmitSyncTimeout_exists cmd ticks hst h.accelQueue_ne
  obtain ⟨σ', heq⟩ := submitProgress_exists h.sys hsaved hcur ((hen.1 c hcur).real_tid h.sys) h.bound (hen.2 c hcur)
    (accelSubmitSyncTimeout_progress hp).1
  rw [← current_eq hcur] at heq
  exact ⟨σ', bind_eq_ok.mpr ⟨p, hp, heq⟩⟩

/-- A step whose caller keeps its promises does not panic. -/
theorem Sound.exec_exists (h : Sound σ) (hen : Enabled op σ) (hpr : Promised op σ) : ∃ σ', exec op σ = .ok σ' := by
  have hsched := h.sys.sched
  cases op with
  | threadCreate name entry arg =>
    obtain ⟨r, k', heq, -⟩ := threadCreate_spec hsched name entry arg
    exact ⟨_, bind_eq_ok.mpr ⟨_, heq, rfl⟩⟩
  | threadCreateUser name task =>
    obtain ⟨r, k', heq, -⟩ := threadCreateUser_spec hsched name task
    exact ⟨_, bind_eq_ok.mpr ⟨_, heq, rfl⟩⟩
  | threadStart => exact threadStart_exists h hen
  | userTaskInit task program => exact hpr.elim
  | waitQueueInit queue name =>
    obtain ⟨s', heq, -⟩ := waitQueueInit_spec hsched hen.2 hpr name
    exact ⟨_, bind_eq_ok.mpr ⟨_, heq, rfl⟩⟩
  | wakeOne queue =>
    obtain ⟨tid, s', heq, -⟩ := waitQueueWakeOne_spec hsched hen.2
    exact ⟨_, bind_eq_ok.mpr ⟨_, heq, rfl⟩⟩
  | wakeAll queue =>
    obtain ⟨s', heq, -⟩ := waitQueueWakeAll_spec hsched hen.2
    exact ⟨_, bind_eq_ok.mpr ⟨_, heq, rfl⟩⟩
  | control t site => exact control_exists h hen
  | ecall regs site => exact ecall_exists h hen hpr
  | timer mtime site => exact timer_exists h hen
  | resume site => exact resume_exists h hen hpr
  | mutexInit mutex name =>
    obtain ⟨k', heq⟩ := mutexInit_exists (k := σ.kernel) name hpr.1 hpr.2
    exact ⟨_, bind_eq_ok.mpr ⟨_, heq, rfl⟩⟩
  | mutexLock mutex site => exact mutexLock_exec_exists h hen
  | mutexLockTimeout mutex ticks site => exact mutexLockTimeout_exec_exists h hen
  | mutexTrylock mutex =>
    obtain ⟨c, hc, hm, hne⟩ := hen
    obtain ⟨r, k', heq⟩ := mutexTrylock_exists (hc.locks h.sys hm)
      (by rw [threadCurrentTid_eq h.sys hc.current]; exact hne)
    exact ⟨_, bind_eq_ok.mpr ⟨_, heq, rfl⟩⟩
  | mutexUnlock mutex =>
    obtain ⟨c, hc, hm, howner⟩ := hen
    obtain ⟨k', heq⟩ := mutexUnlock_exists (hc.locks h.sys hm) hsched (h.sys.mutexQueue mutex hm).2
      (by rw [threadCurrentTid_eq h.sys hc.current]; exact howner)
    exact ⟨_, bind_eq_ok.mpr ⟨_, heq, rfl⟩⟩
  | accelSubmit cmd ticks site => exact accelSubmit_exists h hen hpr
  | accelControl control => exact ⟨_, rfl⟩
  | accelAck mask => exact ⟨_, rfl⟩
  | accelStep => exact ⟨_, rfl⟩
  | dispatchIrqs =>
    obtain ⟨k', heq⟩ := dispatchIrqs_exists hsched h.bound h.accelQueue
    exact ⟨_, bind_eq_ok.mpr ⟨_, heq, rfl⟩⟩
  | pageAlloc =>
    obtain ⟨a, p', heq, -⟩ := pageAlloc_spec h.sys.pages
    exact ⟨_, bind_eq_ok.mpr ⟨_, heq, rfl⟩⟩
  | pageFree page =>
    obtain ⟨p', heq, -⟩ := pageFree_spec h.sys.pages hpr
    exact ⟨_, bind_eq_ok.mpr ⟨_, heq, rfl⟩⟩
  | write mem => exact ⟨_, rfl⟩

/-- In every state of every run, every step whose caller keeps its promises succeeds. -/
theorem runs_never_panic {l : List Op} (hf : Fresh k) (hboot : boot k = .ok σ₀) (hrun : MutexRuns σ₀ l σ)
    (hen : Enabled op σ) (hpr : Promised op σ) : ∃ σ', exec op σ = .ok σ' :=
  (hrun.sound hf hboot).exec_exists hen hpr

/-- The second thread goes on after it has been handed the mutex. -/
theorem runs_never_panic_sample : ∃ σ σ' : System, σ.calls 2 = .lock (.lock 0x80010000 2 true) ∧
    exec (.resume (sampleSite 2)) σ = .ok σ' := by
  obtain ⟨σ₀, σ, hboot, h, hp⟩ := runs_of_bootCheck
    (p := fun σ => Enabled (.resume (sampleSite 2)) σ ∧ σ.current = 2 ∧ σ.calls 2 = .lock (.lock 0x80010000 2 true))
    (l := [.threadCreate (some "a") 0x80004000 0, .threadCreate (some "b") 0x80004000 1,
      .mutexInit 0x80010000 none, .threadStart, .mutexLock 0x80010000 (sampleSite 1),
      .control { op := threadTrapYield, arg0 := 0, arg1 := none } (sampleSite 1),
      .mutexLock 0x80010000 (sampleSite 2), .mutexUnlock 0x80010000,
      .control { op := threadTrapYield, arg0 := 0, arg1 := none } (sampleSite 1)])
    (k := sampleKernel) (by decide +kernel)
  obtain ⟨hen, hcur, hcall⟩ := of_decide_eq_true hp
  have hrun : MutexRuns σ₀ _ σ := h.mutexRuns (by
    intro op hmem σ
    simp only [List.mem_cons, List.not_mem_nil, or_false] at hmem
    rcases hmem with rfl | rfl | rfl | rfl | rfl | rfl | rfl | rfl | rfl <;>
      simp [PrivateQueues, threadTrapYield, threadTrapWait, threadTrapWaitTimeout])
  have hpr : Promised (.resume (sampleSite 2)) σ := by
    rw [Promised, hcur, hcall]
    trivial
  obtain ⟨σ', hx⟩ := runs_never_panic sampleKernel_fresh hboot hrun hen hpr
  exact ⟨σ, σ', hcall, hx⟩

end System

end QemuRtos
