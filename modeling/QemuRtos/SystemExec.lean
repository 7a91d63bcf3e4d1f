import QemuRtos.SystemSpec

/-!
# Every step is one of the listed kinds

One lemma for each group of steps: from a state that keeps the invariant, a step that its caller may make
is `Stepped`.
-/

namespace QemuRtos

open Lib

variable {c : Nat} {k k' : Kernel}

namespace System

variable {σ σ' : System} {op : Op}

theorem setCall_setKernel_idle (k : Kernel) (h : σ.calls c = .idle) :
    (σ.setKernel k).setCall c .idle = σ.setKernel k := by
  rw [setCall, ← h]
  simp only [setKernel, Function.update_eq_self]

theorem current_eq (h : σ.kernel.sched.currentThread = some c) : σ.current = c := by rw [current, h]; rfl

theorem Stepped.refl (σ : System) (op : Op) : Stepped σ op σ := .driver (.refl _) rfl

/-! ### Creation and setup -/

theorem exec_threadCreate {name : Option String} {entry arg : U64} (h : SysOk σ)
    (hx : exec (.threadCreate name entry arg) σ = .ok σ') : Stepped σ (.threadCreate name entry arg) σ' := by
  obtain ⟨⟨r, k₁⟩, h₁, hx⟩ := bind_eq_ok.mp hx
  cases hx
  obtain ⟨r', k', heq, hcase⟩ := threadCreate_spec h.sched name entry arg
  cases h₁.symm.trans heq
  rcases hcase with ⟨-, rfl⟩ | ⟨tid, s', -, rfl, hi, hs⟩
  · exact .refl σ _
  · have hon := initialFrame_onStack σ.kernel.machine.image (tidIsReal_iff.mp hi.real).2
    refine .installed trivial hi rfl hs rfl (fun a ha => ?_) (.inl ⟨hon, rfl⟩)
    rw [Set.mem_singleton_iff.mp ha]
    exact hon

theorem exec_threadCreateUser {name : Option String} {task : U64} (h : SysOk σ)
    (hone : AttachOnce (.threadCreateUser name task) σ)
    (hx : exec (.threadCreateUser name task) σ = .ok σ') : Stepped σ (.threadCreateUser name task) σ' := by
  obtain ⟨⟨r, k₁⟩, h₁, hx⟩ := bind_eq_ok.mp hx
  cases hx
  obtain ⟨r', k', heq, hcase⟩ := threadCreateUser_spec h.sched name task
  obtain ⟨rfl, rfl⟩ := Prod.mk.inj (Except.ok.inj (h₁.symm.trans heq))
  rcases hcase with ⟨-, rfl⟩ | ⟨tid, s', -, hready, hk, hi, hs⟩
  · exact .refl σ _
  · have hs₁ : k₁.sched = s' := by rw [hk]
    rw [← hs₁] at hi hs hk
    exact .installed trivial hi hk hs rfl (fun a ha => ha.elim) (.inr ⟨hready, rfl, hone⟩)

theorem exec_threadStart (h : SysOk σ) (hen : Enabled .threadStart σ) (hx : exec .threadStart σ = .ok σ') :
    Stepped σ .threadStart σ' := by
  obtain ⟨⟨frame, k₁⟩, h₁, hx⟩ := bind_eq_ok.mp hx
  obtain ⟨⟨r, k₂⟩, h₂, hx⟩ := bind_eq_ok.mp hx
  cases hx
  obtain ⟨s₁, heq, hd, hs⟩ := threadStart_spec h.sched hen
  cases h₁.symm.trans heq
  exact .started hen hd hs (trapReturnFromHandler_ok h₂)

theorem exec_userTaskInit {task : U64} {program : Option (List Byte)} (h : SysOk σ)
    (hx : exec (.userTaskInit task program) σ = .ok σ') : Stepped σ (.userTaskInit task program) σ' := by
  obtain ⟨⟨r, k₁⟩, h₁, hx⟩ := bind_eq_ok.mp hx
  cases hx
  rcases userTaskInit_ok h.pages h₁ with rfl | hi
  · exact .refl σ _
  · exact .taskInit hi

theorem exec_waitQueueInit {queue : U64} {name : Option String} (h : SysOk σ)
    (hen : Enabled (.waitQueueInit queue name) σ) (hx : exec (.waitQueueInit queue name) σ = .ok σ') :
    Stepped σ (.waitQueueInit queue name) σ' := by
  obtain ⟨k₁, h₁, hx⟩ := bind_eq_ok.mp hx
  cases hx
  by_cases hz : queue = 0
  · simp only [QemuRtos.waitQueueInit, hz, ↓reduceIte] at h₁
    cases h₁
  · obtain ⟨s', heq, hnil, hth, hfr, hrd, hsl, hst, hoth, hs⟩ := waitQueueInit_spec h.sched hen.2 hz name
    cases h₁.symm.trans heq
    exact .queueInit hen.2 hnil hth hfr hst ⟨hrd, hsl⟩ hoth hs

theorem exec_mutexInit {mutex : U64} {name : Option String} (h : SysOk σ) (hen : Enabled (.mutexInit mutex name) σ)
    (hx : exec (.mutexInit mutex name) σ = .ok σ') : Stepped σ (.mutexInit mutex name) σ' := by
  obtain ⟨k₁, h₁, hx⟩ := bind_eq_ok.mp hx
  cases hx
  obtain ⟨hz, s', rfl, hnil, hth, hfr, hst, hqs, hoth, hs⟩ := mutexInit_ok h.sched hen.2.2 h₁
  exact .mutexInit hz hen.2.1 hen.2.2 hnil hth hfr hst hqs hoth hs

/-! ### Wakes -/

theorem exec_wakeOne {queue : U64} (h : SysOk σ) (hen : Enabled (.wakeOne queue) σ)
    (hx : exec (.wakeOne queue) σ = .ok σ') : Stepped σ (.wakeOne queue) σ' := by
  obtain ⟨⟨tid, k₁⟩, h₁, hx⟩ := bind_eq_ok.mp hx
  cases hx
  obtain ⟨tid', s', heq, hs, hcase⟩ := waitQueueWakeOne_spec h.sched hen.2
  cases h₁.symm.trans heq
  refine .woken (.refl _) rfl hen.2 (.inl rfl) ?_ hs
  rcases hcase with ⟨-, -, rfl⟩ | ⟨hhead, hw⟩
  · exact .nil _
  · exact .cons h.sched.ok ⟨hhead, rfl⟩ hw (.nil _)

theorem exec_wakeAll {queue : U64} (h : SysOk σ) (hen : Enabled (.wakeAll queue) σ)
    (hx : exec (.wakeAll queue) σ = .ok σ') : Stepped σ (.wakeAll queue) σ' := by
  obtain ⟨k₁, h₁, hx⟩ := bind_eq_ok.mp hx
  cases hx
  obtain ⟨s', heq, hs, hw, -⟩ := waitQueueWakeAll_spec h.sched hen.2
  cases h₁.symm.trans heq
  exact .woken (.refl _) rfl hen.2 (.inr (.inl rfl)) hw hs

theorem exec_dispatchIrqs (h : SysOk σ) (hx : exec .dispatchIrqs σ = .ok σ') : Stepped σ .dispatchIrqs σ' := by
  obtain ⟨k₁, h₁, hx⟩ := bind_eq_ok.mp hx
  cases hx
  have hstep : ∀ k, DriverChange k (ackAndStep (knownIrq σ.kernel) k) := fun k =>
    (DriverChange.setMmio k _).trans (.platformAccelStep _)
  cases platformDispatchPendingIrqs_outcome h.sched h.accelQueue h₁ with
  | none hirq => exact .refl σ _
  | spurious hirq hbound hfree => exact .driver (hstep _) rfl
  | completed hirq hbound huse hcmd hs hw hnil =>
    exact .woken ((DriverChange.setRequest σ.kernel _).trans (hstep _)) rfl (h.accelQueue hbound)
      (.inr (.inr ⟨rfl, rfl⟩)) hw hs

/-! ### Control traps -/

theorem ControlAllowed.controlOk {t : ControlTrap} {sie : Bool} {regs : TrapFrame} (h : ControlAllowed σ c t)
    (hlt : c < threadMax) (htask : (σ.kernel.sched.threads c).userTask = 0) :
    ControlOk σ.queueSet c (ebreakFrame t sie regs) σ.kernel.sched := by
  refine h.imp_right fun ⟨hne, hop⟩ => ⟨(real_or_null hlt).resolve_right hne, ?_⟩
  exact hop.imp (fun h' => ⟨h', htask⟩) (fun h' => h')

theorem Controls.park {t : ControlTrap} {site : TrapSite} {sie : Bool} {g : TrapFrame} {b : Block}
    (h : Controls (ebreakFrame t sie site.regs) σ.now (.park b) g) :
    b.wakeTick = σ.wakeTick (.control t site) ∧ ∀ q, b.queue = some q → q = t.arg0 ∧
      (t.op = threadTrapWait ∨ t.op = threadTrapWaitTimeout) := by
  generalize hl : Leave.park b = l at h
  cases h with
  | yield hop hy => subst hl; rcases hy with hy | hy | hy <;> cases hy
  | exit hop => cases hl
  | expired hop hz => cases hl
  | sleep hop hne =>
    cases hl
    have hop : t.op = threadTrapSleep := hop
    refine ⟨?_, nofun⟩
    simp only [wakeTick, requested, hop, ↓reduceIte]
    rfl
  | wait hop =>
    cases hl
    have hop : t.op = threadTrapWait := hop
    refine ⟨?_, fun q hq => ⟨(Option.some.inj hq).symm, .inl hop⟩⟩
    simp only [wakeTick, requested, hop]
    rfl
  | waitTimeout hop hne =>
    cases hl
    have hop : t.op = threadTrapWaitTimeout := hop
    refine ⟨?_, fun q hq => ⟨(Option.some.inj hq).symm, .inr hop⟩⟩
    simp only [wakeTick, requested, hop]
    rfl

theorem exec_control {t : ControlTrap} {site : TrapSite} (h : SysOk σ) (hen : Enabled (.control t site) σ)
    (hx : exec (.control t site) σ = .ok σ') : Stepped σ (.control t site) σ' := by
  obtain ⟨c, hcur, hidle, htask, hallow, hon⟩ := hen
  obtain ⟨k₁, h₁, hx⟩ := bind_eq_ok.mp hx
  cases hx
  have hlt := (h.sched.started hcur).2.lt
  obtain ⟨l, g, hc, ht⟩ := controlTrap_ok h.sched hcur h.seen hon.ne_zero (hallow.controlOk hlt htask) h₁
  rw [← setCall_setKernel_idle k₁ hidle]
  refine .trapped hcur (.refl c _) (fun hne => absurd hidle hne) (.kernel hidle ⟨htask, hon⟩ fun b hb => ?_) ht
    fun _ hne => absurd htask hne
  subst hb
  obtain ⟨htick, hq⟩ := Controls.park hc
  refine ⟨htick, fun q hq' => ?_⟩
  obtain ⟨rfl, hop⟩ := hq q hq'
  refine ⟨?_, t, site, rfl, rfl, hop⟩
  rcases hallow with hy | ⟨-, he | hs | ⟨-, hmem⟩⟩
  · rw [hy] at hop; rcases hop with ho | ho <;> cases ho
  · rw [he] at hop; rcases hop with ho | ho <;> cases ho
  · rw [hs] at hop; rcases hop with ho | ho <;> cases ho
  · exact hmem

theorem waitTrap_ok {Q : Set U64} {queue : U64} {timeout : Option U64} {site : TrapSite} (h : SchedInv Q k.sched)
    (hcur : k.sched.currentThread = some c) (hseen : k.trapSelftestSeen = true)
    (hon : OnStack k.machine.image c site.frame) (hc : tidIsReal c) (hq : queue ∈ Q) (hne : timeout ≠ some 0)
    (hsie : k.machine.sie = false) (hrun : controlTrap (waitTrap queue timeout) site k = .ok k') :
    ∃ g, Trapped Q c site.frame g (.park ⟨some queue, timeout.map (k.timer.ticks + ·)⟩) k k' ∧
      g.mstatus &&& sstatusSpp ≠ 0 ∧ g.mstatus &&& sstatusSpie = 0 := by
  have hok : ControlOk Q c (ebreakFrame (waitTrap queue timeout) k.machine.sie site.regs) k.sched := by
    refine .inr ⟨hc, .inr (.inr ?_)⟩
    cases timeout with
    | none => exact ⟨.inl rfl, hq⟩
    | some ticks => exact ⟨.inr rfl, hq⟩
  obtain ⟨l, g, hctl, ht⟩ := controlTrap_ok h hcur hseen hon.ne_zero hok hrun
  obtain ⟨rfl, hstatus⟩ := Controls.of_waitTrap hctl hne
  refine ⟨g, ht, ?_, ?_⟩
  · rw [hstatus, trapStatus_spp]; decide
  · rw [hstatus, trapStatus_spie, hsie]; rfl

/-! ### The timer -/

theorem exec_timer {mtime : Nat} {site : TrapSite} (h : SysOk σ) (hen : Enabled (.timer mtime site) σ)
    (hx : exec (.timer mtime site) σ = .ok σ') : Stepped σ (.timer mtime site) σ' := by
  obtain ⟨k₁, h₁, hx⟩ := bind_eq_ok.mp hx
  cases hx
  rw [Enabled] at hen
  cases hcur : σ.kernel.sched.currentThread with
  | none =>
    rw [hcur] at hen
    have hnull : σ.current = threadNullTid := by rw [current, hcur]; rfl
    rw [hnull, h.sched.ok.null.task] at h₁
    obtain ⟨timer, htick, hr⟩ := takeTrap_timer_unstarted h.sched hcur rfl h₁
    exact .bootTimer ⟨mtime, site, rfl⟩ hcur hen htick hr
  | some c =>
    rw [hcur] at hen
    rw [current_eq hcur] at h₁
    dsimp only at hen h₁
    by_cases htask : (σ.kernel.sched.threads c).userTask = 0
    · rw [if_pos htask] at hen
      rw [if_pos htask] at h₁
      have hidle : σ.calls c = .idle := by
        by_contra hne
        have := h.threads.masked c hcur (decide_eq_true hne)
        rw [hen.1] at this
        cases this
      obtain ⟨s₁, s₂, l, next, s₃, timer, hw, hs₁, ht, hl, hleft, hcharge, htick, hr⟩ :=
        takeTrap_timer_ok h.sched hcur hen.2.ne_zero rfl h₁
      exact .timer ⟨mtime, site, rfl⟩ hcur hidle (.inl ⟨htask, hen.2⟩) hw hs₁ ht hl hleft hcharge htick hr
    · rw [if_neg htask] at hen
      rw [if_neg htask] at h₁
      have hready := (h.threads.thread c (by
        refine (real_or_null (h.sched.started hcur).2.lt).resolve_right ?_
        rintro rfl
        exact htask h.sched.ok.null.task)).ready htask
      have hz := (userTaskIsReady_iff.mp hready).2.2.2.2
      obtain ⟨s₁, s₂, l, next, s₃, timer, hw, hs₁, ht, hl, hleft, hcharge, htick, hr⟩ :=
        takeTrap_timer_ok h.sched hcur hz rfl h₁
      refine .timer ⟨mtime, site, rfl⟩ hcur hen (.inr ⟨htask, rfl, ?_⟩) hw hs₁ ht hl hleft hcharge htick hr
      show trapStatus (decide ((σ.kernel.sched.threads c).userTask = 0)) _ _ &&& sstatusSpp = 0
      rw [trapStatus_spp, decide_eq_false htask]
      rfl

/-! ### Locks -/

/-- How a lock call of thread `c` runs: it returns, or it waits. -/
inductive LockStep (σ : System) (op : Op) (c : Nat) (call : LockCall) : System → Prop
  | returned {entry : LockEntry} {r : Int} {k' : Kernel}
    (hentry : σ.calls c = .idle ∧ (∀ a0, entry ≠ .resume a0) ∨
      σ.calls c = .lock call ∧ entry = .resume (σ.resumedA0 c))
    (ho : LockOutcome σ.kernel call entry (.ret r k')) : LockStep σ op c call (σ.lockReturned c call.mutex r k')
  | waits {frame : U64} {f : TrapFrame} {k' : Kernel}
    (hwhy : Traps σ op c frame f.mstatus (.park ⟨some (mutexWaiters call.mutex), σ.wakeTick op⟩) (.lock call))
    (ht : Trapped σ.queueSet c frame f (.park ⟨some (mutexWaiters call.mutex), σ.wakeTick op⟩) σ.kernel.irqSave.2 k') :
    LockStep σ op c call ((σ.setKernel k').setCall c (.lock call))

theorem LockStep.stepped {call : LockCall} (hs : LockStep σ op c call σ') (hcur : σ.kernel.sched.currentThread = some c)
    (hcall : σ.CallOk c (.lock call)) : Stepped σ op σ' := by
  cases hs with
  | returned hentry ho => exact .locked hcur hcall hentry ho
  | waits hwhy ht => exact .trapped hcur (DriverChange.irqSave _).entered (fun _ => rfl) hwhy ht nofun

theorem lockProgress_step {call : LockCall} {entry : LockEntry} {site : TrapSite} {p : Progress LockCall Int}
    (h : SysOk σ) (hcur : σ.kernel.sched.currentThread = some c) (hc : tidIsReal c)
    (hcall : σ.CallOk c (.lock call))
    (hentry : σ.calls c = .idle ∧ (∀ a0, entry ≠ .resume a0) ∨
      σ.calls c = .lock call ∧ entry = .resume (σ.resumedA0 c))
    (hon : OnStack σ.kernel.machine.image c site.frame) (hreq : σ.requested op = entry.ticks)
    (ho : LockOutcome σ.kernel call entry p) (hx : σ.lockProgress c call.mutex site p = .ok σ') :
    LockStep σ op c call σ' := by
  cases p with
  | ret r k =>
    obtain rfl := Except.ok.inj hx
    exact .returned hentry ho
  | trap regs next k =>
    obtain ⟨k', hk', hx⟩ := bind_eq_ok.mp hx
    obtain rfl := Except.ok.inj hx
    cases ho with
    | waits hne htimed hst howned hother =>
      obtain ⟨g, ht, hspp, hspie⟩ := waitTrap_ok (k := σ.kernel.irqSave.2) h.sched hcur h.seen hon hc
        (h.mutexQueue _ hcall.2.1).2 hne rfl hk'
      have htick : σ.wakeTick op = entry.ticks.map (σ.now + ·) := by rw [wakeTick, hreq]
      rw [show σ.kernel.irqSave.2.timer.ticks = σ.now from rfl, ← htick] at ht
      refine .waits (.waits hcall nofun (hentry.imp And.left And.left) hon hspp hspie fun lock hl => ?_) ht
      cases hl
      rw [hcall.1] at hother
      exact ⟨howned, hother, by rw [htick, Option.isSome_map]; exact htimed⟩

theorem InKernel.real_tid (h : SysOk σ) (hc : InKernel σ c) : tidIsReal c :=
  (real_or_null (h.sched.started hc.current).2.lt).resolve_right hc.real

theorem threadCurrentTid_eq (h : SysOk σ) (hcur : σ.kernel.sched.currentThread = some c) :
    threadCurrentTid σ.kernel = c := by
  rw [threadCurrentTid, hcur]
  exact h.sched.ok.tid_eq c (h.sched.started hcur).2.lt

theorem mutexLock_lockStep {mutex : U64} {site : TrapSite} (h : SysOk σ) (hen : Enabled (.mutexLock mutex site) σ)
    (hx : exec (.mutexLock mutex site) σ = .ok σ') : ∃ c call, σ.kernel.sched.currentThread = some c ∧
      σ.CallOk c (.lock call) ∧ LockStep σ (.mutexLock mutex site) c call σ' := by
  obtain ⟨c, hc, hm, -, hon⟩ := hen
  obtain ⟨p, hp, hx⟩ := bind_eq_ok.mp hx
  rw [current_eq hc.current] at hx
  obtain ⟨-, -, ho⟩ := mutexLock_outcome hp
  rw [threadCurrentTid_eq h hc.current] at ho
  have hcall : σ.CallOk c (.lock (.lock mutex c σ.kernel.machine.sie)) := ⟨rfl, hm, hc.kernel⟩
  exact ⟨c, _, hc.current, hcall,
    lockProgress_step h hc.current (hc.real_tid h) hcall (.inl ⟨hc.idle, LockEntry.call_ne _⟩) hon rfl ho hx⟩

theorem mutexLockTimeout_lockStep {mutex ticks : U64} {site : TrapSite} (h : SysOk σ)
    (hen : Enabled (.mutexLockTimeout mutex ticks site) σ)
    (hx : exec (.mutexLockTimeout mutex ticks site) σ = .ok σ') : ∃ c call, σ.kernel.sched.currentThread = some c ∧
      σ.CallOk c (.lock call) ∧ LockStep σ (.mutexLockTimeout mutex ticks site) c call σ' := by
  obtain ⟨c, hc, hm, -, hon⟩ := hen
  obtain ⟨p, hp, hx⟩ := bind_eq_ok.mp hx
  rw [current_eq hc.current] at hx
  obtain ⟨-, -, ho⟩ := mutexLockTimeout_outcome hp
  rw [threadCurrentTid_eq h hc.current] at ho
  have hcall : σ.CallOk c (.lock (.lockTimeout mutex c σ.kernel.machine.sie)) := ⟨rfl, hm, hc.kernel⟩
  exact ⟨c, _, hc.current, hcall,
    lockProgress_step h hc.current (hc.real_tid h) hcall (.inl ⟨hc.idle, LockEntry.call_ne _⟩) hon rfl ho hx⟩

theorem exec_mutexLock {mutex : U64} {site : TrapSite} (h : SysOk σ) (hen : Enabled (.mutexLock mutex site) σ)
    (hx : exec (.mutexLock mutex site) σ = .ok σ') : Stepped σ (.mutexLock mutex site) σ' := by
  obtain ⟨c, call, hcur, hcall, hstep⟩ := mutexLock_lockStep h hen hx
  exact hstep.stepped hcur hcall

theorem exec_mutexLockTimeout {mutex ticks : U64} {site : TrapSite} (h : SysOk σ)
    (hen : Enabled (.mutexLockTimeout mutex ticks site) σ)
    (hx : exec (.mutexLockTimeout mutex ticks site) σ = .ok σ') :
    Stepped σ (.mutexLockTimeout mutex ticks site) σ' := by
  obtain ⟨c, call, hcur, hcall, hstep⟩ := mutexLockTimeout_lockStep h hen hx
  exact hstep.stepped hcur hcall

/-- A successful `mutex_trylock` ends as a lock call that found the mutex free. -/
theorem exec_mutexTrylock {mutex : U64} (h : SysOk σ) (hen : Enabled (.mutexTrylock mutex) σ)
    (hx : exec (.mutexTrylock mutex) σ = .ok σ') : Stepped σ (.mutexTrylock mutex) σ' := by
  obtain ⟨c, hc, hm, -⟩ := hen
  obtain ⟨⟨r, k₁⟩, h₁, hx⟩ := bind_eq_ok.mp hx
  obtain ⟨-, -, hcase⟩ := mutexTrylock_ok h₁
  rw [current_eq hc.current] at hx
  rw [threadCurrentTid_eq h hc.current] at hcase
  obtain rfl := Except.ok.inj hx
  rcases hcase with ⟨rfl, rfl, -⟩ | ⟨rfl, rfl, hfree⟩
  · exact .refl σ _
  · have hcall : σ.CallOk c (.lock (.lock mutex c σ.kernel.machine.sie)) := ⟨rfl, hm, hc.kernel⟩
    have ho : LockOutcome σ.kernel (.lock mutex c σ.kernel.machine.sie) (.call none) (.ret waitOk
        (σ.kernel.setMutex mutex fun m => { m with owner := c })) := .acquired hfree
    have : Stepped σ (.mutexTrylock mutex) _ := .locked hc.current hcall (.inl ⟨hc.idle, LockEntry.call_ne _⟩) ho
    rw [lockReturned, setCall_setKernel_idle _ hc.idle] at this
    exact this

theorem exec_mutexUnlock {mutex : U64} (h : SysOk σ) (hen : Enabled (.mutexUnlock mutex) σ)
    (hx : exec (.mutexUnlock mutex) σ = .ok σ') : Stepped σ (.mutexUnlock mutex) σ' := by
  obtain ⟨c, hc, hm, howner⟩ := hen
  obtain ⟨k₁, h₁, hx⟩ := bind_eq_ok.mp hx
  rw [current_eq hc.current] at hx
  obtain rfl := Except.ok.inj hx
  obtain ⟨-, next, s', rfl, hs, hnext⟩ := mutexUnlock_ok h.sched (h.mutexQueue _ hm).2 h₁
  exact .unlocked rfl hc hm howner hs hnext

/-! ### The accelerator -/

theorem submitProgress_stepped {sub : Submission} {site : TrapSite} {p : Progress Submission Int}
    (h : SysOk σ) (hcur : σ.kernel.sched.currentThread = some c) (hc : tidIsReal c)
    (htask : (σ.kernel.sched.threads c).userTask = 0) (hcall : σ.calls c = .idle ∨ σ.calls c = .submit sub)
    (hbound : p.returned = true ∨ sub.ticks ≠ 0 ∧ σ.kernel.accelBound = true)
    (hon : OnStack σ.kernel.machine.image c site.frame)
    (hreq : σ.requested op = if sub.ticks = ticksForever then none else some sub.ticks)
    (hp : SubmitProgress σ.kernel sub p) (hx : σ.submitProgress c site p = .ok σ') : Stepped σ op σ' := by
  cases p with
  | ret r k =>
    obtain rfl := Except.ok.inj hx
    exact .submitted hcur (hcall.imp_right fun he => ⟨sub, he⟩) hp.1
  | trap regs next k =>
    obtain ⟨k', hk', hx⟩ := bind_eq_ok.mp hx
    obtain rfl := Except.ok.inj hx
    obtain ⟨hk, hsie, rfl, hst, rfl⟩ := hp
    obtain ⟨hticks, hbound⟩ := hbound.resolve_left nofun
    have hs : k.sched = σ.kernel.sched := by rw [hk.eq]
    have himage : k.machine.image = σ.kernel.machine.image := by rw [hk.kept.eq]
    obtain ⟨g, ht, hspp, hspie⟩ := waitTrap_ok (Q := σ.queueSet) (by rw [hs]; exact h.sched) (by rw [hs]; exact hcur)
      (by rw [hk.eq]; exact h.seen) (by rw [himage]; exact hon) hc (h.accelQueue hbound)
      (by
        split
        · exact nofun
        · exact fun he => hticks (Option.some.inj he)) hsie hk'
    have htick : σ.wakeTick op = (if next.ticks = ticksForever then none else some next.ticks).map (σ.now + ·) := by
      rw [wakeTick, hreq]
    rw [show k.timer.ticks = σ.now from by rw [hk.eq]; rfl, ← htick] at ht
    have hok : σ.CallOk c (.submit next) := ⟨hbound, hticks, htask⟩
    exact .trapped hcur hk.entered (fun _ => hsie) (.waits hok nofun hcall hon hspp hspie nofun) ht nofun

theorem exec_accelSubmit {cmd ticks : U64} {site : TrapSite} (h : SysOk σ)
    (hen : Enabled (.accelSubmit cmd ticks site) σ) (hx : exec (.accelSubmit cmd ticks site) σ = .ok σ') :
    Stepped σ (.accelSubmit cmd ticks site) σ' := by
  obtain ⟨p, hp, hx⟩ := bind_eq_ok.mp hx
  obtain ⟨hprog, hbound⟩ := accelSubmitSyncTimeout_progress hp
  cases hcur : σ.kernel.sched.currentThread with
  | some c =>
    have hc := hen.1 c hcur
    rw [current_eq hcur] at hx
    refine submitProgress_stepped h hcur (hc.real_tid h) hc.kernel (.inl hc.idle) hbound (hen.2 c hcur) ?_ hprog hx
    simp only [requested, ne_eq, ite_not]
  | none =>
    -- before the start a submission does not wait, and the null thread is in no call
    cases p with
    | ret r k =>
      have hidle : σ.calls σ.current = .idle := by
        rw [current, hcur]
        by_contra hne
        exact tidIsReal_ne_null (h.threads.real _ (decide_eq_true hne)) rfl
      obtain rfl := Except.ok.inj hx
      rw [setCall_setKernel_idle k hidle]
      exact .driver hprog.1 hprog.2
    | trap regs next k =>
      have hst := hprog.2.2.2.1
      rcases h.sched.phase with ⟨hf, -⟩ | ⟨-, d, hrun⟩
      · rw [hst] at hf; cases hf
      · exact nomatch hcur.symm.trans hrun.current

theorem exec_accelControl {control : U32} (hx : exec (.accelControl control) σ = .ok σ') :
    Stepped σ (.accelControl control) σ' := by
  obtain rfl := Except.ok.inj hx
  have hc := accelWriteControlRaw_change control σ.kernel
  exact .driver hc.1 hc.2

theorem exec_accelAck {mask : U32} (hx : exec (.accelAck mask) σ = .ok σ') : Stepped σ (.accelAck mask) σ' := by
  obtain rfl := Except.ok.inj hx
  have hc := accelAckIrq_change mask σ.kernel
  exact .driver hc.1 hc.2

theorem exec_accelStep (hx : exec .accelStep σ = .ok σ') : Stepped σ .accelStep σ' := by
  obtain rfl := Except.ok.inj hx
  exact .driver (.platformAccelStep _) rfl

theorem exec_pageAlloc (hx : exec .pageAlloc σ = .ok σ') : Stepped σ .pageAlloc σ' := by
  obtain ⟨⟨a, m⟩, h₁, hx⟩ := bind_eq_ok.mp hx
  obtain rfl := Except.ok.inj hx
  have hc := DriverChange.of_kept (pageAlloc_kept h₁)
  exact .driver hc.1 hc.2

theorem exec_pageFree {page : U64} (hx : exec (.pageFree page) σ = .ok σ') : Stepped σ (.pageFree page) σ' := by
  obtain ⟨m, h₁, hx⟩ := bind_eq_ok.mp hx
  obtain rfl := Except.ok.inj hx
  have hc := DriverChange.of_kept (pageFree_kept h₁)
  exact .driver hc.1 hc.2

theorem exec_write {mem : Mem} (hx : exec (.write mem) σ = .ok σ') : Stepped σ (.write mem) σ' := by
  obtain rfl := Except.ok.inj hx
  exact .driver (.setMem _ _) rfl

/-! ### System calls -/

theorem memsetProgress_stepped {k₀ : Kernel} {u : UserMemset} {sub : Submission} {frame : U64} {site : TrapSite}
    {p : Progress (UserMemset × Submission) Int} (h : SysOk σ) (hcur : σ.kernel.sched.currentThread = some c)
    (hk₀ : Entered c σ.kernel k₀) (hframe : UserFrame σ.kernel c frame (k₀.sched.frames frame).mstatus)
    (hcall : σ.calls c = .idle ∨ ∃ u sub, σ.calls c = .userMemset u sub)
    (hwait : p.returned = true ∨ σ.CallOk c (.userMemset u sub) ∧
      (σ.calls c = .idle ∨ σ.calls c = .userMemset u sub))
    (hon : OnStack σ.kernel.machine.image c site.frame)
    (hreq : p.returned = true ∨ σ.requested op = if sub.ticks = ticksForever then none else some sub.ticks)
    (hp : MemsetProgress k₀ u sub p) (hx : σ.memsetProgress c frame site p = .ok σ') : Stepped σ op σ' := by
  have hready := (h.threads.thread c (h.real_of_userTask hcur hframe.task)).ready hframe.task
  cases p with
  | ret result k₁ =>
    obtain ⟨⟨r, k₂⟩, hret, hx⟩ := bind_eq_ok.mp hx
    obtain rfl := Except.ok.inj hx
    obtain ⟨hk₁, -⟩ := hp
    have hk := hk₀.trans_driver hk₁
    let g := (k₁.sched.frames frame).syscallReturn result
    have hg : g.mstatus = (k₀.sched.frames frame).mstatus := by
      show (k₁.sched.frames frame).mstatus = _
      rw [hk₁.eq]
    rw [← hg] at hframe
    have hth : k₁.sched.threads = σ.kernel.sched.threads := by rw [hk.eq]
    have htasks : k₁.tasks = σ.kernel.tasks := by rw [hk.eq]
    have hcur₁ : k₁.sched.currentThread = some c := by rw [hk.eq]; exact hcur
    let k₃ : Kernel := { k₁ with sched := k₁.sched.setFrame frame fun _ => g }
    have htask : threadCurrentUserTaskForFrame frame k₃ = (k₁.sched.threads c).userTask := by
      refine threadCurrentUserTaskForFrame_eq hcur₁ ?_ ?_ ?_
      · show userTaskIsReady (k₁.sched.threads c).userTask k₃ = true
        rw [hth]
        exact (userTaskIsReady_congr (show k₃.tasks _ = σ.kernel.tasks _ from congrFun htasks _)).trans hready
      · show frame = (k₁.tasks (k₁.sched.threads c).userTask).trapContext
        rw [hth, htasks]; exact hframe.frame
      · rw [show k₃.sched.frames frame = g from k₁.sched.setFrame_self frame fun _ => g]; exact hframe.spp
    rw [userAccelReturn, userSyscallSetResult_eq] at hret
    have hz : frame ≠ 0 := by rw [hframe.frame]; exact (userTaskIsReady_iff.mp hready).2.2.2.2
    have hsaved : (k₂.sched.threads c).trapFrame = frame :=
      trapReturnFromHandler_user (k := k₃) hcur₁ htask (by rw [hth]; exact hframe.task) hz hret
    have ht : Trapped σ.queueSet c frame g .stay k₁.irqSave.2 k₂ :=
      ⟨frame, k₃.sched, ⟨.refl c _, rfl⟩, (trapReturnFromHandler_ok hret).setSie false⟩
    exact .trapped hcur (hk.trans_driver (.irqSave k₁)) (fun _ => rfl) (.memset hcall hframe) ht fun _ _ => hsaved
  | trap regs next k₁ =>
    obtain ⟨k', hk', hx⟩ := bind_eq_ok.mp hx
    obtain rfl := Except.ok.inj hx
    obtain ⟨hk₁, hsie, rfl, hst, rfl⟩ := hp
    obtain ⟨hok, hcall⟩ := hwait.resolve_left nofun
    have hreq := hreq.resolve_left nofun
    have hk := hk₀.trans_driver hk₁
    have himage₀ : k₀.machine.image = σ.kernel.machine.image := by rw [hk₀.kept.eq]
    have himage : k₁.machine.image = σ.kernel.machine.image := by rw [hk.kept.eq]
    rw [himage₀] at hk'
    obtain ⟨g, ht, hspp, hspie⟩ := waitTrap_ok (Q := σ.queueSet) (by rw [hk.eq]; exact h.sched.frames _)
      (by rw [hk.eq]; exact hcur) (by rw [hk.eq]; exact h.seen) (by rw [himage]; exact hon)
      (h.real_of_userTask hcur hframe.task) (h.accelQueue hok.1) (by
        split
        · exact nofun
        · exact fun he => hok.2.1 (Option.some.inj he)) hsie hk'
    have htick : σ.wakeTick op = (if sub.ticks = ticksForever then none else some sub.ticks).map (σ.now + ·) := by
      rw [wakeTick, hreq]
    rw [show k₁.timer.ticks = σ.now from by rw [hk.eq]; rfl, ← htick] at ht
    exact .trapped hcur hk (fun _ => hsie) (.waits hok nofun hcall hon hspp hspie nofun) ht nofun

theorem ecall_exit {frame next : U64} {regs : TrapFrame} {r : TrapReturn} {k' k₂ : Kernel}
    (h : SysOk σ) (hcur : σ.kernel.sched.currentThread = some c) (hidle : σ.calls c = .idle)
    (hframe : UserFrame σ.kernel c frame regs.mstatus)
    (hexit : userSyscallExitFromTrap frame (trapEnter frame regs σ.kernel) = .ok (next, k₂))
    (hret : trapReturnFromHandler next k₂ = .ok (r, k')) : Stepped σ op (σ.setKernel k') := by
  have hready := (h.threads.thread c (h.real_of_userTask hcur hframe.task)).ready hframe.task
  have hs : SchedInv σ.queueSet (trapEnter frame regs σ.kernel).sched := by
    rw [trapEnter_sched]; exact h.sched.setFrame _
  have hspp : ((trapEnter frame regs σ.kernel).sched.frames frame).mstatus &&& sstatusSpp = 0 := by
    rw [trapEnter_frame]; exact hframe.spp
  have htask := threadCurrentUserTaskForFrame_eq (k := trapEnter frame regs σ.kernel) hcur hready hframe.frame hspp
  have hne : ((trapEnter frame regs σ.kernel).sched.threads c).userTask ≠ 0 := hframe.task
  rw [userSyscallExitFromTrap, htask, if_pos hne] at hexit
  obtain ⟨s₀, s', k₃, hsw, hrel, rfl⟩ := userExit_ok hs hcur hready hspp hexit
  have hk := userTaskReleaseResources_change hrel
  have htasks : ∀ t, Function.update k₃.tasks ((trapEnter frame regs σ.kernel).sched.threads c).userTask t =
      Function.update σ.kernel.tasks (σ.kernel.sched.threads c).userTask t := fun t => by
    rw [hk.tasks_eq, Function.update_idem]
    exact Function.update_idem ..
  have hkept : ({ σ.kernel.machine with sie := false } : Machine).Kept k₃.machine := hk.kept
  have hr := trapReturnFromHandler_ok hret
  rw [htasks] at hr
  have hm : ({ σ.kernel.machine with sie := false } : Machine).Kept { k₃.machine with sie := false } :=
    ⟨by rw [hkept.eq], hkept.range, hkept.ok⟩
  exact .exited (m := { k₃.machine with sie := false })
    (t := { k₃.tasks (σ.kernel.sched.threads c).userTask with state := .destroyed })
    hcur hidle hframe hsw hm rfl hr

theorem ecall_user {frame : U64} {regs : TrapFrame} {site : TrapSite} {action : TrapAction} {k₁ : Kernel}
    (h : SysOk σ) (hcur : σ.kernel.sched.currentThread = some c) (hidle : σ.calls c = .idle)
    (hframe : UserFrame σ.kernel c frame (ecallFrame σ.kernel.machine.sie regs).mstatus)
    (hexit : regs.a7 ≠ userSyscallExit) (haccel : regs.a7 ≠ userSyscallAccelMemset)
    (h₁ : userSyscallDispatch frame (trapEnter frame (ecallFrame σ.kernel.machine.sie regs) σ.kernel) =
      .ok (action, k₁)) :
    ∃ next, action = .resume next ∧ ∀ r k', trapReturnFromHandler next k₁ = .ok (r, k') →
      Stepped σ (.ecall regs site) (σ.setKernel k') := by
  have hready := (h.threads.thread c (h.real_of_userTask hcur hframe.task)).ready hframe.task
  let k₀ := trapEnter frame (ecallFrame σ.kernel.machine.sie regs) σ.kernel
  have hf : k₀.sched.frames frame = ecallFrame σ.kernel.machine.sie regs := trapEnter_frame ..
  have hs : SchedInv σ.queueSet k₀.sched := by
    rw [trapEnter_sched]; exact h.sched.setFrame _
  have hspp : (k₀.sched.frames frame).mstatus &&& sstatusSpp = 0 := by rw [hf]; exact hframe.spp
  obtain ⟨l, g, next, s', heq, hsys, hleft⟩ := userSyscallDispatch_spec hs hcur hready hframe.frame hspp
    (by rw [hf]; exact hexit) (by rw [hf]; exact haccel)
  obtain ⟨rfl, rfl⟩ := Prod.mk.inj (Except.ok.inj (h₁.symm.trans heq))
  have hstatus : g.mstatus = (ecallFrame σ.kernel.machine.sie regs).mstatus := by rw [hsys.mstatus, hf]
  rw [hf] at hsys
  rw [← hstatus] at hframe
  refine ⟨next, rfl, fun r k' hret => ?_⟩
  rw [← setCall_setKernel_idle k' hidle]
  have hentered : Entered c σ.kernel k₀ := .trapEnter hframe.task hframe.frame (hstatus ▸ hframe.spp)
  refine .trapped hcur hentered (fun hne => absurd hidle hne) (.user hidle hframe ?_ ?_)
    ⟨next, s', hleft, trapReturnFromHandler_ok hret⟩ fun hl _ => ?_
  · rintro rfl
    generalize hl : Leave.retire = l at hsys
    cases hsys with
    | ret result => cases hl
    | yield hy => subst hl; rcases hy with hy | hy | hy <;> cases hy
    | sleep hop hne => cases hl
  · rintro b rfl
    generalize hl : Leave.park b = l at hsys
    cases hsys with
    | ret result => cases hl
    | yield hy => subst hl; rcases hy with hy | hy | hy <;> cases hy
    | sleep hop hne =>
      cases hl
      have hop : regs.a7 = userSyscallSleep := hop
      simp only [wakeTick, requested, hop, ↓reduceIte]
      rfl
  · subst hl
    obtain ⟨ht, rfl⟩ := hleft
    let k₂ : Kernel := { k₀ with sched := s' }
    have hth : (s'.threads c).userTask = (σ.kernel.sched.threads c).userTask := ht.task
    have hcur₂ : k₂.sched.currentThread = some c := ht.current.trans hcur
    have hz : next ≠ 0 := by rw [hframe.frame]; exact (userTaskIsReady_iff.mp hready).2.2.2.2
    refine trapReturnFromHandler_user (k := k₂) hcur₂ (threadCurrentUserTaskForFrame_eq hcur₂ ?_ ?_ ?_) ?_ hz hret
    · show userTaskIsReady (s'.threads c).userTask k₀ = true
      rw [hth]; exact hready
    · show next = (σ.kernel.tasks (s'.threads c).userTask).trapContext
      rw [hth]; exact hframe.frame
    · show (s'.frames next).mstatus &&& sstatusSpp = 0
      rw [ht.frames, Sched.setFrame_self]; exact hframe.spp
    · show (s'.threads c).userTask ≠ 0
      rw [hth]; exact hframe.task

theorem exec_ecall {regs : TrapFrame} {site : TrapSite} (h : SysOk σ) (hen : Enabled (.ecall regs site) σ)
    (hx : exec (.ecall regs site) σ = .ok σ') : Stepped σ (.ecall regs site) σ' := by
  obtain ⟨c, hcur, hidle, htask, hon⟩ := hen
  have hready := (h.threads.thread c (h.real_of_userTask hcur htask)).ready htask
  have hx : σ.ecall σ.current regs site = .ok σ' := hx
  rw [current_eq hcur] at hx
  obtain ⟨⟨action, k₁⟩, h₁, hx⟩ := bind_eq_ok.mp hx
  obtain ⟨frame, hctx⟩ : ∃ frame, frame = (σ.kernel.tasks (σ.kernel.sched.threads c).userTask).trapContext := ⟨_, rfl⟩
  rw [← hctx] at h₁
  have hf : (trapEnter frame (ecallFrame σ.kernel.machine.sie regs) σ.kernel).sched.frames frame =
      ecallFrame σ.kernel.machine.sie regs := trapEnter_frame ..
  have hframe : UserFrame σ.kernel c frame (ecallFrame σ.kernel.machine.sie regs).mstatus := by
    refine ⟨htask, hctx, ?_⟩
    show trapStatus false _ _ &&& sstatusSpp = 0
    rw [trapStatus_spp]; rfl
  have hz : frame ≠ 0 := by rw [hctx]; exact (userTaskIsReady_iff.mp hready).2.2.2.2
  rw [trapHandle_ecall (by rw [hf]; rfl)] at h₁
  by_cases hexit : regs.a7 = userSyscallExit
  · have hnr : (ecallFrame σ.kernel.machine.sie regs).a7 = userSyscallExit := hexit
    simp only [userSyscallDispatch, hf, hnr, hz, ↓reduceIte, resuming_eq_ok] at h₁
    obtain ⟨next, h₁, rfl⟩ := h₁
    obtain ⟨⟨r, k₂⟩, hret, hx⟩ := bind_eq_ok.mp hx
    obtain rfl := Except.ok.inj hx
    exact ecall_exit h hcur hidle hframe h₁ hret
  by_cases haccel : regs.a7 = userSyscallAccelMemset
  · have hnr : (ecallFrame σ.kernel.machine.sie regs).a7 = userSyscallAccelMemset := haccel
    simp only [userSyscallDispatch, hf, hnr, hz, ↓reduceIte] at h₁
    rw [if_neg (by decide), if_neg (by decide), if_neg (by decide)] at h₁
    obtain ⟨rfl, rfl⟩ := Prod.mk.inj (Except.ok.inj h₁)
    obtain ⟨p, hp, hx⟩ := bind_eq_ok.mp hx
    obtain ⟨u, sub, hprog, -, hwait⟩ := userAccelSyscallMemset_progress hp
    rw [hf, threadCurrentUserTaskForFrame_eq (k := trapEnter frame (ecallFrame σ.kernel.machine.sie regs) σ.kernel)
      hcur hready hctx (by rw [hf]; exact hframe.spp)] at hwait
    refine memsetProgress_stepped h hcur (.trapEnter htask hctx hframe.spp) (by rw [hf]; exact hframe) (.inl hidle)
      ?_ hon ?_ hprog hx
    · refine hwait.imp_right ?_
      rintro ⟨hu, ht, hcmd, hticks, _, hne, hbound⟩
      refine ⟨⟨hbound, hne, ht, ?_, ?_, hcmd, hticks⟩, .inl hidle⟩
      · rw [ht]; exact htask
      · rw [hu, hctx, ht]; rfl
    · refine hwait.imp_right ?_
      rintro ⟨-, -, -, -, hticks, -⟩
      have hticks : sub.ticks = regs.a3 := hticks
      have hne : userSyscallAccelMemset ≠ userSyscallSleep := by decide
      simp only [requested, haccel, hticks, hne, true_and, ne_eq, ite_not, ↓reduceIte]
  · obtain ⟨next, hact, hstep⟩ := ecall_user h hcur hidle hframe hexit haccel h₁
    subst hact
    obtain ⟨⟨r, k₂⟩, hret, hx⟩ := bind_eq_ok.mp hx
    rw [← Except.ok.inj hx]
    exact hstep r k₂ hret

/-! ### Going on after a wait -/

theorem exec_resume_lock {site : TrapSite} {call : LockCall} (h : SysOk σ) (hen : Enabled (.resume site) σ)
    (hcur : σ.kernel.sched.currentThread = some c) (hcall : σ.calls c = .lock call)
    (hx : exec (.resume site) σ = .ok σ') : LockStep σ (.resume site) c call σ' := by
  obtain ⟨d, hd, hbusy, hon⟩ := hen
  obtain rfl : c = d := Option.some.inj (hcur.symm.trans hd)
  have hx : σ.resume σ.current site = .ok σ' := hx
  have hok := h.call c
  rw [hcall] at hok
  rw [current_eq hcur, resume, hcall] at hx
  obtain ⟨p, hp, hx⟩ := bind_eq_ok.mp hx
  refine lockProgress_step h hcur (h.threads.real c (decide_eq_true hbusy)) hok (.inr ⟨hcall, rfl⟩) hon ?_
    (lockResume_outcome (h.threads.masked c hcur (decide_eq_true hbusy)) hp) hx
  simp only [requested, current_eq hcur, hcall]
  rfl

theorem exec_resume {site : TrapSite} (h : SysOk σ) (hen : Enabled (.resume site) σ)
    (hx : exec (.resume site) σ = .ok σ') : Stepped σ (.resume site) σ' := by
  obtain ⟨c, hcur, hbusy, hon⟩ := hen
  have hx : σ.resume σ.current site = .ok σ' := hx
  rw [current_eq hcur, resume] at hx
  have hc : tidIsReal c := h.threads.real c (decide_eq_true hbusy)
  have hsie : σ.kernel.machine.sie = false := h.threads.masked c hcur (decide_eq_true hbusy)
  have hok := h.call c
  have hreq : ∀ sub, (σ.calls c = .submit sub ∨ ∃ u, σ.calls c = .userMemset u sub) →
      σ.requested (.resume site) = if sub.ticks = ticksForever then none else some sub.ticks := by
    rintro sub (he | ⟨u, he⟩) <;> simp only [requested, current_eq hcur, he, ne_eq, ite_not]
  cases hcall : σ.calls c with
  | idle => exact absurd hcall hbusy
  | lock call =>
    rw [hcall] at hok
    have hx₀ : exec (.resume site) σ = .ok σ' := by
      show σ.resume σ.current site = .ok σ'
      rw [current_eq hcur, resume]
      exact hx
    exact (exec_resume_lock h ⟨c, hcur, hbusy, hon⟩ hcur hcall hx₀).stepped hcur hok
  | submit sub =>
    rw [hcall] at hx hok
    obtain ⟨p, hp, hx⟩ := bind_eq_ok.mp hx
    exact submitProgress_stepped h hcur hc hok.2.2 (.inr hcall) (.inr ⟨hok.2.1, hok.1⟩) hon
      (hreq sub (.inl hcall)) (submissionResume_progress hsie hp) hx
  | userMemset u sub =>
    rw [hcall] at hx hok
    obtain ⟨p, hp, hx⟩ := bind_eq_ok.mp hx
    obtain ⟨p', hp', hx⟩ := bind_eq_ok.mp hx
    obtain ⟨-, -, htask, hne, hframe, -⟩ := id hok
    have hprog := userAccelAfterSubmit_progress (submissionResume_progress hsie hp) hp'
    have hu : UserFrame σ.kernel c u.frame (σ.kernel.sched.frames u.frame).mstatus := by
      refine ⟨htask ▸ hne, by rw [hframe, htask], ?_⟩
      rw [hframe, htask]
      exact (h.threads.contexts _ ((h.threads.thread c hc).ready (htask ▸ hne))).2
    exact memsetProgress_stepped h hcur (.refl c _) hu (.inr ⟨u, sub, hcall⟩) (.inr ⟨hok, .inr hcall⟩) hon
      (.inr (hreq sub (.inr ⟨u, hcall⟩))) hprog hx

/-! ### All steps -/

theorem exec_stepped (h : SysOk σ) (hen : Enabled op σ) (hone : AttachOnce op σ) (hx : exec op σ = .ok σ') :
    Stepped σ op σ' := by
  cases op with
  | threadCreate name entry arg => exact exec_threadCreate h hx
  | threadCreateUser name task => exact exec_threadCreateUser h hone hx
  | threadStart => exact exec_threadStart h hen hx
  | userTaskInit task program => exact exec_userTaskInit h hx
  | waitQueueInit queue name => exact exec_waitQueueInit h hen hx
  | wakeOne queue => exact exec_wakeOne h hen hx
  | wakeAll queue => exact exec_wakeAll h hen hx
  | control t site => exact exec_control h hen hx
  | ecall regs site => exact exec_ecall h hen hx
  | timer mtime site => exact exec_timer h hen hx
  | resume site => exact exec_resume h hen hx
  | mutexInit mutex name => exact exec_mutexInit h hen hx
  | mutexLock mutex site => exact exec_mutexLock h hen hx
  | mutexLockTimeout mutex ticks site => exact exec_mutexLockTimeout h hen hx
  | mutexTrylock mutex => exact exec_mutexTrylock h hen hx
  | mutexUnlock mutex => exact exec_mutexUnlock h hen hx
  | accelSubmit cmd ticks site => exact exec_accelSubmit h hen hx
  | accelControl control => exact exec_accelControl hx
  | accelAck mask => exact exec_accelAck hx
  | accelStep => exact exec_accelStep hx
  | dispatchIrqs => exact exec_dispatchIrqs h hx
  | pageAlloc => exact exec_pageAlloc hx
  | pageFree page => exact exec_pageFree hx
  | write mem => exact exec_write hx

end System

end QemuRtos
