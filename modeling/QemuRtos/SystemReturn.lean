import QemuRtos.SystemEvents

/-!
# Traps up to their return

Every trap ends in `trap_return_from_handler`, which gets a frame of the handler's choice. `trapExit` runs a step
of the system up to that call, and `trapExit_takesTrap` says how the current thread has left by then.
-/

namespace QemuRtos

open Lib

/-- A trap that has been handled, when `trap_return_from_handler` is called. -/
structure TrapExit where
  /-- Where the registers were saved, unless the trap that ends here had saved them before. -/
  saved : Option U64
  /-- The frame passed to `trap_return_from_handler`. -/
  frame : U64
  kernel : Kernel

/-- `takeTrap` up to its return. -/
def takeTrapExit (mtime : Nat) (frame : U64) (regs : TrapFrame) (k : Kernel) : Except Panic (Option TrapExit) := do
  let (action, k) ← trapHandle mtime frame (trapEnter frame regs k)
  match action with
  | .resume next => .ok (some { saved := some frame, frame := next, kernel := k })
  | .accelMemset _ => .ok none

/-- `controlTrap` up to its return. -/
def controlTrapExit (t : ControlTrap) (site : TrapSite) (k : Kernel) : Except Panic (Option TrapExit) :=
  takeTrapExit 0 site.frame (ebreakFrame t k.machine.sie site.regs) k

/-- The control trap of a call, if it waits. -/
def Progress.trapExit {κ α : Type} (site : TrapSite) : Progress κ α → Except Panic (Option TrapExit)
  | .ret _ _ => .ok none
  | .trap regs _ k => controlTrapExit regs site k

/-- An accelerator system call from `frame` either returns there or waits. -/
def memsetExit (saved : Option U64) (frame : U64) (site : TrapSite) :
    Progress (UserMemset × Submission) Int → Except Panic (Option TrapExit)
  | .ret result k => .ok (some { saved := saved, frame := frame, kernel := userAccelReturn frame result k })
  | .trap regs _ k => controlTrapExit regs site k

namespace System

/-- The trap of a step, if it takes one. -/
def trapExit (op : Op) (σ : System) : Except Panic (Option TrapExit) :=
  let k := σ.kernel
  match op with
  | .control t site => controlTrapExit t site k
  | .ecall regs site => do
    let frame := (k.tasks (k.sched.threads σ.current).userTask).trapContext
    let (action, k) ← trapHandle 0 frame (trapEnter frame (ecallFrame k.machine.sie regs) k)
    match action with
    | .resume next => .ok (some { saved := some frame, frame := next, kernel := k })
    | .accelMemset frame => do
      let p ← userAccelSyscallMemset frame k
      memsetExit (some frame) frame site p
  | .timer mtime site =>
    let task := (k.sched.threads σ.current).userTask
    let frame := if task = 0 then site.frame else (k.tasks task).trapContext
    takeTrapExit mtime frame (timerFrame (task = 0) k.machine.sie site.regs) k
  | .resume site => match σ.calls σ.current with
    | .idle => .ok none
    | .lock call => do
      let p ← call.resume (σ.resumedA0 σ.current) k
      p.trapExit site
    | .submit sub => do
      let p ← sub.resume (σ.resumedA0 σ.current) k
      p.trapExit site
    | .userMemset u sub => do
      let p ← sub.resume (σ.resumedA0 σ.current) k
      let p ← userAccelAfterSubmit u p
      memsetExit none u.frame site p
  | .mutexLock mutex site => do
    let p ← QemuRtos.mutexLock mutex k
    p.trapExit site
  | .mutexLockTimeout mutex ticks site => do
    let p ← QemuRtos.mutexLockTimeout mutex ticks k
    p.trapExit site
  | .accelSubmit cmd ticks site => do
    let p ← accelSubmitSyncTimeout cmd ticks k
    p.trapExit site
  | _ => .ok none

/-- Where thread `t` has been saved last, after the trap `e` of the current thread, if it takes one. -/
def lastSaved (σ : System) (e : Option TrapExit) (saved : Nat → U64) (t : Nat) : U64 :=
  if σ.kernel.sched.currentThread = some t then (e.bind TrapExit.saved).getD (saved t) else saved t

/-- Where each thread has been saved last, after a step from `σ` to `σ'`: a new thread, when it was created. -/
def savedAfter (σ : System) (e : Option TrapExit) (σ' : System) (saved : Nat → U64) (t : Nat) : U64 :=
  if (σ.kernel.sched.threads t).state.live = false ∧ (σ'.kernel.sched.threads t).state.live = true then
    (σ'.kernel.sched.threads t).trapFrame
  else σ.lastSaved e saved t

/-- Where each thread is saved at first. -/
def firstSaved (σ : System) (t : Nat) : U64 := (σ.kernel.sched.threads t).trapFrame

/-- A step, with where each thread has been saved last. -/
def savingStep (op : Op) (x : System × (Nat → U64)) : Except Panic (System × (Nat → U64)) := do
  let e ← x.1.trapExit op
  let σ' ← exec op x.1
  .ok (σ', x.1.savedAfter e σ' x.2)

end System

/-! ### Traps up to their return -/

variable {Q : Set U64} {c d t : Nat} {frame mstatus : U64} {k k' k₁ : Kernel} {l : Leave} {e : TrapExit}

theorem takeTrap_of_exit {mtime : Nat} {regs : TrapFrame} (h : takeTrapExit mtime frame regs k = .ok (some e))
    (hrun : takeTrap mtime frame regs k = .ok k') : ∃ r, trapReturnFromHandler e.frame e.kernel = .ok (r, k') := by
  obtain ⟨⟨action, k₁⟩, h₁, h⟩ := bind_eq_ok.mp h
  rw [takeTrap, h₁, ok_bind] at hrun
  cases action with
  | accelMemset => cases h
  | resume next =>
    cases h
    obtain ⟨⟨r, k₂⟩, hret, hrun⟩ := bind_eq_ok.mp hrun
    cases hrun
    exact ⟨r, hret⟩

theorem controlTrapExit_ok {t : ControlTrap} {site : TrapSite} (h : SchedInv Q k.sched)
    (hcur : k.sched.currentThread = some c) (hseen : k.trapSelftestSeen = true) (hframe : site.frame ≠ 0)
    (hok : ControlOk Q c (ebreakFrame t k.machine.sie site.regs) k.sched) :
    ∃ l g next s', g.mstatus &&& sstatusSpp ≠ 0 ∧
      Left Q c site.frame (k.sched.setFrame site.frame fun _ => g) l next s' ∧
      controlTrapExit t site k = .ok (some
        ⟨some site.frame, next, { k with machine := { k.machine with sie := false }, sched := s' }⟩) := by
  let regs := ebreakFrame t k.machine.sie site.regs
  have hreg : (trapEnter site.frame regs k).sched.frames site.frame = regs := trapEnter_frame ..
  obtain ⟨l, g, next, s', heq, hc, hl⟩ := threadHandleControlTrapFromTrap_spec (Q := Q)
    (k := trapEnter site.frame regs k) (by rw [trapEnter_sched]; exact h.setFrame _) hcur hframe
    (by rw [hreg]; exact hok)
  rw [hreg] at hc
  rw [trapEnter_sched, Sched.setFrame_setFrame] at hl
  refine ⟨l, g, next, s', ?_, hl, ?_⟩
  · have hstatus : g.mstatus = trapStatus true k.machine.sie site.regs.mstatus := hc.mstatus
    rw [hstatus, trapStatus_spp]
    decide
  · rw [controlTrapExit, takeTrapExit, trapHandle_breakpoint (k := trapEnter site.frame regs k) hseen
      (by rw [hreg]; rfl), heq, resuming_ok, ok_bind]
    rfl

namespace System

variable {σ σ' : System} {op : Op} {call : Call} {saved : Nat → U64}

/-- How the current thread `c` leaves its trap to `frame`, and the call it is in afterwards. -/
structure ExitOk (σ : System) (e : TrapExit) (c : Nat) (frame mstatus : U64) (l : Leave) (call : Call) : Prop where
  current : σ.kernel.sched.currentThread = some c
  left : ∃ s₁, (∀ t, (s₁.threads t).anchor = (σ.kernel.sched.threads t).anchor) ∧ s₁.currentThread = some c ∧
    (s₁.frames frame).mstatus = mstatus ∧
    (∀ a ≠ frame, (s₁.frames a).mstatus = (σ.kernel.sched.frames a).mstatus ∨
      InPages σ.kernel.machine.image a ∧ (s₁.frames a).mstatus &&& sstatusSpp = 0) ∧
    Left σ.queueSet c frame s₁ l e.frame e.kernel.sched
  image : e.kernel.machine.image = σ.kernel.machine.image
  tasks : ∀ task, (l = .retire → task ≠ (σ.kernel.sched.threads c).userTask) →
    e.kernel.tasks task = σ.kernel.tasks task
  place : OnStack σ.kernel.machine.image c frame ∧ mstatus &&& sstatusSpp ≠ 0 ∨
    UserFrame σ.kernel c frame mstatus ∧ call = .idle
  saved : e.saved = some frame ∨ e.saved = none ∧ l = .stay ∧ UserFrame σ.kernel c frame mstatus

/-- What changes after the call of `trap_return_from_handler`. -/
def ReturnsFrom (σ : System) (e : TrapExit) (c : Nat) (call : Call) (σ' : System) : Prop :=
  ∃ r k', trapReturnFromHandler e.frame e.kernel = .ok (r, k') ∧ σ' = (σ.setKernel k').setCall c call

theorem Entered.inPages {k₁ : Kernel} (h : SysOk σ) (hcur : σ.kernel.sched.currentThread = some c)
    (hk : Entered c σ.kernel k₁) (a : U64) : (k₁.sched.frames a).mstatus = (σ.kernel.sched.frames a).mstatus ∨
      InPages σ.kernel.machine.image a ∧ (k₁.sched.frames a).mstatus &&& sstatusSpp = 0 := by
  rcases hk.frames a with he | ⟨htask, rfl, hspp⟩
  · exact .inl (by rw [he])
  · have hready := (h.threads.thread c (h.real_of_userTask hcur htask)).ready htask
    exact .inr ⟨(h.threads.contexts _ hready).1, hspp⟩

theorem exitOk_of_control {t : ControlTrap} {site : TrapSite} {k₁ : Kernel} (h : SysOk σ)
    (hcur : σ.kernel.sched.currentThread = some c) (hk : Entered c σ.kernel k₁)
    (hon : OnStack σ.kernel.machine.image c site.frame)
    (hok : ControlOk σ.queueSet c (ebreakFrame t k₁.machine.sie site.regs) k₁.sched) (call : Call) :
    ∃ e mstatus l, controlTrapExit t site k₁ = .ok (some e) ∧ ExitOk σ e c site.frame mstatus l call := by
  have hs : SchedInv σ.queueSet k₁.sched := by rw [hk.eq]; exact h.sched.frames _
  have hcur₁ : k₁.sched.currentThread = some c := by rw [hk.eq]; exact hcur
  have hseen₁ : k₁.trapSelftestSeen = true := by rw [hk.eq]; exact h.seen
  obtain ⟨l, g, next, s', hspp, hl, heq⟩ := controlTrapExit_ok hs hcur₁ hseen₁ hon.ne_zero hok
  refine ⟨_, g.mstatus, l, heq, hcur, ⟨k₁.sched.setFrame site.frame fun _ => g, fun t => ?_, hcur₁, ?_,
    fun a ha => ?_, hl⟩,
    ?_, fun task _ => ?_,
    .inl ⟨hon, hspp⟩, .inl rfl⟩
  · rw [Sched.setFrame_threads, hk.eq]
  · rw [Sched.setFrame_self]
  · rw [Sched.setFrame_of_ne _ _ _ ha]
    exact Entered.inPages h hcur hk a
  · show k₁.machine.image = _
    rw [hk.kept.eq]
  · show k₁.tasks task = _
    rw [hk.eq]

theorem returnsFrom_control {t : ControlTrap} {site : TrapSite} {k₁ k' : Kernel}
    (hx : controlTrapExit t site k₁ = .ok (some e)) (hrun : controlTrap t site k₁ = .ok k') :
    ReturnsFrom σ e c call ((σ.setKernel k').setCall c call) := by
  obtain ⟨r, hret⟩ := takeTrap_of_exit hx hrun
  exact ⟨r, k', hret, rfl⟩

theorem controlOk_waitTrap {queue : U64} {timeout : Option U64} {sie : Bool} {regs : TrapFrame} {s : Sched}
    (hc : tidIsReal c) (hq : queue ∈ Q) : ControlOk Q c (ebreakFrame (waitTrap queue timeout) sie regs) s := by
  refine .inr ⟨hc, .inr (.inr ?_)⟩
  cases timeout with
  | none => exact ⟨.inl rfl, hq⟩
  | some ticks => exact ⟨.inr rfl, hq⟩

/-- The step takes a trap that ends with the call `e` of `trap_return_from_handler`. -/
def TakesTrap (op : Op) (σ : System) (e : TrapExit) : Prop :=
  ∃ c frame mstatus l call, ExitOk σ e c frame mstatus l call ∧ ∀ σ', exec op σ = .ok σ' → ReturnsFrom σ e c call σ'

theorem trapExit_control {t : ControlTrap} {site : TrapSite} (h : SysOk σ) (hen : Enabled (.control t site) σ)
    (hx : trapExit (.control t site) σ = .ok (some e)) : TakesTrap (.control t site) σ e := by
  obtain ⟨c, hcur, hidle, htask, hallow, hon⟩ := hen
  have hlt := (h.sched.started hcur).2.lt
  obtain ⟨e', mstatus, l, heq, hexit⟩ := exitOk_of_control h hcur (.refl c _) hon (hallow.controlOk hlt htask) .idle
  obtain rfl := Option.some.inj (Except.ok.inj (heq.symm.trans hx))
  refine ⟨c, _, mstatus, l, .idle, hexit, fun σ' hrun => ?_⟩
  obtain ⟨k₁, h₁, hrun⟩ := bind_eq_ok.mp hrun
  cases hrun
  rw [← setCall_setKernel_idle k₁ hidle]
  exact returnsFrom_control hx h₁

/-! ### Locks -/

theorem lockExit {lock : LockCall} {entry : LockEntry} {site : TrapSite} {p : Progress LockCall Int} (h : SysOk σ)
    (hcur : σ.kernel.sched.currentThread = some c) (hc : tidIsReal c) (hcall : σ.CallOk c (.lock lock))
    (hon : OnStack σ.kernel.machine.image c site.frame) (ho : LockOutcome σ.kernel lock entry p)
    (hx : p.trapExit site = .ok (some e)) : ∃ mstatus l call, ExitOk σ e c site.frame mstatus l call ∧
      ∀ σ', σ.lockProgress c lock.mutex site p = .ok σ' → ReturnsFrom σ e c call σ' := by
  cases p with
  | ret r k => cases hx
  | trap regs next k =>
    cases ho with
    | waits =>
      obtain ⟨e', mstatus, l, heq, hexit⟩ := exitOk_of_control h hcur (DriverChange.irqSave _).entered hon
        (controlOk_waitTrap hc (h.mutexQueue _ hcall.2.1).2) (.lock lock)
      obtain rfl := Option.some.inj (Except.ok.inj (heq.symm.trans hx))
      refine ⟨mstatus, l, _, hexit, fun σ' hrun => ?_⟩
      obtain ⟨k', hk', hrun⟩ := bind_eq_ok.mp hrun
      cases hrun
      exact returnsFrom_control hx hk'

theorem trapExit_mutexLock {mutex : U64} {site : TrapSite} (h : SysOk σ) (hen : Enabled (.mutexLock mutex site) σ)
    (hx : trapExit (.mutexLock mutex site) σ = .ok (some e)) : TakesTrap (.mutexLock mutex site) σ e := by
  obtain ⟨c, hc, hm, -, hon⟩ := hen
  obtain ⟨p, hp, hx⟩ := bind_eq_ok.mp hx
  obtain ⟨-, -, ho⟩ := mutexLock_outcome hp
  rw [threadCurrentTid_eq h hc.current] at ho
  have hcall : σ.CallOk c (.lock (.lock mutex c σ.kernel.machine.sie)) := ⟨rfl, hm, hc.kernel⟩
  obtain ⟨mstatus, l, call, hexit, hret⟩ := lockExit h hc.current (hc.real_tid h) hcall hon ho hx
  refine ⟨c, _, mstatus, l, call, hexit, fun σ' hrun => hret σ' ?_⟩
  obtain ⟨p', hp', hrun⟩ := bind_eq_ok.mp hrun
  cases hp.symm.trans hp'
  rwa [current_eq hc.current] at hrun

theorem trapExit_mutexLockTimeout {mutex ticks : U64} {site : TrapSite} (h : SysOk σ)
    (hen : Enabled (.mutexLockTimeout mutex ticks site) σ)
    (hx : trapExit (.mutexLockTimeout mutex ticks site) σ = .ok (some e)) :
    TakesTrap (.mutexLockTimeout mutex ticks site) σ e := by
  obtain ⟨c, hc, hm, -, hon⟩ := hen
  obtain ⟨p, hp, hx⟩ := bind_eq_ok.mp hx
  obtain ⟨-, -, ho⟩ := mutexLockTimeout_outcome hp
  rw [threadCurrentTid_eq h hc.current] at ho
  have hcall : σ.CallOk c (.lock (.lockTimeout mutex c σ.kernel.machine.sie)) := ⟨rfl, hm, hc.kernel⟩
  obtain ⟨mstatus, l, call, hexit, hret⟩ := lockExit h hc.current (hc.real_tid h) hcall hon ho hx
  refine ⟨c, _, mstatus, l, call, hexit, fun σ' hrun => hret σ' ?_⟩
  obtain ⟨p', hp', hrun⟩ := bind_eq_ok.mp hrun
  cases hp.symm.trans hp'
  rwa [current_eq hc.current] at hrun

/-! ### The accelerator -/

theorem submitExit {sub : Submission} {site : TrapSite} {p : Progress Submission Int} (h : SysOk σ)
    (hcur : σ.kernel.sched.currentThread = some c) (hc : tidIsReal c)
    (hbound : p.returned = true ∨ sub.ticks ≠ 0 ∧ σ.kernel.accelBound = true)
    (hon : OnStack σ.kernel.machine.image c site.frame) (hp : SubmitProgress σ.kernel sub p)
    (hx : p.trapExit site = .ok (some e)) : ∃ mstatus l call, ExitOk σ e c site.frame mstatus l call ∧
      ∀ σ', σ.submitProgress c site p = .ok σ' → ReturnsFrom σ e c call σ' := by
  cases p with
  | ret r k => cases hx
  | trap regs next k =>
    obtain ⟨hk, -, -, -, rfl⟩ := hp
    have hb := (hbound.resolve_left Bool.false_ne_true).2
    obtain ⟨e', mstatus, l, heq, hexit⟩ := exitOk_of_control h hcur hk.entered hon
      (controlOk_waitTrap hc (h.accelQueue hb)) (.submit next)
    obtain rfl := Option.some.inj (Except.ok.inj (heq.symm.trans hx))
    refine ⟨mstatus, l, _, hexit, fun σ' hrun => ?_⟩
    obtain ⟨k', hk', hrun⟩ := bind_eq_ok.mp hrun
    cases hrun
    exact returnsFrom_control hx hk'

/-- An accelerator system call either returns to its user frame, or waits on the kernel stack. -/
theorem memsetExit_ok {k₀ : Kernel} {u : UserMemset} {sub : Submission} {frame : U64} {site : TrapSite}
    {saved : Option U64} {p : Progress (UserMemset × Submission) Int} (h : SysOk σ)
    (hcur : σ.kernel.sched.currentThread = some c) (hk₀ : Entered c σ.kernel k₀)
    (hframe : UserFrame σ.kernel c frame (k₀.sched.frames frame).mstatus)
    (hbound : p.returned = true ∨ σ.kernel.accelBound = true) (hon : OnStack σ.kernel.machine.image c site.frame)
    (hp : MemsetProgress k₀ u sub p) (hsaved : saved = some frame ∨ saved = none) :
    ∃ e a mstatus l call, memsetExit saved frame site p = .ok (some e) ∧ ExitOk σ e c a mstatus l call ∧
      ∀ σ', σ.memsetProgress c frame site p = .ok σ' → ReturnsFrom σ e c call σ' := by
  cases p with
  | ret result k₁ =>
    have hk := hk₀.trans_driver hp.1
    have hframes : k₁.sched.frames = k₀.sched.frames := by rw [hp.1.eq]
    refine ⟨_, frame, (k₀.sched.frames frame).mstatus, .stay, .idle, rfl, ⟨hcur, ?_, ?_, fun task _ => ?_,
      .inr ⟨hframe, rfl⟩, hsaved.imp_right fun hs => ⟨hs, rfl, hframe⟩⟩, fun σ' hrun => ?_⟩
    · rw [userAccelReturn, userSyscallSetResult_eq]
      refine ⟨k₁.sched.setFrame frame fun _ => (k₁.sched.frames frame).syscallReturn result, fun t => ?_, ?_, ?_,
        fun a ha => ?_, .refl c _, rfl⟩
      · rw [Sched.setFrame_threads, hk.eq]
      · rw [Sched.setFrame_currentThread, hk.eq]; exact hcur
      · rw [Sched.setFrame_self, ← hframes]; rfl
      · rw [Sched.setFrame_of_ne _ _ _ ha]
        exact Entered.inPages h hcur hk a
    · show k₁.machine.image = _
      rw [hk.kept.eq]
    · show k₁.tasks task = _
      rw [hk.eq]
    · obtain ⟨⟨r, k₂⟩, hret, hrun⟩ := bind_eq_ok.mp hrun
      cases hrun
      exact ⟨r, k₂, hret, rfl⟩
  | trap regs next k₁ =>
    obtain ⟨hk₁, -, -, -, rfl⟩ := hp
    have hk := hk₀.trans_driver hk₁
    have himage₀ : k₀.machine.image = σ.kernel.machine.image := by rw [hk₀.kept.eq]
    have hq : accelWaiters k₀.machine.image ∈ σ.queueSet := by
      rw [himage₀]; exact h.accelQueue (hbound.resolve_left Bool.false_ne_true)
    obtain ⟨e, mstatus, l, heq, hexit⟩ := exitOk_of_control h hcur hk hon
      (controlOk_waitTrap (h.real_of_userTask hcur hframe.task) hq) (.userMemset next.1 next.2)
    refine ⟨e, _, mstatus, l, _, heq, hexit, fun σ' hrun => ?_⟩
    obtain ⟨k', hk', hrun⟩ := bind_eq_ok.mp hrun
    cases hrun
    exact returnsFrom_control heq hk'

theorem trapExit_accelSubmit {cmd ticks : U64} {site : TrapSite} (h : SysOk σ)
    (hcur : σ.kernel.sched.currentThread = some c) (hen : Enabled (.accelSubmit cmd ticks site) σ)
    (hx : trapExit (.accelSubmit cmd ticks site) σ = .ok (some e)) : TakesTrap (.accelSubmit cmd ticks site) σ e := by
  obtain ⟨p, hp, hx⟩ := bind_eq_ok.mp hx
  obtain ⟨hprog, hbound⟩ := accelSubmitSyncTimeout_progress hp
  have hc := hen.1 c hcur
  obtain ⟨mstatus, l, call, hexit, hret⟩ := submitExit h hcur (hc.real_tid h) hbound (hen.2 c hcur) hprog hx
  refine ⟨c, _, mstatus, l, call, hexit, fun σ' hrun => hret σ' ?_⟩
  obtain ⟨p', hp', hrun⟩ := bind_eq_ok.mp hrun
  cases hp.symm.trans hp'
  rwa [current_eq hcur] at hrun

theorem userMemset_frame {u : UserMemset} {sub : Submission} (h : SysOk σ) (hc : tidIsReal c)
    (hcall : σ.CallOk c (.userMemset u sub)) :
    UserFrame σ.kernel c u.frame (σ.kernel.sched.frames u.frame).mstatus := by
  obtain ⟨-, -, htask, hne, hframe, -⟩ := hcall
  refine ⟨htask ▸ hne, by rw [hframe, htask], ?_⟩
  rw [hframe, htask]
  exact (h.threads.contexts _ ((h.threads.thread c hc).ready (htask ▸ hne))).2

theorem trapExit_resume {site : TrapSite} (h : SysOk σ) (hen : Enabled (.resume site) σ)
    (hx : trapExit (.resume site) σ = .ok (some e)) : TakesTrap (.resume site) σ e := by
  obtain ⟨c, hcur, hbusy, hon⟩ := hen
  have hc : tidIsReal c := h.threads.real c (decide_eq_true hbusy)
  have hsie : σ.kernel.machine.sie = false := h.threads.masked c hcur (decide_eq_true hbusy)
  have hok := h.call c
  have hexec : ∀ σ', exec (.resume site) σ = .ok σ' → σ.resume c site = .ok σ' := fun σ' hrun => by
    rw [← current_eq hcur]
    exact hrun
  simp only [trapExit, current_eq hcur] at hx
  cases hcall : σ.calls c with
  | idle => exact absurd hcall hbusy
  | lock lock =>
    rw [hcall] at hok hx
    obtain ⟨p, hp, hx⟩ := bind_eq_ok.mp hx
    obtain ⟨mstatus, l, call, hexit, hret⟩ := lockExit h hcur hc hok hon (lockResume_outcome hsie hp) hx
    refine ⟨c, _, mstatus, l, call, hexit, fun σ' hrun => hret σ' ?_⟩
    have hrun := hexec σ' hrun
    rw [resume, hcall] at hrun
    obtain ⟨p', hp', hrun⟩ := bind_eq_ok.mp hrun
    cases hp.symm.trans hp'
    exact hrun
  | submit sub =>
    rw [hcall] at hok hx
    obtain ⟨p, hp, hx⟩ := bind_eq_ok.mp hx
    obtain ⟨mstatus, l, call, hexit, hret⟩ :=
      submitExit h hcur hc (.inr ⟨hok.2.1, hok.1⟩) hon (submissionResume_progress hsie hp) hx
    refine ⟨c, _, mstatus, l, call, hexit, fun σ' hrun => hret σ' ?_⟩
    have hrun := hexec σ' hrun
    rw [resume, hcall] at hrun
    obtain ⟨p', hp', hrun⟩ := bind_eq_ok.mp hrun
    cases hp.symm.trans hp'
    exact hrun
  | userMemset u sub =>
    rw [hcall] at hok hx
    obtain ⟨p, hp, hx⟩ := bind_eq_ok.mp hx
    obtain ⟨p₁, hp₁, hx⟩ := bind_eq_ok.mp hx
    have hu := userMemset_frame h hc hok
    obtain ⟨e', a, mstatus, l, call, heq, hexit, hret⟩ := memsetExit_ok h hcur (.refl c _) hu (.inr hok.1) hon
      (userAccelAfterSubmit_progress (submissionResume_progress hsie hp) hp₁) (.inr rfl)
    obtain rfl := Option.some.inj (Except.ok.inj (heq.symm.trans hx))
    refine ⟨c, a, mstatus, l, call, hexit, fun σ' hrun => hret σ' ?_⟩
    have hrun := hexec σ' hrun
    rw [resume, hcall] at hrun
    obtain ⟨p', hp', hrun⟩ := bind_eq_ok.mp hrun
    cases hp.symm.trans hp'
    obtain ⟨p'', hp'', hrun⟩ := bind_eq_ok.mp hrun
    cases hp₁.symm.trans hp''
    exact hrun

/-! ### System calls and timer interrupts -/

theorem ecallExit_exit {frame next : U64} {regs : TrapFrame} {k₁ : Kernel} (h : SysOk σ)
    (hcur : σ.kernel.sched.currentThread = some c) (hframe : UserFrame σ.kernel c frame regs.mstatus)
    (hexit : userSyscallExitFromTrap frame (trapEnter frame regs σ.kernel) = .ok (next, k₁)) :
    ExitOk σ ⟨some frame, next, k₁⟩ c frame regs.mstatus .retire .idle := by
  have hc := h.real_of_userTask hcur hframe.task
  have hready := (h.threads.thread c hc).ready hframe.task
  have hs : SchedInv σ.queueSet (trapEnter frame regs σ.kernel).sched := by
    rw [trapEnter_sched]; exact h.sched.setFrame _
  have hspp : ((trapEnter frame regs σ.kernel).sched.frames frame).mstatus &&& sstatusSpp = 0 := by
    rw [trapEnter_frame]; exact hframe.spp
  have htask := threadCurrentUserTaskForFrame_eq (k := trapEnter frame regs σ.kernel) hcur hready hframe.frame hspp
  have hne : ((trapEnter frame regs σ.kernel).sched.threads c).userTask ≠ 0 := hframe.task
  rw [userSyscallExitFromTrap, htask, if_pos hne] at hexit
  obtain ⟨s₀, s', k₃, hsw, hrel, rfl⟩ := userExit_ok hs hcur hready hspp hexit
  have hk := userTaskReleaseResources_change hrel
  refine ⟨hcur, ⟨(trapEnter frame regs σ.kernel).sched, fun t => ?_, hcur, ?_, fun a ha => ?_, hc, hsw⟩, ?_,
    fun task ht => ?_, .inr ⟨hframe, rfl⟩, .inl rfl⟩
  · rw [trapEnter_sched, Sched.setFrame_threads]
  · rw [trapEnter_frame]
  · rw [trapEnter_sched, Sched.setFrame_of_ne _ _ _ ha]
    exact .inl rfl
  · show k₃.machine.image = _
    rw [hk.kept.eq]
    rfl
  · show Function.update k₃.tasks (σ.kernel.sched.threads c).userTask _ task = _
    rw [Function.update_of_ne (ht rfl), hk.tasks_eq]
    exact (Function.update_of_ne (ht rfl) _ _).trans (Function.update_of_ne (ht rfl) _ _)

theorem ecallExit_user {frame : U64} {regs : TrapFrame} {action : TrapAction} {k₁ : Kernel} (h : SysOk σ)
    (hcur : σ.kernel.sched.currentThread = some c) (hframe : UserFrame σ.kernel c frame regs.mstatus)
    (hexit : regs.a7 ≠ userSyscallExit) (haccel : regs.a7 ≠ userSyscallAccelMemset)
    (h₁ : userSyscallDispatch frame (trapEnter frame regs σ.kernel) = .ok (action, k₁)) :
    ∃ next l, action = .resume next ∧ ExitOk σ ⟨some frame, next, k₁⟩ c frame regs.mstatus l .idle := by
  have hready := (h.threads.thread c (h.real_of_userTask hcur hframe.task)).ready hframe.task
  have hf : (trapEnter frame regs σ.kernel).sched.frames frame = regs := trapEnter_frame ..
  have hs : SchedInv σ.queueSet (trapEnter frame regs σ.kernel).sched := by
    rw [trapEnter_sched]; exact h.sched.setFrame _
  obtain ⟨l, g, next, s', heq, hsys, hleft⟩ := userSyscallDispatch_spec hs hcur hready hframe.frame
    (by rw [hf]; exact hframe.spp) (by rw [hf]; exact hexit) (by rw [hf]; exact haccel)
  obtain ⟨rfl, rfl⟩ := Prod.mk.inj (Except.ok.inj (h₁.symm.trans heq))
  rw [trapEnter_sched, Sched.setFrame_setFrame] at hleft
  refine ⟨next, l, rfl, hcur, ⟨σ.kernel.sched.setFrame frame fun _ => g, fun t => ?_, hcur, ?_, fun a ha => ?_,
    hleft⟩,
    rfl, fun _ _ => rfl, .inr ⟨hframe, rfl⟩, .inl rfl⟩
  · rw [Sched.setFrame_threads]
  · rw [Sched.setFrame_self, hsys.mstatus, hf]
  · rw [Sched.setFrame_of_ne _ _ _ ha]
    exact .inl rfl

theorem trapExit_ecall {regs : TrapFrame} {site : TrapSite} (h : SysOk σ) (hen : Enabled (.ecall regs site) σ)
    {x : Option TrapExit} (hx : trapExit (.ecall regs site) σ = .ok x) :
    ∃ e, x = some e ∧ TakesTrap (.ecall regs site) σ e := by
  obtain ⟨c, hcur, hidle, htask, hon⟩ := hen
  have hready := (h.threads.thread c (h.real_of_userTask hcur htask)).ready htask
  obtain ⟨frame, hctx⟩ : ∃ frame, frame = (σ.kernel.tasks (σ.kernel.sched.threads c).userTask).trapContext := ⟨_, rfl⟩
  simp only [trapExit, current_eq hcur, ← hctx] at hx
  have hexec : ∀ σ', exec (.ecall regs site) σ = .ok σ' → σ.ecall c regs site = .ok σ' := fun σ' hrun => by
    rw [← current_eq hcur]
    exact hrun
  simp only [ecall, ← hctx] at hexec
  obtain ⟨⟨action, k₁⟩, h₁, hx⟩ := bind_eq_ok.mp hx
  simp only [h₁, ok_bind] at hexec
  have hf : (trapEnter frame (ecallFrame σ.kernel.machine.sie regs) σ.kernel).sched.frames frame =
      ecallFrame σ.kernel.machine.sie regs := trapEnter_frame ..
  have hframe : UserFrame σ.kernel c frame (ecallFrame σ.kernel.machine.sie regs).mstatus := by
    refine ⟨htask, hctx, ?_⟩
    show trapStatus false _ _ &&& sstatusSpp = 0
    rw [trapStatus_spp]; rfl
  have hz : frame ≠ 0 := by rw [hctx]; exact (userTaskIsReady_iff.mp hready).2.2.2.2
  rw [trapHandle_ecall (by rw [hf]; rfl)] at h₁
  have hreturn : ∀ next, action = .resume next → x = some ⟨some frame, next, k₁⟩ ∧
      ∀ σ', exec (.ecall regs site) σ = .ok σ' → ReturnsFrom σ ⟨some frame, next, k₁⟩ c .idle σ' := by
    rintro next rfl
    refine ⟨(Except.ok.inj hx).symm, fun σ' hrun => ?_⟩
    obtain ⟨⟨r, k₂⟩, hret, hrun⟩ := bind_eq_ok.mp (hexec σ' hrun)
    cases hrun
    exact ⟨r, k₂, hret, (setCall_setKernel_idle k₂ hidle).symm⟩
  by_cases hexit : regs.a7 = userSyscallExit
  · have hnr : (ecallFrame σ.kernel.machine.sie regs).a7 = userSyscallExit := hexit
    simp only [userSyscallDispatch, hf, hnr, hz, ↓reduceIte, resuming_eq_ok] at h₁
    obtain ⟨next, h₁, hact⟩ := h₁
    obtain ⟨rfl, hret⟩ := hreturn next hact
    exact ⟨_, rfl, c, frame, _, _, _, ecallExit_exit h hcur hframe h₁, hret⟩
  by_cases haccel : regs.a7 = userSyscallAccelMemset
  · have hnr : (ecallFrame σ.kernel.machine.sie regs).a7 = userSyscallAccelMemset := haccel
    simp only [userSyscallDispatch, hf, hnr, hz, ↓reduceIte] at h₁
    rw [if_neg (by decide), if_neg (by decide), if_neg (by decide)] at h₁
    obtain ⟨rfl, rfl⟩ := Prod.mk.inj (Except.ok.inj h₁)
    obtain ⟨p, hp, hx⟩ := bind_eq_ok.mp hx
    obtain ⟨u, sub, hprog, -, hwait⟩ := userAccelSyscallMemset_progress hp
    obtain ⟨e, a, mstatus, l, call, heq, hok, hret⟩ := memsetExit_ok h hcur (.trapEnter htask hctx hframe.spp)
      (by rw [hf]; exact hframe) (hwait.imp_right fun hw => hw.2.2.2.2.2.2) hon hprog (.inl rfl)
    refine ⟨e, Except.ok.inj (hx.symm.trans heq), c, a, mstatus, l, call, hok, fun σ' hrun => hret σ' ?_⟩
    obtain ⟨p', hp', hrun⟩ := bind_eq_ok.mp (hexec σ' hrun)
    cases hp.symm.trans hp'
    exact hrun
  · obtain ⟨next, l, hact, hok⟩ := ecallExit_user h hcur hframe hexit haccel h₁
    obtain ⟨rfl, hret⟩ := hreturn next hact
    exact ⟨_, rfl, c, frame, _, l, _, hok, hret⟩

theorem trapExit_timer {mtime : Nat} {site : TrapSite} (h : SysOk σ) (hcur : σ.kernel.sched.currentThread = some c)
    (hen : Enabled (.timer mtime site) σ) {x : Option TrapExit} (hx : trapExit (.timer mtime site) σ = .ok x) :
    ∃ e, x = some e ∧ TakesTrap (.timer mtime site) σ e := by
  obtain ⟨frame, hframe⟩ : ∃ frame, frame = if (σ.kernel.sched.threads c).userTask = 0 then site.frame
    else (σ.kernel.tasks (σ.kernel.sched.threads c).userTask).trapContext := ⟨_, rfl⟩
  let regs := timerFrame ((σ.kernel.sched.threads c).userTask = 0) σ.kernel.machine.sie site.regs
  have hx₀ : takeTrapExit mtime frame regs σ.kernel = .ok x := by
    simp only [trapExit, current_eq hcur, ← hframe] at hx
    exact hx
  have hplace : (OnStack σ.kernel.machine.image c frame ∧ regs.mstatus &&& sstatusSpp ≠ 0 ∨
      UserFrame σ.kernel c frame regs.mstatus) ∧ σ.calls c = .idle ∧ frame ≠ 0 := by
    simp only [Enabled, hcur] at hen
    have hspp : regs.mstatus &&& sstatusSpp =
        if decide ((σ.kernel.sched.threads c).userTask = 0) = true then sstatusSpp else 0 := trapStatus_spp ..
    by_cases htask : (σ.kernel.sched.threads c).userTask = 0
    · rw [if_pos htask] at hen hframe
      subst hframe
      refine ⟨.inl ⟨hen.2, ?_⟩, ?_, hen.2.ne_zero⟩
      · rw [hspp, if_pos (decide_eq_true htask)]; decide
      · by_contra hne
        have := h.threads.masked c hcur (decide_eq_true hne)
        rw [hen.1] at this
        cases this
    · rw [if_neg htask] at hen hframe
      have hready := (h.threads.thread c (h.real_of_userTask hcur htask)).ready htask
      refine ⟨.inr ⟨htask, hframe, ?_⟩, hen, ?_⟩
      · rw [hspp, if_neg (by simpa using htask)]
      · rw [hframe]; exact (userTaskIsReady_iff.mp hready).2.2.2.2
  obtain ⟨hplace, hidle, hz⟩ := hplace
  obtain ⟨s₁, s₂, l, next, s₃, timer, -, hseq, -, ht, -, hleft, -, -, heq⟩ :=
    trapHandle_timer_ok mtime h.sched hcur hz (show regs.mcause = _ from rfl)
  rw [takeTrapExit, heq] at hx₀
  obtain rfl := Except.ok.inj hx₀
  have hstat := hseq.statics
  simp only [Sched.statics, Prod.mk.injEq] at hstat
  refine ⟨_, rfl, c, frame, regs.mstatus, l, .idle, ⟨hcur, ⟨s₂, fun t => ?_, ?_, ?_, fun a ha => .inl ?_, hleft⟩, rfl,
    fun _ _ => rfl, hplace.imp_right fun hu => ⟨hu, rfl⟩, .inl rfl⟩, fun σ' hrun => ?_⟩
  · exact (ht.anchor t).trans (hseq.anchor t)
  · exact ht.current.trans (hstat.2.1.trans hcur)
  · rw [ht.frames, hseq.mstatus, Sched.setFrame_self]
  · rw [ht.frames, hseq.mstatus, Sched.setFrame_of_ne _ _ _ ha]
  · obtain ⟨k', hk', hrun⟩ := bind_eq_ok.mp hrun
    simp only [current_eq hcur, ← hframe] at hk'
    cases hrun
    rw [← setCall_setKernel_idle k' hidle]
    obtain ⟨r, hret⟩ := takeTrap_of_exit (by rw [takeTrapExit, heq]; rfl) hk'
    exact ⟨r, k', hret, rfl⟩

theorem trapExit_takesTrap (h : SysOk σ) (hst : σ.kernel.sched.threadsStarted = true) (hen : Enabled op σ)
    (hx : trapExit op σ = .ok (some e)) : TakesTrap op σ e := by
  obtain ⟨c, hcur⟩ : ∃ c, σ.kernel.sched.currentThread = some c := by
    rcases h.sched.phase with ⟨hf, -⟩ | ⟨-, c, hrun⟩
    · rw [hst] at hf; cases hf
    · exact ⟨c, hrun.current⟩
  cases op with
  | control t site => exact trapExit_control h hen hx
  | ecall regs site =>
    obtain ⟨e', he, htakes⟩ := trapExit_ecall h hen hx
    exact Option.some.inj he ▸ htakes
  | timer mtime site =>
    obtain ⟨e', he, htakes⟩ := trapExit_timer h hcur hen hx
    exact Option.some.inj he ▸ htakes
  | resume site => exact trapExit_resume h hen hx
  | mutexLock mutex site => exact trapExit_mutexLock h hen hx
  | mutexLockTimeout mutex ticks site => exact trapExit_mutexLockTimeout h hen hx
  | accelSubmit cmd ticks site => exact trapExit_accelSubmit h hcur hen hx
  | _ => cases Except.ok.inj hx

end System

end QemuRtos
