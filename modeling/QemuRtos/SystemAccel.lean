import QemuRtos.Drivers.AccelProtocol
import QemuRtos.SystemRun

/-!
# The accelerator in a running system

Each step of the system either leaves the device and the request slot alone, or is one call of the driver or one
step of the device. The protocol holds in every reachable state, and a submission that returns has released the
slot.
-/

namespace QemuRtos

open Lib

/-- The submission that a call waits in. -/
def Call.submission : Call → Option Submission
  | .submit sub => some sub
  | .userMemset _ sub => some sub
  | .idle => none
  | .lock _ => none

/-- `k'` is `k` after a step that concerns neither the device nor the slot. -/
structure AccelKept (k k' : Kernel) : Prop where
  mmio : k'.accelMmio = k.accelMmio
  request : k'.accelRequest = k.accelRequest
  bound : k'.accelBound = k.accelBound

variable {Q : Set U64} {c : Nat} {frame next cmd ticks : U64} {f : TrapFrame} {l : Leave} {k k' k'' k₁ k₂ : Kernel}
  {sub : Submission}

theorem AccelKept.refl (k : Kernel) : AccelKept k k := ⟨rfl, rfl, rfl⟩

theorem AccelKept.trans (h : AccelKept k k') (h' : AccelKept k' k'') : AccelKept k k'' :=
  ⟨h'.mmio.trans h.mmio, h'.request.trans h.request, h'.bound.trans h.bound⟩

theorem AccelKept.protocol (hk : AccelKept k k') (h : k.Protocol) : k'.Protocol := by
  rw [Kernel.Protocol, hk.mmio, hk.request]
  exact h

theorem AccelKept.outcome (hk : AccelKept k k') (hs : k'.flightStatus = k.flightStatus) (ho : k.Outcome) :
    k'.Outcome := by
  rw [Kernel.Outcome, hk.mmio, hk.request, hs]
  exact ho

theorem AccelKept.flightStatus (hk : AccelKept k k') (hmem : k'.machine.mem = k.machine.mem) :
    k'.flightStatus = k.flightStatus := by
  rw [Kernel.flightStatus, Kernel.flightStatus, hk.request, hmem]

theorem Returned.accelKept (h : Returned next k k') : AccelKept k k' := by
  cases h with
  | supervisor => exact ⟨rfl, rfl, rfl⟩
  | user => exact ⟨rfl, rfl, rfl⟩

theorem Trapped.accelKept (h : Trapped Q c frame f l k k') : AccelKept k k' := by
  obtain ⟨next, s', -, hr⟩ := h
  exact ⟨hr.accelKept.mmio, hr.accelKept.request, hr.accelKept.bound⟩

theorem Trapped.mem (h : Trapped Q c frame f l k k') : k'.machine.mem = k.machine.mem := by
  obtain ⟨next, s', -, hr⟩ := h
  cases hr with
  | supervisor => rfl
  | user => rfl

theorem trapReturn_accelKept {r : TrapReturn} (h : trapReturnFromHandler next k = .ok (r, k')) : AccelKept k k' :=
  (trapReturnFromHandler_ok h).accelKept

/-! ### The accelerator system call -/

theorem usercopyTaskValidate_accelKept {task va len : U64} {write : Bool} {r : Int}
    (h : usercopyTaskValidate task va len write k = .ok (r, k')) : AccelKept k k' := by
  rw [usercopyTaskValidate] at h
  split at h
  · obtain ⟨-, rfl⟩ := Prod.mk.inj (Except.ok.inj h)
    exact .refl k
  · obtain ⟨⟨r₁, m⟩, -, h⟩ := bind_eq_ok.mp h
    obtain ⟨-, rfl⟩ := Prod.mk.inj (Except.ok.inj h)
    exact ⟨rfl, rfl, rfl⟩

theorem copyToUserTask_accelKept {task dst src len : U64} {r : Int}
    (h : copyToUserTask task dst src len k = .ok (r, k')) : AccelKept k k' := by
  rw [copyToUserTask] at h
  split at h
  · obtain ⟨-, rfl⟩ := Prod.mk.inj (Except.ok.inj h)
    exact .refl k
  split at h
  · obtain ⟨-, rfl⟩ := Prod.mk.inj (Except.ok.inj h)
    exact .refl k
  rw [copyUserTaskBytes] at h
  split at h
  · obtain ⟨-, rfl⟩ := Prod.mk.inj (Except.ok.inj h)
    exact .refl k
  obtain ⟨⟨r₁, k₁⟩, h₁, h⟩ := bind_eq_ok.mp h
  dsimp only at h
  split at h
  · obtain ⟨-, rfl⟩ := Prod.mk.inj (Except.ok.inj h)
    exact usercopyTaskValidate_accelKept h₁
  obtain ⟨⟨r₂, m⟩, -, h⟩ := bind_eq_ok.mp h
  obtain ⟨-, rfl⟩ := Prod.mk.inj (Except.ok.inj h)
  exact (usercopyTaskValidate_accelKept h₁).trans ⟨rfl, rfl, rfl⟩

/-- The caller of a submission that has returned leaves the device alone, or resets it. -/
def MayReset (k k' : Kernel) : Prop := AccelKept k k' ∨ AccelKept (accelReset k).2 k'

theorem userAccelMemsetFinish_accel {u : UserMemset} {r r' : Int} (h : userAccelMemsetFinish u r k = .ok (r', k')) :
    AccelKept k k' ∨ r = accelErrTimeout ∧ u.timeoutTicks ≠ 0 ∧ AccelKept (accelReset k).2 k' := by
  obtain ⟨k₁, h₁, h⟩ := bind_eq_ok.mp h
  obtain ⟨⟨r₂, k₂⟩, h₂, h⟩ := bind_eq_ok.mp h
  obtain ⟨m₁, -, h⟩ := bind_eq_ok.mp h
  obtain ⟨m₂, -, h⟩ := bind_eq_ok.mp h
  obtain ⟨-, rfl⟩ := Prod.mk.inj (Except.ok.inj h)
  have hcopy : AccelKept k₁ k₂ := by
    rw [userAccelCopyback] at h₂
    split at h₂
    · obtain ⟨⟨r₃, k₃⟩, h₃, h₂⟩ := bind_eq_ok.mp h₂
      obtain ⟨-, rfl⟩ := Prod.mk.inj (Except.ok.inj h₂)
      exact copyToUserTask_accelKept h₃
    · obtain ⟨-, rfl⟩ := Prod.mk.inj (Except.ok.inj h₂)
      exact .refl k₁
  have hfree : AccelKept k₁ { k₂ with machine := m₂ } := hcopy.trans ⟨rfl, rfl, rfl⟩
  rw [userAccelResetAfterTimeout] at h₁
  split at h₁
  · rename_i htime
    dsimp only at h₁
    split at h₁
    · cases h₁
    · obtain rfl := Except.ok.inj h₁
      exact .inr ⟨htime.1, htime.2, hfree⟩
  · obtain rfl := Except.ok.inj h₁
    exact .inl hfree

namespace System

variable {σ σ' : System} {op : Op}

/-- The step concerns neither the device, nor the slot, nor what waits for it. -/
structure StepKept (σ σ' : System) : Prop where
  kernel : AccelKept σ.kernel σ'.kernel
  calls : ∀ t, (σ'.calls t).submission = (σ.calls t).submission

theorem StepKept.setKernel {k : Kernel} (hk : AccelKept σ.kernel k) : StepKept σ (σ.setKernel k) := ⟨hk, fun _ => rfl⟩

theorem StepKept.setCall {k : Kernel} {call : Call} (hk : AccelKept σ.kernel k)
    (hcall : call.submission = (σ.calls c).submission) : StepKept σ ((σ.setKernel k).setCall c call) := by
  refine ⟨hk, fun t => ?_⟩
  by_cases ht : t = c
  · subst ht
    rw [setCall_calls_self]
    exact hcall
  · rw [setCall_calls_of_ne _ _ ht]
    rfl

theorem LockStep.stepKept {call : LockCall} (hs : LockStep σ op c call σ')
    (hcall : (σ.calls c).submission = none) : StepKept σ σ' := by
  cases hs with
  | @returned entry r k' hentry ho =>
    have hk : AccelKept σ.kernel k' := by cases ho <;> exact ⟨rfl, rfl, rfl⟩
    have hkept : StepKept σ ((σ.setKernel k').setCall c .idle) := .setCall hk hcall.symm
    rw [lockReturned]
    split
    · exact hkept
    · exact ⟨hkept.kernel, hkept.calls⟩
  | waits hwhy ht =>
    have hsave : AccelKept σ.kernel σ.kernel.irqSave.2 := ⟨rfl, rfl, rfl⟩
    exact .setCall (hsave.trans ht.accelKept) hcall.symm

theorem threadCreate_kept {name : Option String} {entry arg : U64} (h : SysOk σ)
    (hx : exec (.threadCreate name entry arg) σ = .ok σ') : StepKept σ σ' := by
  obtain ⟨⟨r, k₁⟩, h₁, hx⟩ := bind_eq_ok.mp hx
  obtain rfl := Except.ok.inj hx
  obtain ⟨r', k', heq, hcase⟩ := threadCreate_spec h.sched name entry arg
  obtain ⟨-, rfl⟩ := Prod.mk.inj (Except.ok.inj (h₁.symm.trans heq))
  rcases hcase with ⟨-, rfl⟩ | ⟨tid, s', -, rfl, -⟩
  · exact .setKernel (.refl _)
  · exact .setKernel ⟨rfl, rfl, rfl⟩

theorem threadCreateUser_kept {name : Option String} {task : U64} (h : SysOk σ)
    (hx : exec (.threadCreateUser name task) σ = .ok σ') : StepKept σ σ' := by
  obtain ⟨⟨r, k₁⟩, h₁, hx⟩ := bind_eq_ok.mp hx
  obtain rfl := Except.ok.inj hx
  obtain ⟨r', k', heq, hcase⟩ := threadCreateUser_spec h.sched name task
  obtain ⟨-, rfl⟩ := Prod.mk.inj (Except.ok.inj (h₁.symm.trans heq))
  rcases hcase with ⟨-, rfl⟩ | ⟨tid, s', -, -, hk, -⟩
  · exact .setKernel (.refl _)
  · exact .setKernel ⟨by rw [hk], by rw [hk], by rw [hk]⟩

theorem threadStart_kept (h : SysOk σ) (hst : σ.kernel.sched.threadsStarted = false)
    (hx : exec .threadStart σ = .ok σ') : StepKept σ σ' := by
  obtain ⟨⟨frame, k₁⟩, h₁, hx⟩ := bind_eq_ok.mp hx
  obtain ⟨⟨r, k₂⟩, hret, hx⟩ := bind_eq_ok.mp hx
  obtain rfl := Except.ok.inj hx
  obtain ⟨s₁, heq, -⟩ := threadStart_spec h.sched hst
  obtain ⟨-, rfl⟩ := Prod.mk.inj (Except.ok.inj (h₁.symm.trans heq))
  have hk := trapReturn_accelKept hret
  exact .setKernel ⟨hk.mmio, hk.request, hk.bound⟩

theorem userTaskInit_kept {task : U64} {program : Option (List Byte)} (h : SysOk σ)
    (hx : exec (.userTaskInit task program) σ = .ok σ') : StepKept σ σ' := by
  obtain ⟨⟨r, k₁⟩, h₁, hx⟩ := bind_eq_ok.mp hx
  obtain rfl := Except.ok.inj hx
  rcases userTaskInit_ok h.pages h₁ with rfl | hi
  · exact .setKernel (.refl _)
  · exact .setKernel ⟨by rw [hi.eq], by rw [hi.eq], by rw [hi.eq]⟩

theorem waitQueueInit_kept {queue : U64} {name : Option String} (hx : exec (.waitQueueInit queue name) σ = .ok σ') :
    StepKept σ σ' := by
  obtain ⟨k₁, h₁, hx⟩ := bind_eq_ok.mp hx
  obtain rfl := Except.ok.inj hx
  obtain ⟨-, s', rfl, -⟩ := waitQueueInit_ok h₁
  exact ⟨⟨rfl, rfl, rfl⟩, fun _ => rfl⟩

theorem wakeOne_kept {queue : U64} (h : SysOk σ) (hen : Enabled (.wakeOne queue) σ)
    (hx : exec (.wakeOne queue) σ = .ok σ') : StepKept σ σ' := by
  obtain ⟨⟨tid, k₁⟩, h₁, hx⟩ := bind_eq_ok.mp hx
  obtain rfl := Except.ok.inj hx
  obtain ⟨tid', s', heq, -⟩ := waitQueueWakeOne_spec h.sched hen.2
  obtain ⟨-, rfl⟩ := Prod.mk.inj (Except.ok.inj (h₁.symm.trans heq))
  exact .setKernel ⟨rfl, rfl, rfl⟩

theorem wakeAll_kept {queue : U64} (h : SysOk σ) (hen : Enabled (.wakeAll queue) σ)
    (hx : exec (.wakeAll queue) σ = .ok σ') : StepKept σ σ' := by
  obtain ⟨k₁, h₁, hx⟩ := bind_eq_ok.mp hx
  obtain rfl := Except.ok.inj hx
  obtain ⟨s', heq, -⟩ := waitQueueWakeAll_spec h.sched hen.2
  obtain rfl := Except.ok.inj (h₁.symm.trans heq)
  exact .setKernel ⟨rfl, rfl, rfl⟩

theorem control_kept {t : ControlTrap} {site : TrapSite} (h : SysOk σ) (hen : Enabled (.control t site) σ)
    (hx : exec (.control t site) σ = .ok σ') : StepKept σ σ' := by
  obtain ⟨c, hcur, -, htask, hallow, hon⟩ := hen
  obtain ⟨k₁, h₁, hx⟩ := bind_eq_ok.mp hx
  obtain rfl := Except.ok.inj hx
  have hlt := (h.sched.started hcur).2.lt
  obtain ⟨l, g, -, ht⟩ := controlTrap_ok h.sched hcur h.seen hon.ne_zero (hallow.controlOk hlt htask) h₁
  exact .setKernel ht.accelKept

theorem timer_kept {mtime : Nat} {site : TrapSite} (h : SysOk σ) (hen : Enabled (.timer mtime site) σ)
    (hx : exec (.timer mtime site) σ = .ok σ') : StepKept σ σ' := by
  obtain ⟨k₁, h₁, hx⟩ := bind_eq_ok.mp hx
  obtain rfl := Except.ok.inj hx
  refine .setKernel ?_
  cases hcur : σ.kernel.sched.currentThread with
  | none =>
    obtain ⟨timer, -, hr⟩ := takeTrap_timer_unstarted h.sched hcur rfl h₁
    exact ⟨hr.accelKept.mmio, hr.accelKept.request, hr.accelKept.bound⟩
  | some c =>
    rw [current_eq hcur] at h₁
    rw [Enabled, hcur] at hen
    dsimp only at hen h₁
    have hframe : (if (σ.kernel.sched.threads c).userTask = 0 then site.frame
        else (σ.kernel.tasks (σ.kernel.sched.threads c).userTask).trapContext) ≠ 0 := by
      by_cases htask : (σ.kernel.sched.threads c).userTask = 0
      · rw [if_pos htask] at hen ⊢
        exact hen.2.ne_zero
      · rw [if_neg htask]
        have hready := (h.threads.thread c (h.real_of_userTask hcur htask)).ready htask
        exact (userTaskIsReady_iff.mp hready).2.2.2.2
    obtain ⟨_, _, _, _, _, _, _, _, _, _, _, _, _, hr⟩ := takeTrap_timer_ok h.sched hcur hframe rfl h₁
    exact ⟨hr.accelKept.mmio, hr.accelKept.request, hr.accelKept.bound⟩

theorem mutexInit_kept {mutex : U64} {name : Option String} (h : SysOk σ) (hen : Enabled (.mutexInit mutex name) σ)
    (hx : exec (.mutexInit mutex name) σ = .ok σ') : StepKept σ σ' := by
  obtain ⟨k₁, h₁, hx⟩ := bind_eq_ok.mp hx
  obtain rfl := Except.ok.inj hx
  obtain ⟨-, s', rfl, -⟩ := mutexInit_ok h.sched hen.2.2 h₁
  exact ⟨⟨rfl, rfl, rfl⟩, fun _ => rfl⟩

theorem mutexTrylock_kept {mutex : U64} (hx : exec (.mutexTrylock mutex) σ = .ok σ') : StepKept σ σ' := by
  obtain ⟨⟨r, k₁⟩, h₁, hx⟩ := bind_eq_ok.mp hx
  obtain rfl := Except.ok.inj hx
  obtain ⟨-, -, hcase⟩ := mutexTrylock_ok h₁
  have hk : AccelKept σ.kernel k₁ := by
    rcases hcase with ⟨-, rfl, -⟩ | ⟨-, rfl, -⟩
    · exact .refl _
    · exact ⟨rfl, rfl, rfl⟩
  split
  · exact ⟨hk, fun _ => rfl⟩
  · exact .setKernel hk

theorem mutexUnlock_kept {mutex : U64} (h : SysOk σ) (hen : Enabled (.mutexUnlock mutex) σ)
    (hx : exec (.mutexUnlock mutex) σ = .ok σ') : StepKept σ σ' := by
  obtain ⟨c, hc, hm, -⟩ := hen
  obtain ⟨k₁, h₁, hx⟩ := bind_eq_ok.mp hx
  obtain rfl := Except.ok.inj hx
  obtain ⟨-, next, s', rfl, -⟩ := mutexUnlock_ok h.sched (h.mutexQueue _ hm).2 h₁
  exact ⟨⟨rfl, rfl, rfl⟩, fun _ => rfl⟩

theorem userSyscallDispatch_accelKept {action : TrapAction} (h : SchedInv Q k.sched)
    (hcur : k.sched.currentThread = some c) (hready : userTaskIsReady (k.sched.threads c).userTask k)
    (hframe : frame = (k.tasks (k.sched.threads c).userTask).trapContext)
    (hspp : (k.sched.frames frame).mstatus &&& sstatusSpp = 0)
    (haccel : (k.sched.frames frame).a7 ≠ userSyscallAccelMemset)
    (hx : userSyscallDispatch frame k = .ok (action, k')) : AccelKept k k' ∧ ∃ next, action = .resume next := by
  by_cases hexit : (k.sched.frames frame).a7 = userSyscallExit
  · have hz : frame ≠ 0 := by
      rw [hframe]
      exact (userTaskIsReady_iff.mp hready).2.2.2.2
    simp only [userSyscallDispatch, hexit, hz, ↓reduceIte, resuming_eq_ok] at hx
    obtain ⟨next, hx, rfl⟩ := hx
    rw [userSyscallExitFromTrap, threadCurrentUserTaskForFrame_eq hcur hready hframe hspp,
      if_pos (userTaskIsReady_iff.mp hready).1] at hx
    obtain ⟨s₀, s', k₂, -, -, rfl⟩ := userExit_ok h hcur hready hspp hx
    exact ⟨⟨rfl, rfl, rfl⟩, next, rfl⟩
  · obtain ⟨l, g, next, s', heq, -⟩ := userSyscallDispatch_spec h hcur hready hframe hspp hexit haccel
    obtain ⟨rfl, rfl⟩ := Prod.mk.inj (Except.ok.inj (hx.symm.trans heq))
    exact ⟨⟨rfl, rfl, rfl⟩, next, rfl⟩

theorem ecall_dispatch {regs : TrapFrame} {site : TrapSite} (h : SysOk σ) (hen : Enabled (.ecall regs site) σ)
    (hx : exec (.ecall regs site) σ = .ok σ') : ∃ c frame k₀ action k₁, σ.kernel.sched.currentThread = some c ∧
      σ.calls c = .idle ∧ tidIsReal c ∧ OnStack σ.kernel.machine.image c site.frame ∧
      frame = (σ.kernel.tasks (σ.kernel.sched.threads c).userTask).trapContext ∧
      k₀ = trapEnter frame (ecallFrame σ.kernel.machine.sie regs) σ.kernel ∧ SchedInv σ.queueSet k₀.sched ∧
      userTaskIsReady (k₀.sched.threads c).userTask k₀ = true ∧
      k₀.sched.frames frame = ecallFrame σ.kernel.machine.sie regs ∧
      (k₀.sched.frames frame).mstatus &&& sstatusSpp = 0 ∧ userSyscallDispatch frame k₀ = .ok (action, k₁) ∧
      (match action with
        | .resume next => do
          let (_, k) ← trapReturnFromHandler next k₁
          .ok (σ.setKernel k)
        | .accelMemset frame => do
          let p ← userAccelSyscallMemset frame k₁
          σ.memsetProgress c frame site p) = .ok σ' := by
  obtain ⟨c, hcur, hidle, htask, hon⟩ := hen
  have hreal := h.real_of_userTask hcur htask
  have hready := (h.threads.thread c hreal).ready htask
  have hx : σ.ecall σ.current regs site = .ok σ' := hx
  rw [current_eq hcur, ecall] at hx
  obtain ⟨⟨action, k₁⟩, h₁, hx⟩ := bind_eq_ok.mp hx
  have hf : ∀ frame, (trapEnter frame (ecallFrame σ.kernel.machine.sie regs) σ.kernel).sched.frames frame =
      ecallFrame σ.kernel.machine.sie regs := fun frame => trapEnter_frame ..
  have hs : ∀ frame, SchedInv σ.queueSet (trapEnter frame (ecallFrame σ.kernel.machine.sie regs) σ.kernel).sched :=
    fun frame => by rw [trapEnter_sched]; exact h.sched.setFrame _
  rw [trapHandle_ecall (by rw [hf]; rfl)] at h₁
  refine ⟨c, _, _, action, k₁, hcur, hidle, hreal, hon, rfl, rfl, hs _, hready, hf _, ?_, h₁, hx⟩
  rw [hf]
  show trapStatus false _ _ &&& sstatusSpp = 0
  rw [trapStatus_spp]
  rfl

theorem ecall_kept {regs : TrapFrame} {site : TrapSite} (h : SysOk σ) (hen : Enabled (.ecall regs site) σ)
    (haccel : regs.a7 ≠ userSyscallAccelMemset) (hx : exec (.ecall regs site) σ = .ok σ') : StepKept σ σ' := by
  obtain ⟨c, frame, k₀, action, k₁, hcur, -, -, -, hframe, hk₀, hs, hready, hf, hspp, hdispatch, hx⟩ :=
    ecall_dispatch h hen hx
  have hcur₀ : k₀.sched.currentThread = some c := by rw [hk₀]; exact hcur
  have hframe₀ : frame = (k₀.tasks (k₀.sched.threads c).userTask).trapContext := by rw [hk₀]; exact hframe
  have hnr : (k₀.sched.frames frame).a7 ≠ userSyscallAccelMemset := by rw [hf]; exact haccel
  obtain ⟨hk₁, next, rfl⟩ := userSyscallDispatch_accelKept hs hcur₀ hready hframe₀ hspp hnr hdispatch
  obtain ⟨⟨r, k₂⟩, hret, hx⟩ := bind_eq_ok.mp hx
  obtain rfl := Except.ok.inj hx
  have henter : AccelKept σ.kernel k₀ := by rw [hk₀]; exact ⟨rfl, rfl, rfl⟩
  exact .setKernel ((henter.trans hk₁).trans (trapReturn_accelKept hret))

/-! ### Submissions -/

/-- The submission that thread `c` makes or goes on with, as the driver finds the kernel. -/
inductive Submits (σ : System) (c : Nat) (sub : Submission) (k₀ : Kernel) : Prop
  | claims {k : Kernel} {ticks : U64} (hidle : (σ.calls c).submission = none) (hk : AccelKept σ.kernel k)
    (hclaim : Claims sub.cmd ticks k) (htid : σ.kernel.sched.currentThread = some c → threadCurrentTid k = c)
    (hk₀ : k₀ = accelClaim sub.cmd k)
  | goesOn (hcall : (σ.calls c).submission = some sub) (hk₀ : k₀ = σ.kernel)

/-- What a step does to the device and the slot. -/
inductive AccelStepped (σ : System) (op : Op) : System → Prop
  /-- Nothing. -/
  | kept {σ' : System} (hk : StepKept σ σ') : AccelStepped σ op σ'
  /-- A submission claims the slot, or goes on, and waits. -/
  | waits {c : Nat} {sub : Submission} {k₀ : Kernel} {σ' : System} (hcur : σ.kernel.sched.currentThread = some c)
    (hs : Submits σ c sub k₀) (hk : AccelKept k₀ σ'.kernel) (hmem : σ'.kernel.machine.mem = k₀.machine.mem)
    (hcall : (σ'.calls c).submission = some sub) (hothers : ∀ t ≠ c, σ'.calls t = σ.calls t) : AccelStepped σ op σ'
  /-- A submission returns, and its caller may reset the device. -/
  | returned {c : Nat} {sub : Submission} {k₀ k₁ : Kernel} {pending : Bool} {σ' : System} (hs : Submits σ c sub k₀)
    (hr : Released pending k₀ k₁) (hk : MayReset k₁ σ'.kernel) (hcall : (σ'.calls c).submission = none)
    (hothers : ∀ t ≠ c, σ'.calls t = σ.calls t) : AccelStepped σ op σ'
  /-- The device runs. -/
  | ran (hop : op = .accelStep) : AccelStepped σ op (σ.setKernel (platformAccelStep σ.kernel))
  | written {control : U32} (hop : op = .accelControl control) :
    AccelStepped σ op (σ.setKernel (accelWriteControlRaw control σ.kernel).2)
  | acked {mask : U32} (hop : op = .accelAck mask) : AccelStepped σ op (σ.setKernel (accelAckIrq mask σ.kernel).2)
  | dispatched {k' : Kernel} (hop : op = .dispatchIrqs) (ho : IrqOutcome σ.queueSet σ.kernel k') :
    AccelStepped σ op (σ.setKernel k')

theorem submit_trap_kept {site : TrapSite} {Q : Set U64} (h : SchedInv Q k.sched)
    (hcur : k.sched.currentThread = some c) (hseen : k.trapSelftestSeen = true)
    (hon : OnStack k.machine.image c site.frame) (hc : tidIsReal c) (hq : accelWaiters k.machine.image ∈ Q)
    (hticks : sub.ticks ≠ 0) (hsie : k.machine.sie = false)
    (hx : controlTrap (waitTrap (accelWaiters k.machine.image)
      (if sub.ticks = ticksForever then none else some sub.ticks)) site k = .ok k') :
    AccelKept k k' ∧ k'.machine.mem = k.machine.mem := by
  have hne : (if sub.ticks = ticksForever then none else some sub.ticks) ≠ some 0 := by
    split
    · exact fun he => by cases he
    · exact fun he => hticks (Option.some.inj he)
  obtain ⟨g, ht, -⟩ := waitTrap_ok h hcur hseen hon hc hq hne hsie hx
  exact ⟨ht.accelKept, ht.mem⟩

theorem submitProgress_accel {site : TrapSite} {k₀ : Kernel} {timedOut : Bool} {p : Progress Submission Int}
    (hs : Submits σ c sub k₀) (hw : Waited sub timedOut k₀ p)
    (htrap : ∀ regs k', p = .trap regs sub k₀ → controlTrap regs site k₀ = .ok k' →
      σ.kernel.sched.currentThread = some c ∧ AccelKept k₀ k' ∧ k'.machine.mem = k₀.machine.mem)
    (hx : σ.submitProgress c site p = .ok σ') : AccelStepped σ op σ' := by
  cases p with
  | ret r k₁ =>
    obtain rfl := Except.ok.inj hx
    obtain ⟨pending, hr⟩ := hw.released
    exact .returned hs hr (.inl (.refl _)) (by rw [setCall_calls_self]; rfl) fun t ht => setCall_calls_of_ne _ _ ht
  | trap regs next k₁ =>
    obtain ⟨rfl, rfl⟩ := hw.trap
    obtain ⟨k', hk', hx⟩ := bind_eq_ok.mp hx
    obtain rfl := Except.ok.inj hx
    obtain ⟨hcur, hk, hmem⟩ := htrap regs k' rfl hk'
    exact .waits hcur hs hk hmem (by rw [setCall_calls_self]; rfl) fun t ht => setCall_calls_of_ne _ _ ht

theorem memsetProgress_accel {site : TrapSite} {k₀ : Kernel} {timedOut : Bool} {p : Progress Submission Int}
    {u : UserMemset} {p' : Progress (UserMemset × Submission) Int} (hs : Submits σ c sub k₀)
    (hw : Waited sub timedOut k₀ p) (hp' : userAccelAfterSubmit u p = .ok p')
    (htrap : ∀ regs k', p = .trap regs sub k₀ → controlTrap regs site k₀ = .ok k' →
      σ.kernel.sched.currentThread = some c ∧ AccelKept k₀ k' ∧ k'.machine.mem = k₀.machine.mem)
    (hx : σ.memsetProgress c frame site p' = .ok σ') : AccelStepped σ op σ' := by
  cases p with
  | ret r k₁ =>
    obtain ⟨⟨r₂, k₂⟩, h₂, hp'⟩ := bind_eq_ok.mp hp'
    obtain rfl := Except.ok.inj hp'
    obtain ⟨⟨ret, k₃⟩, h₃, hx⟩ := bind_eq_ok.mp hx
    obtain rfl := Except.ok.inj hx
    obtain ⟨pending, hr⟩ := hw.released
    have hret : AccelKept k₂ k₃ := by
      have hk := trapReturn_accelKept h₃
      exact ⟨hk.mmio, hk.request, hk.bound⟩
    have hreset : MayReset k₁ k₃ := by
      rcases userAccelMemsetFinish_accel h₂ with hk | ⟨-, -, hk⟩
      · exact .inl (hk.trans hret)
      · exact .inr (hk.trans hret)
    exact .returned hs hr hreset (by rw [setCall_calls_self]; rfl) fun t ht => setCall_calls_of_ne _ _ ht
  | trap regs next k₁ =>
    obtain ⟨rfl, rfl⟩ := hw.trap
    obtain rfl := Except.ok.inj hp'
    obtain ⟨k', hk', hx⟩ := bind_eq_ok.mp hx
    obtain rfl := Except.ok.inj hx
    obtain ⟨hcur, hk, hmem⟩ := htrap regs k' rfl hk'
    exact .waits hcur hs hk hmem (by rw [setCall_calls_self]; rfl) fun t ht => setCall_calls_of_ne _ _ ht

theorem claim_trap_kept {site : TrapSite} {regs : ControlTrap} {Q : Set U64} (h : SchedInv Q k.sched)
    (hcur : k.sched.threadsStarted = true → k.sched.currentThread = some c ∧ tidIsReal c ∧
      OnStack k.machine.image c site.frame)
    (hseen : k.trapSelftestSeen = true) (hq : accelWaiters k.machine.image ∈ Q) (hticks : sub.ticks ≠ 0)
    (hsie : k.machine.sie = false) (hp : SubmitProgress k sub (.trap regs sub k))
    (hx : controlTrap regs site k = .ok k') :
    k.sched.currentThread = some c ∧ AccelKept k k' ∧ k'.machine.mem = k.machine.mem := by
  obtain ⟨-, -, -, hst, rfl⟩ := hp
  obtain ⟨hcur, hc, hon⟩ := hcur hst
  exact ⟨hcur, submit_trap_kept h hcur hseen hon hc hq hticks hsie hx⟩

theorem accelSubmit_accel {cmd ticks : U64} {site : TrapSite} (h : SysOk σ)
    (hen : Enabled (.accelSubmit cmd ticks site) σ) (hx : exec (.accelSubmit cmd ticks site) σ = .ok σ') :
    AccelStepped σ (.accelSubmit cmd ticks site) σ' := by
  obtain ⟨p, hp, hx⟩ := bind_eq_ok.mp hx
  have hidle : σ.calls σ.current = .idle := by
    cases hcur : σ.kernel.sched.currentThread with
    | some c =>
      rw [current_eq hcur]
      exact (hen.1 c hcur).idle
    | none =>
      rw [current, hcur]
      by_contra hne
      exact tidIsReal_ne_null (h.threads.real _ (decide_eq_true hne)) rfl
  have hnone : (σ.calls σ.current).submission = none := by rw [hidle]; rfl
  by_cases hclaim : Claims cmd ticks σ.kernel
  · rw [accelSubmitSyncTimeout_claims hclaim] at hp
    let sub : Submission := { cmd := cmd, ticks := ticks, irqState := σ.kernel.machine.sie }
    have hs : Submits σ σ.current sub (accelClaim cmd σ.kernel.irqSave.2) := by
      have hsave : AccelKept σ.kernel σ.kernel.irqSave.2 := ⟨rfl, rfl, rfl⟩
      exact .claims hnone hsave hclaim.irqSave (threadCurrentTid_eq h) rfl
    refine submitProgress_accel hs (accelSubmitLoop_waited hp) (fun regs k' he hwait => ?_) hx
    subst he
    refine claim_trap_kept (Q := σ.queueSet) (k := accelClaim cmd σ.kernel.irqSave.2) h.sched (fun hst => ?_) h.seen
      (h.accelQueue hclaim.bound) hclaim.ticks rfl (accelSubmitLoop_progress rfl hp) hwait
    rcases h.sched.phase with ⟨hf, -⟩ | ⟨-, d, hrun⟩
    · exact absurd (hf.symm.trans hst) Bool.false_ne_true
    · rw [current_eq hrun.current]
      exact ⟨hrun.current, (hen.1 d hrun.current).real_tid h, hen.2 d hrun.current⟩
  · obtain ⟨r, g, heq, -⟩ := accelSubmitSyncTimeout_refused hclaim
    obtain rfl := Except.ok.inj (hp.symm.trans heq)
    obtain rfl := Except.ok.inj hx
    exact .kept (.setCall ⟨rfl, rfl, rfl⟩ hnone.symm)

theorem resume_accel {site : TrapSite} (h : SysOk σ) (hen : Enabled (.resume site) σ)
    (hx : exec (.resume site) σ = .ok σ') : AccelStepped σ (.resume site) σ' := by
  obtain ⟨c, hcur, hbusy, hon⟩ := id hen
  have hc : tidIsReal c := h.threads.real c (decide_eq_true hbusy)
  have hsie : σ.kernel.machine.sie = false := h.threads.masked c hcur (decide_eq_true hbusy)
  have hok := h.call c
  have hrun : σ.resume σ.current site = .ok σ' := hx
  rw [current_eq hcur, resume] at hrun
  have htrap : ∀ {sub : Submission} {p : Progress Submission Int}, σ.kernel.accelBound = true → sub.ticks ≠ 0 →
      SubmitProgress σ.kernel sub p → ∀ regs k', p = .trap regs sub σ.kernel →
      controlTrap regs site σ.kernel = .ok k' → σ.kernel.sched.currentThread = some c ∧ AccelKept σ.kernel k' ∧
        k'.machine.mem = σ.kernel.machine.mem := by
    rintro sub p hbound hticks hp regs k' rfl hx
    exact claim_trap_kept h.sched (fun _ => ⟨hcur, hc, hon⟩) h.seen (h.accelQueue hbound) hticks hsie hp hx
  cases hcall : σ.calls c with
  | idle => exact absurd hcall hbusy
  | lock call => exact .kept ((exec_resume_lock h hen hcur hcall hx).stepKept (by rw [hcall]; rfl))
  | submit sub =>
    rw [hcall] at hok hrun
    obtain ⟨p, hp, hrun⟩ := bind_eq_ok.mp hrun
    have hs : Submits σ c sub σ.kernel := .goesOn (by rw [hcall]; rfl) rfl
    exact submitProgress_accel hs (submissionResume_waited hp)
      (htrap hok.1 hok.2.1 (submissionResume_progress hsie hp)) hrun
  | userMemset u sub =>
    rw [hcall] at hok hrun
    obtain ⟨p, hp, hrun⟩ := bind_eq_ok.mp hrun
    obtain ⟨p', hp', hrun⟩ := bind_eq_ok.mp hrun
    have hs : Submits σ c sub σ.kernel := .goesOn (by rw [hcall]; rfl) rfl
    exact memsetProgress_accel hs (submissionResume_waited hp) hp'
      (htrap hok.1 hok.2.1 (submissionResume_progress hsie hp)) hrun

/-- The accelerator system call up to its submission: it returns before that, or it submits its own descriptor. -/
theorem userAccelSyscallMemset_submits {p : Progress (UserMemset × Submission) Int}
    (h : userAccelSyscallMemset frame k = .ok p) :
    (∃ r k', p = .ret r k' ∧ AccelKept k k') ∨
      ∃ u k₁ q, AccelKept k k₁ ∧ k₁.machine.sie = k.machine.sie ∧ k₁.sched = k.sched ∧
        k₁.machine.image = k.machine.image ∧ k₁.trapSelftestSeen = k.trapSelftestSeen ∧
        accelSubmitSyncTimeout u.cmd u.timeoutTicks k₁ = .ok q ∧ userAccelAfterSubmit u q = .ok p := by
  rw [userAccelSyscallMemset] at h
  dsimp only at h
  split at h
  · cases h
  split at h
  · cases h
  rw [userAccelMemsetImpl] at h
  split at h
  · obtain rfl := Except.ok.inj h
    exact .inl ⟨_, _, rfl, .refl k⟩
  obtain ⟨⟨r₁, k₁⟩, h₁, h⟩ := bind_eq_ok.mp h
  have hk₁ := usercopyTaskValidate_accelKept h₁
  have hc₁ := usercopyTaskValidate_change h₁
  dsimp only at h
  split at h
  · obtain rfl := Except.ok.inj h
    exact .inl ⟨_, _, rfl, hk₁⟩
  obtain ⟨⟨cmd, m₂⟩, h₂, h⟩ := bind_eq_ok.mp h
  obtain ⟨⟨bounce, m₃⟩, h₃, h⟩ := bind_eq_ok.mp h
  have hk₃ := (pageAlloc_kept h₂).trans (pageAlloc_kept h₃)
  dsimp only at h
  split at h
  · obtain ⟨m₄, -, h⟩ := bind_eq_ok.mp h
    obtain ⟨m₅, -, h⟩ := bind_eq_ok.mp h
    obtain rfl := Except.ok.inj h
    exact .inl ⟨_, _, rfl, hk₁.trans ⟨rfl, rfl, rfl⟩⟩
  · obtain ⟨q, hq, h⟩ := bind_eq_ok.mp h
    have hc₂ := DriverChange.of_kept (k := k₁) hk₃
    have hsie : m₃.sie = k.machine.sie := hc₂.2.trans hc₁.2
    have himage : m₃.image = k.machine.image := by
      rw [show m₃.image = k₁.machine.image by rw [hk₃.eq]]
      rw [hc₁.1.kept.eq]
    let k₂ : Kernel := { k₁ with
      machine := { m₃ with
        mem := writeMemsetCmd cmd bounce (k.sched.frames frame).a1 ((k.sched.frames frame).a2.setWidth 32) m₃.mem } }
    refine .inr ⟨_, k₂, q, hk₁.trans ⟨rfl, rfl, rfl⟩, hsie, ?_, himage, ?_, hq, h⟩
    · show k₁.sched = k.sched
      rw [hc₁.1.eq]
    · show k₁.trapSelftestSeen = k.trapSelftestSeen
      rw [hc₁.1.eq]

theorem userSyscallDispatch_memset (hz : frame ≠ 0) (haccel : (k.sched.frames frame).a7 = userSyscallAccelMemset) :
    userSyscallDispatch frame k = .ok (.accelMemset frame, k) := by
  simp only [userSyscallDispatch, haccel, hz, ↓reduceIte]
  rw [if_neg (by decide), if_neg (by decide), if_neg (by decide)]

theorem ecall_accel {regs : TrapFrame} {site : TrapSite} (h : SysOk σ) (hen : Enabled (.ecall regs site) σ)
    (hx : exec (.ecall regs site) σ = .ok σ') : AccelStepped σ (.ecall regs site) σ' := by
  by_cases haccel : regs.a7 = userSyscallAccelMemset
  · obtain ⟨c, frame, k₀, action, k₁, hcur, hidle, hreal, hon, hframe, hk₀, hs, hready, hf, hspp, hdispatch, hx⟩ :=
      ecall_dispatch h hen hx
    have hcur₀ : k₀.sched.currentThread = some c := by rw [hk₀]; exact hcur
    have hframe₀ : frame = (k₀.tasks (k₀.sched.threads c).userTask).trapContext := by rw [hk₀]; exact hframe
    have hz : frame ≠ 0 := by
      rw [hframe₀]
      exact (userTaskIsReady_iff.mp hready).2.2.2.2
    have hnr : (k₀.sched.frames frame).a7 = userSyscallAccelMemset := by rw [hf]; exact haccel
    obtain ⟨rfl, rfl⟩ := Prod.mk.inj (Except.ok.inj (hdispatch.symm.trans (userSyscallDispatch_memset hz hnr)))
    have henter : AccelKept σ.kernel k₁ := by rw [hk₀]; exact ⟨rfl, rfl, rfl⟩
    have hnone : (σ.calls c).submission = none := by rw [hidle]; rfl
    obtain ⟨p, hp, hx⟩ := bind_eq_ok.mp hx
    have hreturn : ∀ {r : Int} {k₂ : Kernel}, AccelKept k₁ k₂ → σ.memsetProgress c frame site (.ret r k₂) = .ok σ' →
        AccelStepped σ (.ecall regs site) σ' := by
      intro r k₂ hk₂ hx
      obtain ⟨⟨ret, k₃⟩, h₃, hx⟩ := bind_eq_ok.mp hx
      obtain rfl := Except.ok.inj hx
      have hk₃ := trapReturn_accelKept h₃
      have hret : AccelKept k₂ k₃ := ⟨hk₃.mmio, hk₃.request, hk₃.bound⟩
      exact .kept (.setCall ((henter.trans hk₂).trans hret) hnone.symm)
    rcases userAccelSyscallMemset_submits hp with
      ⟨r, k₂, rfl, hk₂⟩ | ⟨u, k₂, q, hk₂, hsie, hsched, himage, hseen, hq, hp⟩
    · exact hreturn hk₂ hx
    by_cases hclaim : Claims u.cmd u.timeoutTicks k₂
    · rw [accelSubmitSyncTimeout_claims hclaim] at hq
      let sub : Submission := { cmd := u.cmd, ticks := u.timeoutTicks, irqState := k₂.machine.sie }
      have hsub : Submits σ c sub (accelClaim u.cmd k₂.irqSave.2) := by
        have hsave : AccelKept k₂ k₂.irqSave.2 := ⟨rfl, rfl, rfl⟩
        refine .claims hnone ((henter.trans hk₂).trans hsave) hclaim.irqSave (fun _ => ?_) rfl
        have htid : threadCurrentTid k₂.irqSave.2 = threadCurrentTid σ.kernel := by
          show threadCurrentTid k₂ = _
          rw [threadCurrentTid, threadCurrentTid, hsched, hk₀]
          rfl
        exact htid.trans (threadCurrentTid_eq h hcur)
      refine memsetProgress_accel hsub (accelSubmitLoop_waited hq) hp (fun regs' k' he hwait => ?_) hx
      subst he
      have hs₂ : SchedInv σ.queueSet (accelClaim u.cmd k₂.irqSave.2).sched := by
        show SchedInv σ.queueSet k₂.sched
        rw [hsched]
        exact hs
      have hcur₂ : (accelClaim u.cmd k₂.irqSave.2).sched.currentThread = some c := by
        show k₂.sched.currentThread = some c
        rw [hsched]
        exact hcur₀
      have himage₂ : (accelClaim u.cmd k₂.irqSave.2).machine.image = σ.kernel.machine.image := by
        show k₂.machine.image = _
        rw [himage, hk₀]
        rfl
      have hbound : σ.kernel.accelBound = true := (henter.trans hk₂).bound.symm.trans hclaim.bound
      have hseen₂ : (accelClaim u.cmd k₂.irqSave.2).trapSelftestSeen = true := by
        show k₂.trapSelftestSeen = true
        rw [hseen, hk₀]
        exact h.seen
      obtain ⟨-, hkept⟩ := claim_trap_kept hs₂ (fun _ => ⟨hcur₂, hreal, by rw [himage₂]; exact hon⟩) hseen₂
        (by rw [himage₂]; exact h.accelQueue hbound) hclaim.ticks rfl (accelSubmitLoop_progress rfl hq) hwait
      exact ⟨hcur, hkept⟩
    · obtain ⟨r, g, heq, hticks⟩ := accelSubmitSyncTimeout_refused hclaim
      obtain rfl := Except.ok.inj (hq.symm.trans heq)
      obtain ⟨⟨r₂, k₃⟩, h₂, hp⟩ := bind_eq_ok.mp hp
      obtain rfl := Except.ok.inj hp
      have hmem : AccelKept k₂ (k₂.setMem g) := ⟨rfl, rfl, rfl⟩
      rcases userAccelMemsetFinish_accel h₂ with hk₃ | ⟨hr, hne, -⟩
      · exact hreturn ((hk₂.trans hmem).trans hk₃) hx
      · exact absurd (hticks hr) hne
  · exact .kept (ecall_kept h hen haccel hx)

theorem exec_accel (h : SysOk σ) (hen : Enabled op σ) (hx : exec op σ = .ok σ') : AccelStepped σ op σ' := by
  cases op with
  | threadCreate name entry arg => exact .kept (threadCreate_kept h hx)
  | threadCreateUser name task => exact .kept (threadCreateUser_kept h hx)
  | threadStart => exact .kept (threadStart_kept h hen hx)
  | userTaskInit task program => exact .kept (userTaskInit_kept h hx)
  | waitQueueInit queue name => exact .kept (waitQueueInit_kept hx)
  | wakeOne queue => exact .kept (wakeOne_kept h hen hx)
  | wakeAll queue => exact .kept (wakeAll_kept h hen hx)
  | control t site => exact .kept (control_kept h hen hx)
  | ecall regs site => exact ecall_accel h hen hx
  | timer mtime site => exact .kept (timer_kept h hen hx)
  | resume site => exact resume_accel h hen hx
  | mutexInit mutex name => exact .kept (mutexInit_kept h hen hx)
  | mutexLock mutex site =>
    obtain ⟨c, hc, -⟩ := id hen
    obtain ⟨d, call, hcur, -, hs⟩ := mutexLock_lockStep h hen hx
    obtain rfl : c = d := Option.some.inj (hc.current.symm.trans hcur)
    exact .kept (hs.stepKept (by rw [hc.idle]; rfl))
  | mutexLockTimeout mutex ticks site =>
    obtain ⟨c, hc, -⟩ := id hen
    obtain ⟨d, call, hcur, -, hs⟩ := mutexLockTimeout_lockStep h hen hx
    obtain rfl : c = d := Option.some.inj (hc.current.symm.trans hcur)
    exact .kept (hs.stepKept (by rw [hc.idle]; rfl))
  | mutexTrylock mutex => exact .kept (mutexTrylock_kept hx)
  | mutexUnlock mutex => exact .kept (mutexUnlock_kept h hen hx)
  | accelSubmit cmd ticks site => exact accelSubmit_accel h hen hx
  | accelControl control =>
    obtain rfl := Except.ok.inj hx
    exact .written rfl
  | accelAck mask =>
    obtain rfl := Except.ok.inj hx
    exact .acked rfl
  | accelStep =>
    obtain rfl := Except.ok.inj hx
    exact .ran rfl
  | dispatchIrqs =>
    obtain ⟨k₁, h₁, hx⟩ := bind_eq_ok.mp hx
    obtain rfl := Except.ok.inj hx
    exact .dispatched rfl (platformDispatchPendingIrqs_outcome h.sched h.accelQueue h₁)
  | pageAlloc =>
    obtain ⟨⟨a, m⟩, -, hx⟩ := bind_eq_ok.mp hx
    obtain rfl := Except.ok.inj hx
    exact .kept (.setKernel ⟨rfl, rfl, rfl⟩)
  | pageFree page =>
    obtain ⟨m, -, hx⟩ := bind_eq_ok.mp hx
    obtain rfl := Except.ok.inj hx
    exact .kept (.setKernel ⟨rfl, rfl, rfl⟩)
  | write mem =>
    obtain rfl := Except.ok.inj hx
    exact .kept (.setKernel ⟨rfl, rfl, rfl⟩)

/-! ### The invariant -/

/-- The protocol of driver and device, and whose the request in flight is. -/
structure AccelOk (σ : System) : Prop where
  protocol : σ.kernel.Protocol
  bound : σ.kernel.accelRequest.inUse = true → σ.kernel.accelBound = true
  calls : ∀ t sub, (σ.calls t).submission = some sub → σ.kernel.accelRequest.inUse = true ∧
    σ.kernel.accelRequest.cmd = sub.cmd ∧ σ.kernel.accelRequest.submitterTid = t

theorem AccelOk.submits {k₀ : Kernel} (h : AccelOk σ) (hs : Submits σ c sub k₀) :
    k₀.Protocol ∧ k₀.accelRequest.inUse = true ∧ k₀.accelRequest.cmd = sub.cmd ∧ k₀.accelBound = true ∧
      ∀ t ≠ c, (σ.calls t).submission = none := by
  cases hs with
  | @claims k ticks hidle hk hclaim htid hk₀ =>
    subst hk₀
    refine ⟨hclaim.protocol (hk.protocol h.protocol), rfl, rfl, hclaim.bound, fun t ht => ?_⟩
    cases ht' : (σ.calls t).submission with
    | none => rfl
    | some s =>
      have huse := (h.calls t s ht').1
      rw [← hk.request, hclaim.free] at huse
      cases huse
  | goesOn hcall hk₀ =>
    subst hk₀
    obtain ⟨huse, hcmd, htid⟩ := h.calls c sub hcall
    refine ⟨h.protocol, huse, hcmd, h.bound huse, fun t ht => ?_⟩
    cases ht' : (σ.calls t).submission with
    | none => rfl
    | some s => exact absurd ((h.calls t s ht').2.2.symm.trans htid) ht

theorem mayReset_protocol (hk : MayReset k k') (h : k.Protocol) : k'.Protocol := by
  rcases hk with hk | hk
  · exact hk.protocol h
  · exact hk.protocol (accelWriteControlRaw_protocol h)

theorem AccelOk.same {k' : Kernel} (h : AccelOk σ) (hp : k'.Protocol)
    (huse : k'.accelRequest.inUse = σ.kernel.accelRequest.inUse)
    (hcmd : k'.accelRequest.cmd = σ.kernel.accelRequest.cmd)
    (htid : k'.accelRequest.submitterTid = σ.kernel.accelRequest.submitterTid)
    (hbound : k'.accelBound = σ.kernel.accelBound) : AccelOk (σ.setKernel k') := by
  refine ⟨hp, fun hu => ?_, fun t sub ht => ?_⟩
  · exact hbound.trans (h.bound (huse.symm.trans hu))
  · obtain ⟨hu, hc, ht'⟩ := h.calls t sub ht
    exact ⟨huse.trans hu, hcmd.trans hc, htid.trans ht'⟩

theorem AccelStepped.accelOk (hs : AccelStepped σ op σ') (h : AccelOk σ) : AccelOk σ' := by
  cases hs with
  | kept hk =>
    refine ⟨hk.kernel.protocol h.protocol, fun hu => ?_, fun t sub ht => ?_⟩
    · rw [hk.kernel.request] at hu
      exact hk.kernel.bound.trans (h.bound hu)
    · rw [hk.calls] at ht
      rw [hk.kernel.request]
      exact h.calls t sub ht
  | @waits c sub k₀ σ' hcur hs hk hmem hcall hothers =>
    obtain ⟨hp, huse, hcmd, hbound, hnone⟩ := h.submits hs
    refine ⟨hk.protocol hp, fun _ => hk.bound.trans hbound, fun t s ht => ?_⟩
    by_cases htc : t = c
    · subst htc
      obtain rfl : sub = s := Option.some.inj (hcall.symm.trans ht)
      rw [hk.request]
      refine ⟨huse, hcmd, ?_⟩
      cases hs with
      | claims hidle hk hclaim htid hk₀ =>
        rw [hk₀]
        exact htid hcur
      | goesOn hc hk₀ =>
        rw [hk₀]
        exact (h.calls _ _ hc).2.2
    · rw [hothers t htc, hnone t htc] at ht
      cases ht
  | @returned c sub k₀ k₁ pending σ' hs hr hk hcall hothers =>
    obtain ⟨hp, -, -, -, hnone⟩ := h.submits hs
    have hfree : σ'.kernel.accelRequest.inUse = false := by
      rcases hk with hk | hk
      · rw [hk.request]
        exact hr.free
      · rw [hk.request]
        exact (accelWriteControlRaw_request _ k₁).1.trans hr.free
    refine ⟨mayReset_protocol hk (hr.protocol hp), fun hu => ?_, fun t s ht => ?_⟩
    · rw [hfree] at hu
      cases hu
    · by_cases htc : t = c
      · subst htc
        rw [hcall] at ht
        cases ht
      · rw [hothers t htc, hnone t htc] at ht
        cases ht
  | ran => exact h.same h.protocol.platformAccelStep rfl rfl rfl rfl
  | @written control hop =>
    obtain ⟨huse, hcmd, htid, -, hbound⟩ := accelWriteControlRaw_request control σ.kernel
    exact h.same (accelWriteControlRaw_protocol h.protocol) huse hcmd htid hbound
  | @acked mask hop =>
    obtain ⟨hq, hbound⟩ := accelAckIrq_request mask σ.kernel
    exact h.same (accelAckIrq_protocol h.protocol) (by rw [hq]) (by rw [hq]) (by rw [hq]) hbound
  | dispatched hop ho =>
    obtain ⟨huse, hcmd, htid, hbound⟩ := ho.request
    exact h.same (ho.protocol h.protocol) huse hcmd htid hbound

theorem driverProbeAll_open {k k' : Kernel} (hf : Fresh k) (h : driverProbeAll k = .ok k') :
    k'.accelRequest.completed = false := by
  rw [driverProbeAll, if_neg (by rw [hf.unbound]; decide)] at h
  obtain ⟨⟨r, k₁⟩, h₁, h⟩ := bind_eq_ok.mp h
  rw [accelProbe, if_neg (by rw [hf.mmio]; decide)] at h₁
  obtain ⟨k₂, -, h₁⟩ := bind_eq_ok.mp h₁
  obtain ⟨rfl, rfl⟩ := Prod.mk.inj (Except.ok.inj h₁)
  rw [← Except.ok.inj h, if_pos rfl]
  rfl

theorem boot_open {k : Kernel} (hf : Fresh k) (h : boot k = .ok σ) : σ.kernel.accelRequest.completed = false := by
  obtain ⟨m, -, h⟩ := bind_eq_ok.mp h
  obtain ⟨k₁, h₁, h⟩ := bind_eq_ok.mp h
  obtain ⟨k₂, h₂, h⟩ := bind_eq_ok.mp h
  obtain rfl := Except.ok.inj h
  have hopen := driverProbeAll_open (k := { k with machine := m }) ⟨hf.selftest, hf.unbound, hf.tasks, hf.mmio⟩ h₁
  obtain ⟨k₃, h₃, h₂⟩ := bind_eq_ok.mp h₂
  obtain rfl := Except.ok.inj h₂
  rw [installThread] at h₃
  split at h₃
  · cases h₃
  · obtain rfl := Except.ok.inj h₃
    exact hopen

theorem boot_accelOk {k : Kernel} (hf : Fresh k) (h : boot k = .ok σ) : AccelOk σ := by
  have hb := boot_ok hf h
  have hopen := boot_open hf h
  refine ⟨?_, fun hu => ?_, fun t sub ht => ?_⟩
  · rw [Kernel.Protocol, hb.mmio]
    refine ⟨rfl, .inl rfl, fun hne => absurd rfl hne, fun hne => absurd rfl hne, fun hs => ?_, fun _ _ => .inr rfl,
      fun hu => ?_, fun hd => ?_⟩
    · exact absurd hs (by decide)
    · rw [hb.free.1] at hu
      cases hu
    · rw [hopen] at hd
      cases hd
  · rw [hb.free.1] at hu
    cases hu
  · rw [hb.calls t] at ht
    cases ht

/-- What every run keeps of the accelerator. -/
structure DriverOk (σ : System) : Prop where
  sys : SysOk σ
  accel : AccelOk σ

theorem DriverOk.step (h : DriverOk σ) (hen : Enabled op σ) (hone : AttachOnce op σ) (hx : exec op σ = .ok σ') :
    DriverOk σ' :=
  ⟨(exec_stepped h.sys hen hone hx).sysOk h.sys, (exec_accel h.sys hen hx).accelOk h.accel⟩

theorem Runs.driverOk {k : Kernel} {σ₀ : System} {l : List Op} (h : Runs σ₀ l σ) (hf : Fresh k)
    (hboot : boot k = .ok σ₀) : DriverOk σ :=
  Run.invariant (fun _ _ _ hi hp hx => hi.step hp.1 hp.2 hx) h ⟨(boot_ok hf hboot).ok, boot_accelOk hf hboot⟩

end System

end QemuRtos
