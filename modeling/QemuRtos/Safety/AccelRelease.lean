import QemuRtos.Safety.AccelProtocol
import QemuRtos.Safety.Progress

/-!
# The end of an accelerator call

A call that returns has freed its two pages, after a reset of the device if the submission has timed out. It leaves the
slot free and a device that does nothing until the next submission is accepted.
-/

namespace QemuRtos

open Lib

variable {k k' : Kernel} {u : UserMemset} {sub : Submission} {r r' : Int} {timedOut : Bool}

theorem accelReset_done (h : (accelReset k).1 = accelOk) : (accelReset k).2 = { k with
    accelMmio := { k.accelMmio with control := 0, irqAck := 0, status := accelStatusIdle, irqStatus := 0, cmdBase := 0 }
    accelRequest := { k.accelRequest with resetRequiredAfterTimeout := false } } := by
  rcases accelWriteControlRaw_cases accelControlReset k with ⟨-, hne⟩ | ⟨-, -, ⟨-, heq⟩ | ⟨hno, -⟩⟩
  · exact absurd h hne
  · exact heq
  · exact absurd hno (by decide)

theorem userAccelResetAfterTimeout_ok (h : userAccelResetAfterTimeout u r k = .ok k') :
    k'.machine.pages = k.machine.pages ∧
      (k' = k ∧ ¬(r = accelErrTimeout ∧ u.timeoutTicks ≠ 0) ∨
        (accelReset k).1 = accelOk ∧ k' = (accelReset k).2) := by
  rw [userAccelResetAfterTimeout] at h
  by_cases ht : r = userAccelErrTimeout ∧ u.timeoutTicks ≠ 0
  · rw [if_pos ht] at h
    dsimp only at h
    by_cases hr : (accelReset k).1 = accelOk
    · rw [if_neg (not_not_intro hr)] at h
      obtain rfl := Except.ok.inj h
      exact ⟨by rw [accelReset_done hr], .inr ⟨hr, rfl⟩⟩
    · rw [if_pos hr] at h
      cases h
  · rw [if_neg ht] at h
    obtain rfl := Except.ok.inj h
    exact ⟨rfl, .inl ⟨rfl, ht⟩⟩

theorem userAccelCopyback_ok (h : userAccelCopyback u r k = .ok (r', k')) : ∃ f, k' = k.setMem f := by
  rw [userAccelCopyback] at h
  split at h
  · obtain ⟨⟨r₁, k₁⟩, h₁, h⟩ := bind_eq_ok.mp h
    obtain ⟨-, rfl⟩ := Prod.mk.inj (Except.ok.inj h)
    obtain ⟨r₂, f, heq⟩ := copyToUserTask_exists u.task u.userDst u.bouncePage u.len k
    exact ⟨f, (Prod.mk.inj (Except.ok.inj (h₁.symm.trans heq))).2⟩
  · obtain ⟨-, rfl⟩ := Prod.mk.inj (Except.ok.inj h)
    exact ⟨id, rfl⟩

/-- The accelerator call that a thread is in. -/
def Call.memset : Call → Option UserMemset
  | .userMemset u _ => some u
  | .idle | .lock _ | .submit _ => none

theorem Returned.pages {next : U64} (h : Returned next k k') : k'.machine.pages = k.machine.pages := by
  cases h with
  | supervisor => rfl
  | user => rfl

/-- `p` is `p'` with the two pages of a call allocated. -/
structure Holding (u : UserMemset) (p p' : PageAllocator) : Prop where
  held : PagesHeld u p
  allocated : ∀ b, p'.Allocated b ↔ p.Allocated b ∧ b ≠ u.cmd ∧ b ≠ u.bouncePage
  free : p'.freePages = p.freePages + 2

/-- The end of a call frees its pages, after a reset of the device if the submission has timed out. -/
theorem userAccelMemsetFinish_ok (hok : PagesOk k.machine.pages) (h : userAccelMemsetFinish u r k = .ok (r', k')) :
    Holding u k.machine.pages k'.machine.pages ∧
      (AccelKept k k' ∧ ¬(r = accelErrTimeout ∧ u.timeoutTicks ≠ 0) ∨
        (accelReset k).1 = accelOk ∧ AccelKept (accelReset k).2 k') := by
  obtain ⟨k₁, h₁, h⟩ := bind_eq_ok.mp h
  obtain ⟨⟨r₂, k₂⟩, h₂, h⟩ := bind_eq_ok.mp h
  obtain ⟨m₁, hbounce, h⟩ := bind_eq_ok.mp h
  obtain ⟨m₂, hcmd, h⟩ := bind_eq_ok.mp h
  obtain ⟨-, rfl⟩ := Prod.mk.inj (Except.ok.inj h)
  obtain ⟨hpages, hcase⟩ := userAccelResetAfterTimeout_ok h₁
  obtain ⟨f, rfl⟩ := userAccelCopyback_ok h₂
  rw [← hpages] at hok ⊢
  obtain ⟨hb, p₁, rfl, hok₁, hg₁⟩ := pageFree_ok (m := (k₁.setMem f).machine) hok hbounce
  obtain ⟨hc, p₂, rfl, -, hg₂⟩ := pageFree_ok hok₁ hcmd
  obtain ⟨hc, hne⟩ := (hg₁.allocated _).mp hc
  refine ⟨⟨⟨hc, hb, hne⟩, fun b => ?_, ?_⟩, ?_⟩
  · exact (hg₂.allocated b).trans ((and_congr_left' (hg₁.allocated b)).trans
      ⟨fun h => ⟨h.1.1, h.2, h.1.2⟩, fun h => ⟨⟨h.1, h.2.2⟩, h.2.1⟩⟩)
  · rw [hg₂.free, hg₁.free]
    rfl
  · rcases hcase with ⟨rfl, hno⟩ | ⟨hreset, rfl⟩
    · exact .inl ⟨⟨rfl, rfl, rfl⟩, hno⟩
    · exact .inr ⟨hreset, ⟨rfl, rfl, rfl⟩⟩

theorem Waited.ret (h : Waited sub timedOut k (.ret r k')) :
    k.accelRequest.completed = true ∧
        (timedOut = false → k'.accelRequest.resetRequiredAfterTimeout = k.accelRequest.resetRequiredAfterTimeout) ∨
      k.accelRequest.completed = false ∧ r = accelErrTimeout := by
  generalize hp : Progress.ret r k' = p at h
  cases h with
  | waits => cases hp
  | completed hdone htime =>
    cases hp
    exact .inl ⟨hdone, fun _ => rfl⟩
  | timedOut htime =>
    cases hp
    by_cases hdone : k.accelRequest.completed = true
    · refine .inl ⟨hdone, fun hf => ?_⟩
      rw [hf] at htime
      rcases htime with htime | hopen
      · cases htime
      · rw [hopen] at hdone
        cases hdone
    · refine .inr ⟨Bool.not_eq_true _ ▸ hdone, ?_⟩
      show (if k.accelRequest.completed = true then _ else accelErrTimeout) = accelErrTimeout
      rw [if_neg hdone]

namespace System

variable {σ σ' σ₀ σ₂ σ₃ : System} {op : Op} {l : List Op} {c : Nat} {site : TrapSite}

/-- The wait of the call of thread `c` has timed out, and the request has been completed since. -/
def LateCompletion (σ : System) (c : Nat) (sub : Submission) : Prop :=
  sub.timedOut (σ.resumedA0 c) = true ∧ σ.kernel.accelRequest.completed = true

/-- What an accelerator call leaves behind when it returns. -/
structure MemsetReturned (c : Nat) (u : UserMemset) (sub : Submission) (σ σ' : System) : Prop where
  pages : Holding u σ.kernel.machine.pages σ'.kernel.machine.pages
  slot : σ'.kernel.accelRequest.inUse = false
  reset : σ'.kernel.accelRequest.resetRequiredAfterTimeout = true → LateCompletion σ c sub
  /-- Without a completion the device has been reset. -/
  incomplete : σ.kernel.accelRequest.completed = false → σ'.kernel.accelMmio.status = accelStatusIdle ∧
    σ'.kernel.accelMmio.irqStatus = 0 ∧ σ'.kernel.accelMmio.cmdBase = 0
  spent : Spent σ'

theorem memset_returns (h : DriverOk σ) (hcur : σ.kernel.sched.currentThread = some c)
    (hcall : σ.calls c = .userMemset u sub) (hx : exec (.resume site) σ = .ok σ') (hret : σ'.calls c = .idle) :
    MemsetReturned c u sub σ σ' := by
  have hrun : σ.resume σ.current site = .ok σ' := hx
  rw [current_eq hcur, resume, hcall] at hrun
  obtain ⟨p, hp, hrun⟩ := bind_eq_ok.mp hrun
  obtain ⟨p', hp', hrun⟩ := bind_eq_ok.mp hrun
  have hw := submissionResume_waited hp
  cases p with
  | trap regs next k₁ =>
    obtain rfl := Except.ok.inj hp'
    obtain ⟨k', -, hrun⟩ := bind_eq_ok.mp hrun
    obtain rfl := Except.ok.inj hrun
    rw [setCall_calls_self] at hret
    cases hret
  | ret r k₁ =>
    obtain ⟨⟨r₂, k₂⟩, h₂, hp'⟩ := bind_eq_ok.mp hp'
    obtain rfl := Except.ok.inj hp'
    obtain ⟨⟨ret, k₃⟩, h₃, hrun⟩ := bind_eq_ok.mp hrun
    obtain rfl := Except.ok.inj hrun
    obtain ⟨pending, hr⟩ := hw.released
    obtain ⟨huse, -, -⟩ := h.accel.calls c sub (by rw [hcall]; rfl)
    have hticks : u.timeoutTicks ≠ 0 := by
      have hok := h.sys.call c
      rw [hcall] at hok
      rw [← hok.2.2.2.2.2.2]
      exact hok.2.1
    obtain ⟨hfreed, hcase⟩ := userAccelMemsetFinish_ok (hw.pages ▸ h.sys.pages) h₂
    rw [hw.pages] at hfreed
    have hkept := trapReturn_accelKept h₃
    have hpages : k₃.machine.pages = k₂.machine.pages := (trapReturnFromHandler_ok h₃).pages
    have hend : AccelKept k₂ k₃ := ⟨hkept.mmio, hkept.request, hkept.bound⟩
    rcases hcase with ⟨hk, hno⟩ | ⟨hreset, hk⟩
    · -- no timeout is reported: the request has been completed
      have hall := hk.trans hend
      obtain ⟨hdone, hpending⟩ := hw.ret.resolve_right fun h => hno ⟨h.2, hticks⟩
      obtain ⟨-, hcontrol, hstatus⟩ := h.accel.protocol.completed hdone
      have hregs : k₃.accelMmio = σ.kernel.accelMmio := hall.mmio.trans hr.mmio
      refine ⟨hpages ▸ hfreed, ?_, fun hlate => ?_, fun hopen => ?_, ⟨?_, .inl ?_⟩⟩
      · show k₃.accelRequest.inUse = false
        rw [hall.request]
        exact hr.free
      · refine ⟨?_, hdone⟩
        by_contra hno
        have hlate : k₃.accelRequest.resetRequiredAfterTimeout = true := hlate
        rw [hall.request, hpending (Bool.not_eq_true _ ▸ hno), (h.accel.protocol.used huse).2.2] at hlate
        cases hlate
      · rw [hopen] at hdone
        cases hdone
      · show k₃.accelMmio.control = 0
        rw [hregs]
        exact hcontrol
      · show k₃.accelMmio.status ≠ accelStatusIdle
        rw [hregs]
        exact hstatus
    · -- the device has been reset before the pages were freed
      have hall := hk.trans hend
      have heq := accelReset_done hreset
      refine ⟨hpages ▸ hfreed, ?_, fun hlate => ?_, fun _ => ?_, ⟨?_, .inr ?_⟩⟩
      · show k₃.accelRequest.inUse = false
        rw [hall.request, heq]
        exact hr.free
      · have hlate : k₃.accelRequest.resetRequiredAfterTimeout = true := hlate
        rw [hall.request, heq] at hlate
        cases hlate
      · show k₃.accelMmio.status = accelStatusIdle ∧ k₃.accelMmio.irqStatus = 0 ∧ k₃.accelMmio.cmdBase = 0
        rw [hall.mmio, heq]
        exact ⟨rfl, rfl, rfl⟩
      · show k₃.accelMmio.control = 0
        rw [hall.mmio, heq]
      · show k₃.accelMmio.cmdBase = 0
        rw [hall.mmio, heq]

/-- A run in which no submission is accepted. -/
def UnacceptedRuns : System → List Op → System → Prop :=
  Run exec fun op σ => (Enabled op σ ∧ AttachOnce op σ) ∧ Unaccepted op σ

theorem UnacceptedRuns.spentOk (hrun : UnacceptedRuns σ l σ') (h : SpentOk σ) : SpentOk σ' :=
  Run.invariant (fun _ _ σ' hi hp hx => hi.step ⟨hp.1.1, hp.1.2, hx⟩ (hp.2 σ' hx)) hrun h

theorem SpentOk.quiet (h : SpentOk σ) : platformAccelStep σ.kernel = σ.kernel := by
  rw [platformAccelStep, accelStep_quiet h.spent.control h.driver.accel.protocol.ack]

/-- The user thread fills a byte of its stack, with a timeout of two ticks. -/
def sampleMemsetOps : List Op :=
  [.ecall { a7 := userSyscallAccelMemset, a0 := userSpaceStackBase, a1 := 1, a2 := 7, a3 := 2 } (sampleSite 1)]

/-- The device runs, its interrupt is handled, and the null thread yields to the user thread. -/
def sampleMemsetDone : List Op := [.accelStep, .dispatchIrqs,
  .control { op := threadTrapYield, arg0 := 0, arg1 := none } (sampleSite threadNullTid)]

/-- Thread `c` is in a call, and its call returns when it goes on. -/
def memsetCheck (c : Nat) (σ : System) : Bool :=
  decide (Enabled (.resume (sampleSite c)) σ ∧ σ.kernel.sched.currentThread = some c ∧ (σ.calls c).memset ≠ none) &&
    succeeds (fun σ' => decide (σ'.calls c = .idle)) (exec (.resume (sampleSite c)) σ)

theorem memset_of_check (h : memsetCheck c σ = true) : ∃ u sub σ', σ.kernel.sched.currentThread = some c ∧
    σ.calls c = .userMemset u sub ∧ Steps (.resume (sampleSite c)) σ σ' ∧ σ'.calls c = .idle := by
  obtain ⟨hstate, hx⟩ := Bool.and_eq_true_iff.mp h
  obtain ⟨hen, hcur, hcall⟩ := of_decide_eq_true hstate
  obtain ⟨σ', hr, hx⟩ := of_succeeds hx
  cases hc : σ.calls c with
  | userMemset u sub => exact ⟨u, sub, σ', hcur, rfl, ⟨hen, trivial, hr⟩, of_decide_eq_true hx⟩
  | idle =>
    rw [hc] at hcall
    exact absurd rfl hcall
  | lock call =>
    rw [hc] at hcall
    exact absurd rfl hcall
  | submit sub =>
    rw [hc] at hcall
    exact absurd rfl hcall

instance (op : Op) (σ : System) : Decidable (Unaccepted op σ) :=
  decidable_of_iff ((match exec op σ with
    | .ok σ' => decide ¬(σ.kernel.accelMmio.control = 0 ∧ σ'.kernel.accelMmio.control ≠ 0)
    | .error _ => true) = true) <| by
    cases hx : exec op σ with
    | error e =>
      refine ⟨fun _ σ' h => ?_, fun _ => rfl⟩
      rw [hx] at h
      cases h
    | ok σ' =>
      refine ⟨fun h σ₂ hx₂ ha => ?_, fun h => decide_eq_true fun ha => h σ' hx ⟨ha.1, ha.2⟩⟩
      obtain rfl := Except.ok.inj (hx.symm.trans hx₂)
      exact of_decide_eq_true h ⟨ha.quiet, ha.pending⟩

/-- The device is stepped, the user thread's next call is refused, and a tick passes. -/
def sampleRefusedOps : List Op := [.accelStep,
  .ecall { a7 := userSyscallAccelMemset, a0 := 0, a1 := 1, a2 := 7, a3 := 2 } (sampleSite 1), .timer 0 (sampleSite 1)]

end System

end QemuRtos
