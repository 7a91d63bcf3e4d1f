import QemuRtos.SystemAccel

/-!
# The outcome of a timed submission

A submission leaves three records of its outcome: its result, the status of its descriptor, and whether the device has
to be reset. In a run in which nobody else writes its descriptor they agree when it returns, with one exception: the
timer ends its wait, and the request is completed before the submitting thread runs again.
-/

namespace QemuRtos

open Lib

variable {k k' : Kernel}

instance (r : Int) (s : U32) (pending : Bool) : Decidable (Agree r s pending) :=
  inferInstanceAs (Decidable (_ ∧ _))

namespace System

variable {σ σ' : System} {op : Op}

/-- The step does not write the status of the descriptor in flight. -/
def DescriptorKept (op : Op) (σ : System) : Prop :=
  σ.kernel.accelRequest.inUse = true → op ≠ .accelStep → ∀ σ', exec op σ = .ok σ' →
    σ'.kernel.accelRequest.inUse = true → σ'.kernel.flightStatus = σ.kernel.flightStatus

theorem accelOk_free (h : k.Protocol) (hu : k.accelRequest.inUse = false) : k.Outcome := by
  refine .free hu ?_
  by_contra hd
  rw [(h.completed (Bool.not_eq_false _ ▸ hd)).1] at hu
  cases hu

theorem AccelStepped.outcome (hs : AccelStepped σ op σ') (h : AccelOk σ) (ho : σ.kernel.Outcome)
    (hkept : DescriptorKept op σ) (hx : exec op σ = .ok σ') : σ'.kernel.Outcome := by
  have hprotocol := (hs.accelOk h).protocol
  by_cases huse' : σ'.kernel.accelRequest.inUse = true
  · by_cases hop : op = .accelStep
    · subst hop
      obtain rfl := Except.ok.inj hx
      exact platformAccelStep_outcome h.protocol ho
    cases hs with
    | kept hk =>
      have huse : σ.kernel.accelRequest.inUse = true := by rw [← hk.kernel.request]; exact huse'
      exact hk.kernel.outcome (hkept huse hop _ hx huse') ho
    | waits _ hs hk hmem _ _ =>
      refine hk.outcome (hk.flightStatus hmem) ?_
      cases hs with
      | claims _ _ _ _ hk₀ =>
        rw [hk₀]
        exact claim_outcome _ _
      | goesOn _ hk₀ =>
        rw [hk₀]
        exact ho
    | @returned c sub k₀ k₁ pending _ _ hr hk _ _ =>
      have hfree : σ'.kernel.accelRequest.inUse = false := by
        rcases hk with hk | hk
        · rw [hk.request]
          exact hr.free
        · rw [hk.request]
          exact (accelWriteControlRaw_request _ k₁).1.trans hr.free
      exact absurd (hfree.symm.trans huse') Bool.false_ne_true
    | ran hran => exact absurd hran hop
    | @written control _ =>
      have huse := (accelWriteControlRaw_request control σ.kernel).1.symm.trans huse'
      show (accelWriteControlRaw control σ.kernel).2.Outcome
      rw [accelWriteControlRaw_used control huse]
      exact ho
    | @acked mask _ =>
      have huse : σ.kernel.accelRequest.inUse = true := by rw [← (accelAckIrq_request mask σ.kernel).1]; exact huse'
      show (accelAckIrq mask σ.kernel).2.Outcome
      rw [accelAckIrq_used mask huse]
      exact ho
    | dispatched _ hk => exact hk.outcome h.protocol ho
  · exact accelOk_free hprotocol (Bool.not_eq_true _ ▸ huse')

/-- What a run keeps in which no step but the device's writes the descriptor in flight. -/
structure OutcomeInv (σ : System) : Prop extends DriverOk σ where
  outcome : σ.kernel.Outcome

theorem OutcomeInv.step (h : OutcomeInv σ) (hen : Enabled op σ) (hone : AttachOnce op σ) (hkept : DescriptorKept op σ)
    (hx : exec op σ = .ok σ') : OutcomeInv σ' :=
  ⟨h.toDriverOk.step hen hone hx, (exec_accel h.sys hen hx).outcome h.accel h.outcome hkept hx⟩

/-- Runs in which no step but the device's writes the descriptor in flight. -/
abbrev KeptRuns (σ₀ : System) (l : List Op) (σ : System) : Prop :=
  Run System.exec (fun op σ => (Enabled op σ ∧ AttachOnce op σ) ∧ DescriptorKept op σ) σ₀ l σ

theorem KeptRuns.inv {k : Kernel} {σ₀ : System} {l : List Op} (h : KeptRuns σ₀ l σ) (hf : Fresh k)
    (hboot : boot k = .ok σ₀) : OutcomeInv σ := by
  refine Run.invariant (fun _ _ _ hi hp hx => hi.step hp.1.1 hp.1.2 hp.2 hx) h ?_
  have haccel := boot_accelOk hf hboot
  exact ⟨⟨(boot_ok hf hboot).ok, haccel⟩, accelOk_free haccel.protocol (boot_ok hf hboot).free.1⟩

/-- A submission that has claimed the slot and returns from its wait leaves three records of its outcome that agree,
unless its wait has timed out and its request has been completed all the same; one that returns at once, from a kernel
that the step has prepared for it, leaves records that agree. -/
theorem submission_agrees_iff {k k' : Kernel} {σ₀ : System} {l : List Op} {r : Int} (hf : Fresh k)
    (hboot : boot k = .ok σ₀) (hrun : KeptRuns σ₀ l σ) :
    (∀ c sub, (σ.calls c).submission = some sub → sub.resume (σ.resumedA0 c) σ.kernel = .ok (.ret r k') →
      (Agree r (cmdStatus k'.machine.mem sub.cmd) k'.accelRequest.resetRequiredAfterTimeout ↔
        ¬(sub.timedOut (σ.resumedA0 c) = true ∧ σ.kernel.accelRequest.completed = true))) ∧
    ∀ cmd ticks k₁, AccelKept σ.kernel k₁ → Claims cmd ticks k₁ →
      accelSubmitSyncTimeout cmd ticks k₁ = .ok (.ret r k') →
      Agree r (cmdStatus k'.machine.mem cmd) k'.accelRequest.resetRequiredAfterTimeout := by
  have hinv := hrun.inv hf hboot
  refine ⟨fun c sub hcall hret => ?_, fun cmd ticks k₁ hk hclaim hret => ?_⟩
  · obtain ⟨huse, hcmd, -⟩ := hinv.accel.calls c sub hcall
    exact (submissionResume_waited hret).agree_iff hinv.accel.protocol hinv.outcome huse hcmd
  · rw [accelSubmitSyncTimeout_claims hclaim] at hret
    have hp := Claims.protocol hclaim.irqSave (hk.protocol hinv.accel.protocol)
    refine ((accelSubmitLoop_waited hret).agree_iff hp (claim_outcome _ _) rfl rfl).mpr fun hn => ?_
    exact Bool.false_ne_true hn.1

/-! ### Two runs on fixed inputs -/

def Op.isAccelStep : Op → Bool
  | .accelStep => true
  | _ => false

instance (op : Op) : Decidable (op = .accelStep) :=
  decidable_of_iff (Op.isAccelStep op = true) (by cases op <;> simp [Op.isAccelStep])

instance {ε α : Type} {p : α → Prop} [DecidablePred p] (x : Except ε α) : Decidable (∀ a, x = .ok a → p a) :=
  match x with
  | .error _ => .isTrue (by intro a h; cases h)
  | .ok a => decidable_of_iff (p a) (by simp)

instance (op : Op) (σ : System) : Decidable (DescriptorKept op σ) :=
  inferInstanceAs (Decidable (_ → _ → ∀ σ', exec op σ = .ok σ' → _))

/-- The submission of thread `c` goes on and returns, and its return passes the test. -/
def returnCheck (p : Submission → Int → Kernel → Bool) (c : Nat) (σ : System) : Bool :=
  match (σ.calls c).submission with
  | none => false
  | some sub => match sub.resume (σ.resumedA0 c) σ.kernel with
    | .ok (.ret r k) => p sub r k
    | .ok (.trap _ _ _) => false
    | .error _ => false

theorem returns_of_returnCheck {p : Submission → Int → Kernel → Bool} {c : Nat} (h : returnCheck p c σ = true) :
    ∃ sub r k', (σ.calls c).submission = some sub ∧ sub.resume (σ.resumedA0 c) σ.kernel = .ok (.ret r k') ∧
      p sub r k' = true := by
  rw [returnCheck] at h
  split at h
  · cases h
  · rename_i sub hsub
    split at h
    · rename_i r k' hret
      exact ⟨sub, r, k', hsub, hret, h⟩
    · cases h
    · cases h

/-- Memory with a descriptor that fills one byte. -/
def sampleCmdMem : Mem :=
  (((Mem.store32 (fun _ => 0) 0x80050000 accelCmdOpMemset).store64 0x80050008 0x80051000).store32 0x80050010 1).store32
    0x80050014 7

/-- Two threads are created and started, and the first submits the descriptor with a timeout of one tick. -/
def sampleSubmitOps : List Op := [.write sampleCmdMem, .threadCreate (some "a") 0x80004000 0,
  .threadCreate (some "b") 0x80004000 1, .threadStart, .accelSubmit 0x80050000 1 (sampleSite 1)]

/-- The device runs, its interrupt is handled, and the second thread yields. -/
def sampleCompleteOps : List Op := [.accelStep, .dispatchIrqs,
  .control { op := threadTrapYield, arg0 := 0, arg1 := none } (sampleSite 2)]

/-- A submission that is completed in time returns `accelOk`, with the other records in agreement. -/
theorem submission_agrees_iff_sample : ∃ (σ : System) (sub : Submission) (r : Int) (k' : Kernel),
    (σ.calls 1).submission = some sub ∧ sub.resume (σ.resumedA0 1) σ.kernel = .ok (.ret r k') ∧ r = accelOk ∧
    Agree r (cmdStatus k'.machine.mem sub.cmd) k'.accelRequest.resetRequiredAfterTimeout := by
  obtain ⟨σ₀, σ, hboot, hrun, hp⟩ : ∃ σ₀ σ, boot sampleKernel = .ok σ₀ ∧
      KeptRuns σ₀ (sampleSubmitOps ++ sampleCompleteOps) σ ∧
      returnCheck (fun sub r _ => r = accelOk ∧ sub.timedOut (σ.resumedA0 1) = false) 1 σ = true :=
    run_of_startCheck (by decide +kernel)
  obtain ⟨sub, r, k', hsub, hret, hr⟩ := returns_of_returnCheck hp
  obtain ⟨rfl, htime⟩ := of_decide_eq_true hr
  refine ⟨σ, sub, _, k', hsub, hret, rfl, ?_⟩
  refine ((submission_agrees_iff sampleKernel_fresh hboot hrun).1 1 sub hsub hret).mpr fun hn => ?_
  exact Bool.false_ne_true (htime.symm.trans hn.1)

/-- The timer ends the wait before the device runs, and the request is completed before the submitting thread runs. -/
theorem submission_disagrees : ¬∀ (k k' : Kernel) (σ₀ σ : System) (l : List Op) (r : Int) (c : Nat) (sub : Submission),
    Fresh k → boot k = .ok σ₀ → KeptRuns σ₀ l σ → (σ.calls c).submission = some sub →
    sub.resume (σ.resumedA0 c) σ.kernel = .ok (.ret r k') →
    Agree r (cmdStatus k'.machine.mem sub.cmd) k'.accelRequest.resetRequiredAfterTimeout := by
  intro h
  obtain ⟨σ₀, σ, hboot, hrun, hp⟩ : ∃ σ₀ σ, boot sampleKernel = .ok σ₀ ∧
      KeptRuns σ₀ (sampleSubmitOps ++ .timer 0 (sampleSite 2) :: sampleCompleteOps) σ ∧
      returnCheck (fun sub r k' =>
        ¬Agree r (cmdStatus k'.machine.mem sub.cmd) k'.accelRequest.resetRequiredAfterTimeout) 1 σ = true :=
    run_of_startCheck (by decide +kernel)
  obtain ⟨sub, r, k', hsub, hret, hr⟩ := returns_of_returnCheck hp
  exact of_decide_eq_true hr (h _ _ _ _ _ _ _ _ sampleKernel_fresh hboot hrun hsub hret)

end System

end QemuRtos
