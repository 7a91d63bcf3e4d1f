import QemuRtos.Drivers.Accel
import QemuRtos.Memory.Kept
import QemuRtos.Core.ThreadsOk

/-!
# What the accelerator driver touches

A driver call changes memory, the device registers and the request slot, and restores the interrupt
state before it returns. Where it waits, it does so on the queue of the slot with interrupts masked.
-/

namespace QemuRtos

open Lib

variable {Q : Set U64} {k k' k'' : Kernel} {cmd ticks queue : U64} {sub : Submission} {m : Machine}

/-! ### Waits -/

/-- The registers of a wait on a queue, with a timeout or without. -/
def waitTrap (queue : U64) : Option U64 → ControlTrap
  | none => { op := threadTrapWait, arg0 := queue, arg1 := none }
  | some ticks => { op := threadTrapWaitTimeout, arg0 := queue, arg1 := some ticks }

theorem waitQueueSleep_ok {t : ControlTrap} (h : waitQueueSleep queue k = .ok t) :
    k.sched.threadsStarted = true ∧ t = waitTrap queue none := by
  rw [waitQueueSleep] at h
  split at h
  · cases h
  · rename_i hst
    split at h
    · cases h
    · cases h
      exact ⟨by simpa using hst, rfl⟩

theorem waitQueueSleepTimeout_trap {t : ControlTrap} (h : waitQueueSleepTimeout queue ticks k = .ok (.inr t)) :
    k.sched.threadsStarted = true ∧ t = waitTrap queue (some ticks) ∧ ticks ≠ 0 := by
  rw [waitQueueSleepTimeout] at h
  split at h
  · cases h
  · rename_i hst
    split at h
    · cases h
    · split at h
      · cases h
      · rename_i hz
        cases h
        exact ⟨by simpa using hst, rfl, hz⟩

theorem waitQueueSleepTimeout_ret {r : Int} (h : waitQueueSleepTimeout queue ticks k = .ok (.inl r)) :
    r = waitTimeout ∧ (k.sched.threadsStarted = false ∨ ticks = 0) := by
  rw [waitQueueSleepTimeout] at h
  split at h
  · rename_i hst
    cases h
    exact ⟨rfl, .inl (by simpa using hst)⟩
  · split at h
    · cases h
    · split at h
      · rename_i hz
        cases h
        exact ⟨rfl, .inr hz⟩
      · cases h

theorem Controls.of_waitTrap {timeout : Option U64} {sie : Bool} {regs : TrapFrame} {now : U64} {l : Leave}
    {g : TrapFrame} (h : Controls (ebreakFrame (waitTrap queue timeout) sie regs) now l g)
    (hne : timeout ≠ some 0) :
    l = .park ⟨some queue, timeout.map (now + ·)⟩ ∧ g.mstatus = trapStatus true sie regs.mstatus := by
  refine ⟨?_, h.mstatus⟩
  cases timeout with
  | none =>
    have hne : ∀ op, (ebreakFrame (waitTrap queue none) sie regs).a7 = op → op = threadTrapWait := fun op h => h.symm
    cases h with
    | yield hop _ => exact hop.elim (fun he => absurd (hne _ he) (by decide)) fun he => absurd (hne _ he.1) (by decide)
    | exit hop => exact absurd (hne _ hop) (by decide)
    | sleep hop _ => exact absurd (hne _ hop) (by decide)
    | wait hop => rfl
    | waitTimeout hop _ => exact absurd (hne _ hop) (by decide)
    | expired hop _ => exact absurd (hne _ hop) (by decide)
  | some ticks =>
    have hop' : ∀ op, (ebreakFrame (waitTrap queue (some ticks)) sie regs).a7 = op → op = threadTrapWaitTimeout :=
      fun op h => h.symm
    cases h with
    | yield hop _ =>
      exact hop.elim (fun he => absurd (hop' _ he) (by decide)) fun he => absurd (hop' _ he.1) (by decide)
    | exit hop => exact absurd (hop' _ hop) (by decide)
    | sleep hop _ => exact absurd (hop' _ hop) (by decide)
    | wait hop => exact absurd (hop' _ hop) (by decide)
    | waitTimeout hop _ => rfl
    | expired hop hz => exact absurd (congrArg some hz) hne

/-! ### Frame conditions -/

/-- `k'` is `k` but for memory, the interrupt state, the device and the request slot. -/
structure DriverChange (k k' : Kernel) : Prop where
  eq : k' = { k with machine := k'.machine, accelRequest := k'.accelRequest, accelMmio := k'.accelMmio }
  kept : ({ k.machine with sie := k'.machine.sie } : Machine).Kept k'.machine

theorem DriverChange.refl (k : Kernel) : DriverChange k k := ⟨rfl, .refl _⟩

theorem DriverChange.trans (h : DriverChange k k') (h' : DriverChange k' k'') : DriverChange k k'' where
  eq := by rw [h'.eq, h.eq]
  kept := by
    have h₁ := h.kept
    have h₂ := h'.kept
    refine ⟨?_, h₂.range.trans h₁.range, fun hp => h₂.ok (h₁.ok hp)⟩
    rw [h₂.eq, h₁.eq]

theorem DriverChange.machine {m : Machine} (h : ({ k.machine with sie := m.sie } : Machine).Kept m) :
    DriverChange k { k with machine := m } :=
  ⟨rfl, h⟩

theorem DriverChange.irqSave (k : Kernel) : DriverChange k k.irqSave.2 := ⟨rfl, .refl _⟩

theorem DriverChange.irqRestore (h : DriverChange k k') (b : Bool) : DriverChange k (k'.irqRestore b) where
  eq := by rw [Kernel.irqRestore, h.eq]
  kept := by
    have := h.kept
    exact ⟨by rw [Kernel.irqRestore]; simp only; rw [this.eq], this.range, this.ok⟩

theorem DriverChange.setMem (k : Kernel) (f : Mem → Mem) : DriverChange k (k.setMem f) := ⟨rfl, .mem _ _⟩

theorem DriverChange.setRequest (k : Kernel) (f : AccelRequest → AccelRequest) :
    DriverChange k (k.setRequest f) := ⟨rfl, .refl _⟩

theorem DriverChange.setMmio (k : Kernel) (f : AccelMmio → AccelMmio) : DriverChange k (k.setMmio f) :=
  ⟨rfl, .refl _⟩

theorem DriverChange.platformAccelStep (k : Kernel) : DriverChange k (platformAccelStep k) := ⟨rfl, .mem _ _⟩

theorem accelWriteControlRaw_change (control : U32) (k : Kernel) :
    DriverChange k (accelWriteControlRaw control k).2 ∧
      (accelWriteControlRaw control k).2.machine.sie = k.machine.sie := by
  rw [accelWriteControlRaw]
  split
  · exact ⟨.refl k, rfl⟩
  · split
    · exact ⟨.refl k, rfl⟩
    · dsimp only [Kernel.irqSave]
      split
      · exact ⟨.irqRestore (.irqSave k) _, rfl⟩
      · split
        · exact ⟨.irqRestore (.irqSave k) _, rfl⟩
        · split
          · exact ⟨.irqRestore ((((DriverChange.irqSave k).trans (.setMmio _ _)).trans
              (.platformAccelStep _)).trans (.setRequest _ _)) _, rfl⟩
          · exact ⟨.irqRestore (((DriverChange.irqSave k).trans (.setMmio _ _)).trans
              (.platformAccelStep _)) _, rfl⟩

theorem accelAckIrq_change (mask : U32) (k : Kernel) :
    DriverChange k (accelAckIrq mask k).2 ∧ (accelAckIrq mask k).2.machine.sie = k.machine.sie := by
  rw [accelAckIrq]
  split
  · exact ⟨.refl k, rfl⟩
  · split
    · exact ⟨.refl k, rfl⟩
    · dsimp only [Kernel.irqSave]
      split
      · exact ⟨.irqRestore (.irqSave k) _, rfl⟩
      · exact ⟨.irqRestore (((DriverChange.irqSave k).trans (.setMmio _ _)).trans (.platformAccelStep _)) _, rfl⟩

/-! ### Submissions -/

def Progress.returned {κ α : Type} : Progress κ α → Bool
  | .ret .. => true
  | .trap .. => false

/-- How far the submission `sub` has run, as seen by its caller: it has returned with interrupts as they
were at its start, or it waits on the slot's queue with interrupts masked. -/
def SubmitProgress (k : Kernel) (sub : Submission) : Progress Submission Int → Prop
  | .ret _ k' => DriverChange k k' ∧ k'.machine.sie = sub.irqState
  | .trap regs next k' => DriverChange k k' ∧ k'.machine.sie = false ∧ next = sub ∧
      k.sched.threadsStarted = true ∧
      regs = waitTrap (accelWaiters k.machine.image) (if sub.ticks = ticksForever then none else some sub.ticks)

theorem accelSubmitFinish_progress (sub : Submission) (r : Int) (k : Kernel) :
    SubmitProgress k sub (accelSubmitFinish sub r k) :=
  ⟨.irqRestore (.setRequest k _) _, rfl⟩

theorem SubmitProgress.mono {p : Progress Submission Int} (h : DriverChange k k')
    (hp : SubmitProgress k' sub p) : SubmitProgress k sub p := by
  have himage : k'.machine.image = k.machine.image := by rw [h.kept.eq]
  have hst : k'.sched = k.sched := by rw [h.eq]
  cases p with
  | ret r k₁ => exact ⟨h.trans hp.1, hp.2⟩
  | trap regs next k₁ =>
    obtain ⟨h₁, h₂, h₃, h₄, h₅⟩ := hp
    exact ⟨h.trans h₁, h₂, h₃, by rw [← hst]; exact h₄, by rw [← himage]; exact h₅⟩

theorem accelSubmitTimedOut_progress (sub : Submission) (k : Kernel) :
    SubmitProgress k sub (accelSubmitTimedOut sub k) :=
  .mono ((DriverChange.setMem k _).trans (.setRequest _ _)) (accelSubmitFinish_progress sub _ _)

theorem accelSubmitLoop_progress {p : Progress Submission Int} (hsie : k.machine.sie = false)
    (h : accelSubmitLoop sub k = .ok p) : SubmitProgress k sub p := by
  rw [accelSubmitLoop] at h
  split at h
  · cases h; exact accelSubmitFinish_progress sub _ k
  · split at h
    · rename_i hf
      obtain ⟨regs, hw, h⟩ := bind_eq_ok.mp h
      cases h
      obtain ⟨hst, rfl⟩ := waitQueueSleep_ok hw
      exact ⟨.refl k, hsie, rfl, hst, by rw [if_pos hf]⟩
    · rename_i hf
      split at h
      · cases h
      · cases h; exact accelSubmitTimedOut_progress sub k
      · rename_i hw
        cases h
        obtain ⟨hst, rfl, -⟩ := waitQueueSleepTimeout_trap hw
        exact ⟨.refl k, hsie, rfl, hst, by rw [if_neg hf]⟩

theorem submissionResume_progress {a0 : U64} {p : Progress Submission Int} (hsie : k.machine.sie = false)
    (h : sub.resume a0 k = .ok p) : SubmitProgress k sub p := by
  rw [Submission.resume] at h
  split at h
  · exact accelSubmitLoop_progress hsie h
  · split at h
    · cases h; exact accelSubmitTimedOut_progress sub k
    · exact accelSubmitLoop_progress hsie h

theorem accelClaim_change (cmd : U64) (k : Kernel) : DriverChange k (accelClaim cmd k) := by
  rw [accelClaim]
  exact ((DriverChange.setRequest k _).trans (.setMem _ _)).trans (.setMmio _ _)

/-- A submission returns before it claims the slot, or goes on to its wait loop. -/
theorem accelSubmitSyncTimeout_cases {p : Progress Submission Int}
    (h : accelSubmitSyncTimeout cmd ticks k = .ok p) :
    (∃ r f, p = .ret r (k.setMem f)) ∨
      ticks ≠ 0 ∧ k.accelBound = true ∧ accelSubmitLoop { cmd := cmd, ticks := ticks, irqState := k.machine.sie }
        (accelClaim cmd k.irqSave.2) = .ok p := by
  rw [accelSubmitSyncTimeout] at h
  split at h
  · exact .inl ⟨_, id, (Except.ok.inj h).symm⟩
  · split at h
    · exact .inl ⟨_, _, (Except.ok.inj h).symm⟩
    · rename_i hticks
      split at h
      · exact .inl ⟨_, id, (Except.ok.inj h).symm⟩
      · rename_i hbound
        split at h
        · exact .inl ⟨_, _, (Except.ok.inj h).symm⟩
        · dsimp only [Kernel.irqSave] at h
          split at h
          · exact .inl ⟨_, setCmdStatus cmd accelCmdStatusRejected, (Except.ok.inj h).symm⟩
          · split at h
            · exact .inl ⟨_, setCmdStatus cmd accelCmdStatusRejected, (Except.ok.inj h).symm⟩
            · exact .inr ⟨hticks, by simpa using hbound, h⟩

theorem accelSubmitSyncTimeout_progress {p : Progress Submission Int}
    (h : accelSubmitSyncTimeout cmd ticks k = .ok p) :
    SubmitProgress k { cmd := cmd, ticks := ticks, irqState := k.machine.sie } p ∧
      (p.returned = true ∨ ticks ≠ 0 ∧ k.accelBound = true) := by
  rcases accelSubmitSyncTimeout_cases h with ⟨r, f, rfl⟩ | ⟨hticks, hbound, h⟩
  · exact ⟨⟨.setMem k f, rfl⟩, .inl rfl⟩
  · exact ⟨.mono ((DriverChange.irqSave k).trans (accelClaim_change cmd _)) (accelSubmitLoop_progress rfl h),
      .inr ⟨hticks, hbound⟩⟩

/-! ### Interrupts -/

/-- The interrupts that the handler knows. -/
def knownIrq (k : Kernel) : U32 := k.accelMmio.irqStatus &&& (accelIrqDone ||| accelIrqError)

/-- What the dispatch of pending interrupts does: nothing; or it acknowledges an interrupt that no
request waits for; or it completes the request in flight and wakes its submitter. -/
inductive IrqOutcome (Q : Set U64) (k : Kernel) : Kernel → Prop
  | none (hirq : knownIrq k = 0) : IrqOutcome Q k k
  | spurious (hirq : knownIrq k ≠ 0) (hbound : k.accelBound = true)
    (hfree : k.accelRequest.inUse = false ∨ k.accelRequest.cmd = 0) : IrqOutcome Q k (ackAndStep (knownIrq k) k)
  | completed (hirq : knownIrq k ≠ 0) (hbound : k.accelBound = true) (huse : k.accelRequest.inUse = true)
    (hcmd : k.accelRequest.cmd ≠ 0) {s' : Sched} (hs : SchedInv Q s')
    (hw : WokenSeq Q (EventWake (accelWaiters k.machine.image)) k.sched s')
    (hnil : s'.waits (accelWaiters k.machine.image) = []) :
    IrqOutcome Q k { ackAndStep (knownIrq k) (accelRecordCompletion k.accelMmio.irqStatus k) with sched := s' }

theorem accelIrqHandler_outcome (hinv : SchedInv Q k.sched) (hq : accelWaiters k.machine.image ∈ Q)
    (hbound : k.accelBound = true) (h : accelIrqHandler k = .ok k') : IrqOutcome Q k k' := by
  rw [accelIrqHandler] at h
  split at h
  · rename_i hirq
    cases h
    exact .none hirq
  · rename_i hirq
    dsimp only at h
    split at h
    · rename_i hfree
      cases h
      exact .spurious hirq hbound (hfree.imp_left fun hu => (Bool.not_eq_true' _).mp hu)
    · rename_i hbusy
      simp only [not_or, Bool.not_eq_true', Bool.not_eq_false] at hbusy
      obtain ⟨k₁, hwake, h⟩ := bind_eq_ok.mp h
      cases h
      obtain ⟨s', heq, hs, hw, hnil⟩ := waitQueueWakeAll_spec
        (k := ackAndStep (knownIrq k) (accelRecordCompletion k.accelMmio.irqStatus k.irqSave.2)) hinv hq
      cases hwake.symm.trans heq
      exact .completed hirq hbound hbusy.1 hbusy.2 hs hw hnil

theorem platformDispatchPendingIrqs_outcome (hinv : SchedInv Q k.sched)
    (hq : k.accelBound = true → accelWaiters k.machine.image ∈ Q)
    (h : platformDispatchPendingIrqs k = .ok k') : IrqOutcome Q k k' := by
  rw [platformDispatchPendingIrqs] at h
  split at h
  · rename_i hpend
    cases h
    refine .none ?_
    have hz : k.accelMmio.irqStatus = 0 := by simpa [platformAccelIrqPending] using hpend
    rw [knownIrq, hz]
    rfl
  · split at h
    · cases h
    · rename_i hbound
      have hbound : k.accelBound = true := by simpa using hbound
      exact accelIrqHandler_outcome hinv (hq hbound) hbound h

end QemuRtos
