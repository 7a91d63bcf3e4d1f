import QemuRtos.Drivers.AccelSpec
import QemuRtos.User.AccelSyscall

/-!
# What the accelerator system call touches

Up to its return or its wait, the call changes what the driver changes, and memory. `MemsetProgress` is
the counterpart of `SubmitProgress` for it.
-/

namespace QemuRtos

open Lib

variable {k k' : Kernel} {u : UserMemset} {sub : Submission} {r : Int} {frame task : U64}

/-- How far the system call `u` has run, whose submission is `sub`. -/
def MemsetProgress (k : Kernel) (u : UserMemset) (sub : Submission) :
    Progress (UserMemset × Submission) Int → Prop
  | .ret _ k' => DriverChange k k' ∧ k'.machine.sie = sub.irqState
  | .trap regs next k' => DriverChange k k' ∧ k'.machine.sie = false ∧ next = (u, sub) ∧
      k.sched.threadsStarted = true ∧
      regs = waitTrap (accelWaiters k.machine.image) (if sub.ticks = ticksForever then none else some sub.ticks)

theorem MemsetProgress.mono {p : Progress (UserMemset × Submission) Int} (h : DriverChange k k')
    (hp : MemsetProgress k' u sub p) : MemsetProgress k u sub p := by
  have himage : k'.machine.image = k.machine.image := by rw [h.kept.eq]
  have hst : k'.sched = k.sched := by rw [h.eq]
  cases p with
  | ret r k₁ => exact ⟨h.trans hp.1, hp.2⟩
  | trap regs next k₁ =>
    obtain ⟨h₁, h₂, h₃, h₄, h₅⟩ := hp
    exact ⟨h.trans h₁, h₂, h₃, by rw [← hst]; exact h₄, by rw [← himage]; exact h₅⟩

theorem DriverChange.of_kept {m : Machine} (h : k.machine.Kept m) :
    DriverChange k { k with machine := m } ∧ m.sie = k.machine.sie := by
  have hsie : m.sie = k.machine.sie := by rw [h.eq]
  refine ⟨.machine ?_, hsie⟩
  rw [hsie]
  exact h

theorem usercopyTaskValidate_change {va len : U64} {write : Bool}
    (h : usercopyTaskValidate task va len write k = .ok (r, k')) :
    DriverChange k k' ∧ k'.machine.sie = k.machine.sie := by
  rw [usercopyTaskValidate] at h
  split at h
  · cases h; exact ⟨.refl k, rfl⟩
  · obtain ⟨⟨r₁, m⟩, h₁, h⟩ := bind_eq_ok.mp h
    cases h
    exact DriverChange.of_kept (usercopyValidateRangeInSpace_kept h₁)

theorem copyToUserTask_change {dst src len : U64} (h : copyToUserTask task dst src len k = .ok (r, k')) :
    DriverChange k k' ∧ k'.machine.sie = k.machine.sie := by
  rw [copyToUserTask] at h
  split at h
  · cases h; exact ⟨.refl k, rfl⟩
  · split at h
    · cases h; exact ⟨.refl k, rfl⟩
    · rw [copyUserTaskBytes] at h
      split at h
      · cases h; exact ⟨.refl k, rfl⟩
      · obtain ⟨⟨r₁, k₁⟩, h₁, h⟩ := bind_eq_ok.mp h
        have hc₁ := usercopyTaskValidate_change h₁
        dsimp only at h
        split at h
        · cases h; exact hc₁
        · obtain ⟨⟨r₂, m⟩, h₂, h⟩ := bind_eq_ok.mp h
          cases h
          have hc₂ := DriverChange.of_kept (k := k₁) (copyUserTaskLoop_kept h₂)
          exact ⟨hc₁.1.trans hc₂.1, hc₂.2.trans hc₁.2⟩

theorem userAccelResetAfterTimeout_change (h : userAccelResetAfterTimeout u r k = .ok k') :
    DriverChange k k' ∧ k'.machine.sie = k.machine.sie := by
  rw [userAccelResetAfterTimeout] at h
  split at h
  · dsimp only at h
    split at h
    · cases h
    · cases h
      exact accelWriteControlRaw_change _ k
  · cases h; exact ⟨.refl k, rfl⟩

theorem userAccelMemsetFinish_change {r' : Int} (h : userAccelMemsetFinish u r k = .ok (r', k')) :
    DriverChange k k' ∧ k'.machine.sie = k.machine.sie := by
  obtain ⟨k₁, h₁, h⟩ := bind_eq_ok.mp h
  obtain ⟨⟨r₂, k₂⟩, h₂, h⟩ := bind_eq_ok.mp h
  obtain ⟨m₁, h₃, h⟩ := bind_eq_ok.mp h
  obtain ⟨m₂, h₄, h⟩ := bind_eq_ok.mp h
  cases h
  have hc₁ := userAccelResetAfterTimeout_change h₁
  have hc₂ : DriverChange k₁ k₂ ∧ k₂.machine.sie = k₁.machine.sie := by
    rw [userAccelCopyback] at h₂
    split at h₂
    · obtain ⟨⟨r₃, k₃⟩, h₅, h₂⟩ := bind_eq_ok.mp h₂
      cases h₂
      exact copyToUserTask_change h₅
    · cases h₂; exact ⟨.refl k₁, rfl⟩
  have hc₃ := DriverChange.of_kept (k := k₂) ((pageFree_kept h₃).trans (pageFree_kept h₄))
  exact ⟨(hc₁.1.trans hc₂.1).trans hc₃.1, hc₃.2.trans (hc₂.2.trans hc₁.2)⟩

theorem userAccelAfterSubmit_progress {p : Progress Submission Int} {p' : Progress (UserMemset × Submission) Int}
    (hp : SubmitProgress k sub p) (h : userAccelAfterSubmit u p = .ok p') : MemsetProgress k u sub p' := by
  cases p with
  | ret result k₁ =>
    obtain ⟨⟨r₂, k₂⟩, h₂, h⟩ := bind_eq_ok.mp h
    cases h
    have hc := userAccelMemsetFinish_change h₂
    exact ⟨hp.1.trans hc.1, hc.2.trans hp.2⟩
  | trap regs next k₁ =>
    cases h
    obtain ⟨h₁, h₂, rfl, h₄, h₅⟩ := hp
    exact ⟨h₁, h₂, rfl, h₄, h₅⟩

theorem userAccelAfterSubmit_returned {p : Progress Submission Int} {p' : Progress (UserMemset × Submission) Int}
    (h : userAccelAfterSubmit u p = .ok p') : p'.returned = p.returned := by
  cases p with
  | ret result k₁ =>
    obtain ⟨⟨r₂, k₂⟩, h₂, h⟩ := bind_eq_ok.mp h
    cases h
    rfl
  | trap regs next k₁ => cases h; rfl

/-- The system call up to its return or its wait: the task and frame it goes on with are those it was
made for. -/
theorem userAccelSyscallMemset_progress {p : Progress (UserMemset × Submission) Int}
    (h : userAccelSyscallMemset frame k = .ok p) :
    ∃ u sub, MemsetProgress k u sub p ∧ sub.irqState = k.machine.sie ∧ (p.returned = true ∨
      u.frame = frame ∧ u.task = threadCurrentUserTaskForFrame frame k ∧ sub.cmd = u.cmd ∧
        sub.ticks = u.timeoutTicks ∧ sub.ticks = (k.sched.frames frame).a3 ∧ sub.ticks ≠ 0 ∧
        k.accelBound = true) := by
  have hret : ∀ r k', DriverChange k k' ∧ k'.machine.sie = k.machine.sie → ∃ u sub,
      MemsetProgress k u sub (.ret r k') ∧ sub.irqState = k.machine.sie ∧
        ((Progress.ret (κ := UserMemset × Submission) r k').returned = true ∨
          u.frame = frame ∧ u.task = threadCurrentUserTaskForFrame frame k ∧ sub.cmd = u.cmd ∧
            sub.ticks = u.timeoutTicks ∧ sub.ticks = (k.sched.frames frame).a3 ∧ sub.ticks ≠ 0 ∧
            k.accelBound = true) := fun r k' hc =>
    ⟨⟨0, 0, 0, 0, 0, 0, 0⟩, ⟨0, 0, k.machine.sie⟩, hc, rfl, .inl rfl⟩
  rw [userAccelSyscallMemset] at h
  dsimp only at h
  split at h
  · cases h
  split at h
  · cases h
  rw [userAccelMemsetImpl] at h
  split at h
  · cases h; exact hret _ _ ⟨.refl k, rfl⟩
  obtain ⟨⟨r₁, k₁⟩, h₁, h⟩ := bind_eq_ok.mp h
  have hc₁ := usercopyTaskValidate_change h₁
  dsimp only at h
  split at h
  · cases h; exact hret _ _ hc₁
  obtain ⟨⟨cmd, m₂⟩, h₂, h⟩ := bind_eq_ok.mp h
  obtain ⟨⟨bounce, m₃⟩, h₃, h⟩ := bind_eq_ok.mp h
  have hk₃ := (pageAlloc_kept h₂).trans (pageAlloc_kept h₃)
  dsimp only at h
  split at h
  · obtain ⟨m₄, h₄, h⟩ := bind_eq_ok.mp h
    obtain ⟨m₅, h₅, h⟩ := bind_eq_ok.mp h
    cases h
    have hc₂ := DriverChange.of_kept (k := k₁) ((hk₃.trans (pageFreeIfPresent_kept h₄)).trans
      (pageFreeIfPresent_kept h₅))
    exact hret _ _ ⟨hc₁.1.trans hc₂.1, hc₂.2.trans hc₁.2⟩
  · obtain ⟨p₁, h₄, h⟩ := bind_eq_ok.mp h
    have hc₂ := DriverChange.of_kept (k := k₁) (hk₃.trans (.mem m₃
      (writeMemsetCmd cmd bounce (k.sched.frames frame).a1 ((k.sched.frames frame).a2.setWidth 32) m₃.mem)))
    obtain ⟨hp, hbound⟩ := accelSubmitSyncTimeout_progress h₄
    have hsie : m₃.sie = k.machine.sie := hc₂.2.trans hc₁.2
    refine ⟨_, _, (userAccelAfterSubmit_progress hp h).mono (hc₁.1.trans hc₂.1), hsie, ?_⟩
    rw [userAccelAfterSubmit_returned h]
    refine hbound.imp id fun ⟨hticks, hb⟩ => ⟨rfl, rfl, rfl, rfl, rfl, hticks, ?_⟩
    have : k₁.accelBound = k.accelBound := by rw [hc₁.1.eq]
    rw [← this]
    exact hb

end QemuRtos
