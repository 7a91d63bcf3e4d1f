import QemuRtos.Core.ThreadSpec

/-!
# What a system call does

The system calls of a running user thread whose task is ready, from its trap context. Each one but
the accelerator call resumes a frame: the thread stays, yields, sleeps or exits.
-/

namespace QemuRtos

open Lib

variable {Q : Set U64} {s s' : Sched} {c : Nat} {frame task next : U64} {k k' : Kernel}

theorem and_and_not_self (x m s : U64) (h : ~~~m &&& s = 0) : x &&& ~~~m &&& s = 0 := by
  rw [BitVec.and_assoc, h]
  exact BitVec.and_zero

theorem trapStatus_spp (supervisor sie : Bool) (x : U64) :
    trapStatus supervisor sie x &&& sstatusSpp = if supervisor then sstatusSpp else 0 := by
  have h := and_and_not_self x (sstatusSpp ||| sstatusSpie ||| sstatusSie) sstatusSpp (by decide)
  rw [trapStatus, BitVec.and_or_distrib_right, h]
  cases supervisor <;> cases sie <;> decide

theorem trapStatus_spie (supervisor sie : Bool) (x : U64) :
    trapStatus supervisor sie x &&& sstatusSpie = if sie then sstatusSpie else 0 := by
  have h := and_and_not_self x (sstatusSpp ||| sstatusSpie ||| sstatusSie) sstatusSpie (by decide)
  rw [trapStatus, BitVec.and_or_distrib_right, h]
  cases supervisor <;> cases sie <;> decide

theorem userTaskIsReady_iff : userTaskIsReady task k = true ↔ task ≠ 0 ∧ (k.tasks task).state = .ready ∧
    (k.tasks task).addressSpace.root ≠ 0 ∧ (k.tasks task).userSatp ≠ 0 ∧ (k.tasks task).trapContext ≠ 0 := by
  simp [userTaskIsReady, and_assoc]

theorem threadCurrentUserTaskForFrame_eq (hcur : k.sched.currentThread = some c)
    (hready : userTaskIsReady (k.sched.threads c).userTask k)
    (hframe : frame = (k.tasks (k.sched.threads c).userTask).trapContext)
    (hspp : (k.sched.frames frame).mstatus &&& sstatusSpp = 0) :
    threadCurrentUserTaskForFrame frame k = (k.sched.threads c).userTask := by
  obtain ⟨htask, -, -, -, hctx⟩ := userTaskIsReady_iff.mp hready
  have hf : userTaskTrapFrame (k.sched.threads c).userTask k = frame := by
    rw [userTaskTrapFrame, if_pos hready, hframe]
  rw [← hframe] at hctx
  simp only [threadCurrentUserTaskForFrame, hcur, hctx, htask, hspp, hf, ne_eq, not_true_eq_false, or_self,
    ↓reduceIte]
  split <;> rfl

/-- The frame of a system call that returns `result`. -/
def TrapFrame.syscallReturn (f : TrapFrame) (result : Int) : TrapFrame :=
  { f with mepc := f.mepc + 4, a0 := intReg result }

/-- The system call in `f`, made at tick `now`, makes its thread leave as `l` says, with the frame
`g`. -/
inductive Syscalls (f : TrapFrame) (now : U64) : Leave → TrapFrame → Prop
  | ret (result : Int) : Syscalls f now .stay (f.syscallReturn result)
  | yield {l : Leave} (hl : l.Yields) : Syscalls f now l (f.syscallReturn userSyscallOk)
  | sleep (hop : f.a7 = userSyscallSleep) (hne : f.a0 ≠ 0) :
    Syscalls f now (.park ⟨none, some (now + f.a0)⟩) (f.syscallReturn userSyscallOk)

theorem Syscalls.mstatus {f g : TrapFrame} {now : U64} {l : Leave} (h : Syscalls f now l g) :
    g.mstatus = f.mstatus := by
  cases h <;> rfl

theorem userSyscallSetResult_eq (frame : U64) (result : Int) (k : Kernel) :
    userSyscallSetResult frame result (userSyscallAdvance frame k) =
      { k with sched := k.sched.setFrame frame fun _ => (k.sched.frames frame).syscallReturn result } := by
  simp [userSyscallSetResult, userSyscallAdvance, Kernel.setFrame, Sched.setFrame, TrapFrame.syscallReturn]

theorem exitUserTask_ready (hready : userTaskIsReady task k)
    (hspp : (k.sched.frames frame).mstatus &&& sstatusSpp = 0) :
    exitUserTask frame task k = .ok (k.setTask task fun t =>
      { t with state := .exited, exitCode := (k.sched.frames frame).a0 }) := by
  rw [exitUserTask, if_neg (userTaskIsReady_iff.mp hready).1]
  simp only [userTaskMarkExited_ready hready, hspp, ne_eq, not_true_eq_false, false_or, Int.lt_irrefl,
    ↓reduceIte]

theorem destroyExitedTask_ok (hne : task ≠ 0) (h : destroyExitedTask task k = .ok k') :
    ∃ k₂, userTaskReleaseResources task k = .ok k₂ ∧
      k' = k₂.setTask task fun t => { t with state := .destroyed } := by
  rw [destroyExitedTask, if_neg hne] at h
  obtain ⟨⟨result, k₁⟩, hdes, h⟩ := bind_eq_ok.mp h
  rw [userTaskDestroy] at hdes
  split at hdes
  · cases hdes
    simp at h
  · obtain ⟨k₂, hrel, hdes⟩ := bind_eq_ok.mp hdes
    cases hdes
    cases h
    exact ⟨k₂, hrel, rfl⟩

section

variable (h : SchedInv Q k.sched) (hcur : k.sched.currentThread = some c)
  (hready : userTaskIsReady (k.sched.threads c).userTask k)
  (hframe : frame = (k.tasks (k.sched.threads c).userTask).trapContext)
  (hspp : (k.sched.frames frame).mstatus &&& sstatusSpp = 0)
include h hcur hready hframe hspp

omit hframe hspp in
theorem real_of_userTask : tidIsReal c := by
  obtain ⟨-, hrun⟩ := h.started hcur
  refine (real_or_null hrun.lt).resolve_right fun hnull => ?_
  subst hnull
  exact (userTaskIsReady_iff.mp hready).1 h.ok.null.task

theorem userSyscallDispatch_spec (hexit : (k.sched.frames frame).a7 ≠ userSyscallExit)
    (haccel : (k.sched.frames frame).a7 ≠ userSyscallAccelMemset) :
    ∃ l g next s', userSyscallDispatch frame k = .ok (.resume next, { k with sched := s' }) ∧
      Syscalls (k.sched.frames frame) k.timer.ticks l g ∧
      Left Q c frame (k.sched.setFrame frame fun _ => g) l next s' := by
  have hc := real_of_userTask h hcur hready
  have htask := threadCurrentUserTaskForFrame_eq hcur hready hframe hspp
  obtain ⟨hne, -, -, -, hctx⟩ := userTaskIsReady_iff.mp hready
  rw [← hframe] at hctx
  have hrequire : userSyscallRequireTask frame k = .ok () := by
    rw [userSyscallRequireTask, htask]; exact if_neg hne
  let k₁ : Kernel := { k with
    sched := k.sched.setFrame frame fun _ => (k.sched.frames frame).syscallReturn userSyscallOk }
  have h₁ : SchedInv Q k₁.sched := h.setFrame fun _ => (k.sched.frames frame).syscallReturn userSyscallOk
  have hreturn : ∀ result : Int, ∃ l g next s',
      resuming (userSyscallReturn frame result k) = .ok (.resume next, { k with sched := s' }) ∧
        Syscalls (k.sched.frames frame) k.timer.ticks l g ∧
        Left Q c frame (k.sched.setFrame frame fun _ => g) l next s' := fun result => by
    refine ⟨.stay, _, frame, _, ?_, .ret result, Rested.refl c _, rfl⟩
    rw [userSyscallReturn, hrequire, userSyscallSetResult_eq]
    rfl
  rw [userSyscallDispatch]
  simp only [hctx, hexit, haccel, ↓reduceIte]
  by_cases hyield : (k.sched.frames frame).a7 = userSyscallYield
  · rw [if_pos hyield]
    obtain ⟨l, next, s', heq, hy, hl⟩ := threadYieldCurrentFromTrap_spec h₁ hcur hctx
    refine ⟨l, _, next, s', ?_, .yield hy, hl⟩
    rw [userSyscallYieldFromTrap, hrequire, ok_bind, userSyscallSetResult_eq, heq, resuming_ok]
  rw [if_neg hyield]
  by_cases hsleep : (k.sched.frames frame).a7 = userSyscallSleep
  · rw [if_pos hsleep]
    obtain ⟨l, next, s', heq, hl, hleft⟩ := threadSleepCurrentFromTrap_spec h₁ hcur hc hctx
      (k.sched.frames frame).a0
    refine ⟨l, _, next, s', ?_, ?_, hleft⟩
    · rw [userSyscallSleepFromTrap, hrequire, ok_bind, userSyscallSetResult_eq, heq, resuming_ok]
    · rcases hl with ⟨-, hy⟩ | ⟨hne, rfl⟩
      · exact .yield hy
      · exact .sleep hsleep hne
  rw [if_neg hsleep]
  split <;> exact hreturn _

omit hframe in
/-- The exit of a user thread: its task is marked, the thread is retired, the next one dispatched, and
then the task is released. -/
theorem userExit_ok (hrun : switchToNextFromTrap frame false k = .ok (next, k')) :
    ∃ s₀ s' k₂, Switched Q (Retired c) k.sched s' next ∧
      userTaskReleaseResources (k.sched.threads c).userTask
        { k with
          machine := { k.machine with sie := false }
          sched := s₀
          tasks := Function.update k.tasks (k.sched.threads c).userTask
            { k.tasks (k.sched.threads c).userTask with
              state := .exited, exitCode := (k.sched.frames frame).a0 } } = .ok k₂ ∧
      k' = { k with
        machine := { k₂.machine with sie := k.machine.sie }
        sched := s'
        tasks := Function.update k₂.tasks (k.sched.threads c).userTask
          { k₂.tasks (k.sched.threads c).userTask with state := .destroyed } } := by
  have hc := real_of_userTask h hcur hready
  obtain ⟨-, hr⟩ := h.started hcur
  obtain ⟨next', s', hsw, heq⟩ := switchToNextFromTrap_exit frame h.ok hr hc
  obtain ⟨hne, -⟩ := userTaskIsReady_iff.mp hready
  generalize (k.sched.threads c).userTask = task at *
  rw [heq] at hrun
  obtain ⟨k₁, hexit, hrun⟩ := bind_eq_ok.mp hrun
  obtain ⟨k₂, hdestroy, hrun⟩ := bind_eq_ok.mp hrun
  cases hrun
  rw [exitUserTask_ready (k := { k.irqSave.2 with sched := k.sched.preemptDisable }) hready hspp] at hexit
  cases hexit
  obtain ⟨k₄, hrel, rfl⟩ := destroyExitedTask_ok hne hdestroy
  refine ⟨_, s', k₄, hsw, hrel, ?_⟩
  have := userTaskReleaseResources_eq hrel
  rw [this]
  rfl

end

end QemuRtos
