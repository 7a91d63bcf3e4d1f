import QemuRtos.Safety.Scheduler

/-!
# Breakpoints in user mode

A breakpoint of a user task reaches the thread control traps of the kernel (`trap_handle` tests the cause, and
not the mode the trap came from), which take an operation and a queue from the registers of the task.
-/

namespace QemuRtos

open Lib

variable {c tid : Nat} {frame queue ticks next : U64} {s s' : Sched} {k k' : Kernel}

/-! ### A thread that blocks -/

theorem readyDequeue_state (h : s.readyDequeue = .ok (tid, s')) (hne : tid ≠ threadInvalidTid) :
    (s.threads tid).state = .ready := by
  simp only [Sched.readyDequeue] at h
  split at h
  · cases h; exact absurd rfl hne
  · split at h
    · cases h
    · split at h
      · cases h
      · rename_i hst
        cases h
        simp only [not_or, not_not] at hst
        exact hst.1

theorem dispatchNext_current (h : s.dispatchNext = .ok (next, s')) (hc : (s.threads c).state ≠ .ready)
    (hne : c ≠ threadNullTid) : s'.currentThread ≠ some c := by
  obtain ⟨⟨tid, s₁⟩, hpick, h⟩ := bind_eq_ok.mp h
  obtain ⟨⟨popped, s₂⟩, hpop, hpick⟩ := bind_eq_ok.mp hpick
  have hcur : s'.currentThread = some tid := by
    simp only at h
    split at h
    · cases h
    · cases h; rfl
  rw [hcur]
  rintro ⟨⟩
  simp only at hpick
  split at hpick
  · cases hpick; exact hne rfl
  · rename_i hvalid
    cases hpick
    exact hc (readyDequeue_state hpop hvalid)

theorem preemptEnable_current (h : s.preemptEnable = .ok s') : s'.currentThread = s.currentThread := by
  simp only [Sched.preemptEnable] at h
  split at h
  · cases h
  · cases h; rfl

theorem waitEnqueue_state (h : s.waitEnqueue queue tid = .ok s') (t : Nat) :
    (s'.threads t).state = (s.threads t).state := by
  simp only [Sched.waitEnqueue] at h
  repeat' split at h
  all_goals try contradiction
  obtain ⟨s₁, hpush, h⟩ := bind_eq_ok.mp h
  cases h
  have hth : s₁.threads = s.threads := by
    simp only [Sched.waitQueuePush] at hpush
    split at hpush
    · cases hpush
    · cases hpush; rfl
  by_cases ht : t = tid
  · subst ht; rw [Sched.setThread_self, hth]
  · rw [Sched.setThread_of_ne _ _ _ ht, hth]

theorem sleepEnqueue_state (h : s.sleepEnqueue tid ticks = .ok s') (t : Nat) :
    (s'.threads t).state = (s.threads t).state := by
  simp only [Sched.sleepEnqueue] at h
  repeat' split at h
  all_goals try contradiction
  obtain ⟨s₁, hins, h⟩ := bind_eq_ok.mp h
  cases h
  have hth : s₁.threads = (s.setThread tid fun th => { th with wakeTick := ticks }).threads := by
    simp only [Sched.sleepQueueInsert] at hins
    split at hins
    · cases hins
    · cases hins; rfl
  by_cases ht : t = tid
  · subst ht; rw [Sched.setThread_self, hth, Sched.setThread_self]
  · rw [Sched.setThread_of_ne _ _ _ ht, hth, Sched.setThread_of_ne _ _ _ ht]

/-- A thread that blocks does not run on, whatever is at the address of its queue. -/
theorem blockCurrent_current (hcur : k.sched.currentThread = some c) (hne : c ≠ threadNullTid)
    (h : blockCurrentFromTrap frame queue ticks k = .ok (next, k')) : k'.sched.currentThread ≠ some c := by
  simp only [blockCurrentFromTrap, Kernel.irqSave, Sched.preemptDisable, hcur] at h
  split at h
  · cases h
  · split at h
    · cases h
    · obtain ⟨s₁, h₁, h⟩ := bind_eq_ok.mp h
      obtain ⟨s₂, h₂, h⟩ := bind_eq_ok.mp h
      obtain ⟨⟨f, s₃⟩, h₃, h⟩ := bind_eq_ok.mp h
      obtain ⟨s₄, h₄, h⟩ := bind_eq_ok.mp h
      cases h
      show s₄.currentThread ≠ some c
      rw [preemptEnable_current h₄]
      refine dispatchNext_current h₃ ?_ hne
      have hst₂ : (s₂.threads c).state = (s₁.threads c).state := by
        rw [Sched.sleepEnqueueIfTimed] at h₂
        split at h₂
        · exact sleepEnqueue_state h₂ c
        · cases h₂; rfl
      rw [hst₂, waitEnqueue_state h₁ c, Sched.setThread_self]
      exact fun hst => ThreadState.noConfusion hst

variable {Q : Set U64}

/-! ### The control traps of a user frame -/

/-- The step from `k` to `k'` changes the control block of thread `c`, its frame, the record of its task and
the ready and sleep queues, and nothing else. -/
def Contained (c : Nat) (frame task : U64) (k k' : Kernel) : Prop :=
  ∃ thread f readyQueue sleepQueue t, k' = { k with
    sched := { k.sched with
      threads := Function.update k.sched.threads c thread
      frames := Function.update k.sched.frames frame f
      readyQueue := readyQueue
      sleepQueue := sleepQueue }
    tasks := Function.update k.tasks task t }

/-- A control trap with these registers neither switches nor waits. -/
def KeepsRunning (ready : List Nat) (regs : TrapFrame) : Prop :=
  regs.a7 = threadTrapYield ∧ ready = [] ∨ regs.a7 = threadTrapSleep ∧ regs.a0 = 0 ∧ ready = [] ∨
    regs.a7 = threadTrapWaitTimeout ∧ regs.a0 ≠ 0 ∧ regs.a1 = 0

theorem Contained.current {task : U64} (h : Contained c frame task k k') :
    k'.sched.currentThread = k.sched.currentThread := by
  obtain ⟨_, _, _, _, _, rfl⟩ := h
  rfl

theorem Contained.setThread {task : U64} {f : Thread → Thread} {g : TrapFrame → TrapFrame} :
    Contained c frame task k { k.setFrame frame g with sched := (k.setFrame frame g).sched.setThread c f } :=
  ⟨f (k.sched.threads c), g (k.sched.frames frame), k.sched.readyQueue, k.sched.sleepQueue, k.tasks task, by
    rw [Function.update_eq_self]; rfl⟩

theorem Contained.setFrame {task : U64} {g : TrapFrame → TrapFrame} :
    Contained c frame task k (k.setFrame frame g) :=
  ⟨k.sched.threads c, g (k.sched.frames frame), k.sched.readyQueue, k.sched.sleepQueue, k.tasks task, by
    rw [Function.update_eq_self, Function.update_eq_self]; rfl⟩

section

variable (h : SchedInv Q k.sched) (hcur : k.sched.currentThread = some c) (hc : tidIsReal c) (hframe : frame ≠ 0)
include h hcur hc hframe

theorem yield_current {r : U64 × Kernel} (hy : threadYieldCurrentFromTrap frame k = .ok r)
    (hkeep : r.2.sched.currentThread = some c) : k.sched.ready = [] := by
  by_contra hne
  obtain ⟨hst, hrun⟩ := h.started hcur
  have hready : k.sched.readyEmpty ≠ true := fun he => hne (Sched.readyEmpty_iff.mp he)
  obtain ⟨next, s', heq, hsw⟩ := switchToNextFromTrap_requeue h.ok hrun hc hframe
  have htid : (k.sched.threads c).tid ≠ threadNullTid := by
    rw [h.ok.tid_eq c hrun.lt]; exact tidIsReal_ne_null hc
  simp only [threadYieldCurrentFromTrap, hcur, hst, Bool.not_true, Bool.false_eq_true, ↓reduceIte, hready, htid,
    heq] at hy
  cases hy
  exact Requeued.current h.ok hc hrun.state hne hsw hkeep

theorem controlTrap_current {r : U64 × Kernel} (hr : threadHandleControlTrapFromTrap frame k = .ok r)
    (hkeep : r.2.sched.currentThread = some c) : KeepsRunning k.sched.ready (k.sched.frames frame) := by
  obtain ⟨k₁, hk₁⟩ : ∃ k₁, k.setFrame frame (fun f => { f with mepc := f.mepc + 4 }) = k₁ := ⟨_, rfl⟩
  have h₁ : SchedInv Q k₁.sched := by rw [← hk₁, Kernel.setFrame_sched]; exact h.setFrame _
  have hcur₁ : k₁.sched.currentThread = some c := by rw [← hk₁]; exact hcur
  have hready : k₁.sched.ready = k.sched.ready := by rw [← hk₁]; rfl
  have ha1 : (k₁.sched.frames frame).a1 = (k.sched.frames frame).a1 := by
    rw [← hk₁, Kernel.setFrame_sched, Sched.setFrame_self]
  obtain ⟨hst, hrun⟩ := h₁.started hcur₁
  have htid : (k₁.sched.threads c).tid ≠ threadNullTid := by
    rw [h₁.ok.tid_eq c hrun.lt]; exact tidIsReal_ne_null hc
  have hne := tidIsReal_ne_null hc
  simp only [threadHandleControlTrapFromTrap, hk₁, hst, Bool.not_true, Bool.false_eq_true, ↓reduceIte] at hr
  rw [← hready]
  by_cases hyield : (k.sched.frames frame).a7 = threadTrapYield
  · rw [if_pos hyield] at hr
    exact .inl ⟨hyield, yield_current h₁ hcur₁ hc hframe hr hkeep⟩
  rw [if_neg hyield] at hr
  by_cases hexit : (k.sched.frames frame).a7 = threadTrapExit
  · rw [if_pos hexit] at hr
    obtain ⟨next, s', hsw, heq⟩ := switchToNextFromTrap_exit frame h₁.ok hrun hc
    obtain ⟨k₂, -, hr⟩ := bind_eq_ok.mp (heq.symm.trans hr)
    obtain ⟨k₃, -, hr⟩ := bind_eq_ok.mp hr
    cases hr
    exact absurd hkeep (Retired.current hsw)
  rw [if_neg hexit] at hr
  by_cases hsleep : (k.sched.frames frame).a7 = threadTrapSleep
  · rw [if_pos hsleep] at hr
    simp only [threadSleepCurrentFromTrap, hst, hcur₁, htid, Bool.not_true, Bool.false_eq_true, ↓reduceIte] at hr
    by_cases hz : (k.sched.frames frame).a0 = 0
    · rw [if_pos hz] at hr
      exact .inr (.inl ⟨hsleep, hz, yield_current h₁ hcur₁ hc hframe hr hkeep⟩)
    · rw [if_neg hz] at hr
      obtain ⟨next, s', heq, hsw⟩ := sleepCurrentFromTrap_spec h₁.ok hrun hc hframe (k.sched.frames frame).a0
      cases heq.symm.trans hr
      exact absurd hkeep (Parked.current hsw)
  rw [if_neg hsleep] at hr
  have hz : (k.sched.frames frame).a0 ≠ 0 := fun hz => by
    simp only [hz, ↓reduceIte] at hr
    split at hr
    · cases hr
    · split at hr <;> cases hr
  simp only [hz, hcur₁, htid, ha1, ↓reduceIte] at hr
  by_cases hwait : (k.sched.frames frame).a7 = threadTrapWait
  · rw [if_pos hwait] at hr
    exact absurd hkeep (blockCurrent_current hcur₁ hne hr)
  rw [if_neg hwait] at hr
  by_cases htimed : (k.sched.frames frame).a7 = threadTrapWaitTimeout
  · rw [if_pos htimed] at hr
    by_cases hticks : (k.sched.frames frame).a1 = 0
    · exact .inr (.inr ⟨htimed, hz, hticks⟩)
    · rw [if_neg hticks] at hr
      exact absurd hkeep (blockCurrent_current hcur₁ hne hr)
  · rw [if_neg htimed] at hr; cases hr

omit hframe in
/-- With these registers only the frame and the control block of the thread change. -/
theorem controlTrap_contained (task : U64) (hkeep : KeepsRunning k.sched.ready (k.sched.frames frame)) :
    ∃ k', threadHandleControlTrapFromTrap frame k = .ok (frame, k') ∧ Contained c frame task k k' := by
  obtain ⟨k₁, hk₁⟩ : ∃ k₁, k.setFrame frame (fun f => { f with mepc := f.mepc + 4 }) = k₁ := ⟨_, rfl⟩
  have hcur₁ : k₁.sched.currentThread = some c := by rw [← hk₁]; exact hcur
  obtain ⟨hst, hrun⟩ := h.started hcur
  have hst₁ : k₁.sched.threadsStarted = true := by rw [← hk₁]; exact hst
  have htid : (k₁.sched.threads c).tid ≠ threadNullTid := by
    rw [← hk₁]
    show (k.sched.threads c).tid ≠ threadNullTid
    rw [h.ok.tid_eq c hrun.lt]; exact tidIsReal_ne_null hc
  have ha1 : (k₁.sched.frames frame).a1 = (k.sched.frames frame).a1 := by
    rw [← hk₁, Kernel.setFrame_sched, Sched.setFrame_self]
  have hyield : k.sched.ready = [] → ∃ k', threadYieldCurrentFromTrap frame k₁ = .ok (frame, k') ∧
      Contained c frame task k k' := fun hnil => by
    have hempty : k₁.sched.readyEmpty = true := by
      rw [Sched.readyEmpty_iff, ← hnil, ← hk₁]; rfl
    refine ⟨_, by simp only [threadYieldCurrentFromTrap, hcur₁, hst₁, hempty, Bool.not_true, Bool.false_eq_true,
      ↓reduceIte]; rfl, ?_⟩
    rw [← hk₁]
    exact .setThread
  simp only [threadHandleControlTrapFromTrap, hk₁, hst₁, Bool.not_true, Bool.false_eq_true, ↓reduceIte]
  rcases hkeep with ⟨hop, hnil⟩ | ⟨hop, hz, hnil⟩ | ⟨hop, hz, hticks⟩
  · rw [if_pos hop]
    exact hyield hnil
  · rw [hop, if_neg (by decide), if_neg (by decide), if_pos rfl]
    simp only [threadSleepCurrentFromTrap, hst₁, hcur₁, htid, hz, Bool.not_true, Bool.false_eq_true, ↓reduceIte]
    exact hyield hnil
  · rw [hop, if_neg (by decide), if_neg (by decide), if_neg (by decide), if_neg (by decide), if_pos rfl]
    simp only [hz, hcur₁, htid, ha1, hticks, ↓reduceIte]
    refine ⟨_, rfl, ?_⟩
    rw [← hk₁, Kernel.setFrame, Kernel.setFrame, Sched.setFrame_setFrame]
    exact .setFrame

end

namespace System

variable {σ₀ σ : System} {l : List Op} {regs : TrapFrame}

/-- A breakpoint of the user task of the current thread is contained exactly when its registers ask for
nothing that switches or waits. -/
theorem userBreakpoint_contained_iff (hf : Fresh k) (hboot : boot k = .ok σ₀) (h₀ : Runs σ₀ l σ)
    (hcur : σ.kernel.sched.currentThread = some c) (htask : (σ.kernel.sched.threads c).userTask ≠ 0)
    (hcause : regs.mcause = mcauseBreakpoint) (_ : regs.mstatus &&& sstatusSpp = 0) (mtime : Nat) :
    let task := (σ.kernel.sched.threads c).userTask
    let frame := (σ.kernel.tasks task).trapContext
    (∃ action k', trapHandle mtime frame (trapEnter frame regs σ.kernel) = .ok (action, k') ∧
      Contained c frame task (trapEnter frame regs σ.kernel) k') ↔ KeepsRunning σ.kernel.sched.ready regs := by
  intro task frame
  have hok := h₀.sysOk (boot_ok hf hboot).ok
  have hc := hok.real_of_userTask hcur htask
  have hready := (hok.threads.thread c hc).ready htask
  have hframe : frame ≠ 0 := (userTaskIsReady_iff.mp hready).2.2.2.2
  have hinv : SchedInv σ.queueSet (trapEnter frame regs σ.kernel).sched := by
    rw [trapEnter_sched]; exact hok.sched.setFrame _
  have hreg : (trapEnter frame regs σ.kernel).sched.frames frame = regs := trapEnter_frame ..
  rw [trapHandle_breakpoint (k := trapEnter frame regs σ.kernel) hok.seen (by rw [hreg]; exact hcause)]
  constructor
  · rintro ⟨action, k', hx, hcont⟩
    obtain ⟨next, hx, -⟩ := resuming_eq_ok.mp hx
    have := controlTrap_current hinv hcur hc hframe hx (hcont.current.trans hcur)
    rwa [hreg] at this
  · intro hkeep
    obtain ⟨k', hx, hcont⟩ := controlTrap_contained (k := trapEnter frame regs σ.kernel) hinv hcur hc task
      (by rw [hreg]; exact hkeep)
    exact ⟨.resume frame, k', by rw [hx]; rfl, hcont⟩

/-- A yield of the only thread. -/
theorem userBreakpoint_contained_iff_sample : ∃ σ : System, σ.kernel.sched.currentThread = some 1 ∧
    let task := (σ.kernel.sched.threads 1).userTask
    let frame := (σ.kernel.tasks task).trapContext
    let regs : TrapFrame := { a7 := threadTrapYield, mcause := mcauseBreakpoint }
    ∃ action k', trapHandle 0 frame (trapEnter frame regs σ.kernel) = .ok (action, k') ∧
      Contained 1 frame task (trapEnter frame regs σ.kernel) k' := by
  obtain ⟨σ₀, σ, hboot, h, hp⟩ := runs_of_bootCheck
    (p := fun σ => σ.kernel.sched.currentThread = some 1 ∧ (σ.kernel.sched.threads 1).userTask ≠ 0 ∧
      σ.kernel.sched.ready = []) (l := sampleUserOps) (k := sampleKernel) (by decide +kernel)
  obtain ⟨hcur, htask, hnil⟩ := of_decide_eq_true hp
  exact ⟨σ, hcur, (userBreakpoint_contained_iff sampleKernel_fresh hboot h hcur htask rfl rfl 0).mpr (.inl ⟨rfl, hnil⟩)⟩

/-- A user task that puts `0x80700000` in `a0` and the operation of a wait in `a7` is enqueued at that address. -/
theorem userBreakpoint_enqueued : ∃ σ₀ σ, boot sampleKernel = .ok σ₀ ∧ Runs σ₀ sampleUserOps σ ∧
    σ.kernel.sched.currentThread = some 1 ∧ (σ.kernel.sched.threads 1).userTask = sampleTask ∧
    let frame := (σ.kernel.tasks sampleTask).trapContext
    let k := trapEnter frame { a0 := 0x80700000, a7 := threadTrapWait, mcause := mcauseBreakpoint } σ.kernel
    ∃ r, trapHandle 0 frame k = .ok r ∧ k.sched.waits 0x80700000 = [] ∧ r.2.sched.waits 0x80700000 = [1] ∧
      ¬Contained 1 frame sampleTask k r.2 := by
  obtain ⟨σ₀, σ, hboot, h, hp⟩ := runs_of_bootCheck
    (p := fun σ =>
      let frame := (σ.kernel.tasks sampleTask).trapContext
      let k := trapEnter frame { a0 := 0x80700000, a7 := threadTrapWait, mcause := mcauseBreakpoint } σ.kernel
      decide (σ.kernel.sched.currentThread = some 1 ∧ (σ.kernel.sched.threads 1).userTask = sampleTask ∧
        k.sched.waits 0x80700000 = []) && match trapHandle 0 frame k with
          | .ok r => decide (r.2.sched.waits 0x80700000 = [1] ∧ r.2.sched.currentThread = some 0)
          | .error _ => false) (l := sampleUserOps) (k := sampleKernel) (by decide +kernel)
  obtain ⟨hstate, hp⟩ := Bool.and_eq_true_iff.mp hp
  obtain ⟨hcur, htask, hnil⟩ := of_decide_eq_true hstate
  refine ⟨σ₀, σ, hboot, h, hcur, htask, ?_⟩
  intro frame k
  split at hp
  · rename_i r hr
    obtain ⟨hwaits, hnull⟩ := of_decide_eq_true hp
    refine ⟨r, hr, hnil, hwaits, fun hcont => ?_⟩
    have := hcont.current.symm.trans hnull
    rw [show k.sched.currentThread = some 1 from hcur] at this
    cases this
  · cases hp

end System

end QemuRtos
