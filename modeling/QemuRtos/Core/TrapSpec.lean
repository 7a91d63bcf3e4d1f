import QemuRtos.Core.SwitchSpec
import QemuRtos.Core.Blocking

/-!
# The traps of the scheduler

What each trap of a running thread does, from `trap_handle` to `trap_return_from_handler`. `Left` is
how a handler leaves the scheduler: the running thread stays, or it is switched out in one of four
ways. `SchedInv` is the invariant of the scheduler between operations; every `Left` keeps it.
-/

namespace QemuRtos

open Lib

variable {Q : Set U64} {s s' : Sched} {c : Nat} {frame next : U64} {k k' : Kernel}

/-- The scheduler between operations. Before `thread_start` no thread runs; after it exactly one
does, and it is current. -/
structure SchedInv (Q : Set U64) (s : Sched) : Prop where
  ok : SchedOk Q s
  depth : s.preemptDisableDepth = 0
  initialized : s.threadsInitialized = true
  phase : s.threadsStarted = false ∧ s.currentThread = none ∧ Halted s ∨
    s.threadsStarted = true ∧ ∃ c, Running c s

theorem SchedInv.started (h : SchedInv Q s) (hcur : s.currentThread = some c) :
    s.threadsStarted = true ∧ Running c s := by
  rcases h.phase with ⟨-, hnone, -⟩ | ⟨hst, d, hrun⟩
  · rw [hnone] at hcur; cases hcur
  · have : d = c := by rw [hrun.current] at hcur; exact Option.some.inj hcur
    exact ⟨hst, this ▸ hrun⟩

theorem SchedInv.of_running (hok : SchedOk Q s) (hdepth : s.preemptDisableDepth = 0)
    (hinit : s.threadsInitialized = true) (hst : s.threadsStarted = true) (hrun : Running c s) :
    SchedInv Q s :=
  ⟨hok, hdepth, hinit, .inr ⟨hst, c, hrun⟩⟩

/-- Where no thread stops or starts to run, it is enough that the queues are kept. -/
theorem SchedInv.transfer {Q' : Set U64} (h : SchedInv Q s) (hok : SchedOk Q' s')
    (hdepth : s'.preemptDisableDepth = s.preemptDisableDepth) (hinit : s'.threadsInitialized = s.threadsInitialized)
    (hst : s'.threadsStarted = s.threadsStarted) (hcur : s'.currentThread = s.currentThread)
    (hrunning : ∀ t, (s'.threads t).state = .running ↔ (s.threads t).state = .running) : SchedInv Q' s' := by
  refine ⟨hok, hdepth.trans h.depth, hinit.trans h.initialized, ?_⟩
  rw [hst, hcur]
  rcases h.phase with ⟨hno, hnone, hhalt⟩ | ⟨hyes, d, hrun⟩
  · exact .inl ⟨hno, hnone, fun t ht => mt (hrunning t).mp (hhalt t ht)⟩
  · exact .inr ⟨hyes, d, hcur.trans hrun.current, hrun.lt, fun t ht => (hrunning t).trans (hrun.running t ht)⟩

theorem SchedInv.frames (h : SchedInv Q s) (frames : U64 → TrapFrame) : SchedInv Q { s with frames := frames } := by
  have hok : SchedOk Q { s with frames := frames } :=
    { toQueuesOk := h.ok.toQueuesOk.congr rfl rfl (fun _ _ => rfl) fun _ _ => rfl
      coherent := h.ok.coherent
      null := h.ok.null
      tid_eq := h.ok.tid_eq }
  exact h.transfer hok rfl rfl rfl rfl fun _ => Iff.rfl

theorem SchedInv.setFrame (h : SchedInv Q s) (f : TrapFrame → TrapFrame) : SchedInv Q (s.setFrame frame f) :=
  h.frames _

theorem Switched.schedInv {R : Sched → Sched → Prop} (h : SchedInv Q s)
    (hR : ∀ s₁, R s s₁ → s₁.statics.2.2 = s.statics.2.2) (hst : s.threadsStarted = true)
    (hsw : Switched Q R s s' next) : SchedInv Q s' := by
  obtain ⟨s₁, hr, -, -, hd, hok, hrun, -⟩ := hsw
  have h1 := hR s₁ hr
  have h2 := hd.statics
  simp only [Sched.statics, Prod.mk.injEq] at h1 h2
  refine SchedInv.of_running hok ?_ ?_ ?_ hrun
  · rw [h2.2.2.2.2.2, h1.2.2.2, h.depth]
  · rw [h2.2.2.1, h1.1, h.initialized]
  · rw [h2.2.2.2.1, h1.2.1, hst]

theorem Requeued.keeps : ∀ s₁, Requeued c frame s s₁ → s₁.statics.2.2 = s.statics.2.2 :=
  fun _ h => by rw [h.statics]

theorem NullRequeued.keeps : ∀ s₁, NullRequeued frame s s₁ → s₁.statics.2.2 = s.statics.2.2 :=
  fun _ h => by rw [h.statics]

theorem Parked.keeps {b : Block} : ∀ s₁, Parked Q c frame b s s₁ → s₁.statics.2.2 = s.statics.2.2 :=
  fun _ h => by rw [h.statics]

theorem Retired.keeps : ∀ s₁, Retired c s s₁ → s₁.statics.2.2 = s.statics.2.2 :=
  fun _ h => by rw [h.statics]

/-! ### Changes to the current thread alone -/

/-- The current thread's record changes in fields that `Coherent` does not read, or in its saved
frame. -/
structure Adjusted (c : Nat) (s s' : Sched) : Prop where
  others : ∀ t ≠ c, s'.threads t = s.threads t
  membership : (s'.threads c).membership = (s.threads c).membership
  state : (s'.threads c).state = (s.threads c).state
  reason : (s'.threads c).waitReason = (s.threads c).waitReason
  frame : (s.threads c).trapFrame ≠ 0 → (s'.threads c).trapFrame ≠ 0
  tid : (s'.threads c).tid = (s.threads c).tid
  task : (s'.threads c).userTask = (s.threads c).userTask
  readyQueue : s'.readyQueue = s.readyQueue
  sleepQueue : s'.sleepQueue = s.sleepQueue
  waitQueues : s'.waitQueues = s.waitQueues
  frames : s'.frames = s.frames
  current : s'.currentThread = s.currentThread
  initialized : s'.threadsInitialized = s.threadsInitialized
  started : s'.threadsStarted = s.threadsStarted
  depth : s'.preemptDisableDepth = s.preemptDisableDepth

/-- The saved frame does not change either. -/
structure Touched (c : Nat) (s s' : Sched) : Prop extends Adjusted c s s' where
  trapFrame : (s'.threads c).trapFrame = (s.threads c).trapFrame

theorem Touched.refl (c : Nat) (s : Sched) : Touched c s s :=
  ⟨⟨fun _ _ => rfl, rfl, rfl, rfl, id, rfl, rfl, rfl, rfl, rfl, rfl, rfl, rfl, rfl, rfl⟩, rfl⟩

theorem Thread.Coherent.congr {th th' : Thread} (h : th.Coherent) (hm : th'.membership = th.membership)
    (hst : th'.state = th.state) (hr : th'.waitReason = th.waitReason)
    (hf : th.trapFrame ≠ 0 → th'.trapFrame ≠ 0) : th'.Coherent := by
  simp only [Thread.membership, Prod.mk.injEq] at hm
  obtain ⟨h1, h2, h3, h4⟩ := hm
  refine ⟨?_, ?_, ?_, ?_, ?_, ?_⟩
  · rw [h1, hst]; exact h.in_ready
  · rw [h2, hst, hr]; exact h.in_sleep
  · rw [h3, hst, hr]; exact h.in_wait
  · rw [hst, hr]; exact h.reason
  · rw [h3, h4]; exact h.no_queue
  · rw [hst]; exact fun hs => hf (h.frame hs)

theorem Adjusted.schedInv (ht : Adjusted c s s') (h : SchedInv Q s) : SchedInv Q s' := by
  have hst : ∀ t, (s'.threads t).state = (s.threads t).state := fun t => by
    by_cases hte : t = c
    · subst hte; exact ht.state
    · rw [ht.others t hte]
  refine h.transfer ⟨h.ok.toQueuesOk.congr ht.readyQueue ht.sleepQueue (fun q _ => by rw [ht.waitQueues]) fun t _ => ?_,
    fun t htr => ?_, ?_, fun t htm => ?_⟩ ht.depth ht.initialized ht.started ht.current fun t => by rw [hst]
  · by_cases hte : t = c
    · subst hte; exact ht.membership
    · rw [ht.others t hte]
  · by_cases hte : t = c
    · subst hte; exact (h.ok.coherent t htr).congr ht.membership ht.state ht.reason ht.frame
    · rw [ht.others t hte]; exact h.ok.coherent t htr
  · by_cases hte : threadNullTid = c
    · subst hte
      have hm := ht.membership
      simp only [Thread.membership, Prod.mk.injEq] at hm
      exact ⟨by rw [ht.state]; exact h.ok.null.state, by rw [hm.1, hm.2.1, hm.2.2.1]; exact h.ok.null.flags,
        ht.frame h.ok.null.frame, by rw [ht.task]; exact h.ok.null.task⟩
    · rw [ht.others _ hte]; exact h.ok.null
  · by_cases hte : t = c
    · subst hte; rw [ht.tid]; exact h.ok.tid_eq t htm
    · rw [ht.others t hte]; exact h.ok.tid_eq t htm

theorem Touched.trans {s'' : Sched} (h : Touched c s s') (h' : Touched c s' s'') : Touched c s s'' where
  others t ht := (h'.others t ht).trans (h.others t ht)
  membership := h'.membership.trans h.membership
  state := h'.state.trans h.state
  reason := h'.reason.trans h.reason
  frame hf := h'.frame (h.frame hf)
  tid := h'.tid.trans h.tid
  task := h'.task.trans h.task
  readyQueue := h'.readyQueue.trans h.readyQueue
  sleepQueue := h'.sleepQueue.trans h.sleepQueue
  waitQueues := h'.waitQueues.trans h.waitQueues
  frames := h'.frames.trans h.frames
  current := h'.current.trans h.current
  initialized := h'.initialized.trans h.initialized
  started := h'.started.trans h.started
  depth := h'.depth.trans h.depth
  trapFrame := h'.trapFrame.trans h.trapFrame

theorem Touched.quantum (c n : Nat) (s : Sched) :
    Touched c s (s.setThread c fun th => { th with quantumTicks := n }) := by
  refine ⟨⟨fun _ ht => Sched.setThread_of_ne _ _ _ ht, ?_, ?_, ?_, ?_, ?_, ?_, rfl, rfl, rfl, rfl, rfl, rfl,
    rfl, rfl⟩, ?_⟩
  all_goals rw [Sched.setThread_self]
  · rfl
  · exact id

theorem Touched.reschedule (c : Nat) (s : Sched) (b : Bool) : Touched c s { s with rescheduleRequested := b } :=
  ⟨⟨fun _ _ => rfl, rfl, rfl, rfl, id, rfl, rfl, rfl, rfl, rfl, rfl, rfl, rfl, rfl, rfl⟩, rfl⟩

/-- What a thread that keeps running may change: its quantum may start again, and a request to switch may be
dropped. -/
structure Rested (c : Nat) (s s' : Sched) : Prop extends Touched c s s' where
  quantum_le : (s'.threads c).quantumTicks ≤ (s.threads c).quantumTicks
  request : s'.rescheduleRequested = true → s.rescheduleRequested = true

theorem Rested.refl (c : Nat) (s : Sched) : Rested c s s := ⟨.refl c s, le_rfl, id⟩

theorem Rested.restart (c : Nat) (s : Sched) :
    Rested c s (s.setThread c fun th => { th with quantumTicks := 0 }) :=
  ⟨.quantum c 0 s, by rw [Sched.setThread_self]; exact Nat.zero_le _, id⟩

theorem Rested.drop (c : Nat) (s : Sched) :
    Rested c s { s.setThread c fun th => { th with quantumTicks := 0 } with rescheduleRequested := false } :=
  ⟨(Touched.quantum c 0 s).trans (.reschedule c _ _), (Rested.restart c s).quantum_le, nofun⟩

theorem Adjusted.setTrapFrame (c : Nat) (s : Sched) (hf : frame ≠ 0) :
    Adjusted c s (s.setThread c fun th => { th with trapFrame := frame }) := by
  refine ⟨fun _ ht => Sched.setThread_of_ne _ _ _ ht, ?_, ?_, ?_, ?_, ?_, ?_, rfl, rfl, rfl, rfl, rfl, rfl,
    rfl, rfl⟩
  all_goals rw [Sched.setThread_self]
  · rfl
  · exact fun _ => hf

/-! ### How a handler leaves the scheduler -/

/-- How the running thread leaves the processor, if it does. -/
inductive Leave
  | stay | requeue | nullRequeue | park (b : Block) | retire
deriving DecidableEq

/-- The frame to resume and the scheduler after the running thread `c` has left as `l` says. -/
def Left (Q : Set U64) (c : Nat) (frame : U64) (s : Sched) : Leave → U64 → Sched → Prop
  | .stay, next, s' => Rested c s s' ∧ next = frame
  | .requeue, next, s' => tidIsReal c ∧ Switched Q (Requeued c frame) s s' next
  | .nullRequeue, next, s' => c = threadNullTid ∧ Switched Q (NullRequeued frame) s s' next
  | .park b, next, s' => tidIsReal c ∧ Switched Q (Parked Q c frame b) s s' next
  | .retire, next, s' => tidIsReal c ∧ Switched Q (Retired c) s s' next

/-- The ways a thread leaves when it yields. -/
def Leave.Yields (l : Leave) : Prop := l = .stay ∨ l = .requeue ∨ l = .nullRequeue

theorem Left.schedInv {l : Leave} (hl : Left Q c frame s l next s') (h : SchedInv Q s)
    (hst : s.threadsStarted = true) : SchedInv Q s' := by
  cases l with
  | stay => exact hl.1.toAdjusted.schedInv h
  | requeue => exact hl.2.schedInv h Requeued.keeps hst
  | nullRequeue => exact hl.2.schedInv h NullRequeued.keeps hst
  | park b => exact hl.2.schedInv h Parked.keeps hst
  | retire => exact hl.2.schedInv h Retired.keeps hst

theorem real_or_null (hlt : c < threadMax) : tidIsReal c ∨ c = threadNullTid := by
  rw [tidIsReal_iff]
  simp only [threadMax, threadNullTid] at *
  omega

theorem Sched.readyEmpty_iff : s.readyEmpty = true ↔ s.ready = [] := by
  rw [Sched.readyEmpty, decide_eq_true_eq]
  exact RingBuffer.toList_eq_nil.symm

theorem threadYieldCurrentFromTrap_spec (h : SchedInv Q k.sched) (hcur : k.sched.currentThread = some c)
    (hframe : frame ≠ 0) :
    ∃ l next s', threadYieldCurrentFromTrap frame k = .ok (next, { k with sched := s' }) ∧
      l.Yields ∧ Left Q c frame k.sched l next s' := by
  obtain ⟨hst, hrun⟩ := h.started hcur
  have htid := h.ok.tid_eq c hrun.lt
  rw [threadYieldCurrentFromTrap, hcur]
  simp only [hst, Bool.not_true, Bool.false_eq_true, ↓reduceIte, htid]
  by_cases hempty : k.sched.readyEmpty = true
  · rw [if_pos hempty]
    exact ⟨.stay, frame, _, rfl, .inl rfl, .restart c _, rfl⟩
  · rw [if_neg hempty]
    rcases real_or_null hrun.lt with hc | rfl
    · have hne : c ≠ threadNullTid := by rintro rfl; simp [tidIsReal_iff, threadNullTid] at hc
      rw [if_neg hne]
      obtain ⟨next, s', heq, hsw⟩ := switchToNextFromTrap_requeue h.ok hrun hc hframe
      exact ⟨.requeue, next, s', heq, .inr (.inl rfl), hc, hsw⟩
    · rw [if_pos rfl]
      obtain ⟨next, s', heq, hsw⟩ := switchNullToNextFromTrap_spec h.ok hrun
        (by rwa [Sched.readyEmpty_iff] at hempty) hframe
      exact ⟨.nullRequeue, next, s', heq, .inr (.inr rfl), rfl, hsw⟩

theorem tidIsReal_ne_null (hc : tidIsReal c) : c ≠ threadNullTid := by
  rintro rfl
  simp [tidIsReal_iff, threadNullTid] at hc

theorem threadSleepCurrentFromTrap_spec (h : SchedInv Q k.sched) (hcur : k.sched.currentThread = some c)
    (hc : tidIsReal c) (hframe : frame ≠ 0) (ticks : U64) :
    ∃ l next s', threadSleepCurrentFromTrap frame ticks k = .ok (next, { k with sched := s' }) ∧
      (ticks = 0 ∧ l.Yields ∨ ticks ≠ 0 ∧ l = .park ⟨none, some (k.timer.ticks + ticks)⟩) ∧
      Left Q c frame k.sched l next s' := by
  obtain ⟨hst, hrun⟩ := h.started hcur
  rw [threadSleepCurrentFromTrap, hcur]
  simp only [hst, Bool.not_true, Bool.false_eq_true, ↓reduceIte, h.ok.tid_eq c hrun.lt, tidIsReal_ne_null hc]
  by_cases hz : ticks = 0
  · rw [if_pos hz]
    obtain ⟨l, next, s', heq, hy, hl⟩ := threadYieldCurrentFromTrap_spec h hcur hframe
    exact ⟨l, next, s', heq, .inl ⟨hz, hy⟩, hl⟩
  · rw [if_neg hz]
    obtain ⟨next, s', heq, hsw⟩ := sleepCurrentFromTrap_spec h.ok hrun hc hframe ticks
    exact ⟨_, next, s', heq, .inr ⟨hz, rfl⟩, hc, hsw⟩

theorem threadMaybePreemptFromTrap_spec (h : SchedInv Q k.sched) (hcur : k.sched.currentThread = some c)
    (hframe : frame ≠ 0) :
    ∃ l next s', threadMaybePreemptFromTrap frame k = .ok (next, { k with sched := s' }) ∧
      (l = .stay ∨ l = .requeue) ∧ Left Q c frame k.sched l next s' ∧
      (l = .requeue ↔ k.sched.rescheduleRequested = true ∧ tidIsReal c ∧ k.sched.ready ≠ []) ∧
      (l = .stay → k.sched.rescheduleRequested = true → tidIsReal c →
        s'.rescheduleRequested = false ∧ (s'.threads c).quantumTicks = 0) := by
  obtain ⟨hst, hrun⟩ := h.started hcur
  have htid := h.ok.tid_eq c hrun.lt
  rw [threadMaybePreemptFromTrap, hcur]
  by_cases hreq : k.sched.rescheduleRequested = true
  · simp only [hreq, Bool.not_true, Bool.false_eq_true, ↓reduceIte]
    have hpre : k.sched.currentIsPreemptible = true ↔ tidIsReal c ∧ k.sched.ready ≠ [] := by
      have hready : k.sched.ready ≠ [] ↔ k.sched.readyEmpty = false := by
        rw [ne_eq, ← Sched.readyEmpty_iff, Bool.not_eq_true]
      rw [Sched.currentIsPreemptible, hcur, hready]
      have hreal : c ≠ threadNullTid ↔ tidIsReal c :=
        ⟨fun hne => (real_or_null hrun.lt).resolve_right hne, tidIsReal_ne_null⟩
      simp [hst, htid, hrun.state, h.depth, hreal]
    by_cases hp : tidIsReal c ∧ k.sched.ready ≠ []
    · simp only [hpre.mpr hp, Bool.not_true, Bool.false_eq_true, ↓reduceIte]
      obtain ⟨next, s', heq, hsw⟩ := switchToNextFromTrap_requeue h.ok hrun hp.1 hframe
      exact ⟨.requeue, next, s', heq, .inr rfl, ⟨hp.1, hsw⟩, ⟨fun _ => ⟨trivial, hp⟩, fun _ => rfl⟩, nofun⟩
    · rw [← hpre, Bool.not_eq_true] at hp
      simp only [hp, Bool.not_false, ↓reduceIte, hst, htid]
      have hno : ¬(True ∧ tidIsReal c ∧ k.sched.ready ≠ []) := fun ⟨_, hr⟩ => by
        rw [← hpre, hp] at hr; cases hr
      by_cases hc : tidIsReal c
      · have hempty : k.sched.readyEmpty = true := by
          by_contra hne
          exact hno ⟨trivial, hc, Sched.readyEmpty_iff.not.mp hne⟩
        rw [if_pos ⟨trivial, tidIsReal_ne_null hc, hempty⟩]
        refine ⟨.stay, frame, _, rfl, .inl rfl, ⟨.drop c _, rfl⟩, ⟨nofun, fun hr => absurd hr hno⟩, fun _ _ _ => ⟨rfl, ?_⟩⟩
        simp only [Sched.setThread_self]
      · have hnull := (real_or_null hrun.lt).resolve_left hc
        rw [if_neg fun hr => hr.2.1 hnull]
        exact ⟨.stay, frame, k.sched, rfl, .inl rfl, ⟨.refl c _, rfl⟩, ⟨nofun, fun hr => absurd hr hno⟩,
          fun _ _ hr => absurd hr hc⟩
  · simp only [hreq, Bool.not_false, ↓reduceIte]
    exact ⟨.stay, frame, k.sched, rfl, .inl rfl, ⟨.refl c _, rfl⟩, ⟨nofun, fun hr => absurd hr.1 nofun⟩,
      fun _ hr => absurd hr nofun⟩

/-! ### The control traps -/

/-- The frame `f` of a control trap taken at tick `now` makes its thread leave as `l` says, with the
frame `g`. -/
inductive Controls (f : TrapFrame) (now : U64) : Leave → TrapFrame → Prop
  | yield {l : Leave} (hop : f.a7 = threadTrapYield ∨ f.a7 = threadTrapSleep ∧ f.a0 = 0) (hl : l.Yields) :
    Controls f now l { f with mepc := f.mepc + 4 }
  | exit (hop : f.a7 = threadTrapExit) : Controls f now .retire { f with mepc := f.mepc + 4 }
  | sleep (hop : f.a7 = threadTrapSleep) (hne : f.a0 ≠ 0) :
    Controls f now (.park ⟨none, some (now + f.a0)⟩) { f with mepc := f.mepc + 4 }
  | wait (hop : f.a7 = threadTrapWait) :
    Controls f now (.park ⟨some f.a0, none⟩) { f with mepc := f.mepc + 4 }
  | waitTimeout (hop : f.a7 = threadTrapWaitTimeout) (hne : f.a1 ≠ 0) :
    Controls f now (.park ⟨some f.a0, some (now + f.a1)⟩) { f with mepc := f.mepc + 4 }
  | expired (hop : f.a7 = threadTrapWaitTimeout) (hz : f.a1 = 0) :
    Controls f now .stay { f with mepc := f.mepc + 4, a0 := intReg waitTimeout }

theorem Controls.mstatus {f g : TrapFrame} {now : U64} {l : Leave} (h : Controls f now l g) :
    g.mstatus = f.mstatus := by
  cases h <;> rfl

/-- The control trap in `f` is one that thread `c` may execute. -/
def ControlOk (Q : Set U64) (c : Nat) (f : TrapFrame) (s : Sched) : Prop :=
  f.a7 = threadTrapYield ∨ tidIsReal c ∧
    (f.a7 = threadTrapExit ∧ (s.threads c).userTask = 0 ∨ f.a7 = threadTrapSleep ∨
      (f.a7 = threadTrapWait ∨ f.a7 = threadTrapWaitTimeout) ∧ f.a0 ∈ Q)

theorem Sched.setFrame_setFrame (s : Sched) (frame : U64) (f g : TrapFrame → TrapFrame) :
    (s.setFrame frame f).setFrame frame g = s.setFrame frame fun x => g (f x) := by
  simp [Sched.setFrame]

theorem Kernel.setFrame_sched (k : Kernel) (frame : U64) (f : TrapFrame → TrapFrame) :
    (k.setFrame frame f).sched = k.sched.setFrame frame f := rfl

theorem switchToNextFromTrap_exit_kernel (frame : U64) (h : SchedOk Q k.sched) (hrun : Running c k.sched)
    (hc : tidIsReal c) (htask : (k.sched.threads c).userTask = 0) :
    ∃ next s', switchToNextFromTrap frame false k = .ok (next, { k with sched := s' }) ∧
      Switched Q (Retired c) k.sched s' next := by
  obtain ⟨next, s', hsw, heq⟩ := switchToNextFromTrap_exit frame h hrun hc
  refine ⟨next, s', ?_, hsw⟩
  rw [heq, htask]
  rfl

theorem threadHandleControlTrapFromTrap_spec (h : SchedInv Q k.sched)
    (hcur : k.sched.currentThread = some c) (hframe : frame ≠ 0)
    (hok : ControlOk Q c (k.sched.frames frame) k.sched) :
    ∃ l g next s', threadHandleControlTrapFromTrap frame k = .ok (next, { k with sched := s' }) ∧
      Controls (k.sched.frames frame) k.timer.ticks l g ∧
      Left Q c frame (k.sched.setFrame frame fun _ => g) l next s' := by
  obtain ⟨hst, hrun⟩ := h.started hcur
  let f := k.sched.frames frame
  let g : TrapFrame := { f with mepc := f.mepc + 4 }
  let k₁ := k.setFrame frame fun f => { f with mepc := f.mepc + 4 }
  have hs : k₁.sched = k.sched.setFrame frame fun _ => g := rfl
  have h₁ : SchedInv Q k₁.sched := by rw [hs]; exact h.setFrame _
  obtain ⟨-, hrun₁⟩ := h₁.started (c := c) hcur
  have ha1 : (k₁.sched.frames frame).a1 = f.a1 := by
    rw [hs, Sched.setFrame_self]
  have htid : (k₁.sched.threads c).tid = c := h.ok.tid_eq c hrun.lt
  have hst₁ : k₁.sched.threadsStarted = true := hst
  have hcur₁ : k₁.sched.currentThread = some c := hcur
  rw [threadHandleControlTrapFromTrap]
  simp only [show k.setFrame frame (fun f => { f with mepc := f.mepc + 4 }) = k₁ from rfl, hst₁, hcur₁,
    Bool.not_true, Bool.false_eq_true, ↓reduceIte, ha1, htid]
  by_cases hyield : f.a7 = threadTrapYield
  · rw [if_pos hyield]
    obtain ⟨l, next, s', heq, hy, hl⟩ := threadYieldCurrentFromTrap_spec h₁ hcur₁ hframe
    exact ⟨l, g, next, s', heq, .yield (.inl hyield) hy, hl⟩
  rw [if_neg hyield]
  obtain ⟨hc, hop⟩ := hok.resolve_left hyield
  by_cases hexit : f.a7 = threadTrapExit
  · have htask : (k₁.sched.threads c).userTask = 0 := by
      rcases hop with ⟨-, ht⟩ | hs | ⟨hw, -⟩
      · exact ht
      · exact absurd (hexit.symm.trans hs) (by decide)
      · exact hw.elim (fun hw => absurd (hexit.symm.trans hw) (by decide))
          fun hw => absurd (hexit.symm.trans hw) (by decide)
    rw [if_pos hexit]
    obtain ⟨next, s', heq, hsw⟩ := switchToNextFromTrap_exit_kernel frame h₁.ok hrun₁ hc htask
    exact ⟨.retire, g, next, s', heq, .exit hexit, hc, hsw⟩
  rw [if_neg hexit]
  by_cases hsleep : f.a7 = threadTrapSleep
  · rw [if_pos hsleep]
    obtain ⟨l, next, s', heq, hl, hleft⟩ := threadSleepCurrentFromTrap_spec h₁ hcur₁ hc hframe f.a0
    refine ⟨l, g, next, s', heq, ?_, hleft⟩
    rcases hl with ⟨hz, hy⟩ | ⟨hne, rfl⟩
    · exact .yield (.inr ⟨hsleep, hz⟩) hy
    · exact .sleep hsleep hne
  rw [if_neg hsleep]
  obtain ⟨hw, hq⟩ : (f.a7 = threadTrapWait ∨ f.a7 = threadTrapWaitTimeout) ∧ f.a0 ∈ Q := by
    rcases hop with ⟨he, -⟩ | hs | hw
    · exact absurd he hexit
    · exact absurd hs hsleep
    · exact hw
  have hqz : f.a0 ≠ 0 := h.ok.queue_ne_zero hq
  by_cases hwait : f.a7 = threadTrapWait
  · rw [if_pos hwait, if_neg hqz, if_neg (tidIsReal_ne_null hc)]
    obtain ⟨next, s', heq, hsw⟩ := blockCurrentFromTrap_spec h₁.ok hrun₁ hc hframe hq 0
    exact ⟨_, g, next, s', heq, .wait hwait, hc, hsw⟩
  rw [if_neg hwait]
  have htimeout := hw.resolve_left hwait
  rw [if_pos htimeout, if_neg hqz, if_neg (tidIsReal_ne_null hc)]
  by_cases hz : f.a1 = 0
  · rw [if_pos hz]
    have he : (k₁.setFrame frame fun f => { f with a0 := intReg waitTimeout }).sched =
        k.sched.setFrame frame fun _ => { g with a0 := intReg waitTimeout } := by
      rw [Kernel.setFrame_sched, hs, Sched.setFrame_setFrame]
    exact ⟨.stay, _, frame, (k₁.setFrame frame fun f => { f with a0 := intReg waitTimeout }).sched, rfl,
      .expired htimeout hz, he ▸ Rested.refl c _, rfl⟩
  · rw [if_neg hz]
    obtain ⟨next, s', heq, hsw⟩ := blockCurrentFromTrap_spec h₁.ok hrun₁ hc hframe hq f.a1
    have ht : timeoutTick k₁.timer.ticks f.a1 = some (k.timer.ticks + f.a1) := if_neg hz
    rw [ht] at hsw
    exact ⟨_, g, next, s', heq, .waitTimeout htimeout hz, hc, hsw⟩

/-! ### The return from a trap -/

/-- The return from a trap to the frame `next`: to supervisor mode, or to the current thread's user
task. -/
inductive Returned (next : U64) (k : Kernel) : Kernel → Prop
  | supervisor : Returned next k (sretFrom next k)
  | user {c : Nat} (hcur : k.sched.currentThread = some c) (htask : (k.sched.threads c).userTask ≠ 0)
    (hnext : next ≠ 0) (hspp : (k.sched.frames next).mstatus &&& sstatusSpp = 0) (sie : Bool) :
    Returned next k
      (Kernel.irqRestore { k with sched := k.sched.setThread c fun th => { th with trapFrame := next } } sie)

theorem trapReturnFromHandler_ok {r : TrapReturn} (h : trapReturnFromHandler next k = .ok (r, k')) :
    Returned next k k' := by
  rw [trapReturnFromHandler] at h
  by_cases htask : threadCurrentUserTaskForFrame next k = 0
  · rw [if_neg (not_not.mpr htask)] at h
    cases h
    exact .supervisor
  · rw [if_pos htask, trapReturnToUser] at h
    split at h
    · cases h
    · cases h
      have hcur : ∃ c, k.sched.currentThread = some c := by
        rw [threadCurrentUserTaskForFrame] at htask
        cases hc : k.sched.currentThread with
        | none => simp [hc] at htask
        | some c => exact ⟨c, rfl⟩
      obtain ⟨c, hcur⟩ := hcur
      simp only [threadCurrentUserTaskForFrame, hcur] at htask
      by_cases hzero : next = 0 ∨ (k.sched.threads c).userTask = 0 ∨
          (k.sched.frames next).mstatus &&& sstatusSpp ≠ 0
      · rw [if_pos hzero] at htask
        exact absurd rfl htask
      · simp only [not_or, not_not] at hzero
        have hset : threadSetCurrentTrapFrameFromTrap next k =
            { k with sched := k.sched.setThread c fun th => { th with trapFrame := next } } := by
          simp only [threadSetCurrentTrapFrameFromTrap, hcur, hzero.1, ↓reduceIte]
        rw [hset]
        exact .user hcur hzero.2.1 hzero.1 hzero.2.2 _

theorem Returned.schedInv (h : Returned next k k') (hinv : SchedInv Q k.sched) : SchedInv Q k'.sched := by
  cases h with
  | supervisor => exact hinv
  | user hcur _ hnext _ _ => exact (Adjusted.setTrapFrame _ _ hnext).schedInv hinv

theorem trapReturnFromHandler_user {task frame : U64} {r : TrapReturn} (hcur : k.sched.currentThread = some c)
    (htask : threadCurrentUserTaskForFrame frame k = task) (hne : task ≠ 0) (hframe : frame ≠ 0)
    (h : trapReturnFromHandler frame k = .ok (r, k')) : (k'.sched.threads c).trapFrame = frame := by
  have hset : threadSetCurrentTrapFrameFromTrap frame k =
      { k with sched := k.sched.setThread c fun th => { th with trapFrame := frame } } := by
    simp only [threadSetCurrentTrapFrameFromTrap, hcur, hframe, ↓reduceIte]
  rw [trapReturnFromHandler] at h
  rw [htask, if_pos hne, hset, trapReturnToUser] at h
  dsimp only at h
  split at h
  · cases h
  · cases h
    show ((k.sched.setThread c fun th => { th with trapFrame := frame }).threads c).trapFrame = frame
    rw [Sched.setThread_self]

theorem Returned.setSie {next : U64} (h : Returned next k k') (b : Bool) :
    Returned next { k with machine := { k.machine with sie := b } } k' := by
  cases h with
  | supervisor => exact .supervisor
  | user hcur htask hnext hspp sie =>
    exact .user (k := { k with machine := { k.machine with sie := b } }) hcur htask hnext hspp sie

/-! ### Whole traps -/

/-- A trap of the running thread `c`: its frame is `f`, it leaves as `l` says, and the next frame is
resumed. -/
def Trapped (Q : Set U64) (c : Nat) (frame : U64) (f : TrapFrame) (l : Leave) (k k' : Kernel) : Prop :=
  ∃ next s', Left Q c frame (k.sched.setFrame frame fun _ => f) l next s' ∧
    Returned next { k with sched := s' } k'

theorem Trapped.schedInv {f : TrapFrame} {l : Leave} (h : Trapped Q c frame f l k k')
    (hinv : SchedInv Q k.sched) (hst : k.sched.threadsStarted = true) : SchedInv Q k'.sched := by
  obtain ⟨next, s', hl, hr⟩ := h
  exact hr.schedInv (hl.schedInv (hinv.setFrame _) hst)

theorem trapEnter_sched (frame : U64) (regs : TrapFrame) (k : Kernel) :
    (trapEnter frame regs k).sched = k.sched.setFrame frame fun _ => regs := rfl

theorem trapEnter_frame (frame : U64) (regs : TrapFrame) (k : Kernel) :
    (trapEnter frame regs k).sched.frames frame = regs := by
  rw [trapEnter_sched, Sched.setFrame_self]

/-- A return does not depend on the interrupt state in the handler. -/
theorem Returned.of_trapEnter {regs : TrapFrame} (h : Returned next { trapEnter frame regs k with sched := s } k') :
    Returned next { k with sched := s } k' := by
  cases h with
  | supervisor => exact .supervisor
  | user hcur htask hnext hspp sie => exact .user (k := { k with sched := s }) hcur htask hnext hspp sie

@[simp] theorem resuming_ok (frame : U64) (k : Kernel) :
    resuming (.ok (frame, k)) = .ok (.resume frame, k) := rfl

theorem resuming_eq_ok {p : Except Panic (U64 × Kernel)} {action : TrapAction} :
    resuming p = .ok (action, k) ↔ ∃ frame, p = .ok (frame, k) ∧ action = .resume frame := by
  cases p with
  | error e => simp [resuming, Except.map]
  | ok r =>
    obtain ⟨frame, k'⟩ := r
    simp [resuming, Except.map, and_comm, eq_comm]

theorem trapHandle_breakpoint {mtime : Nat} (hseen : k.trapSelftestSeen = true)
    (hcause : (k.sched.frames frame).mcause = mcauseBreakpoint) :
    trapHandle mtime frame k = resuming (threadHandleControlTrapFromTrap frame k) := by
  simp only [trapHandle, hcause, hseen]
  rfl

theorem trapHandle_timer {mtime : Nat}
    (hcause : (k.sched.frames frame).mcause = mcauseInterrupt ||| scauseSupervisorTimerInterrupt) :
    trapHandle mtime frame k = (do
      let k ← timerHandleInterrupt mtime k
      resuming (threadMaybePreemptFromTrap frame k)) := by
  simp only [trapHandle, hcause]
  rfl

theorem trapHandle_ecall {mtime : Nat} (hcause : (k.sched.frames frame).mcause = mcauseEcallUMode) :
    trapHandle mtime frame k = userSyscallDispatch frame k := by
  simp only [trapHandle, hcause]
  rfl

theorem controlTrap_ok {t : ControlTrap} {site : TrapSite} (h : SchedInv Q k.sched)
    (hcur : k.sched.currentThread = some c) (hseen : k.trapSelftestSeen = true) (hframe : site.frame ≠ 0)
    (hok : ControlOk Q c (ebreakFrame t k.machine.sie site.regs) k.sched)
    (hrun : controlTrap t site k = .ok k') :
    ∃ l g, Controls (ebreakFrame t k.machine.sie site.regs) k.timer.ticks l g ∧
      Trapped Q c site.frame g l k k' := by
  let regs := ebreakFrame t k.machine.sie site.regs
  have hreg : (trapEnter site.frame regs k).sched.frames site.frame = regs := trapEnter_frame ..
  obtain ⟨l, g, next, s', heq, hc, hl⟩ := threadHandleControlTrapFromTrap_spec (Q := Q)
    (k := trapEnter site.frame regs k) (by rw [trapEnter_sched]; exact h.setFrame _) hcur hframe
    (by rw [hreg]; exact hok)
  rw [hreg] at hc
  rw [trapEnter_sched, Sched.setFrame_setFrame] at hl
  rw [controlTrap, takeTrap, trapHandle_breakpoint (k := trapEnter site.frame regs k) hseen
    (by rw [hreg]; rfl), heq, resuming_ok, ok_bind] at hrun
  obtain ⟨⟨r, k₁⟩, hret, hrun⟩ := bind_eq_ok.mp hrun
  cases hrun
  exact ⟨l, g, hc, next, s', hl, (trapReturnFromHandler_ok hret).of_trapEnter⟩

/-! ### The timer interrupt -/

theorem WokenSeq.schedInv {P : Nat → Int → Sched → Prop} (hseq : WokenSeq Q P s s') (h : SchedInv Q s)
    (hok : SchedOk Q s') : SchedInv Q s' := by
  have hs := hseq.statics
  simp only [Sched.statics, Prod.mk.injEq] at hs
  obtain ⟨-, hcur, hinit, hst, -, hdepth⟩ := hs
  exact h.transfer hok hdepth hinit hst hcur hseq.state_running

theorem Touched.chargeQuantum (hcur : s.currentThread = some c) : Touched c s s.chargeQuantum := by
  rw [Sched.chargeQuantum, hcur]
  simp only
  split
  · exact Touched.refl c s
  · split
    all_goals
      split
      · first
          | exact (Touched.quantum c _ s).trans (Touched.reschedule c _ _)
          | exact Touched.reschedule c s _
      · first
          | exact Touched.quantum c _ s
          | exact Touched.refl c s

/-- No switch is pending, and the running thread has not used up its quantum. -/
def Calm (s : Sched) : Prop :=
  s.rescheduleRequested = false ∧
    ∀ c, s.currentThread = some c → tidIsReal c → (s.threads c).quantumTicks < threadQuantumTicks

/-- A timer interrupt taken in `s` leaves the running thread `c` as `l` says: it is switched out when the tick
completes its quantum and another thread is ready. -/
structure Charged (c : Nat) (s : Sched) (l : Leave) (s' : Sched) : Prop where
  switches : l = .requeue ↔
    tidIsReal c ∧ threadQuantumTicks ≤ (s.threads c).quantumTicks + 1 ∧ s.ready ≠ []
  calm : Calm s'

theorem Rested.calm (h : Rested c s s') (hc : s.currentThread = some c) (hs : Calm s) : Calm s' := by
  refine ⟨?_, fun d hd hreal => ?_⟩
  · rw [← Bool.not_eq_true]
    intro hreq
    have := h.request hreq
    rw [hs.1] at this
    cases this
  · obtain rfl : c = d := Option.some.inj (hc.symm.trans (h.current.symm.trans hd))
    exact h.quantum_le.trans_lt (hs.2 c hc hreal)

theorem Dispatched.calm {d : Nat} (h : Dispatched d s s') : Calm s' := by
  have hs := h.statics
  simp only [Sched.statics, Prod.mk.injEq] at hs
  refine ⟨hs.2.2.2.2.1, fun e he _ => ?_⟩
  obtain rfl : d = e := Option.some.inj (hs.2.1.symm.trans he)
  rw [h.threads, Function.update_self]
  exact (by decide : 0 < threadQuantumTicks)

theorem Left.calm {l : Leave} (hl : Left Q c frame s l next s') (hc : s.currentThread = some c) (hs : Calm s) :
    Calm s' := by
  cases l with
  | stay => exact hl.1.calm hc hs
  | requeue => obtain ⟨-, s₁, -, -, -, hd, -⟩ := hl; exact hd.calm
  | nullRequeue => obtain ⟨-, s₁, -, -, -, hd, -⟩ := hl; exact hd.calm
  | park b => obtain ⟨-, s₁, -, -, -, hd, -⟩ := hl; exact hd.calm
  | retire => obtain ⟨-, s₁, -, -, -, hd, -⟩ := hl; exact hd.calm

theorem chargeQuantum_null (hcur : s.currentThread = some c) (htid : (s.threads c).tid = c)
    (hc : ¬tidIsReal c) (hlt : c < threadMax) : s.chargeQuantum = s := by
  have hnull : (s.threads c).tid = threadNullTid := htid.trans ((real_or_null hlt).resolve_left hc)
  rw [Sched.chargeQuantum, hcur]
  exact if_pos (.inl hnull)

theorem chargeQuantum_real (hcur : s.currentThread = some c) (htid : (s.threads c).tid = c) (hc : tidIsReal c)
    (hst : (s.threads c).state = .running) (hq : (s.threads c).quantumTicks < threadQuantumTicks) :
    s.chargeQuantum = { s.setThread c fun th => { th with quantumTicks := th.quantumTicks + 1 } with
      rescheduleRequested :=
        if threadQuantumTicks ≤ (s.threads c).quantumTicks + 1 then true else s.rescheduleRequested } := by
  have hne := tidIsReal_ne_null hc
  rw [Sched.chargeQuantum, hcur]
  simp only [htid, hne, hst, ne_eq, not_true_eq_false, or_self, ↓reduceIte, hq, Sched.setThread_self, ge_iff_le]
  split <;> rfl

theorem Charged.of_preempt {l : Leave} {s₁ s₃ : Sched} (hrun : Running c s₁) (htid : (s₁.threads c).tid = c)
    (hl : l = .stay ∨ l = .requeue) (hleft : Left Q c frame s₁.chargeQuantum l next s₃)
    (hpre : l = .requeue ↔ s₁.chargeQuantum.rescheduleRequested = true ∧ tidIsReal c ∧ s₁.chargeQuantum.ready ≠ [])
    (hdrop : l = .stay → s₁.chargeQuantum.rescheduleRequested = true → tidIsReal c →
      s₃.rescheduleRequested = false ∧ (s₃.threads c).quantumTicks = 0) (hs : Calm s₁) : Charged c s₁ l s₃ := by
  have hcur₂ : s₁.chargeQuantum.currentThread = some c := (Touched.chargeQuantum hrun.current).current.trans hrun.current
  have hready : s₁.chargeQuantum.ready = s₁.ready := by
    rw [Sched.ready, (Touched.chargeQuantum hrun.current).readyQueue, Sched.ready]
  by_cases hc : tidIsReal c
  · have hq := hs.2 c hrun.current hc
    have heq := chargeQuantum_real hrun.current htid hc hrun.state hq
    have hreq : s₁.chargeQuantum.rescheduleRequested = true ↔ threadQuantumTicks ≤ (s₁.threads c).quantumTicks + 1 := by
      rw [heq]
      by_cases hfull : threadQuantumTicks ≤ (s₁.threads c).quantumTicks + 1 <;> simp [hfull, hs.1]
    rw [hreq, hready] at hpre
    refine ⟨hpre.trans and_left_comm, ?_⟩
    rcases hl with rfl | rfl
    · by_cases hfull : threadQuantumTicks ≤ (s₁.threads c).quantumTicks + 1
      · obtain ⟨h1, h2⟩ := hdrop rfl (hreq.mpr hfull) hc
        refine ⟨h1, fun d hd _ => ?_⟩
        obtain rfl : c = d := Option.some.inj (hcur₂.symm.trans (hleft.1.current.symm.trans hd))
        rw [h2]
        exact (by decide : 0 < threadQuantumTicks)
      · refine hleft.calm hcur₂ ⟨?_, fun d hd _ => ?_⟩
        · rw [← Bool.not_eq_true, hreq]; exact hfull
        · obtain rfl : c = d := Option.some.inj (hcur₂.symm.trans hd)
          rw [heq]
          simp only [Sched.setThread_self]
          exact Nat.lt_of_not_le hfull
    · obtain ⟨-, s₄, -, -, -, hd, -⟩ := hleft
      exact hd.calm
  · rw [chargeQuantum_null hrun.current htid hc hrun.lt] at hleft hpre
    exact ⟨hpre.trans ⟨fun hr => absurd hr.2.1 hc, fun hr => absurd hr.1 hc⟩, hleft.calm hrun.current hs⟩

/-- The handler of a timer interrupt: it wakes the threads whose tick has come and charges the running thread,
which then may be switched out. -/
theorem trapHandle_timer_ok (mtime : Nat) {regs : TrapFrame} (h : SchedInv Q k.sched)
    (hcur : k.sched.currentThread = some c) (hframe : frame ≠ 0)
    (hcause : regs.mcause = mcauseInterrupt ||| scauseSupervisorTimerInterrupt) :
    ∃ s₁ s₂ l next s₃ timer, (k.sched.setFrame frame fun _ => regs).wakeSleepers (k.timer.ticks + 1) = .ok s₁ ∧
      WokenSeq Q (TimerWake (k.timer.ticks + 1)) (k.sched.setFrame frame fun _ => regs) s₁ ∧
      SchedInv Q s₁ ∧ Touched c s₁ s₂ ∧ (l = .stay ∨ l = .requeue) ∧ Left Q c frame s₂ l next s₃ ∧
      (Calm s₁ → Charged c s₁ l s₃) ∧ timer.ticks = k.timer.ticks + 1 ∧
      trapHandle mtime frame (trapEnter frame regs k) =
        .ok (.resume next, { trapEnter frame regs k with sched := s₃, timer := timer }) := by
  obtain ⟨hst, -⟩ := h.started hcur
  have hinv : SchedInv Q (trapEnter frame regs k).sched := by rw [trapEnter_sched]; exact h.setFrame _
  have hreg : (trapEnter frame regs k).sched.frames frame = regs := trapEnter_frame ..
  have hst' : (trapEnter frame regs k).sched.threadsStarted = true := hst
  obtain ⟨s₁, hwake, hseq, hok₁, -⟩ := wakeSleepers_spec hinv.ok (k.timer.ticks + 1)
  have hstat := hseq.statics
  simp only [Sched.statics, Prod.mk.injEq] at hstat
  have hcur₁ : s₁.currentThread = some c := hstat.2.1.trans hcur
  have h₁ : SchedInv Q s₁ := hseq.schedInv hinv hok₁
  have hrun₁ := (h₁.started hcur₁).2
  let timer : Timer := { ticks := k.timer.ticks + 1, nextCompare := timerNextCompare mtime k.timer.nextCompare }
  let k₂ : Kernel := { trapEnter frame regs k with sched := s₁.chargeQuantum, timer := timer }
  have hcharge := Touched.chargeQuantum hcur₁
  obtain ⟨l, next, s₃, hpre, hl, hleft, hswitch, hdrop⟩ := threadMaybePreemptFromTrap_spec (Q := Q) (k := k₂)
    (hcharge.toAdjusted.schedInv h₁) (hcharge.current.trans hcur₁) hframe
  refine ⟨s₁, s₁.chargeQuantum, l, next, s₃, timer, hwake, hseq, h₁, hcharge, hl, hleft,
    .of_preempt hrun₁ (h₁.ok.tid_eq c hrun₁.lt) hl hleft hswitch hdrop, rfl, ?_⟩
  have htick : timerHandleInterrupt mtime (trapEnter frame regs k) = .ok k₂ := by
    rw [timerHandleInterrupt, threadOnTimerTick]
    simp only [hst', Bool.not_true, Bool.false_eq_true, ↓reduceIte]
    exact congrArg (· >>= _) hwake
  rw [trapHandle_timer (by rw [hreg]; exact hcause), htick]
  simp only [ok_bind, hpre, resuming_ok, k₂]

theorem takeTrap_timer_ok {mtime : Nat} {regs : TrapFrame} (h : SchedInv Q k.sched)
    (hcur : k.sched.currentThread = some c) (hframe : frame ≠ 0)
    (hcause : regs.mcause = mcauseInterrupt ||| scauseSupervisorTimerInterrupt)
    (hrun : takeTrap mtime frame regs k = .ok k') :
    ∃ s₁ s₂ l next s₃ timer, WokenSeq Q (TimerWake (k.timer.ticks + 1)) (k.sched.setFrame frame fun _ => regs) s₁ ∧
      SchedInv Q s₁ ∧ Touched c s₁ s₂ ∧ (l = .stay ∨ l = .requeue) ∧ Left Q c frame s₂ l next s₃ ∧
      (Calm s₁ → Charged c s₁ l s₃) ∧
      timer.ticks = k.timer.ticks + 1 ∧ Returned next { k with sched := s₃, timer := timer } k' := by
  obtain ⟨s₁, s₂, l, next, s₃, timer, -, hseq, h₁, hcharge, hl, hleft, hcalm, hticks, hx⟩ :=
    trapHandle_timer_ok mtime h hcur hframe hcause
  refine ⟨s₁, s₂, l, next, s₃, timer, hseq, h₁, hcharge, hl, hleft, hcalm, hticks, ?_⟩
  rw [takeTrap, hx] at hrun
  simp only [ok_bind] at hrun
  obtain ⟨⟨r, k₁⟩, hret, hrun⟩ := bind_eq_ok.mp hrun
  cases hrun
  have := trapReturnFromHandler_ok hret
  cases this with
  | supervisor => exact .supervisor
  | user hcur htask hnext hspp sie =>
    exact .user (k := { k with sched := s₃, timer := timer }) hcur htask hnext hspp sie

end QemuRtos
