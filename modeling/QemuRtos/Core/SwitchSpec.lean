import QemuRtos.Core.WakeSpec
import QemuRtos.Core.Thread
import QemuRtos.Lib.Transition

/-!
# Switching threads

A switch takes the running thread off the processor (`Requeued`, `Parked` or `Retired`) and then
dispatches the next one (`Dispatched`). Each half is a relation between scheduler states that every
handler establishes; between the halves no thread is running.
-/

namespace QemuRtos

open Lib

variable {Q : Set U64} {s s' s'' : Sched} {tid c : Nat} {queue frame : U64}

/-- `c` is the current thread and the only running one. -/
structure Running (c : Nat) (s : Sched) : Prop where
  current : s.currentThread = some c
  lt : c < threadMax
  running : ∀ t < threadMax, (s.threads t).state = .running ↔ t = c

/-- No thread is running. -/
def Halted (s : Sched) : Prop := ∀ t < threadMax, (s.threads t).state ≠ .running

def Sched.setDepth (s : Sched) (depth : Nat) : Sched := { s with preemptDisableDepth := depth }

theorem SchedOk.setDepth (h : SchedOk Q s) (depth : Nat) : SchedOk Q (s.setDepth depth) where
  toQueuesOk := h.toQueuesOk.congr rfl rfl (fun _ _ => rfl) fun _ _ => rfl
  coherent := h.coherent
  null := h.null
  tid_eq := h.tid_eq

theorem Running.setDepth (h : Running c s) (depth : Nat) : Running c (s.setDepth depth) :=
  ⟨h.current, h.lt, h.running⟩

theorem Running.state (h : Running c s) : (s.threads c).state = .running := (h.running c h.lt).mpr rfl

theorem Thread.Coherent.running_free {th : Thread} (h : th.Coherent) (hst : th.state = .running) :
    th.inReadyQueue = false ∧ th.inSleepQueue = false ∧ th.inWaitQueue = false ∧ th.waitQueue = 0 := by
  have hw : th.inWaitQueue = false := by rw [← Bool.not_eq_true, h.in_wait, hst]; simp
  refine ⟨?_, ?_, hw, h.no_queue hw⟩
  · rw [← Bool.not_eq_true, h.in_ready, hst]; simp
  · rw [← Bool.not_eq_true, h.in_sleep, hst]; simp

/-- Changing one real thread, and the queues with it, keeps `SchedOk` when its new record is
coherent. -/
theorem SchedOk.update (h : SchedOk Q s) (ht : tidIsReal tid) {th : Thread}
    (hthreads : s'.threads = Function.update s.threads tid th) (hq : QueuesOk Q s') (hc : th.Coherent)
    (htid : th.tid = (s.threads tid).tid) : SchedOk Q s' where
  toQueuesOk := hq
  coherent t htr := by
    rw [hthreads]
    by_cases hte : t = tid
    · subst hte; rw [Function.update_self]; exact hc
    · rw [Function.update_of_ne hte]; exact h.coherent t htr
  null := by
    rw [hthreads, Function.update_of_ne]
    · exact h.null
    · rintro rfl; simp [tidIsReal_iff, threadNullTid] at ht
  tid_eq t htm := by
    rw [hthreads]
    by_cases hte : t = tid
    · subst hte; rw [Function.update_self, htid]; exact h.tid_eq t htm
    · rw [Function.update_of_ne hte]; exact h.tid_eq t htm

theorem Running.halted (h : Running c s) {th : Thread} (hthreads : s'.threads = Function.update s.threads c th)
    (hst : th.state ≠ .running) : Halted s' := by
  intro t ht
  rw [hthreads]
  by_cases hte : t = c
  · subst hte; rw [Function.update_self]; exact hst
  · rw [Function.update_of_ne hte, ne_eq, h.running t ht]; exact hte

/-! ### Dispatching -/

def Thread.dispatched (th : Thread) : Thread :=
  { th with state := .running, quantumTicks := 0, inReadyQueue := false }

/-- The effect of switching to `next`. -/
structure Dispatched (next : Nat) (s s' : Sched) : Prop where
  threads : s'.threads = Function.update s.threads next (s.threads next).dispatched
  frames : s'.frames = s.frames
  ready : s'.ready = s.ready.tail
  sleep : s'.sleepQueue = s.sleepQueue
  waits : s'.waitQueues = s.waitQueues
  statics : s'.statics = (s.usercopyProbes, some next, s.threadsInitialized, s.threadsStarted, false,
    s.preemptDisableDepth)

/-- The thread that is dispatched next: the first ready one, else the null thread. -/
def Sched.next (s : Sched) : Nat := s.ready.headD threadNullTid

theorem Dispatched.setDepth (h : Dispatched tid s s') (depth : Nat) :
    Dispatched tid (s.setDepth depth) (s'.setDepth depth) where
  threads := h.threads
  frames := h.frames
  ready := h.ready
  sleep := h.sleep
  waits := h.waits
  statics := by
    have := h.statics
    simp only [Sched.statics, Prod.mk.injEq] at this
    simp only [Sched.statics, Sched.setDepth, this]

theorem runThread_self : (s.runThread tid).threads tid =
    { s.threads tid with state := .running, quantumTicks := 0 } :=
  Function.update_self ..

theorem runThread_of_ne {t : Nat} (ht : t ≠ tid) : (s.runThread tid).threads t = s.threads t :=
  Function.update_of_ne ht ..

theorem pickNextThread_nil (hnil : s.ready = []) : s.pickNextThread = .ok (threadNullTid, s) := by
  rw [Sched.pickNextThread, readyDequeue_nil hnil]
  rfl

theorem pickNextThread_cons (h : SchedOk Q s) {rest : List Nat} (hcons : s.ready = tid :: rest) :
    ∃ ring, s.pickNextThread =
        .ok (tid, { s with readyQueue := ring }.setThread tid fun th => { th with inReadyQueue := false }) ∧
      ring.toList queueCap = rest ∧
      QueuesOk Q ({ s with readyQueue := ring }.setThread tid fun th => { th with inReadyQueue := false }) := by
  obtain ⟨ht, hflag⟩ := (h.mem_ready tid).mp (by rw [hcons]; exact List.mem_cons_self)
  obtain ⟨ring, heq, hlist, hq⟩ :=
    readyDequeue_cons h.toQueuesOk hcons ((h.coherent tid ht).in_ready.mp hflag)
  refine ⟨ring, ?_, hlist, hq⟩
  rw [Sched.pickNextThread, heq]
  show (if tid = threadInvalidTid then _ else _) = _
  rw [if_neg (tidIsReal_ne_invalid ht)]

theorem Thread.dispatched_coherent {th : Thread} (h : th.Coherent) (hst : th.state = .ready) :
    th.dispatched.Coherent := by
  have hsl : th.inSleepQueue = false := by rw [← Bool.not_eq_true, h.in_sleep, hst]; simp
  have hw : th.inWaitQueue = false := by rw [← Bool.not_eq_true, h.in_wait, hst]; simp
  exact ⟨by simp [dispatched], by simp [dispatched, hsl], by simp [dispatched, hw], by simp [dispatched],
    fun _ => h.no_queue hw, by simp [dispatched]⟩

theorem Dispatched.isRunning (h : Dispatched tid s s') (hlt : tid < threadMax) (hh : Halted s) :
    Running tid s' where
  current := congrArg (·.2.1) h.statics
  lt := hlt
  running t ht := by
    rw [h.threads]
    by_cases hte : t = tid
    · subst hte; simp [Thread.dispatched]
    · rw [Function.update_of_ne hte]
      exact ⟨fun hr => absurd hr (hh t ht), fun he => absurd he hte⟩

theorem pickNextThread_spec (h : SchedOk Q s) (hh : Halted s) :
    ∃ s', s.pickNextThread = .ok (s.next, s') ∧ (s'.threads s.next).trapFrame = (s.threads s.next).trapFrame ∧
      (s'.threads s.next).trapFrame ≠ 0 ∧ (s'.threads s.next).tid = s.next ∧
      Dispatched s.next s (s'.runThread s.next) ∧ SchedOk Q (s'.runThread s.next) ∧
      Running s.next (s'.runThread s.next) := by
  cases hr : s.ready with
  | nil =>
    have hnext : s.next = threadNullTid := by rw [Sched.next, hr]; rfl
    have hflags := h.null.flags
    have hd : Dispatched s.next s (s.runThread s.next) := by
      rw [hnext]
      refine ⟨?_, rfl, ?_, rfl, rfl, rfl⟩
      · show Function.update s.threads threadNullTid _ = _
        rw [Thread.dispatched, ← hflags.1]
      · show s.ready = _
        rw [hr]; rfl
    refine ⟨s, by rw [pickNextThread_nil hr, hnext], rfl, by rw [hnext]; exact h.null.frame,
      h.tid_eq _ (by rw [hnext]; decide), hd, ?_, hd.isRunning (by rw [hnext]; decide) hh⟩
    rw [hnext]
    refine ⟨h.toQueuesOk.congr rfl rfl (fun _ _ => rfl) fun t ht => ?_, fun t ht => ?_, ?_, fun t ht => ?_⟩
    · have hne : t ≠ threadNullTid := by rintro rfl; simp [tidIsReal_iff, threadNullTid] at ht
      rw [runThread_of_ne hne]
    · have hne : t ≠ threadNullTid := by rintro rfl; simp [tidIsReal_iff, threadNullTid] at ht
      rw [runThread_of_ne hne]
      exact h.coherent t ht
    · rw [runThread_self]
      exact ⟨.inr rfl, hflags, h.null.frame, h.null.task⟩
    · by_cases hte : t = threadNullTid
      · subst hte; rw [runThread_self]; exact h.tid_eq _ ht
      · rw [runThread_of_ne hte]; exact h.tid_eq t ht
  | cons tid rest =>
    have hnext : s.next = tid := by rw [Sched.next, hr]; rfl
    obtain ⟨ht, hflag⟩ := (h.mem_ready tid).mp (by rw [hr]; exact List.mem_cons_self)
    have hc := h.coherent tid ht
    have hst := hc.in_ready.mp hflag
    have hlt : tid < threadMax := (tidIsReal_iff.mp ht).2
    obtain ⟨ring, heq, hlist, hq⟩ := pickNextThread_cons h hr
    rw [hnext]
    have hd : Dispatched tid s (Sched.runThread tid ({ s with readyQueue := ring }.setThread tid
        fun th => { th with inReadyQueue := false })) := by
      refine ⟨?_, rfl, ?_, rfl, rfl, rfl⟩
      · simp only [Sched.runThread, Sched.setThread, Function.update_self, Function.update_idem,
          Thread.dispatched]
      · show ring.toList queueCap = _
        rw [hlist, hr]; rfl
    refine ⟨_, heq, by rw [Sched.setThread_self], ?_, ?_, hd, ?_, hd.isRunning hlt hh⟩
    · rw [Sched.setThread_self]; exact hc.frame (.inl hst)
    · rw [Sched.setThread_self]; exact h.tid_eq tid hlt
    · refine h.update ht hd.threads ?_ (Thread.dispatched_coherent hc hst) rfl
      refine hq.congr rfl rfl (fun _ _ => rfl) fun t _ => ?_
      by_cases hte : t = tid
      · subst hte; rw [runThread_self]; rfl
      · rw [runThread_of_ne hte]

theorem dispatchNext_spec (h : SchedOk Q s) (hh : Halted s) :
    ∃ s', s.dispatchNext = .ok ((s.threads s.next).trapFrame, s') ∧ Dispatched s.next s s' ∧
      SchedOk Q s' ∧ Running s.next s' := by
  obtain ⟨s₁, heq, hframe, hnz, -, hd, hok, hrun⟩ := pickNextThread_spec h hh
  refine ⟨_, ?_, hd, hok, hrun⟩
  rw [Sched.dispatchNext, heq]
  show (if (s₁.threads s.next).trapFrame = 0 then _ else _) = _
  rw [if_neg hnz, hframe]

/-! ### Leaving the processor -/

/-- `c` goes to the end of the ready queue. -/
structure Requeued (c : Nat) (frame : U64) (s s' : Sched) : Prop where
  threads : s'.threads = Function.update s.threads c
    { (s.threads c).requeue frame (s.frames frame).sp with inReadyQueue := true }
  frames : s'.frames = s.frames
  ready : s'.ready = s.ready ++ [c]
  sleep : s'.sleepQueue = s.sleepQueue
  waits : s'.waitQueues = s.waitQueues
  statics : s'.statics = s.statics

/-- The null thread becomes ready, in no queue. -/
structure NullRequeued (frame : U64) (s s' : Sched) : Prop where
  threads : s'.threads = Function.update s.threads threadNullTid
    ((s.threads threadNullTid).requeue frame (s.frames frame).sp)
  frames : s'.frames = s.frames
  ready : s'.ready = s.ready
  sleep : s'.sleepQueue = s.sleepQueue
  waits : s'.waitQueues = s.waitQueues
  statics : s'.statics = s.statics

/-- Why a thread blocks: the wait queue it joins and the tick it is woken at, if any. -/
structure Block where
  queue : Option U64
  wakeTick : Option U64
deriving DecidableEq

def Block.reason (b : Block) : ThreadWaitReason :=
  match b.queue, b.wakeTick with
  | none, none => .none
  | none, some _ => .sleep
  | some _, none => .queue
  | some _, some _ => .queueTimeout

/-- The record of a thread that has blocked. -/
def Thread.parked (th : Thread) (frame sp : U64) (b : Block) : Thread :=
  { th.beginBlock frame sp b.reason with
    inWaitQueue := b.queue.isSome
    waitQueue := b.queue.getD 0
    inSleepQueue := b.wakeTick.isSome
    wakeTick := b.wakeTick.getD th.wakeTick }

/-- `c` blocks for `b`. -/
structure Parked (Q : Set U64) (c : Nat) (frame : U64) (b : Block) (s s' : Sched) : Prop where
  threads : s'.threads = Function.update s.threads c ((s.threads c).parked frame (s.frames frame).sp b)
  frames : s'.frames = s.frames
  ready : s'.ready = s.ready
  sleep : s'.sleepQueue = b.wakeTick.elim s.sleepQueue (s.insertSleeper c)
  waits : ∀ q ∈ Q, s'.waits q = if b.queue = some q then s.waits q ++ [c] else s.waits q
  statics : s'.statics = s.statics

/-- `c` exits. -/
structure Retired (c : Nat) (s s' : Sched) : Prop where
  threads : s'.threads = Function.update s.threads c (s.threads c).retire
  frames : s'.frames = s.frames
  ready : s'.ready = s.ready
  sleep : s'.sleepQueue = s.sleepQueue
  waits : s'.waitQueues = s.waitQueues
  statics : s'.statics = (Function.update s.usercopyProbes c noProbe, s.statics.2)

theorem Requeued.setDepth (h : Requeued c frame s s') (depth : Nat) :
    Requeued c frame (s.setDepth depth) (s'.setDepth depth) := by
  refine ⟨h.threads, h.frames, h.ready, h.sleep, h.waits, ?_⟩
  have := h.statics
  simp only [Sched.statics, Prod.mk.injEq] at this
  simp only [Sched.statics, Sched.setDepth, this]

theorem NullRequeued.setDepth (h : NullRequeued frame s s') (depth : Nat) :
    NullRequeued frame (s.setDepth depth) (s'.setDepth depth) := by
  refine ⟨h.threads, h.frames, h.ready, h.sleep, h.waits, ?_⟩
  have := h.statics
  simp only [Sched.statics, Prod.mk.injEq] at this
  simp only [Sched.statics, Sched.setDepth, this]

theorem Parked.setDepth {b : Block} (h : Parked Q c frame b s s') (depth : Nat) :
    Parked Q c frame b (s.setDepth depth) (s'.setDepth depth) := by
  refine ⟨h.threads, h.frames, h.ready, h.sleep, h.waits, ?_⟩
  have := h.statics
  simp only [Sched.statics, Prod.mk.injEq] at this
  simp only [Sched.statics, Sched.setDepth, this]

theorem Retired.setDepth (h : Retired c s s') (depth : Nat) :
    Retired c (s.setDepth depth) (s'.setDepth depth) := by
  refine ⟨h.threads, h.frames, h.ready, h.sleep, h.waits, ?_⟩
  have := h.statics
  simp only [Sched.statics, Prod.mk.injEq] at this
  simp only [Sched.statics, Sched.setDepth, this]

/-- The running thread leaves as `R` says, and then the next thread is dispatched; the frame to
resume is the saved one of that thread. -/
def Switched (Q : Set U64) (R : Sched → Sched → Prop) (s s' : Sched) (frame : U64) : Prop :=
  ∃ s₁, R s s₁ ∧ SchedOk Q s₁ ∧ Halted s₁ ∧ Dispatched s₁.next s₁ s' ∧ SchedOk Q s' ∧
    Running s₁.next s' ∧ frame = (s₁.threads s₁.next).trapFrame

/-- What follows the first half of a switch inside the handlers, which count a preemption level. -/
theorem switch_finish {R : Sched → Sched → Prop}
    (hR : ∀ {s s'}, R s s' → ∀ depth, R (s.setDepth depth) (s'.setDepth depth))
    {s₁ : Sched} (h : R s.preemptDisable s₁) (hok : SchedOk Q s₁) (hh : Halted s₁)
    (hdepth : s₁.preemptDisableDepth = s.preemptDisableDepth + 1) :
    ∃ frame s₂, s₁.dispatchNext = .ok (frame, s₂) ∧
      s₂.preemptDisableDepth = s.preemptDisableDepth + 1 ∧
      s₂.preemptEnable = .ok (s₂.setDepth s.preemptDisableDepth) ∧
      Switched Q R s (s₂.setDepth s.preemptDisableDepth) frame := by
  obtain ⟨s₂, heq, hd, hok₂, hrun⟩ := dispatchNext_spec hok hh
  have hdepth₂ : s₂.preemptDisableDepth = s.preemptDisableDepth + 1 := by
    rw [← hdepth]
    exact congrArg (·.2.2.2.2.2) hd.statics
  refine ⟨_, s₂, heq, hdepth₂, ?_, s₁.setDepth s.preemptDisableDepth, hR h _, hok.setDepth _, hh,
    hd.setDepth _, hok₂.setDepth _, hrun.setDepth _, rfl⟩
  rw [Sched.preemptEnable, hdepth₂, if_neg (Nat.succ_ne_zero _)]
  rfl

section

variable (h : SchedOk Q s) (hrun : Running c s) (hc : tidIsReal c) (hframe : frame ≠ 0)
include h hrun hc hframe

theorem requeueCurrent_spec :
    ∃ s', requeueCurrent frame c s = .ok s' ∧ Requeued c frame s s' ∧ SchedOk Q s' ∧ Halted s' := by
  obtain ⟨hr, hsl, hw, hb⟩ := (h.coherent c hc).running_free hrun.state
  have hne : c ≠ threadNullTid := by rintro rfl; simp [tidIsReal_iff, threadNullTid] at hc
  have hq₁ : QueuesOk Q (s.setThread c (Thread.requeue frame (s.frames frame).sp)) :=
    h.toQueuesOk.setThread _ _ rfl
  obtain ⟨s', heq, hw', he⟩ := readyEnqueue_spec hq₁ hc (by simp [Thread.requeue])
    (by simpa [Thread.requeue] using hr) (by simpa [Thread.requeue] using hsl)
    (by simpa [Thread.requeue] using hw)
  have hR : Requeued c frame s s' := by
    refine ⟨?_, he.frames, he.ready, he.sleep, hw', he.statics⟩
    rw [he.threads, Sched.setThread_self]
    exact Function.update_idem ..
  refine ⟨s', ?_, hR, h.update hc hR.threads he.ok ⟨by simp [Thread.requeue], by simp [Thread.requeue, hsl],
    by simp [Thread.requeue, hw], by simp [Thread.requeue], fun _ => hb, fun _ => hframe⟩ rfl,
    hrun.halted hR.threads (by simp [Thread.requeue])⟩
  rw [requeueCurrent, h.tid_eq c hrun.lt, if_neg hne]
  have htid : ((s.setThread c (Thread.requeue frame (s.frames frame).sp)).threads c).tid = c := by
    rw [Sched.setThread_self]
    exact h.tid_eq c hrun.lt
  simp only [htid]
  exact heq

omit hrun hc h in
theorem Thread.parked_coherent {th : Thread} (hr : th.inReadyQueue = false) {b : Block}
    (hb : b.queue.isSome ∨ b.wakeTick.isSome) (sp : U64) : (th.parked frame sp b).Coherent := by
  obtain ⟨queue, wakeTick⟩ := b
  cases queue <;> cases wakeTick <;>
    exact ⟨by simp [Thread.parked, Thread.beginBlock, hr], by simp [Thread.parked, Thread.beginBlock, Block.reason],
      by simp [Thread.parked, Thread.beginBlock, Block.reason],
      by simp_all [Thread.parked, Thread.beginBlock, Block.reason], by simp [Thread.parked], fun _ => hframe⟩

omit h hrun hc hframe in
theorem insertSleeper_congr {wakeTick : U64} (hsl : s'.sleepQueue = s.sleepQueue)
    (ht : ∀ t ∈ s.sleepQueue, (s'.threads t).wakeTick = (s.threads t).wakeTick) :
    s'.insertSleeper c wakeTick = s.insertSleeper c wakeTick := by
  obtain ⟨h1, h2⟩ := split_congr (l := s.sleepQueue) (p := fun i => (s'.threads i).wakeTick ≤ wakeTick)
    (q := fun i => (s.threads i).wakeTick ≤ wakeTick) fun i hi => by rw [ht i hi]
  rw [Sched.insertSleeper, hsl, h1, h2]
  rfl

theorem parkSleep_spec (wakeTick : U64) :
    ∃ s', (s.setThread c (Thread.beginBlock frame (s.frames frame).sp .sleep)).sleepEnqueue c wakeTick =
        .ok s' ∧
      Parked Q c frame ⟨none, some wakeTick⟩ s s' ∧ SchedOk Q s' ∧ Halted s' := by
  obtain ⟨hr, hsl, hw, hb⟩ := (h.coherent c hc).running_free hrun.state
  have hnot : c ∉ s.sleepQueue := by rw [h.mem_sleep]; simp [hsl]
  obtain ⟨s', heq, he⟩ := sleepEnqueue_spec (h.toQueuesOk.setThread c
    (Thread.beginBlock frame (s.frames frame).sp .sleep) rfl) hc (by simp [Thread.beginBlock])
    (by simpa [Thread.beginBlock] using hr) (by simpa [Thread.beginBlock] using hsl)
    (by simp [Thread.beginBlock]) wakeTick
  have hR : Parked Q c frame ⟨none, some wakeTick⟩ s s' := by
    refine ⟨?_, he.frames, he.ready, ?_, fun q hq => ?_, he.statics⟩
    · rw [he.threads, Sched.setThread_self]
      refine (Function.update_idem ..).trans ?_
      simp only [Thread.parked, Thread.beginBlock, Block.reason, Option.isSome_none, Option.getD_none,
        Option.isSome_some, Option.getD_some, hw, hb]
    · rw [he.sleep]
      refine insertSleeper_congr rfl fun t ht => ?_
      have hte : t ≠ c := fun hte => hnot (hte ▸ ht)
      rw [Sched.setThread_of_ne _ _ _ hte]
    · rw [he.waits q hq, if_neg (by simp)]
      rfl
  exact ⟨s', heq, hR, h.update hc hR.threads he.ok (Thread.parked_coherent hframe hr (by simp) _) rfl,
    hrun.halted hR.threads (by simp [Thread.parked, Thread.beginBlock])⟩

/-- The wake tick of a wait with a timeout; zero ticks mean no timeout. -/
def timeoutTick (now ticks : U64) : Option U64 := if ticks = 0 then none else some (now + ticks)

theorem parkWait_spec (hq : queue ∈ Q) (now ticks : U64) :
    ∃ s₁ s', (s.setThread c (Thread.beginBlock frame (s.frames frame).sp
        (if ticks = 0 then .queue else .queueTimeout))).waitEnqueue queue c = .ok s₁ ∧
      s₁.sleepEnqueueIfTimed ticks c (now + ticks) = .ok s' ∧ (s₁.threads c).tid = c ∧
      Parked Q c frame ⟨some queue, timeoutTick now ticks⟩ s s' ∧ SchedOk Q s' ∧ Halted s' := by
  obtain ⟨hr, hsl, hw, hb⟩ := (h.coherent c hc).running_free hrun.state
  have hnot : c ∉ s.sleepQueue := by rw [h.mem_sleep]; simp [hsl]
  obtain ⟨s₁, heq, he⟩ := waitEnqueue_spec (h.toQueuesOk.setThread c
    (Thread.beginBlock frame (s.frames frame).sp (if ticks = 0 then .queue else .queueTimeout)) rfl) hc hq
    (by simp [Thread.beginBlock]) (by simpa [Thread.beginBlock] using hr)
    (by simpa [Thread.beginBlock] using hw) (by simpa [Thread.beginBlock] using hb)
    (by simp only [Sched.setThread_self, Thread.beginBlock]; split <;> simp)
  have hself : s₁.threads c = { (s.threads c).beginBlock frame (s.frames frame).sp
      (if ticks = 0 then .queue else .queueTimeout) with inWaitQueue := true, waitQueue := queue } := by
    rw [he.threads, Function.update_self, Sched.setThread_self]
  have hthreads : ∀ th, Function.update s₁.threads c th = Function.update s.threads c th := by
    intro th
    rw [he.threads, Function.update_idem]
    exact Function.update_idem ..
  have hwaits : ∀ q ∈ Q, s₁.waits q = if some queue = some q then s.waits q ++ [c] else s.waits q := by
    intro q hq
    rw [he.waits q hq]
    simp only [Option.some.injEq, eq_comm (a := q)]
    rfl
  have htid : (s₁.threads c).tid = c := by rw [hself]; exact h.tid_eq c hrun.lt
  by_cases ht : ticks = 0
  · have hR : Parked Q c frame ⟨some queue, timeoutTick now ticks⟩ s s₁ := by
      refine ⟨?_, he.frames, he.ready, ?_, hwaits, he.statics⟩
      · have := hthreads (s₁.threads c)
        rw [Function.update_eq_self] at this
        rw [this, hself]
        simp only [ht, timeoutTick, Thread.parked, Thread.beginBlock, Block.reason, Option.isSome_none,
          Option.getD_none, Option.isSome_some, Option.getD_some, hsl, if_true]
      · simp only [he.sleep, timeoutTick, ht, if_true]; rfl
    exact ⟨s₁, s₁, heq, if_neg (by simpa using ht), htid, hR,
      h.update hc hR.threads he.ok (Thread.parked_coherent hframe hr (by simp) _) rfl,
      hrun.halted hR.threads (by simp [Thread.parked, Thread.beginBlock])⟩
  · obtain ⟨s', heq', he'⟩ := sleepEnqueue_spec he.ok hc (by rw [hself]; simp [Thread.beginBlock])
      (by rw [hself]; simpa [Thread.beginBlock] using hr) (by rw [hself]; simpa [Thread.beginBlock] using hsl)
      (by rw [hself]; exact .inr (if_neg ht)) (now + ticks)
    have hR : Parked Q c frame ⟨some queue, timeoutTick now ticks⟩ s s' := by
      refine ⟨?_, he'.frames.trans he.frames, he'.ready.trans he.ready, ?_, fun q hq => ?_,
        he'.statics.trans he.statics⟩
      · rw [he'.threads, hthreads, hself]
        simp only [ht, timeoutTick, Thread.parked, Thread.beginBlock, Block.reason,
          Option.isSome_some, Option.getD_some, if_false]
      · simp only [he'.sleep, timeoutTick, ht, if_false]
        refine insertSleeper_congr he.sleep fun t htm => ?_
        have hte : t ≠ c := fun hte => hnot (hte ▸ htm)
        rw [he.threads, Function.update_of_ne hte, Sched.setThread_of_ne _ _ _ hte]
      · rw [he'.waits q hq, hwaits q hq]
    exact ⟨s₁, s', heq, (if_pos (by simpa using ht)).trans heq', htid, hR,
      h.update hc hR.threads he'.ok (Thread.parked_coherent hframe hr (by simp) _) rfl,
      hrun.halted hR.threads (by simp [Thread.parked, Thread.beginBlock])⟩

end

/-! ### The handlers -/

theorem sleepCurrentFromTrap_spec {k : Kernel} (h : SchedOk Q k.sched) (hrun : Running c k.sched)
    (hc : tidIsReal c) (hframe : frame ≠ 0) (ticks : U64) :
    ∃ next s', sleepCurrentFromTrap frame ticks k = .ok (next, { k with sched := s' }) ∧
      Switched Q (Parked Q c frame ⟨none, some (k.timer.ticks + ticks)⟩) k.sched s' next := by
  have hne : c ≠ threadNullTid := by rintro rfl; simp [tidIsReal_iff, threadNullTid] at hc
  obtain ⟨s₁, hpark, hR, hok, hh⟩ := parkSleep_spec (h.setDepth (k.sched.preemptDisableDepth + 1))
    (hrun.setDepth _) hc hframe (k.timer.ticks + ticks)
  obtain ⟨next, s₂, hdisp, -, henable, hsw⟩ := switch_finish (fun hp d => hp.setDepth d) hR hok hh
    (congrArg (·.2.2.2.2.2) hR.statics)
  refine ⟨next, _, ?_, hsw⟩
  have hcur : k.sched.preemptDisable.currentThread = some c := hrun.current
  have hst : (k.sched.preemptDisable.threads c).state = .running := hrun.state
  have htid : (k.sched.preemptDisable.threads c).tid = c := h.tid_eq c hrun.lt
  have htid' : ((k.sched.preemptDisable.setThread c (Thread.beginBlock frame
      (k.sched.preemptDisable.frames frame).sp .sleep)).threads c).tid = c := by
    rw [Sched.setThread_self]; exact htid
  have hpark : (k.sched.preemptDisable.setThread c (Thread.beginBlock frame
      (k.sched.preemptDisable.frames frame).sp .sleep)).sleepEnqueue c (k.timer.ticks + ticks) = .ok s₁ :=
    hpark
  simp only [sleepCurrentFromTrap, Kernel.irqSave, hcur, hst, htid, htid', hne, ne_eq, not_true_eq_false,
    ↓reduceIte, hpark, hdisp, henable, bind, Except.bind]
  rfl

theorem blockCurrentFromTrap_spec {k : Kernel} (h : SchedOk Q k.sched) (hrun : Running c k.sched)
    (hc : tidIsReal c) (hframe : frame ≠ 0) (hq : queue ∈ Q) (ticks : U64) :
    ∃ next s', blockCurrentFromTrap frame queue ticks k = .ok (next, { k with sched := s' }) ∧
      Switched Q (Parked Q c frame ⟨some queue, timeoutTick k.timer.ticks ticks⟩) k.sched s' next := by
  have hne : c ≠ threadNullTid := by rintro rfl; simp [tidIsReal_iff, threadNullTid] at hc
  obtain ⟨s₀, s₁, hwait, hsleep, htid₀, hR, hok, hh⟩ := parkWait_spec
    (h.setDepth (k.sched.preemptDisableDepth + 1)) (hrun.setDepth _) hc hframe hq k.timer.ticks ticks
  obtain ⟨next, s₂, hdisp, -, henable, hsw⟩ := switch_finish (fun hp d => hp.setDepth d) hR hok hh
    (congrArg (·.2.2.2.2.2) hR.statics)
  refine ⟨next, _, ?_, hsw⟩
  have hcur : k.sched.preemptDisable.currentThread = some c := hrun.current
  have hst : (k.sched.preemptDisable.threads c).state = .running := hrun.state
  have htid : (k.sched.preemptDisable.threads c).tid = c := h.tid_eq c hrun.lt
  have htid' : ((k.sched.preemptDisable.setThread c (Thread.beginBlock frame
      (k.sched.preemptDisable.frames frame).sp (if ticks = 0 then .queue else .queueTimeout))).threads
        c).tid = c := by
    rw [Sched.setThread_self]; exact htid
  have hwait : (k.sched.preemptDisable.setThread c (Thread.beginBlock frame
      (k.sched.preemptDisable.frames frame).sp (if ticks = 0 then .queue else .queueTimeout))).waitEnqueue
        queue c = .ok s₀ :=
    hwait
  simp only [blockCurrentFromTrap, Kernel.irqSave, hcur, hst, htid, htid', htid₀, hne, ne_eq,
    not_true_eq_false, ↓reduceIte, hwait, hsleep, hdisp, henable, bind, Except.bind]
  rfl

theorem switchToNextFromTrap_requeue {k : Kernel} (h : SchedOk Q k.sched) (hrun : Running c k.sched)
    (hc : tidIsReal c) (hframe : frame ≠ 0) :
    ∃ next s', switchToNextFromTrap frame true k = .ok (next, { k with sched := s' }) ∧
      Switched Q (Requeued c frame) k.sched s' next := by
  obtain ⟨s₁, hreq, hR, hok, hh⟩ := requeueCurrent_spec (h.setDepth (k.sched.preemptDisableDepth + 1))
    (hrun.setDepth _) hc hframe
  obtain ⟨next, s₂, hdisp, -, henable, hsw⟩ := switch_finish (fun hp d => hp.setDepth d) hR hok hh
    (congrArg (·.2.2.2.2.2) hR.statics)
  refine ⟨next, _, ?_, hsw⟩
  have hcur : k.sched.preemptDisable.currentThread = some c := hrun.current
  have hst : (k.sched.preemptDisable.threads c).state = .running := hrun.state
  have hreq : requeueCurrent frame c k.sched.preemptDisable = .ok s₁ := hreq
  simp only [switchToNextFromTrap, Kernel.irqSave, hcur, hst, ne_eq, not_true_eq_false, ↓reduceIte,
    leaveCurrent, hreq, hdisp, henable, destroyExitedTask, bind, Except.bind]
  rfl

theorem switchNullToNextFromTrap_spec {k : Kernel} (h : SchedOk Q k.sched)
    (hrun : Running threadNullTid k.sched) (hready : k.sched.ready ≠ []) (hframe : frame ≠ 0) :
    ∃ next s', switchNullToNextFromTrap frame k = .ok (next, { k with sched := s' }) ∧
      Switched Q (NullRequeued frame) k.sched s' next := by
  let s := k.sched.preemptDisable
  let s₁ := s.setThread threadNullTid (Thread.requeue frame (s.frames frame).sp)
  have hR : NullRequeued frame s s₁ := ⟨rfl, rfl, rfl, rfl, rfl, rfl⟩
  have hok : SchedOk Q s₁ := by
    have hs : SchedOk Q s := h.setDepth _
    refine ⟨hs.toQueuesOk.setThread _ _ rfl, fun t ht => ?_, ?_, fun t ht => ?_⟩
    · have hne : t ≠ threadNullTid := by rintro rfl; simp [tidIsReal_iff, threadNullTid] at ht
      simp only [s₁, Sched.setThread_of_ne _ _ _ hne]
      exact hs.coherent t ht
    · simp only [s₁, Sched.setThread_self]
      exact ⟨.inl rfl, hs.null.flags, hframe, hs.null.task⟩
    · by_cases hte : t = threadNullTid
      · subst hte; simp only [s₁, Sched.setThread_self]; exact hs.tid_eq _ ht
      · simp only [s₁, Sched.setThread_of_ne _ _ _ hte]; exact hs.tid_eq t ht
  have hh : Halted s₁ := Running.halted (hrun.setDepth _) hR.threads (by simp [Thread.requeue])
  obtain ⟨s₂, hpick, hframe₂, hnz, htid, hd, hok₂, hrun₂⟩ := pickNextThread_spec hok hh
  have hreal : tidIsReal s₁.next := by
    have hr : s₁.ready = k.sched.ready := rfl
    obtain ⟨tid, rest, hcons⟩ := List.exists_cons_of_ne_nil hready
    rw [Sched.next, hr, hcons]
    exact h.toQueuesOk.ready_real (by rw [hcons]; exact List.mem_cons_self)
  have hnext : s₁.next ≠ threadNullTid := by
    intro he; rw [he] at hreal; simp [tidIsReal_iff, threadNullTid] at hreal
  have hframe₃ : ((s₂.runThread s₁.next).threads s₁.next).trapFrame = (s₁.threads s₁.next).trapFrame := by
    rw [runThread_self]; exact hframe₂
  have hdepth : (s₂.runThread s₁.next).preemptDisableDepth = k.sched.preemptDisableDepth + 1 :=
    congrArg (·.2.2.2.2.2) hd.statics
  refine ⟨(s₁.threads s₁.next).trapFrame, (s₂.runThread s₁.next).setDepth k.sched.preemptDisableDepth, ?_,
    s₁.setDepth k.sched.preemptDisableDepth, hR.setDepth _, hok.setDepth _, hh, hd.setDepth _,
    hok₂.setDepth _, hrun₂.setDepth _, rfl⟩
  have hcur : k.sched.preemptDisable.currentThread = some threadNullTid := hrun.current
  have hst : (k.sched.preemptDisable.threads threadNullTid).state = .running := hrun.state
  have htid₀ : (k.sched.preemptDisable.threads threadNullTid).tid = threadNullTid := h.tid_eq _ hrun.lt
  have hpick : (k.sched.preemptDisable.setThread threadNullTid (Thread.requeue frame
      (k.sched.preemptDisable.frames frame).sp)).pickNextThread = .ok (s₁.next, s₂) := hpick
  have henable : (s₂.runThread s₁.next).preemptEnable =
      .ok ((s₂.runThread s₁.next).setDepth k.sched.preemptDisableDepth) := by
    rw [Sched.preemptEnable, hdepth, if_neg (Nat.succ_ne_zero _)]
    rfl
  simp only [switchNullToNextFromTrap, Kernel.irqSave, hcur, hst, htid₀, ne_eq, not_true_eq_false, or_self,
    ↓reduceIte, hpick, htid, hnext, hnz, hframe₃, henable, bind, Except.bind]
  rfl

/-! ### Exit -/

theorem userTaskMarkExited_ready {task code : U64} {k : Kernel} (h : userTaskIsReady task k) :
    userTaskMarkExited task code k = (0, k.setTask task fun t => { t with state := .exited, exitCode := code }) :=
  if_neg (by simp [h])

theorem userTaskMarkExited_not_ready {task code : U64} {k : Kernel} (h : userTaskIsReady task k = false) :
    userTaskMarkExited task code k = (-1, k) :=
  if_pos (by simp [h])

theorem exitUserTask_eq {task : U64} {k k' : Kernel} (h : exitUserTask frame task k = .ok k') :
    k' = { k with tasks := k'.tasks } := by
  rw [exitUserTask] at h
  split at h
  · cases h; rfl
  · cases hr : userTaskIsReady task k
    · simp [userTaskMarkExited_not_ready hr] at h
    · simp only [userTaskMarkExited_ready hr] at h
      split at h
      · cases h
      · cases h; rfl

theorem userTaskReleaseResources_eq {task : U64} {k k' : Kernel}
    (h : userTaskReleaseResources task k = .ok k') :
    k' = { k with machine := k'.machine, tasks := k'.tasks } := by
  simp only [userTaskReleaseResources, bind_eq_ok] at h
  obtain ⟨m₁, -, m₂, -, m₃, -, m₄, -, h⟩ := h
  cases h
  rfl

theorem destroyExitedTask_eq {task : U64} {k k' : Kernel} (h : destroyExitedTask task k = .ok k') :
    k' = { k with machine := k'.machine, tasks := k'.tasks } := by
  rw [destroyExitedTask] at h
  split at h
  · cases h; rfl
  · obtain ⟨⟨result, k₁⟩, h₁, h⟩ := bind_eq_ok.mp h
    simp only at h
    split at h
    · cases h
    · cases h
      rw [userTaskDestroy] at h₁
      split at h₁
      · cases h₁; rfl
      · obtain ⟨k₂, h₂, h₁⟩ := bind_eq_ok.mp h₁
        cases h₁
        rw [userTaskReleaseResources_eq h₂]
        rfl

/-- The exit of the running thread: a switch, with the end of its user task around it. -/
theorem switchToNextFromTrap_exit (frame : U64) {k : Kernel} (h : SchedOk Q k.sched) (hrun : Running c k.sched)
    (hc : tidIsReal c) :
    ∃ next s', Switched Q (Retired c) k.sched s' next ∧
      switchToNextFromTrap frame false k = (do
        let k₁ ← exitUserTask frame (k.sched.threads c).userTask
          { k.irqSave.2 with sched := k.sched.preemptDisable }
        let k₂ ← destroyExitedTask (k.sched.threads c).userTask
          { k₁ with sched := s'.setDepth (k.sched.preemptDisableDepth + 1) }
        .ok (next, Kernel.irqRestore { k₂ with sched := s' } k.machine.sie)) := by
  have hne : c ≠ threadNullTid := by rintro rfl; simp [tidIsReal_iff, threadNullTid] at hc
  let s := k.sched.preemptDisable
  have hs : SchedOk Q s := h.setDepth _
  have hrun' : Running c s := hrun.setDepth _
  let s₁ := (s.setThread c Thread.retire).usercopyProbeClear c
  have hvalid : tidIsValid c = true := by simpa [tidIsValid] using hrun.lt
  have hs₁ : s₁ = { s.setThread c Thread.retire with
      usercopyProbes := Function.update s.usercopyProbes c noProbe } := by
    simp only [s₁, Sched.usercopyProbeClear, hvalid, if_true, Sched.setThread_usercopyProbes]
  have hR : Retired c s s₁ := by
    rw [hs₁]
    exact ⟨rfl, rfl, rfl, rfl, rfl, rfl⟩
  obtain ⟨hr, hsl, hw, hb⟩ := (hs.coherent c hc).running_free hrun'.state
  have hq : QueuesOk Q s₁ := by
    have := hs.toQueuesOk.setThread c Thread.retire (by
      simp only [Thread.membership, Thread.retire, hr, hsl, hw, hb])
    rw [hs₁]
    exact this.congr rfl rfl (fun _ _ => rfl) fun _ _ => rfl
  have hok : SchedOk Q s₁ := hs.update hc hR.threads hq
    ⟨by simp [Thread.retire], by simp [Thread.retire], by simp [Thread.retire], by simp [Thread.retire],
      fun _ => rfl, by simp [Thread.retire]⟩ rfl
  have hh : Halted s₁ := hrun'.halted hR.threads (by simp [Thread.retire])
  obtain ⟨next, s₂, hdisp, hdepth, henable, hsw⟩ := switch_finish (fun hp d => hp.setDepth d) hR hok hh
    (congrArg (·.2.2.2.2.2) hR.statics)
  have hs₂ : (s₂.setDepth k.sched.preemptDisableDepth).setDepth (k.sched.preemptDisableDepth + 1) = s₂ := by
    rw [← hdepth]; rfl
  refine ⟨next, _, hsw, ?_⟩
  have hcur : k.sched.preemptDisable.currentThread = some c := hrun.current
  have hst : (k.sched.preemptDisable.threads c).state = .running := hrun.state
  have htid : (k.sched.preemptDisable.threads c).tid = c := h.tid_eq c hrun.lt
  have htask : (k.sched.preemptDisable.threads c).userTask = (k.sched.threads c).userTask := rfl
  simp only [switchToNextFromTrap, Kernel.irqSave, hcur, hst, ne_eq, not_true_eq_false, ↓reduceIte,
    leaveCurrent, Bool.false_eq_true, retireCurrent, htid, hne, htask, hs₂]
  cases hexit : exitUserTask frame (k.sched.threads c).userTask
      { k with machine := { k.machine with sie := false }, sched := k.sched.preemptDisable } with
  | error e => rfl
  | ok k₁ =>
    have hk₁ : k₁.sched = s := by rw [exitUserTask_eq hexit]
    have hdisp : (Sched.usercopyProbeClear c (k₁.sched.setThread c Thread.retire)).dispatchNext =
        .ok (next, s₂) := by rw [hk₁]; exact hdisp
    simp only [ok_bind, hdisp]
    cases hdestroy : destroyExitedTask (k.sched.threads c).userTask { k₁ with sched := s₂ } with
    | error e => rfl
    | ok k₂ =>
      have hk₂ : k₂.sched = s₂ := by rw [destroyExitedTask_eq hdestroy]
      simp only [ok_bind, hk₂, henable]

end QemuRtos
