import QemuRtos.SystemRun

/-!
# Where threads are

The state of a thread and its wait reason say in which queues it is, in every state of every run: once in
each of them and in no other, with the membership flags in agreement.
-/

namespace QemuRtos

open Lib

/-- The queues hold the threads that their states put there. `queues` lists the initialised wait queues. -/
structure PlacesOk (queues : List U64) (s : Sched) : Prop where
  running : s.threadsStarted = true → ∃ c, s.currentThread = some c ∧ c < threadMax ∧
    ∀ t < threadMax, (s.threads t).state = .running ↔ t = c
  ready : ∀ t, tidIsReal t → ((s.threads t).state = .ready ↔ s.ready.count t = 1) ∧
    ((s.threads t).state = .ready → (s.threads t).trapFrame ≠ 0)
  reason : ∀ t, tidIsReal t → (s.threads t).state = .blocked → (s.threads t).waitReason ≠ .none
  sleep : ∀ t, tidIsReal t → (s.threads t).state = .blocked → (s.threads t).waitReason = .sleep →
    s.sleepQueue.count t = 1 ∧ ∀ q ∈ queues, t ∉ s.waits q
  queue : ∀ t, tidIsReal t → (s.threads t).state = .blocked → (s.threads t).waitReason = .queue →
    (s.threads t).waitQueue ∈ queues ∧ (s.waits (s.threads t).waitQueue).count t = 1 ∧
      (∀ q ∈ queues, q ≠ (s.threads t).waitQueue → t ∉ s.waits q) ∧ t ∉ s.sleepQueue
  queueTimeout : ∀ t, tidIsReal t → (s.threads t).state = .blocked → (s.threads t).waitReason = .queueTimeout →
    (s.threads t).waitQueue ∈ queues ∧ (s.waits (s.threads t).waitQueue).count t = 1 ∧
      (∀ q ∈ queues, q ≠ (s.threads t).waitQueue → t ∉ s.waits q) ∧ s.sleepQueue.count t = 1
  blocked : ∀ t, tidIsReal t → (s.threads t).state = .blocked → t ∉ s.ready
  idle : ∀ t, tidIsReal t → (s.threads t).state = .running ∨ (s.threads t).state = .unused ∨
    (s.threads t).state = .exited → t ∉ s.ready ∧ t ∉ s.sleepQueue ∧ ∀ q ∈ queues, t ∉ s.waits q
  null : threadNullTid ∉ s.ready ∧ threadNullTid ∉ s.sleepQueue ∧ ∀ q ∈ queues, threadNullTid ∉ s.waits q
  readyFlag : ∀ t < threadMax, (s.threads t).inReadyQueue = true ↔ t ∈ s.ready
  sleepFlag : ∀ t < threadMax, (s.threads t).inSleepQueue = true ↔ t ∈ s.sleepQueue
  waitFlag : ∀ t < threadMax, (s.threads t).inWaitQueue = true ↔
    (s.threads t).waitQueue ∈ queues ∧ t ∈ s.waits (s.threads t).waitQueue

section

variable {Q : Set U64} {s : Sched} {t : Nat} {q : U64}

theorem List.count_eq_one_iff {l : List Nat} (h : l.Nodup) : l.count t = 1 ↔ t ∈ l := by
  rw [h.count]
  by_cases ht : t ∈ l <;> simp [ht]

theorem SchedOk.mem_ready_iff (h : SchedOk Q s) (ht : tidIsReal t) : t ∈ s.ready ↔ (s.threads t).state = .ready := by
  rw [h.mem_ready, (h.coherent t ht).in_ready]
  exact and_iff_right ht

theorem SchedOk.mem_sleep_iff (h : SchedOk Q s) (ht : tidIsReal t) : t ∈ s.sleepQueue ↔
    (s.threads t).state = .blocked ∧ ((s.threads t).waitReason = .sleep ∨ (s.threads t).waitReason = .queueTimeout) := by
  rw [h.mem_sleep, (h.coherent t ht).in_sleep]
  exact and_iff_right ht

theorem SchedOk.mem_waits_iff (h : SchedOk Q s) (ht : tidIsReal t) (hq : q ∈ Q) : t ∈ s.waits q ↔
    ((s.threads t).state = .blocked ∧
      ((s.threads t).waitReason = .queue ∨ (s.threads t).waitReason = .queueTimeout)) ∧ (s.threads t).waitQueue = q := by
  rw [h.mem_wait q hq, (h.coherent t ht).in_wait]
  exact and_iff_right ht

theorem SchedOk.waits_once (h : SchedOk Q s) (ht : tidIsReal t) (hb : (s.threads t).state = .blocked)
    (hr : (s.threads t).waitReason = .queue ∨ (s.threads t).waitReason = .queueTimeout) :
    (s.threads t).waitQueue ∈ Q ∧ (s.waits (s.threads t).waitQueue).count t = 1 ∧
      ∀ q ∈ Q, q ≠ (s.threads t).waitQueue → t ∉ s.waits q := by
  have hin := (h.coherent t ht).in_wait.mpr ⟨hb, hr⟩
  have hq := h.wait_init t ht hin
  refine ⟨hq, (List.count_eq_one_iff (h.wait_nodup _ hq)).mpr ((h.mem_waits_iff ht hq).mpr ⟨⟨hb, hr⟩, rfl⟩), ?_⟩
  intro q hqQ hne hmem
  exact hne ((h.mem_waits_iff ht hqQ).mp hmem).2.symm

theorem SchedInv.placesOk {queues : List U64} (hinv : SchedInv {q | q ∈ queues} s) : PlacesOk queues s := by
  have h := hinv.ok
  have hflags : ∀ t < threadMax, tidIsReal t ∨ t = threadNullTid := fun t => real_or_null
  have hnull : threadNullTid ∉ s.ready ∧ threadNullTid ∉ s.sleepQueue ∧ ∀ q ∈ queues, threadNullTid ∉ s.waits q := by
    refine ⟨fun hm => ?_, fun hm => ?_, fun q hq hm => ?_⟩
    · exact tidIsReal_ne_null ((h.mem_ready _).mp hm).1 rfl
    · exact tidIsReal_ne_null ((h.mem_sleep _).mp hm).1 rfl
    · exact tidIsReal_ne_null ((h.mem_wait q hq _).mp hm).1 rfl
  constructor
  · intro hst
    rcases hinv.phase with ⟨hf, -⟩ | ⟨-, c, hrun⟩
    · rw [hst] at hf; cases hf
    · exact ⟨c, hrun.current, hrun.lt, hrun.running⟩
  · intro t ht
    refine ⟨?_, fun hst => (h.coherent t ht).frame (.inl hst)⟩
    rw [List.count_eq_one_iff h.ready_nodup, h.mem_ready_iff ht]
  · exact fun t ht => (h.coherent t ht).reason
  · intro t ht hb hr
    refine ⟨(List.count_eq_one_iff h.sleep_nodup).mpr ((h.mem_sleep_iff ht).mpr ⟨hb, .inl hr⟩), fun q hq hm => ?_⟩
    have := ((h.mem_waits_iff ht hq).mp hm).1.2
    rw [hr] at this
    rcases this with h | h <;> cases h
  · intro t ht hb hr
    obtain ⟨hq, hone, hothers⟩ := h.waits_once ht hb (.inl hr)
    refine ⟨hq, hone, hothers, fun hm => ?_⟩
    have := ((h.mem_sleep_iff ht).mp hm).2
    rw [hr] at this
    rcases this with h | h <;> cases h
  · intro t ht hb hr
    obtain ⟨hq, hone, hothers⟩ := h.waits_once ht hb (.inr hr)
    exact ⟨hq, hone, hothers, (List.count_eq_one_iff h.sleep_nodup).mpr ((h.mem_sleep_iff ht).mpr ⟨hb, .inr hr⟩)⟩
  · intro t ht hb hm
    rw [h.mem_ready_iff ht, hb] at hm
    cases hm
  · intro t ht hst
    refine ⟨fun hm => ?_, fun hm => ?_, fun q hq hm => ?_⟩
    · rw [h.mem_ready_iff ht] at hm; rw [hm] at hst; rcases hst with h | h | h <;> cases h
    · have := ((h.mem_sleep_iff ht).mp hm).1; rw [this] at hst; rcases hst with h | h | h <;> cases h
    · have := ((h.mem_waits_iff ht hq).mp hm).1.1; rw [this] at hst; rcases hst with h | h | h <;> cases h
  · exact hnull
  · intro t hlt
    rcases hflags t hlt with ht | rfl
    · rw [h.mem_ready]; exact (and_iff_right ht).symm
    · exact iff_of_false (by rw [h.null.flags.1]; decide) hnull.1
  · intro t hlt
    rcases hflags t hlt with ht | rfl
    · rw [h.mem_sleep]; exact (and_iff_right ht).symm
    · exact iff_of_false (by rw [h.null.flags.2.1]; decide) hnull.2.1
  · intro t hlt
    rcases hflags t hlt with ht | rfl
    · constructor
      · intro hin
        have hq := h.wait_init t ht hin
        exact ⟨hq, (h.mem_wait _ hq t).mpr ⟨ht, hin, rfl⟩⟩
      · exact fun ⟨hq, hm⟩ => ((h.mem_wait _ hq t).mp hm).2.1
    · exact iff_of_false (by rw [h.null.flags.2.2]; decide) fun ⟨hq, hm⟩ => hnull.2.2 _ hq hm

/-! ### A switch leaves the thread -/

variable {s' : Sched} {c : Nat} {frame next : U64}

theorem Retired.current (h : Switched Q (Retired c) s s' next) : s'.currentThread ≠ some c := by
  obtain ⟨s₁, hr, hok, hh, -, -, hrun, -⟩ := h
  rw [hrun.current]
  rintro he
  have hready := hok.next_state hh
  rw [Option.some.inj he, hr.threads, Function.update_self] at hready
  cases hready

theorem Parked.current {b : Block} (h : Switched Q (Parked Q c frame b) s s' next) : s'.currentThread ≠ some c := by
  obtain ⟨s₁, hr, hok, hh, -, -, hrun, -⟩ := h
  rw [hrun.current]
  rintro he
  have hready := hok.next_state hh
  rw [Option.some.inj he, hr.threads, Function.update_self] at hready
  cases hready

theorem Requeued.current (hs : SchedOk Q s) (hc : tidIsReal c) (hst : (s.threads c).state = .running) (hne : s.ready ≠ [])
    (h : Switched Q (Requeued c frame) s s' next) : s'.currentThread ≠ some c := by
  obtain ⟨s₁, hr, -, -, -, -, hrun, -⟩ := h
  obtain ⟨d, rest, hd⟩ := List.exists_cons_of_ne_nil hne
  have hnext : s₁.next = d := by rw [Sched.next, hr.ready, hd]; rfl
  rw [hrun.current, hnext]
  rintro he
  have hmem : c ∈ s.ready := by rw [hd, Option.some.inj he]; exact List.mem_cons_self
  rw [hs.mem_ready_iff hc, hst] at hmem
  cases hmem

end

namespace System

variable {σ σ' : System} {k : Kernel} {l : List Op}

/-- The scheduler invariant, in every state of every run from boot. -/
theorem placesOk_of_runs (hf : Fresh k) (hb : boot k = .ok σ) (hr : Runs σ l σ') :
    PlacesOk σ'.queues σ'.kernel.sched :=
  (hr.sysOk (boot_ok hf hb).ok).sched.placesOk

/-- A thread sleeps, one waits, one waits with a timeout, one runs and one is ready. -/
theorem placesOk_sample : ∃ σ' : System, σ'.kernel.sched.sleepQueue = [1, 3] ∧ σ'.kernel.sched.waits 0x80011000 = [2, 3] ∧
    σ'.kernel.sched.currentThread = some 4 ∧ σ'.kernel.sched.ready = [5] ∧ PlacesOk σ'.queues σ'.kernel.sched := by
  obtain ⟨σ, σ', hb, hr, hp⟩ := runs_of_bootCheck
    (p := fun σ => σ.kernel.sched.sleepQueue = [1, 3] ∧ σ.kernel.sched.waits 0x80011000 = [2, 3] ∧
      σ.kernel.sched.currentThread = some 4 ∧ σ.kernel.sched.ready = [5])
    (l := [.threadCreate (some "a") 0x80004000 0, .threadCreate (some "b") 0x80004000 1,
      .threadCreate (some "c") 0x80004000 2, .threadCreate (some "d") 0x80004000 3,
      .threadCreate (some "e") 0x80004000 4, .waitQueueInit 0x80011000 none, .threadStart,
      .control { op := threadTrapSleep, arg0 := 5, arg1 := none } (sampleSite 1),
      .control { op := threadTrapWait, arg0 := 0x80011000, arg1 := none } (sampleSite 2),
      .control { op := threadTrapWaitTimeout, arg0 := 0x80011000, arg1 := some 7 } (sampleSite 3)])
    (k := sampleKernel) (by decide +kernel)
  obtain ⟨hsleep, hwaits, hcur, hready⟩ := of_decide_eq_true hp
  exact ⟨σ', hsleep, hwaits, hcur, hready, placesOk_of_runs sampleKernel_fresh hb hr⟩

end System

end QemuRtos
