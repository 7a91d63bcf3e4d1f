import QemuRtos.Core.Sched

/-!
# What the queue helpers do

`QueuesOk` says that the three kinds of queues hold exactly the threads whose membership flags say
so, each once; `SchedOk` adds that the flags are what the thread's state and wait reason say. Every
helper, called where its guards hold, returns and keeps `QueuesOk`. `Woken` and `Dispatched` are the
whole effects of waking a thread and of switching to the next one.
-/

namespace QemuRtos

open Lib

/-- The ready queue, next thread first. -/
def Sched.ready (s : Sched) : List Nat := s.readyQueue.toList queueCap

/-- The waiters of a queue, longest-waiting first. -/
def Sched.waits (s : Sched) (queue : U64) : List Nat := (s.waitQueues queue).ring.toList queueCap

/-- The static variables that queue helpers leave alone. -/
def Sched.statics (s : Sched) : (Nat → UsercopyProbe) × Option Nat × Bool × Bool × Bool × Nat :=
  (s.usercopyProbes, s.currentThread, s.threadsInitialized, s.threadsStarted, s.rescheduleRequested,
    s.preemptDisableDepth)

theorem tidIsReal_iff {tid : Nat} : tidIsReal tid = true ↔ 0 < tid ∧ tid < 8 := by
  show (decide (0 < tid) && decide (tid < 8)) = true ↔ _
  simp

theorem tidIsReal_ne_invalid {tid : Nat} (h : tidIsReal tid) : tid ≠ threadInvalidTid := by
  have := tidIsReal_iff.mp h
  simp only [threadInvalidTid]
  omega

/-- Distinct real threads that leave one out do not fill a queue. -/
theorem length_lt_queueCap {l : List Nat} {tid : Nat} (hnd : l.Nodup) (hl : ∀ t ∈ l, tidIsReal t)
    (ht : tidIsReal tid) (hnot : tid ∉ l) : l.length < queueCap := by
  have hsub : tid :: l ⊆ List.range' 1 7 := by
    intro t hmem
    have hreal : tidIsReal t := by
      rcases List.mem_cons.mp hmem with rfl | h
      · exact ht
      · exact hl t h
    have := tidIsReal_iff.mp hreal
    simp only [List.mem_range'_1]
    omega
  have hle := (List.nodup_cons.mpr ⟨hnot, hnd⟩).subperm hsub |>.length_le
  simp only [List.length_cons, List.length_range'] at hle
  exact hle

/-- The membership fields of a thread: its flags and the queue it points back to. -/
def Thread.membership (th : Thread) : Bool × Bool × Bool × U64 :=
  (th.inReadyQueue, th.inSleepQueue, th.inWaitQueue, th.waitQueue)

/-- The queues hold the threads that are flagged as members, each once. `Q` lists the initialised
wait queues. -/
structure QueuesOk (Q : Set U64) (s : Sched) : Prop where
  ready_wf : s.readyQueue.WF queueCap
  ready_nodup : s.ready.Nodup
  mem_ready : ∀ t, t ∈ s.ready ↔ tidIsReal t ∧ (s.threads t).inReadyQueue
  sleep_nodup : s.sleepQueue.Nodup
  mem_sleep : ∀ t, t ∈ s.sleepQueue ↔ tidIsReal t ∧ (s.threads t).inSleepQueue
  wait_wf : ∀ q ∈ Q, (s.waitQueues q).ring.WF queueCap
  wait_nodup : ∀ q ∈ Q, (s.waits q).Nodup
  mem_wait : ∀ q ∈ Q, ∀ t, t ∈ s.waits q ↔
    tidIsReal t ∧ (s.threads t).inWaitQueue ∧ (s.threads t).waitQueue = q
  wait_init : ∀ t, tidIsReal t → (s.threads t).inWaitQueue → (s.threads t).waitQueue ∈ Q
  zero_notMem : 0 ∉ Q

/-- The membership flags of a thread are what its state and wait reason say. -/
structure Thread.Coherent (th : Thread) : Prop where
  in_ready : th.inReadyQueue = true ↔ th.state = .ready
  in_sleep : th.inSleepQueue = true ↔
    th.state = .blocked ∧ (th.waitReason = .sleep ∨ th.waitReason = .queueTimeout)
  in_wait : th.inWaitQueue = true ↔
    th.state = .blocked ∧ (th.waitReason = .queue ∨ th.waitReason = .queueTimeout)
  reason : th.state = .blocked → th.waitReason ≠ .none
  no_queue : th.inWaitQueue = false → th.waitQueue = 0
  frame : th.state = .ready ∨ th.state = .blocked → th.trapFrame ≠ 0

/-- The null thread is ready or running and in no queue. -/
structure Thread.NullOk (th : Thread) : Prop where
  state : th.state = .ready ∨ th.state = .running
  flags : th.inReadyQueue = false ∧ th.inSleepQueue = false ∧ th.inWaitQueue = false
  frame : th.trapFrame ≠ 0
  task : th.userTask = 0

structure SchedOk (Q : Set U64) (s : Sched) : Prop extends QueuesOk Q s where
  coherent : ∀ t, tidIsReal t → (s.threads t).Coherent
  null : (s.threads threadNullTid).NullOk
  tid_eq : ∀ t < threadMax, (s.threads t).tid = t

variable {Q : Set U64} {s s' : Sched} {tid : Nat} {queue : U64}

theorem QueuesOk.congr (h : QueuesOk Q s) (hr : s'.readyQueue = s.readyQueue)
    (hsl : s'.sleepQueue = s.sleepQueue) (hw : ∀ q ∈ Q, (s'.waitQueues q).ring = (s.waitQueues q).ring)
    (hm : ∀ t, tidIsReal t → (s'.threads t).membership = (s.threads t).membership) : QueuesOk Q s' := by
  have hready : s'.ready = s.ready := by rw [Sched.ready, hr, Sched.ready]
  have hwaits : ∀ q ∈ Q, s'.waits q = s.waits q := fun q hq => by rw [Sched.waits, hw q hq, Sched.waits]
  simp only [Thread.membership, Prod.mk.injEq] at hm
  constructor
  · rw [hr]; exact h.ready_wf
  · rw [hready]; exact h.ready_nodup
  · intro t
    rw [hready, h.mem_ready]
    exact and_congr_right fun ht => by rw [(hm t ht).1]
  · rw [hsl]; exact h.sleep_nodup
  · intro t
    rw [hsl, h.mem_sleep]
    exact and_congr_right fun ht => by rw [(hm t ht).2.1]
  · intro q hq; rw [hw q hq]; exact h.wait_wf q hq
  · intro q hq; rw [hwaits q hq]; exact h.wait_nodup q hq
  · intro q hq t
    rw [hwaits q hq, h.mem_wait q hq]
    exact and_congr_right fun ht => by rw [(hm t ht).2.2.1, (hm t ht).2.2.2]
  · intro t ht hin
    rw [(hm t ht).2.2.2]
    exact h.wait_init t ht ((hm t ht).2.2.1 ▸ hin)
  · exact h.zero_notMem

theorem QueuesOk.setThread (h : QueuesOk Q s) (tid : Nat) (f : Thread → Thread)
    (hf : (f (s.threads tid)).membership = (s.threads tid).membership) : QueuesOk Q (s.setThread tid f) :=
  h.congr rfl rfl (fun _ _ => rfl) fun t _ => by
    by_cases ht : t = tid
    · subst ht; simpa using hf
    · rw [Sched.setThread_of_ne s _ f ht]

theorem QueuesOk.ready_real (h : QueuesOk Q s) {t : Nat} (ht : t ∈ s.ready) : tidIsReal t :=
  ((h.mem_ready t).mp ht).1

theorem QueuesOk.sleep_real (h : QueuesOk Q s) {t : Nat} (ht : t ∈ s.sleepQueue) : tidIsReal t :=
  ((h.mem_sleep t).mp ht).1

theorem QueuesOk.wait_real (h : QueuesOk Q s) (hq : queue ∈ Q) {t : Nat} (ht : t ∈ s.waits queue) :
    tidIsReal t :=
  ((h.mem_wait queue hq t).mp ht).1

theorem QueuesOk.queue_ne_zero (h : QueuesOk Q s) (hq : queue ∈ Q) : queue ≠ 0 :=
  fun he => h.zero_notMem (he ▸ hq)

/-- `l'` is `l` but for `tid`, which is in it if and only if `flag` is set. -/
structure Moved (tid : Nat) (flag : Bool) (l l' : List Nat) : Prop where
  nodup : l'.Nodup
  others : ∀ t ≠ tid, t ∈ l' ↔ t ∈ l
  self : tid ∈ l' ↔ flag = true

namespace Moved

variable {l : List Nat} {flag : Bool}

theorem same (hnd : l.Nodup) (h : tid ∈ l ↔ flag = true) : Moved tid flag l l := ⟨hnd, fun _ _ => Iff.rfl, h⟩

theorem erase (hnd : l.Nodup) : Moved tid false l (l.erase tid) where
  nodup := hnd.erase _
  others t ht := List.mem_erase_of_ne ht
  self := by simp [hnd.not_mem_erase]

theorem insert (l₁ l₂ : List Nat) (hnd : (l₁ ++ l₂).Nodup) (hnot : tid ∉ l₁ ++ l₂) :
    Moved tid true (l₁ ++ l₂) (l₁ ++ tid :: l₂) where
  nodup := (List.perm_middle.nodup_iff).mpr (List.nodup_cons.mpr ⟨hnot, hnd⟩)
  others t ht := by simp [ht]
  self := by simp

theorem append (hnd : l.Nodup) (hnot : tid ∉ l) : Moved tid true l (l ++ [tid]) := by
  simpa using insert l [] (by simpa using hnd) (by simpa using hnot)

end Moved

/-- A step that moves one thread between the queues, and sets its flags accordingly, keeps them. -/
theorem QueuesOk.move (h : QueuesOk Q s) (ht : tidIsReal tid)
    (hm : ∀ t ≠ tid, s'.threads t = s.threads t)
    (hrwf : s'.readyQueue.WF queueCap) (hr : Moved tid (s'.threads tid).inReadyQueue s.ready s'.ready)
    (hsl : Moved tid (s'.threads tid).inSleepQueue s.sleepQueue s'.sleepQueue)
    (hwwf : ∀ q ∈ Q, (s'.waitQueues q).ring.WF queueCap)
    (hw : ∀ q ∈ Q, Moved tid ((s'.threads tid).inWaitQueue && (s'.threads tid).waitQueue = q)
      (s.waits q) (s'.waits q))
    (hin : (s'.threads tid).inWaitQueue → (s'.threads tid).waitQueue ∈ Q) : QueuesOk Q s' := by
  refine ⟨hrwf, hr.nodup, fun t => ?_, hsl.nodup, fun t => ?_, hwwf, fun q hq => (hw q hq).nodup,
    fun q hq t => ?_, fun t htr => ?_, h.zero_notMem⟩ <;> by_cases hte : t = tid
  · subst hte; rw [hr.self]; simp [ht]
  · rw [hr.others t hte, hm t hte]; exact h.mem_ready t
  · subst hte; rw [hsl.self]; simp [ht]
  · rw [hsl.others t hte, hm t hte]; exact h.mem_sleep t
  · subst hte; rw [(hw q hq).self]; simp [ht]
  · rw [(hw q hq).others t hte, hm t hte]; exact h.mem_wait q hq t
  · subst hte; exact hin
  · rw [hm t hte]; exact h.wait_init t htr

section

variable (h : QueuesOk Q s) (ht : tidIsReal tid)
include h ht

theorem QueuesOk.ready_same {s' : Sched} (hq : s'.readyQueue = s.readyQueue)
    (hf : (s'.threads tid).inReadyQueue = (s.threads tid).inReadyQueue) :
    Moved tid (s'.threads tid).inReadyQueue s.ready s'.ready := by
  have hs : s'.ready = s.ready := by rw [Sched.ready, hq, Sched.ready]
  rw [hs, hf]
  exact Moved.same h.ready_nodup (by rw [h.mem_ready]; simp [ht])

theorem QueuesOk.sleep_same {s' : Sched} (hq : s'.sleepQueue = s.sleepQueue)
    (hf : (s'.threads tid).inSleepQueue = (s.threads tid).inSleepQueue) :
    Moved tid (s'.threads tid).inSleepQueue s.sleepQueue s'.sleepQueue := by
  rw [hq, hf]
  exact Moved.same h.sleep_nodup (by rw [h.mem_sleep]; simp [ht])

theorem QueuesOk.waits_same (hq : queue ∈ Q) {s' : Sched}
    (hr : (s'.waitQueues queue).ring = (s.waitQueues queue).ring)
    (hf : ((s'.threads tid).inWaitQueue ∧ (s'.threads tid).waitQueue = queue) ↔
      ((s.threads tid).inWaitQueue ∧ (s.threads tid).waitQueue = queue)) :
    Moved tid ((s'.threads tid).inWaitQueue && (s'.threads tid).waitQueue = queue)
      (s.waits queue) (s'.waits queue) := by
  have hs : s'.waits queue = s.waits queue := by rw [Sched.waits, hr, Sched.waits]
  rw [hs]
  refine Moved.same (h.wait_nodup queue hq) ?_
  rw [h.mem_wait queue hq]
  simpa [ht] using hf.symm

end

/-- The sleep queue with `tid` inserted after every thread that wakes no later than it. -/
def Sched.insertSleeper (s : Sched) (tid : Nat) (wakeTick : U64) : List Nat :=
  s.sleepQueue.takeWhile (fun i => (s.threads i).wakeTick ≤ wakeTick) ++
    tid :: s.sleepQueue.dropWhile (fun i => (s.threads i).wakeTick ≤ wakeTick)

/-- `s'` is `s` with new queues and the record `th` for `tid`. -/
structure Enqueued (Q : Set U64) (tid : Nat) (th : Thread) (ready sleep : List Nat)
    (waits : U64 → List Nat) (s s' : Sched) : Prop where
  threads : s'.threads = Function.update s.threads tid th
  frames : s'.frames = s.frames
  ready : s'.ready = ready
  sleep : s'.sleepQueue = sleep
  waits : ∀ q ∈ Q, s'.waits q = waits q
  statics : s'.statics = s.statics
  ok : QueuesOk Q s'

/-! ### The ready queue -/

theorem readyEnqueue_spec (h : QueuesOk Q s) (ht : tidIsReal tid) (hst : (s.threads tid).state = .ready)
    (hr : (s.threads tid).inReadyQueue = false) (hsl : (s.threads tid).inSleepQueue = false)
    (hw : (s.threads tid).inWaitQueue = false) :
    ∃ s', s.readyEnqueue tid = .ok s' ∧ s'.waitQueues = s.waitQueues ∧
      Enqueued Q tid { s.threads tid with inReadyQueue := true } (s.ready ++ [tid]) s.sleepQueue s.waits
        s s' := by
  have hnot : tid ∉ s.ready := by rw [h.mem_ready]; simp [hr]
  have hlt := length_lt_queueCap h.ready_nodup (fun t => h.ready_real) ht hnot
  rw [Sched.ready, RingBuffer.length_toList] at hlt
  obtain ⟨ring, hpush, hwf, hlist⟩ := RingBuffer.push_spec h.ready_wf hlt tid
  refine ⟨{ s with readyQueue := ring }.setThread tid fun th => { th with inReadyQueue := true }, ?_, rfl,
    rfl, rfl, ?_, rfl, fun _ _ => rfl, rfl, ?_⟩
  · rw [Sched.readyEnqueue]
    simp only [ht, hst, hr, hsl, hw, hpush, Bool.not_true, Bool.false_eq_true, ne_eq, not_true_eq_false,
      or_self, ↓reduceIte]
  · exact hlist
  · refine h.move ht (fun t hte => Sched.setThread_of_ne _ _ _ hte) hwf ?_ ?_ h.wait_wf (fun q hq => ?_) ?_
    · rw [Sched.setThread_self]
      show Moved tid true s.ready (ring.toList queueCap)
      rw [hlist]
      exact Moved.append h.ready_nodup hnot
    · exact h.sleep_same ht rfl (by simp)
    · exact h.waits_same ht hq rfl (by simp)
    · simpa using h.wait_init tid ht

theorem readyDequeue_nil (hnil : s.ready = []) :
    s.readyDequeue = .ok (threadInvalidTid, s) := by
  have hc : s.readyQueue.count = 0 := RingBuffer.toList_eq_nil.mp hnil
  rw [Sched.readyDequeue, tidQueuePop, RingBuffer.pop_empty hc]
  rfl

theorem readyDequeue_cons (h : QueuesOk Q s) {rest : List Nat} (hcons : s.ready = tid :: rest)
    (hst : (s.threads tid).state = .ready) :
    ∃ ring, s.readyDequeue =
        .ok (tid, { s with readyQueue := ring }.setThread tid fun th => { th with inReadyQueue := false }) ∧
      ring.toList queueCap = rest ∧
      QueuesOk Q ({ s with readyQueue := ring }.setThread tid fun th => { th with inReadyQueue := false }) := by
  have hmem : tid ∈ s.ready := by rw [hcons]; exact List.mem_cons_self
  obtain ⟨ht, hflag⟩ := (h.mem_ready tid).mp hmem
  obtain ⟨ring, hpop, hwf, hlist⟩ := RingBuffer.pop_spec h.ready_wf hcons
  refine ⟨ring, ?_, hlist, ?_⟩
  · rw [Sched.readyDequeue, tidQueuePop, hpop]
    simp only [tidIsReal_ne_invalid ht, ht, hst, hflag, Bool.not_true, Bool.false_eq_true, ne_eq,
      not_true_eq_false, or_self, ↓reduceIte]
  · refine h.move ht (fun t hte => Sched.setThread_of_ne _ _ _ hte) hwf ?_ ?_ h.wait_wf (fun q hq => ?_) ?_
    · rw [Sched.setThread_self]
      show Moved tid false s.ready (ring.toList queueCap)
      have herase : ring.toList queueCap = s.ready.erase tid := by rw [hlist, hcons, List.erase_cons_head]
      rw [herase]
      exact Moved.erase h.ready_nodup
    · exact h.sleep_same ht rfl (by simp)
    · exact h.waits_same ht hq rfl (by simp)
    · simpa using h.wait_init tid ht

/-! ### The sleep queue -/

theorem split_congr {l : List Nat} {p q : Nat → Bool} (h : ∀ i ∈ l, p i = q i) :
    l.takeWhile p = l.takeWhile q ∧ l.dropWhile p = l.dropWhile q := by
  induction l with
  | nil => exact ⟨rfl, rfl⟩
  | cons i l ih =>
    obtain ⟨h1, h2⟩ := ih fun j hj => h j (List.mem_cons_of_mem _ hj)
    simp only [List.takeWhile_cons, List.dropWhile_cons, ← h i List.mem_cons_self, h1, h2, and_self]

theorem sleepEnqueue_spec (h : QueuesOk Q s) (ht : tidIsReal tid) (hst : (s.threads tid).state = .blocked)
    (hr : (s.threads tid).inReadyQueue = false) (hsl : (s.threads tid).inSleepQueue = false)
    (hreason : (s.threads tid).waitReason = .sleep ∨ (s.threads tid).waitReason = .queueTimeout)
    (wakeTick : U64) :
    ∃ s', s.sleepEnqueue tid wakeTick = .ok s' ∧
      Enqueued Q tid { s.threads tid with wakeTick := wakeTick, inSleepQueue := true } s.ready
        (s.insertSleeper tid wakeTick) s.waits s s' := by
  have hnot : tid ∉ s.sleepQueue := by rw [h.mem_sleep]; simp [hsl]
  have hlt := length_lt_queueCap h.sleep_nodup (fun t => h.sleep_real) ht hnot
  let p : Nat → Bool := fun i => (s.threads i).wakeTick ≤ wakeTick
  obtain ⟨htake, hdrop⟩ := split_congr (l := s.sleepQueue) (p := p)
    (q := fun i => ((s.setThread tid fun th => { th with wakeTick := wakeTick }).threads i).wakeTick ≤
      ((s.setThread tid fun th => { th with wakeTick := wakeTick }).threads tid).wakeTick) fun i hi => by
    have hne : i ≠ tid := fun he => hnot (he ▸ hi)
    rw [Sched.setThread_of_ne _ _ _ hne, Sched.setThread_self]
  refine ⟨{ s with sleepQueue := s.insertSleeper tid wakeTick }.setThread tid
      (fun th => { th with wakeTick := wakeTick, inSleepQueue := true }), ?_, rfl, rfl, rfl, rfl,
    fun _ _ => rfl, rfl, ?_⟩
  · have hguard : ¬((s.threads tid).waitReason ≠ .sleep ∧ (s.threads tid).waitReason ≠ .queueTimeout) := by
      tauto
    have hinsert : (s.setThread tid fun th => { th with wakeTick := wakeTick }).sleepQueueInsert tid =
        .ok { s.setThread tid (fun th => { th with wakeTick := wakeTick }) with
          sleepQueue := s.sleepQueue.takeWhile p ++ tid :: s.sleepQueue.dropWhile p } := by
      rw [htake, hdrop]
      exact if_neg (by simpa using hlt.ne)
    rw [Sched.sleepEnqueue]
    simp only [ht, hst, hr, hsl, hguard, hinsert, Bool.not_true, Bool.false_eq_true, ne_eq,
      not_true_eq_false, or_self, ↓reduceIte]
    show Except.ok _ = Except.ok _
    simp only [Sched.setThread, Function.update_self, Function.update_idem]
    rfl
  · refine h.move ht (fun t hte => Sched.setThread_of_ne _ _ _ hte) h.ready_wf ?_ ?_ h.wait_wf
      (fun q hq => ?_) ?_
    · exact h.ready_same ht rfl (by simp)
    · rw [Sched.setThread_self]
      have happ := List.takeWhile_append_dropWhile (p := p) (l := s.sleepQueue)
      have := Moved.insert (s.sleepQueue.takeWhile p) (s.sleepQueue.dropWhile p)
        (by rw [happ]; exact h.sleep_nodup) (by rw [happ]; exact hnot)
      rw [happ] at this
      exact this
    · exact h.waits_same ht hq rfl (by simp)
    · simpa using h.wait_init tid ht

/-! ### The wait queues -/

/-- The state after the ring of a wait queue has been replaced. -/
def Sched.setRing (s : Sched) (queue : U64) (ring : RingBuffer Nat) : Sched :=
  { s with waitQueues := Function.update s.waitQueues queue { s.waitQueues queue with ring := ring } }

@[simp] theorem Sched.setRing_self (s : Sched) (queue : U64) (ring : RingBuffer Nat) :
    ((s.setRing queue ring).waitQueues queue).ring = ring := by simp [setRing]

theorem Sched.setRing_of_ne (s : Sched) (ring : RingBuffer Nat) {q : U64} (hne : q ≠ queue) :
    (s.setRing queue ring).waitQueues q = s.waitQueues q := by simp [setRing, hne]

@[simp] theorem Sched.setRing_threads (s : Sched) (queue : U64) (ring : RingBuffer Nat) :
    (s.setRing queue ring).threads = s.threads := rfl

theorem QueuesOk.moveWait (h : QueuesOk Q s) (ht : tidIsReal tid) (hq : queue ∈ Q)
    (ring : RingBuffer Nat) (f : Thread → Thread)
    (hready : (f (s.threads tid)).inReadyQueue = (s.threads tid).inReadyQueue)
    (hsleep : (f (s.threads tid)).inSleepQueue = (s.threads tid).inSleepQueue)
    (hwf : ring.WF queueCap)
    (hmoved : Moved tid ((f (s.threads tid)).inWaitQueue && (f (s.threads tid)).waitQueue = queue)
      (s.waits queue) (ring.toList queueCap))
    (hbefore : (s.threads tid).inWaitQueue → (s.threads tid).waitQueue = queue)
    (hafter : (f (s.threads tid)).inWaitQueue → (f (s.threads tid)).waitQueue = queue) :
    QueuesOk Q ((s.setRing queue ring).setThread tid f) := by
  refine h.move ht (fun t hte => Sched.setThread_of_ne _ _ _ hte) h.ready_wf ?_ ?_ (fun q hqQ => ?_)
    (fun q hqQ => ?_) ?_
  · exact h.ready_same ht rfl (by simpa using hready)
  · exact h.sleep_same ht rfl (by simpa using hsleep)
  · by_cases hqe : q = queue
    · subst hqe; simpa using hwf
    · simpa [Sched.setRing_of_ne s ring hqe] using h.wait_wf q hqQ
  · by_cases hqe : q = queue
    · subst hqe
      have hlist : ((s.setRing q ring).setThread tid f).waits q = ring.toList queueCap := by
        simp [Sched.waits]
      rw [Sched.setThread_self, Sched.setRing_threads, hlist]
      exact hmoved
    · refine h.waits_same ht hqQ (by simp [Sched.setRing_of_ne s ring hqe]) ?_
      rw [Sched.setThread_self]
      constructor
      · rintro ⟨hin, he⟩; exact absurd ((hafter hin).symm.trans he).symm hqe
      · rintro ⟨hin, he⟩; exact absurd ((hbefore hin).symm.trans he).symm hqe
  · rw [Sched.setThread_self, Sched.setRing_threads]
    intro hin
    rw [hafter hin]
    exact hq

theorem waitEnqueue_spec (h : QueuesOk Q s) (ht : tidIsReal tid) (hq : queue ∈ Q)
    (hst : (s.threads tid).state = .blocked) (hr : (s.threads tid).inReadyQueue = false)
    (hw : (s.threads tid).inWaitQueue = false) (hnull : (s.threads tid).waitQueue = 0)
    (hreason : (s.threads tid).waitReason = .queue ∨ (s.threads tid).waitReason = .queueTimeout) :
    ∃ s', s.waitEnqueue queue tid = .ok s' ∧
      Enqueued Q tid { s.threads tid with inWaitQueue := true, waitQueue := queue } s.ready s.sleepQueue
        (fun q => if q = queue then s.waits q ++ [tid] else s.waits q) s s' := by
  have hnot : tid ∉ s.waits queue := by rw [h.mem_wait queue hq]; simp [hw]
  have hlt := length_lt_queueCap (h.wait_nodup queue hq) (fun t => h.wait_real hq) ht hnot
  rw [Sched.waits, RingBuffer.length_toList] at hlt
  obtain ⟨ring, hpush, hwf, hlist⟩ := RingBuffer.push_spec (h.wait_wf queue hq) hlt tid
  refine ⟨(s.setRing queue ring).setThread tid fun th => { th with inWaitQueue := true, waitQueue := queue },
    ?_, rfl, rfl, rfl, rfl, fun q _ => ?_, rfl, ?_⟩
  · have hguard : ¬((s.threads tid).waitReason ≠ .queue ∧ (s.threads tid).waitReason ≠ .queueTimeout) := by
      tauto
    rw [Sched.waitEnqueue]
    simp only [h.queue_ne_zero hq, ht, hst, hr, hw, hnull, hguard, Bool.not_true, Bool.false_eq_true,
      ne_eq, not_true_eq_false, or_self, ↓reduceIte, Sched.waitQueuePush, hpush]
    rfl
  · by_cases hqe : q = queue
    · subst hqe
      rw [if_pos rfl]
      exact (congrArg (RingBuffer.toList queueCap) (Sched.setRing_self s q ring)).trans hlist
    · rw [if_neg hqe]
      exact congrArg (·.ring.toList queueCap) (Sched.setRing_of_ne s ring hqe)
  · refine h.moveWait ht hq ring _ rfl rfl hwf ?_ (by simp [hw]) (by simp)
    have hlist : ring.toList queueCap = s.waits queue ++ [tid] := hlist
    rw [hlist]
    simpa using Moved.append (h.wait_nodup queue hq) hnot

theorem waitDequeue_nil (hnil : s.waits queue = []) : s.waitDequeue queue = .ok (threadInvalidTid, s) := by
  have hc : (s.waitQueues queue).ring.count = 0 := RingBuffer.toList_eq_nil.mp hnil
  rw [Sched.waitDequeue, Sched.waitQueuePop, tidQueuePop, RingBuffer.pop_empty hc]
  simp

theorem waitDequeue_cons (h : QueuesOk Q s) (hq : queue ∈ Q) {rest : List Nat}
    (hcons : s.waits queue = tid :: rest) (hst : (s.threads tid).state = .blocked) :
    ∃ ring, s.waitDequeue queue = .ok (tid, (s.setRing queue ring).setThread tid
        fun th => { th with inWaitQueue := false, waitQueue := 0 }) ∧
      ring.toList queueCap = rest ∧
      QueuesOk Q ((s.setRing queue ring).setThread tid
        fun th => { th with inWaitQueue := false, waitQueue := 0 }) := by
  have hmem : tid ∈ s.waits queue := by rw [hcons]; exact List.mem_cons_self
  obtain ⟨ht, hflag, hback⟩ := (h.mem_wait queue hq tid).mp hmem
  obtain ⟨ring, hpop, hwf, hlist⟩ := RingBuffer.pop_spec (h.wait_wf queue hq) hcons
  refine ⟨ring, ?_, hlist, ?_⟩
  · rw [Sched.waitDequeue, Sched.waitQueuePop, tidQueuePop, hpop]
    simp only [tidIsReal_ne_invalid ht, ht, hst, hflag, hback, Bool.not_true, Bool.false_eq_true, ne_eq,
      not_true_eq_false, or_self, ↓reduceIte]
    rfl
  · refine h.moveWait ht hq ring _ rfl rfl hwf ?_ (fun _ => hback) (by simp)
    have herase : ring.toList queueCap = (s.waits queue).erase tid := by
      rw [hlist, hcons, List.erase_cons_head]
    rw [herase]
    simpa using Moved.erase (h.wait_nodup queue hq)

theorem waitRemove_spec (h : QueuesOk Q s) (ht : tidIsReal tid)
    (hin : (s.threads tid).inWaitQueue = true) :
    ∃ ring, s.waitRemove tid = .ok ((s.setRing (s.threads tid).waitQueue ring).setThread tid
        fun th => { th with inWaitQueue := false, waitQueue := 0 }) ∧
      ring.toList queueCap = (s.waits (s.threads tid).waitQueue).erase tid ∧
      QueuesOk Q ((s.setRing (s.threads tid).waitQueue ring).setThread tid
        fun th => { th with inWaitQueue := false, waitQueue := 0 }) := by
  have hq := h.wait_init tid ht hin
  have hmem : tid ∈ s.waits (s.threads tid).waitQueue := (h.mem_wait _ hq tid).mpr ⟨ht, hin, rfl⟩
  obtain ⟨ring, hrem, hwf, hlist⟩ := RingBuffer.remove_spec (h.wait_wf _ hq) hmem
  refine ⟨ring, ?_, hlist, ?_⟩
  · rw [Sched.waitRemove]
    simp only [h.queue_ne_zero hq, hin, Bool.not_true, Bool.false_eq_true, or_self, ↓reduceIte,
      Sched.waitQueueRemove, hrem]
    rfl
  · refine h.moveWait ht hq ring _ rfl rfl hwf ?_ (fun _ => rfl) (by simp)
    have hlist : ring.toList queueCap = (s.waits (s.threads tid).waitQueue).erase tid := hlist
    rw [hlist]
    simpa using Moved.erase (h.wait_nodup _ hq)

/-! ### Leaving the sleep queue -/

theorem QueuesOk.eraseSleep (h : QueuesOk Q s) (ht : tidIsReal tid) (f : Thread → Thread)
    (hready : (f (s.threads tid)).inReadyQueue = (s.threads tid).inReadyQueue)
    (hsleep : (f (s.threads tid)).inSleepQueue = false)
    (hwait : (f (s.threads tid)).inWaitQueue = (s.threads tid).inWaitQueue)
    (hback : (f (s.threads tid)).waitQueue = (s.threads tid).waitQueue) :
    QueuesOk Q ({ s with sleepQueue := s.sleepQueue.erase tid }.setThread tid f) := by
  refine h.move ht (fun t hte => Sched.setThread_of_ne _ _ _ hte) h.ready_wf ?_ ?_ h.wait_wf
    (fun q hq => ?_) ?_
  · exact h.ready_same ht rfl (by simpa using hready)
  · rw [Sched.setThread_self, hsleep]
    exact Moved.erase h.sleep_nodup
  · exact h.waits_same ht hq rfl (by simp [hwait, hback])
  · simpa [hwait, hback] using h.wait_init tid ht

theorem timeoutRemove_spec (h : QueuesOk Q s) (ht : tidIsReal tid)
    (hin : (s.threads tid).inSleepQueue = true) :
    s.timeoutRemove tid = .ok ({ s with sleepQueue := s.sleepQueue.erase tid }.setThread tid
      fun th => { th with inSleepQueue := false, wakeTick := 0 }) ∧
    QueuesOk Q ({ s with sleepQueue := s.sleepQueue.erase tid }.setThread tid
      fun th => { th with inSleepQueue := false, wakeTick := 0 }) := by
  refine ⟨?_, h.eraseSleep ht _ rfl rfl rfl rfl⟩
  have hmem : tid ∈ s.sleepQueue := (h.mem_sleep tid).mpr ⟨ht, hin⟩
  rw [Sched.timeoutRemove, hin, Sched.sleepQueueRemove, if_pos hmem]
  rfl

theorem sleepDequeueExpired_nil (now : U64) (hnil : s.sleepQueue = []) :
    s.sleepDequeueExpired now = .ok (threadInvalidTid, s) := by
  rw [Sched.sleepDequeueExpired, Sched.sleepQueuePeek, hnil]
  rfl

theorem sleepDequeueExpired_cons (h : QueuesOk Q s) (now : U64) {rest : List Nat}
    (hcons : s.sleepQueue = tid :: rest) (hst : (s.threads tid).state = .blocked)
    (hreason : (s.threads tid).waitReason = .sleep ∨ (s.threads tid).waitReason = .queueTimeout) :
    s.sleepDequeueExpired now =
      if now < (s.threads tid).wakeTick then .ok (threadInvalidTid, s)
      else .ok (tid, { s with sleepQueue := s.sleepQueue.erase tid }.setThread tid
        fun th => { th with inSleepQueue := false }) := by
  have hmem : tid ∈ s.sleepQueue := by rw [hcons]; exact List.mem_cons_self
  obtain ⟨ht, hflag⟩ := (h.mem_sleep tid).mp hmem
  have hguard : ¬((s.threads tid).waitReason ≠ .sleep ∧ (s.threads tid).waitReason ≠ .queueTimeout) := by
    tauto
  have hpeek : s.sleepQueuePeek = tid := by rw [Sched.sleepQueuePeek, hcons]; rfl
  have hpop : s.sleepQueuePopHead = (tid, { s with sleepQueue := s.sleepQueue.erase tid }) := by
    rw [Sched.sleepQueuePopHead, hcons, List.erase_cons_head]
    rfl
  rw [Sched.sleepDequeueExpired]
  simp only [hpeek, hpop, tidIsReal_ne_invalid ht, hst, hflag, hguard, Bool.not_true, Bool.false_eq_true,
    ne_eq, not_true_eq_false, or_self, ↓reduceIte, gt_iff_lt]

end QemuRtos
