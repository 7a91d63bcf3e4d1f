import QemuRtos.Core.QueueSpec

/-!
# Waking and dispatching

`Woken` is the whole effect of waking a blocked thread, whichever helper found it: the thread
leaves every queue it was in, its saved `a0` gets the result, and it becomes the last ready thread.
`Dispatched` is the effect of switching to the next thread. Both hold for every call whose guards
hold, and keep `SchedOk`.
-/

namespace QemuRtos

open Lib

variable {Q : Set U64} {s s' s'' : Sched} {tid : Nat} {queue : U64} {result : Int}

/-- The record of a thread after it has been woken. -/
def Thread.woken (th : Thread) (result : Int) : Thread :=
  { th with
    state := .ready
    waitReason := .none
    waitQueue := 0
    inReadyQueue := true
    inSleepQueue := false
    inWaitQueue := false
    wakeTick := 0
    waitResult := result }

structure Woken (Q : Set U64) (tid : Nat) (result : Int) (s s' : Sched) : Prop where
  real : tidIsReal tid
  blocked : (s.threads tid).state = .blocked
  threads : s'.threads = Function.update s.threads tid ((s.threads tid).woken result)
  frames : s'.frames = Function.update s.frames (s.threads tid).trapFrame
    { s.frames (s.threads tid).trapFrame with a0 := intReg result }
  ready : s'.ready = s.ready ++ [tid]
  sleep : s'.sleepQueue = s.sleepQueue.erase tid
  waits : ∀ q ∈ Q, s'.waits q = (s.waits q).erase tid
  statics : s'.statics = s.statics

/-- `s'` is `s` after `tid` may have left some of its queues: waking it from either has the same
effect. -/
structure Detached (Q : Set U64) (tid : Nat) (s s' : Sched) : Prop where
  others : ∀ t ≠ tid, s'.threads t = s.threads t
  self : ∀ result, (s'.threads tid).woken result = (s.threads tid).woken result
  state : (s'.threads tid).state = (s.threads tid).state
  in_ready : (s'.threads tid).inReadyQueue = (s.threads tid).inReadyQueue
  reason : (s'.threads tid).waitReason = (s.threads tid).waitReason
  frames : s'.frames = s.frames
  ready : s'.ready = s.ready
  sleep : s'.sleepQueue.erase tid = s.sleepQueue.erase tid
  waits : ∀ q ∈ Q, (s'.waits q).erase tid = (s.waits q).erase tid
  statics : s'.statics = s.statics

theorem Detached.refl (Q : Set U64) (tid : Nat) (s : Sched) : Detached Q tid s s :=
  ⟨fun _ _ => rfl, fun _ => rfl, rfl, rfl, rfl, rfl, rfl, rfl, fun _ _ => rfl, rfl⟩

theorem Detached.trans (h : Detached Q tid s s') (h' : Detached Q tid s' s'') : Detached Q tid s s'' where
  others t ht := (h'.others t ht).trans (h.others t ht)
  self r := (h'.self r).trans (h.self r)
  state := h'.state.trans h.state
  in_ready := h'.in_ready.trans h.in_ready
  reason := h'.reason.trans h.reason
  frames := h'.frames.trans h.frames
  ready := h'.ready.trans h.ready
  sleep := h'.sleep.trans h.sleep
  waits q hq := (h'.waits q hq).trans (h.waits q hq)
  statics := h'.statics.trans h.statics

theorem Detached.trapFrame (h : Detached Q tid s s') :
    (s'.threads tid).trapFrame = (s.threads tid).trapFrame := by
  simpa [Thread.woken] using congrArg Thread.trapFrame (h.self 0)

theorem Detached.woken (h : Detached Q tid s s') (hw : Woken Q tid result s' s'') :
    Woken Q tid result s s'' where
  real := hw.real
  blocked := h.state.symm.trans hw.blocked
  threads := by
    rw [hw.threads, h.self]
    funext t
    by_cases ht : t = tid
    · subst ht; simp
    · simp [ht, h.others t ht]
  frames := by rw [hw.frames, h.trapFrame, h.frames]
  ready := by rw [hw.ready, h.ready]
  sleep := by rw [hw.sleep, h.sleep]
  waits q hq := by rw [hw.waits q hq, h.waits q hq]
  statics := by rw [hw.statics, h.statics]

theorem erase_erase_self {l : List Nat} (hnd : l.Nodup) : (l.erase tid).erase tid = l.erase tid :=
  List.erase_of_not_mem hnd.not_mem_erase

theorem detached_sleep (h : QueuesOk Q s) (f : Thread → Thread)
    (hself : ∀ r, (f (s.threads tid)).woken r = (s.threads tid).woken r)
    (hst : (f (s.threads tid)).state = (s.threads tid).state)
    (hr : (f (s.threads tid)).inReadyQueue = (s.threads tid).inReadyQueue)
    (hreason : (f (s.threads tid)).waitReason = (s.threads tid).waitReason) :
    Detached Q tid s ({ s with sleepQueue := s.sleepQueue.erase tid }.setThread tid f) where
  others t ht := Sched.setThread_of_ne _ _ _ ht
  self r := by rw [Sched.setThread_self]; exact hself r
  state := by rw [Sched.setThread_self]; exact hst
  in_ready := by rw [Sched.setThread_self]; exact hr
  reason := by rw [Sched.setThread_self]; exact hreason
  frames := rfl
  ready := rfl
  sleep := erase_erase_self h.sleep_nodup
  waits _ _ := rfl
  statics := rfl

theorem detached_wait (h : QueuesOk Q s) (hq : queue ∈ Q) {ring : RingBuffer Nat}
    (hlist : ring.toList queueCap = (s.waits queue).erase tid) :
    Detached Q tid s ((s.setRing queue ring).setThread tid
      fun th => { th with inWaitQueue := false, waitQueue := 0 }) where
  others t ht := Sched.setThread_of_ne _ _ _ ht
  self r := by rw [Sched.setThread_self]; rfl
  state := by rw [Sched.setThread_self]; rfl
  in_ready := by rw [Sched.setThread_self]; rfl
  reason := by rw [Sched.setThread_self]; rfl
  frames := rfl
  ready := rfl
  sleep := rfl
  waits q hqQ := by
    by_cases hqe : q = queue
    · subst hqe
      have hl : ((s.setRing q ring).setThread tid
          fun th => { th with inWaitQueue := false, waitQueue := 0 }).waits q = (s.waits q).erase tid := by
        simpa [Sched.waits] using hlist
      rw [hl, erase_erase_self (h.wait_nodup q hq)]
    · simp [Sched.waits, Sched.setRing_of_ne s ring hqe]
  statics := rfl

/-! ### Waking -/

theorem leaveSleep (h : QueuesOk Q s) (ht : tidIsReal tid) :
    ∃ s₁, s.timeoutRemoveIfQueued tid = .ok s₁ ∧
      Detached Q tid s s₁ ∧ QueuesOk Q s₁ ∧ (s₁.threads tid).inSleepQueue = false ∧
      (s₁.threads tid).inWaitQueue = (s.threads tid).inWaitQueue ∧
      (s₁.threads tid).waitQueue = (s.threads tid).waitQueue := by
  rw [Sched.timeoutRemoveIfQueued]
  cases hin : (s.threads tid).inSleepQueue with
  | false => exact ⟨s, rfl, Detached.refl Q tid s, h, hin, rfl, rfl⟩
  | true =>
    obtain ⟨heq, hok⟩ := timeoutRemove_spec h ht hin
    exact ⟨_, heq, detached_sleep h _ (fun _ => rfl) rfl rfl rfl, hok, by simp, by simp, by simp⟩

theorem leaveWait (h : QueuesOk Q s) (ht : tidIsReal tid)
    (hnull : (s.threads tid).inWaitQueue = false → (s.threads tid).waitQueue = 0) :
    ∃ s₁, s.waitRemoveIfQueued tid = .ok s₁ ∧
      Detached Q tid s s₁ ∧ QueuesOk Q s₁ ∧
      (s₁.threads tid).inSleepQueue = (s.threads tid).inSleepQueue ∧
      (s₁.threads tid).inWaitQueue = false ∧ (s₁.threads tid).waitQueue = 0 := by
  rw [Sched.waitRemoveIfQueued]
  cases hin : (s.threads tid).inWaitQueue with
  | false => exact ⟨s, rfl, Detached.refl Q tid s, h, rfl, hin, hnull hin⟩
  | true =>
    obtain ⟨ring, heq, hlist, hok⟩ := waitRemove_spec h ht hin
    exact ⟨_, heq, detached_wait h (h.wait_init tid ht hin) hlist, hok, by simp, by simp, by simp⟩

theorem deliverResult_spec (result : Int) (h : QueuesOk Q s) (ht : tidIsReal tid)
    (hst : (s.threads tid).state = .blocked) (hr : (s.threads tid).inReadyQueue = false) (hsl : (s.threads tid).inSleepQueue = false)
    (hw : (s.threads tid).inWaitQueue = false) (hnull : (s.threads tid).waitQueue = 0)
    (hframe : (s.threads tid).trapFrame ≠ 0) :
    ∃ s', (s.deliverResult tid result).readyEnqueue tid = .ok s' ∧ Woken Q tid result s s' ∧
      QueuesOk Q s' := by
  have hthreads : (s.deliverResult tid result).threads = Function.update s.threads tid
      { s.threads tid with
        waitReason := .none, wakeTick := 0, waitResult := result, state := .ready } := by
    simp only [Sched.deliverResult, ne_eq, hframe, not_false_eq_true, ↓reduceIte, Sched.setThread,
      Sched.setFrame_threads, Function.update_self, Function.update_idem]
  have hframes : (s.deliverResult tid result).frames = Function.update s.frames (s.threads tid).trapFrame
      { s.frames (s.threads tid).trapFrame with a0 := intReg result } := by
    simp only [Sched.deliverResult, Sched.setThread_self, ne_eq, hframe, not_false_eq_true, ↓reduceIte,
      Sched.setThread_frames, Sched.setFrame]
  have hrest : ∀ q, (s.deliverResult tid result).readyQueue = s.readyQueue ∧
      (s.deliverResult tid result).sleepQueue = s.sleepQueue ∧
      (s.deliverResult tid result).waitQueues q = s.waitQueues q ∧
      (s.deliverResult tid result).statics = s.statics := by
    intro q
    simp only [Sched.deliverResult, Sched.setThread_self, ne_eq, hframe, not_false_eq_true, ↓reduceIte]
    exact ⟨rfl, rfl, rfl, rfl⟩
  have hok : QueuesOk Q (s.deliverResult tid result) := by
    refine h.congr (hrest 0).1 (hrest 0).2.1 (fun q _ => by rw [(hrest q).2.2.1]) fun t _ => ?_
    rw [hthreads]
    by_cases hte : t = tid
    · subst hte; rw [Function.update_self]; rfl
    · rw [Function.update_of_ne hte]
  have hself : (s.deliverResult tid result).threads tid =
      { s.threads tid with
        waitReason := .none, wakeTick := 0, waitResult := result, state := .ready } := by
    rw [hthreads, Function.update_self]
  obtain ⟨s', heq, -, he⟩ := readyEnqueue_spec hok ht (by rw [hself]) (by rw [hself]; exact hr)
    (by rw [hself]; exact hsl) (by rw [hself]; exact hw)
  refine ⟨s', heq, ⟨ht, hst, ?_, he.frames.trans hframes, ?_, ?_, fun q hq => ?_,
    he.statics.trans (hrest 0).2.2.2⟩, he.ok⟩
  · rw [he.threads, hself, hthreads, Function.update_idem]
    simp only [Thread.woken, hsl, hw, hnull]
  · rw [he.ready, Sched.ready, (hrest 0).1, Sched.ready]
  · have hnot : tid ∉ s.sleepQueue := by rw [h.mem_sleep]; simp [hsl]
    rw [List.erase_of_not_mem hnot, he.sleep, (hrest 0).2.1]
  · have hnot : tid ∉ s.waits q := by rw [h.mem_wait q hq]; simp [hw]
    rw [List.erase_of_not_mem hnot, he.waits q hq]
    exact congrArg (·.ring.toList queueCap) (hrest q).2.2.1

theorem wakeBlockedThread_spec (result : Int) (h : QueuesOk Q s) (ht : tidIsReal tid)
    (hst : (s.threads tid).state = .blocked) (hr : (s.threads tid).inReadyQueue = false)
    (hframe : (s.threads tid).trapFrame ≠ 0)
    (hnull : (s.threads tid).inWaitQueue = false → (s.threads tid).waitQueue = 0) :
    ∃ s', s.wakeBlockedThread tid result = .ok s' ∧ Woken Q tid result s s' ∧ QueuesOk Q s' := by
  obtain ⟨s₁, h₁, hd₁, hq₁, hsl₁, hw₁, hb₁⟩ := leaveSleep h ht
  obtain ⟨s₂, h₂, hd₂, hq₂, hsl₂, hw₂, hb₂⟩ := leaveWait hq₁ ht (by rw [hw₁, hb₁]; exact hnull)
  obtain ⟨s', heq, hwoken, hq'⟩ := deliverResult_spec result hq₂ ht
    (by rw [hd₂.state, hd₁.state, hst]) (by rw [hd₂.in_ready, hd₁.in_ready, hr]) (by rw [hsl₂, hsl₁]) hw₂ hb₂
    (by rw [hd₂.trapFrame, hd₁.trapFrame]; exact hframe)
  refine ⟨s', ?_, hd₁.woken (hd₂.woken hwoken), hq'⟩
  rw [Sched.wakeBlockedThread]
  simp only [hst, hr, ne_eq, not_true_eq_false, Bool.false_eq_true, or_self, ↓reduceIte, h₁]
  show (s₁.waitRemoveIfQueued tid >>= fun s => (s.deliverResult tid result).readyEnqueue tid) = .ok s'
  rw [h₂]
  exact heq

theorem Woken.self (h : Woken Q tid result s s') : s'.threads tid = (s.threads tid).woken result := by
  rw [h.threads, Function.update_self]

theorem Woken.of_ne (h : Woken Q tid result s s') {t : Nat} (ht : t ≠ tid) :
    s'.threads t = s.threads t := by
  rw [h.threads, Function.update_of_ne ht]

theorem Thread.woken_coherent {th : Thread} (hframe : th.trapFrame ≠ 0) : (th.woken result).Coherent :=
  ⟨by simp [Thread.woken], by simp [Thread.woken], by simp [Thread.woken], by simp [Thread.woken],
    fun _ => rfl, fun _ => hframe⟩

/-- Waking restores coherence when only the woken thread may have lost it. -/
theorem Woken.schedOk (hw : Woken Q tid result s s') (h : SchedOk Q s) (hq : QueuesOk Q s')
    (ht : tidIsReal tid) (hframe : (s.threads tid).trapFrame ≠ 0) : SchedOk Q s' where
  toQueuesOk := hq
  coherent t htr := by
    by_cases hte : t = tid
    · subst hte; rw [hw.self]; exact Thread.woken_coherent hframe
    · rw [hw.of_ne hte]; exact h.coherent t htr
  null := by
    rw [hw.of_ne]
    · exact h.null
    · rintro rfl; simp [tidIsReal_iff, threadNullTid] at ht
  tid_eq t htm := by
    by_cases hte : t = tid
    · subst hte; rw [hw.self]; exact h.tid_eq t htm
    · rw [hw.of_ne hte]; exact h.tid_eq t htm

theorem Thread.Coherent.not_ready {th : Thread} (h : th.Coherent) (hst : th.state = .blocked) :
    th.inReadyQueue = false := by
  rw [← Bool.not_eq_true, h.in_ready, hst]
  simp

theorem Thread.Coherent.blocked {th : Thread} (h : th.Coherent)
    (hin : th.inWaitQueue = true ∨ th.inSleepQueue = true) : th.state = .blocked :=
  hin.elim (fun hw => (h.in_wait.mp hw).1) fun hs => (h.in_sleep.mp hs).1

theorem wakeOne_nil (hnil : s.waits queue = []) : s.wakeOne queue = .ok (threadInvalidTid, s) := by
  rw [Sched.wakeOne, waitDequeue_nil hnil]
  rfl

theorem wakeOne_cons (h : SchedOk Q s) (hq : queue ∈ Q) {rest : List Nat}
    (hcons : s.waits queue = tid :: rest) :
    ∃ s', s.wakeOne queue = .ok (tid, s') ∧ Woken Q tid waitOk s s' ∧ SchedOk Q s' := by
  have hmem : tid ∈ s.waits queue := by rw [hcons]; exact List.mem_cons_self
  obtain ⟨ht, hflag, -⟩ := (h.mem_wait queue hq tid).mp hmem
  have hc := h.coherent tid ht
  have hst := hc.blocked (.inl hflag)
  obtain ⟨ring, hdeq, hlist, hq₁⟩ := waitDequeue_cons h.toQueuesOk hq hcons hst
  have hd : Detached Q tid s _ := detached_wait h.toQueuesOk hq (hlist.trans (by
    rw [hcons, List.erase_cons_head]))
  obtain ⟨s', hwake, hwoken, hq'⟩ := wakeBlockedThread_spec waitOk hq₁ ht
    (by rw [hd.state, hst]) (by rw [hd.in_ready, hc.not_ready hst])
    (by rw [hd.trapFrame]; exact hc.frame (.inr hst)) (by simp)
  have hwoken := hd.woken hwoken
  refine ⟨s', ?_, hwoken, hwoken.schedOk h hq' ht (hc.frame (.inr hst))⟩
  rw [Sched.wakeOne, hdeq]
  show (if tid = threadInvalidTid then _ else _) = _
  rw [if_neg (tidIsReal_ne_invalid ht), hwake]
  rfl

/-- A sequence of wake-ups between states that keep `SchedOk`, each of a thread and with a result that
satisfy `P` in the state it happens in. -/
inductive WokenSeq (Q : Set U64) (P : Nat → Int → Sched → Prop) : Sched → Sched → Prop
  | nil (s : Sched) : WokenSeq Q P s s
  | cons {tid : Nat} {result : Int} {s s' s'' : Sched} (hok : SchedOk Q s) (hp : P tid result s)
      (hw : Woken Q tid result s s') (rest : WokenSeq Q P s' s'') : WokenSeq Q P s s''

theorem WokenSeq.statics {P : Nat → Int → Sched → Prop} (h : WokenSeq Q P s s') :
    s'.statics = s.statics := by
  induction h with
  | nil => rfl
  | cons _ _ hw _ ih => rw [ih, hw.statics]

theorem Woken.state_running (hw : Woken Q tid result s s') (t : Nat) :
    (s'.threads t).state = .running ↔ (s.threads t).state = .running := by
  by_cases hte : t = tid
  · subst hte; rw [hw.self, hw.blocked]; simp [Thread.woken]
  · rw [hw.of_ne hte]

theorem WokenSeq.state_running {P : Nat → Int → Sched → Prop} (h : WokenSeq Q P s s') (t : Nat) :
    (s'.threads t).state = .running ↔ (s.threads t).state = .running := by
  induction h with
  | nil => rfl
  | cons _ _ hw _ ih => rw [ih, hw.state_running]

/-- The thread that `wait_queue_wake_one` would wake next, with the result of an event. -/
def EventWake (queue : U64) (tid : Nat) (result : Int) (s : Sched) : Prop :=
  (s.waits queue).head? = some tid ∧ result = waitOk

theorem wakeAllLoop_spec (hq : queue ∈ Q) : ∀ (fuel : Nat) (s : Sched), SchedOk Q s →
    (s.waits queue).length < fuel →
    ∃ s', s.wakeAllLoop queue fuel = .ok s' ∧ WokenSeq Q (EventWake queue) s s' ∧ SchedOk Q s' ∧
      s'.waits queue = [] := by
  intro fuel
  induction fuel with
  | zero => intro s _ hlt; omega
  | succ fuel ih =>
    intro s h hlt
    cases hw : s.waits queue with
    | nil =>
      refine ⟨s, ?_, .nil s, h, hw⟩
      rw [Sched.wakeAllLoop, wakeOne_nil hw]
      rfl
    | cons tid rest =>
      obtain ⟨s₁, heq, hwoken, h₁⟩ := wakeOne_cons h hq hw
      have hrest : s₁.waits queue = rest := by rw [hwoken.waits queue hq, hw, List.erase_cons_head]
      obtain ⟨s', heq', hseq, h', hnil⟩ := ih s₁ h₁ (by rw [hrest]; rw [hw] at hlt; simpa using hlt)
      refine ⟨s', ?_, .cons h ⟨by rw [hw]; rfl, rfl⟩ hwoken hseq, h', hnil⟩
      have hreal : tidIsReal tid := h.wait_real hq (by rw [hw]; exact List.mem_cons_self)
      rw [Sched.wakeAllLoop, heq]
      show (if tid = threadInvalidTid then _ else _) = _
      rw [if_neg (tidIsReal_ne_invalid hreal), heq']

/-! ### Timeouts -/

/-- The first sleeper, when its tick has come; a timed wait times out and a sleep ends well. -/
def TimerWake (now : U64) (tid : Nat) (result : Int) (s : Sched) : Prop :=
  s.sleepQueue.head? = some tid ∧ (s.threads tid).wakeTick ≤ now ∧
    ((s.threads tid).waitReason = .queueTimeout ∧ result = waitTimeout ∨
      (s.threads tid).waitReason = .sleep ∧ result = waitOk)

theorem wakeExpired_spec (h : SchedOk Q s) {now : U64} {rest : List Nat}
    (hcons : s.sleepQueue = tid :: rest) (hdue : (s.threads tid).wakeTick ≤ now) :
    ∃ result s', Sched.wakeExpired tid ({ s with sleepQueue := s.sleepQueue.erase tid }.setThread tid
        fun th => { th with inSleepQueue := false }) = .ok s' ∧
      TimerWake now tid result s ∧ Woken Q tid result s s' ∧ SchedOk Q s' := by
  have hmem : tid ∈ s.sleepQueue := by rw [hcons]; exact List.mem_cons_self
  obtain ⟨ht, hflag⟩ := (h.mem_sleep tid).mp hmem
  have hc := h.coherent tid ht
  obtain ⟨hst, hreason⟩ := hc.in_sleep.mp hflag
  have hd : Detached Q tid s ({ s with sleepQueue := s.sleepQueue.erase tid }.setThread tid
      fun th => { th with inSleepQueue := false }) :=
    detached_sleep h.toQueuesOk _ (fun _ => rfl) rfl rfl rfl
  have hq₁ : QueuesOk Q ({ s with sleepQueue := s.sleepQueue.erase tid }.setThread tid
      fun th => { th with inSleepQueue := false }) := h.toQueuesOk.eraseSleep ht _ rfl rfl rfl rfl
  have hhead : s.sleepQueue.head? = some tid := by rw [hcons]; rfl
  rw [Sched.wakeExpired]
  simp only [hd.reason]
  rcases hreason with hsleep | htimeout
  · -- a plain sleeper is in no wait queue
    have hnw : (s.threads tid).inWaitQueue = false := by
      rw [← Bool.not_eq_true, hc.in_wait, hsleep]
      simp
    have hd' : Detached Q tid s (Sched.setThread
        ({ s with sleepQueue := s.sleepQueue.erase tid }.setThread tid
          fun th => { th with inSleepQueue := false }) tid fun th => { th with wakeTick := 0 }) := hd.trans
      ⟨fun t hte => Sched.setThread_of_ne _ _ _ hte, fun r => by rw [Sched.setThread_self]; rfl,
        by rw [Sched.setThread_self], by rw [Sched.setThread_self], by rw [Sched.setThread_self],
        rfl, rfl, rfl, fun _ _ => rfl, rfl⟩
    obtain ⟨s', hwake, hwoken, hq'⟩ := wakeBlockedThread_spec waitOk
      (hq₁.setThread tid (fun th => { th with wakeTick := 0 }) rfl) ht (by rw [hd'.state, hst])
      (by rw [hd'.in_ready, hc.not_ready hst]) (by rw [hd'.trapFrame]; exact hc.frame (.inr hst))
      (fun _ => by simpa using hc.no_queue hnw)
    have hwoken := hd'.woken hwoken
    refine ⟨waitOk, s', ?_, ⟨hhead, hdue, .inr ⟨hsleep, rfl⟩⟩, hwoken,
      hwoken.schedOk h hq' ht (hc.frame (.inr hst))⟩
    rw [hsleep]
    exact hwake
  · have hw : (s.threads tid).inWaitQueue = true := hc.in_wait.mpr ⟨hst, .inr htimeout⟩
    obtain ⟨ring, hrem, hlist, hq₂⟩ := waitRemove_spec hq₁ ht (by simpa using hw)
    have hd' := hd.trans (detached_wait hq₁ (hq₁.wait_init tid ht (by simpa using hw)) hlist)
    obtain ⟨s', hwake, hwoken, hq'⟩ := wakeBlockedThread_spec waitTimeout hq₂ ht
      (by rw [hd'.state, hst]) (by rw [hd'.in_ready, hc.not_ready hst])
      (by rw [hd'.trapFrame]; exact hc.frame (.inr hst)) (by simp)
    have hwoken := hd'.woken hwoken
    refine ⟨waitTimeout, s', ?_, ⟨hhead, hdue, .inl ⟨htimeout, rfl⟩⟩, hwoken,
      hwoken.schedOk h hq' ht (hc.frame (.inr hst))⟩
    have hw₁ : (({ s with sleepQueue := s.sleepQueue.erase tid }.setThread tid
        fun th => { th with inSleepQueue := false }).threads tid).inWaitQueue = true := by simpa using hw
    rw [htimeout, if_pos rfl, hw₁, hrem]
    exact hwake

theorem wakeSleepersLoop_spec (now : U64) : ∀ (fuel : Nat) (s : Sched), SchedOk Q s →
    s.sleepQueue.length < fuel →
    ∃ s', s.wakeSleepersLoop now fuel = .ok s' ∧ WokenSeq Q (TimerWake now) s s' ∧ SchedOk Q s' ∧
      ∀ tid ∈ s'.sleepQueue.head?, now < (s'.threads tid).wakeTick := by
  intro fuel
  induction fuel with
  | zero => intro s _ hlt; omega
  | succ fuel ih =>
    intro s h hlt
    cases hcons : s.sleepQueue with
    | nil =>
      refine ⟨s, ?_, .nil s, h, by simp [hcons]⟩
      rw [Sched.wakeSleepersLoop, sleepDequeueExpired_nil now hcons]
      rfl
    | cons tid rest =>
      obtain ⟨ht, hflag⟩ := (h.mem_sleep tid).mp (by rw [hcons]; exact List.mem_cons_self)
      obtain ⟨hst, hreason⟩ := (h.coherent tid ht).in_sleep.mp hflag
      have hdeq := sleepDequeueExpired_cons h.toQueuesOk now hcons hst hreason
      by_cases hdue : now < (s.threads tid).wakeTick
      · refine ⟨s, ?_, .nil s, h, by simpa [hcons] using hdue⟩
        rw [Sched.wakeSleepersLoop, hdeq, if_pos hdue]
        rfl
      · obtain ⟨result, s₁, heq, hp, hwoken, h₁⟩ := wakeExpired_spec h hcons (BitVec.not_lt.mp hdue)
        obtain ⟨s', heq', hseq, h', hlast⟩ := ih s₁ h₁ (by
          rw [hwoken.sleep, hcons, List.erase_cons_head]
          rw [hcons] at hlt
          simpa using hlt)
        refine ⟨s', ?_, .cons h hp hwoken hseq, h', hlast⟩
        rw [Sched.wakeSleepersLoop, hdeq, if_neg hdue]
        show (if tid = threadInvalidTid then _ else _) = _
        rw [if_neg (tidIsReal_ne_invalid ht), heq]
        exact heq'

/-- `wake_sleepers` ends, and wakes sleepers in order until the first whose tick has not come. -/
theorem wakeSleepers_spec (h : SchedOk Q s) (now : U64) :
    ∃ s', s.wakeSleepers now = .ok s' ∧ WokenSeq Q (TimerWake now) s s' ∧ SchedOk Q s' ∧
      ∀ tid ∈ s'.sleepQueue.head?, now < (s'.threads tid).wakeTick :=
  wakeSleepersLoop_spec now _ s h (Nat.lt_succ_self _)

end QemuRtos
