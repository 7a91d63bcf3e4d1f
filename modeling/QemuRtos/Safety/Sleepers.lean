import QemuRtos.Lib.StableQueue
import QemuRtos.SystemEvents

/-!
# The sleep queue and the timer

The sleep queue is sorted by wake ticks, with equal ticks in the order in which the threads went to sleep. So
`wake_sleepers`, which stops at the first thread that is not due, wakes the threads that are due and no
others.
-/

namespace QemuRtos

open Lib

variable {image : Image} {Q : Set U64} {s s' : Sched} {es : List SchedEvent} {e : SchedEvent} {l : List Nat} {now : U64}

/-! ### The order of the queue -/

/-- The tick at which a thread wakes. -/
def Sched.wakeKey (s : Sched) (tid : Nat) : Nat := (s.threads tid).wakeTick.toNat

/-- What an event does to the sleepers in the order in which they went to sleep. -/
def SchedEvent.slept (sleepers : List Nat) : SchedEvent → List Nat
  | .wake tid _ _ => sleepers.erase tid
  | .park c b => if b.wakeTick.isSome then sleepers ++ [c] else sleepers
  | _ => sleepers

/-- The sleep queue holds `l` sorted by wake tick, and its threads are blocked. -/
structure SleepOk (l : List Nat) (s : Sched) : Prop where
  stable : Stable s.wakeKey l s.sleepQueue
  blocked : ∀ t ∈ s.sleepQueue, (s.threads t).state = .blocked

theorem SleepOk.congr (h : SleepOk l s) (hq : s'.sleepQueue = s.sleepQueue)
    (hth : ∀ t ∈ s.sleepQueue, s'.threads t = s.threads t) : SleepOk l s' where
  stable := by
    rw [hq]
    exact h.stable.congr fun t ht => by rw [Sched.wakeKey, hth t ht, Sched.wakeKey]
  blocked t ht := by
    rw [hq] at ht
    rw [hth t ht]
    exact h.blocked t ht

theorem SleepOk.wake {tid : Nat} {result : Int} (h : SleepOk l s) (hw : Woken Q tid result s s') :
    SleepOk (l.erase tid) s' := by
  have hne : ∀ t ∈ s.sleepQueue.erase tid, t ≠ tid := fun t ht => (h.stable.nodup_list.mem_erase_iff.mp ht).1
  refine ⟨?_, fun t ht => ?_⟩
  · rw [hw.sleep]
    refine (h.stable.erase tid).congr fun t ht => ?_
    rw [Sched.wakeKey, hw.of_ne (hne t ht), Sched.wakeKey]
  · rw [hw.sleep] at ht
    rw [hw.of_ne (hne t ht)]
    exact h.blocked t (List.erase_subset ht)

theorem SleepOk.park {c : Nat} {frame : U64} {b : Block} (h : SleepOk l s) (hrun : (s.threads c).state = .running)
    (hp : Parked Q c frame b s s') : SleepOk (SchedEvent.slept l (.park c b)) s' := by
  have hnot : c ∉ s.sleepQueue := by
    intro hc
    have := h.blocked c hc
    rw [hrun] at this
    cases this
  have hth : ∀ t ∈ s.sleepQueue, s'.threads t = s.threads t := by
    intro t ht
    rw [hp.threads, Function.update_of_ne]
    rintro rfl
    exact hnot ht
  cases hb : b.wakeTick with
  | none =>
    have hq := hp.sleep
    rw [hb] at hq
    unfold SchedEvent.slept
    dsimp only
    rw [hb]
    exact h.congr hq hth
  | some tick =>
    have hq : s'.sleepQueue = s.insertSleeper c tick := by
      rw [hp.sleep, hb]
      rfl
    have hc : s'.wakeKey c = tick.toNat := by
      rw [Sched.wakeKey, hp.threads, Function.update_self]
      show (b.wakeTick.getD _).toNat = _
      rw [hb]
      rfl
    unfold SchedEvent.slept
    dsimp only
    rw [hb]
    refine ⟨?_, fun t ht => ?_⟩
    · have hstable : Stable s'.wakeKey l s.sleepQueue :=
        h.stable.congr fun t ht => by rw [Sched.wakeKey, hth t ht, Sched.wakeKey]
      rw [hq]
      refine hstable.insert (fun hm => hnot (h.stable.perm.mem_iff.mp hm)) fun t ht => ?_
      rw [hc, Sched.wakeKey, hth t ht, decide_eq_true_eq]
      exact BitVec.le_def
    · rw [hq] at ht
      by_cases htc : t = c
      · subst htc
        rw [hp.threads, Function.update_self]
        rfl
      · have hmem : t ∈ s.sleepQueue := by
          unfold Sched.insertSleeper at ht
          rw [List.mem_append, List.mem_cons] at ht
          rcases ht with ht | ht | ht
          · exact (List.takeWhile_sublist _).subset ht
          · exact absurd ht htc
          · exact (List.dropWhile_sublist _).subset ht
        rw [hth t hmem]
        exact h.blocked t hmem

theorem SleepOk.act (h : SleepOk l s) (ha : Act image Q e s s') : SleepOk (SchedEvent.slept l e) s' := by
  have hth : (∀ tid r cause, e ≠ .wake tid r cause) → ∀ t ∈ s.sleepQueue, s'.threads t = s.threads t := by
    intro hno t ht
    exact (ha.blocked (h.blocked t ht)).resolve_right fun ⟨r, cause, he, _⟩ => hno t r cause he
  cases ha with
  | silent _ hs => exact h.congr hs.sleep (hth nofun)
  | wake _ hw => exact h.wake hw
  | requeue _ _ hs => exact h.congr hs.sleep (hth nofun)
  | nullRequeue _ hs => exact h.congr hs.sleep (hth nofun)
  | park _ hrun _ hs => exact h.park hrun hs
  | retire _ _ hs => exact h.congr hs.sleep (hth nofun)
  | dispatch _ _ hs => exact h.congr hs.sleep (hth nofun)
  | create hs => exact h.congr hs.sleep (hth nofun)

theorem SleepOk.acts (h : SleepOk l s) (ha : Acts image Q s es s') : SleepOk (es.foldl SchedEvent.slept l) s' := by
  induction ha generalizing l with
  | nil => exact h
  | cons _ ha _ ih => exact ih (h.act ha)

/-! ### What the timer wakes -/

/-- The result of a wake by the timer. -/
def Thread.timerResult (th : Thread) : Int := if th.waitReason = .queueTimeout then waitTimeout else waitOk

/-- The timer has woken the threads `due`, in this order, and nothing else has changed in the queues and the
thread table. -/
structure TimerWoken (Q : Set U64) (due : List Nat) (s s' : Sched) : Prop where
  ready : s'.ready = s.ready ++ due
  sleep : s.sleepQueue = due ++ s'.sleepQueue
  woken : ∀ t ∈ due, s'.threads t = (s.threads t).woken (s.threads t).timerResult
  others : ∀ t ∉ due, s'.threads t = s.threads t
  waits : ∀ q ∈ Q, s'.waits q = (s.waits q).filter fun t => t ∉ due

theorem timerWoken_of_seq (h : WokenSeq Q (TimerWake now) s s') (hnd : s.sleepQueue.Nodup) :
    ∃ due, TimerWoken Q due s s' ∧ ∀ t ∈ due, (s.threads t).wakeTick ≤ now := by
  induction h with
  | nil s =>
    refine ⟨[], ⟨(List.append_nil _).symm, rfl, nofun, fun _ _ => rfl, fun q _ => ?_⟩, nofun⟩
    exact (List.filter_eq_self.mpr fun _ _ => decide_eq_true List.not_mem_nil).symm
  | @cons tid result s s₁ s' hok hp hw rest ih =>
    obtain ⟨hhead, hle, hresult⟩ := hp
    obtain ⟨sleepers, hcons⟩ : ∃ sleepers, s.sleepQueue = tid :: sleepers := by
      cases hq : s.sleepQueue with
      | nil => rw [hq] at hhead; cases hhead
      | cons a as =>
        rw [hq] at hhead
        exact ⟨as, by rw [Option.some.inj hhead]⟩
    have hnd₁ : (tid :: sleepers).Nodup := hcons ▸ hnd
    have hsleep₁ : s₁.sleepQueue = sleepers := by rw [hw.sleep, hcons, List.erase_cons_head]
    obtain ⟨due, htw, hdue⟩ := ih (by rw [hsleep₁]; exact (List.nodup_cons.mp hnd₁).2)
    have hnot : tid ∉ due := by
      intro hm
      refine (List.nodup_cons.mp hnd₁).1 ?_
      rw [← hsleep₁, htw.sleep]
      exact List.mem_append_left _ hm
    have hne : ∀ t ∈ due, t ≠ tid := fun t ht he => hnot (he ▸ ht)
    refine ⟨tid :: due, ⟨?_, ?_, fun t ht => ?_, fun t ht => ?_, fun q hq => ?_⟩, fun t ht => ?_⟩
    · rw [htw.ready, hw.ready, List.append_assoc]
      rfl
    · rw [hcons, ← hsleep₁, htw.sleep]
      rfl
    · rcases List.mem_cons.mp ht with rfl | ht
      · rw [htw.others t hnot, hw.self]
        unfold Thread.timerResult
        rcases hresult with ⟨hr, rfl⟩ | ⟨hr, rfl⟩
        · rw [if_pos hr]
        · rw [if_neg (by rw [hr]; decide)]
      · rw [htw.woken t ht, hw.of_ne (hne t ht)]
    · rw [List.mem_cons, not_or] at ht
      rw [htw.others t ht.2, hw.of_ne ht.1]
    · rw [htw.waits q hq, hw.waits q hq, (hok.wait_nodup q hq).erase_eq_filter, List.filter_filter]
      refine List.filter_congr fun t _ => ?_
      rw [Bool.eq_iff_iff]
      simp only [Bool.and_eq_true, decide_eq_true_eq, List.mem_cons, not_or, bne_iff_ne]
      exact and_comm
    · rcases List.mem_cons.mp ht with rfl | ht
      · exact hle
      · have := hdue t ht
        rwa [hw.of_ne (hne t ht)] at this

/-- `wake_sleepers` ends without a panic. It wakes exactly the threads that are due, in the order of the queue. -/
theorem wakeSleepers_due (hok : SchedOk Q s) (h : SleepOk l s) (now : U64) :
    ∃ s', s.wakeSleepers now = .ok s' ∧
      TimerWoken Q (s.sleepQueue.filter fun t => (s.threads t).wakeTick ≤ now) s s' := by
  obtain ⟨s', hwake, hseq, -, hhead⟩ := wakeSleepers_spec hok now
  obtain ⟨due, htw, hdue⟩ := timerWoken_of_seq hseq h.stable.nodup_list
  refine ⟨s', hwake, ?_⟩
  have hsorted := h.stable.sorted_le
  have hnd := h.stable.nodup_list
  rw [htw.sleep] at hsorted hnd
  have hle : ∀ t ∈ due, s.wakeKey t ≤ now.toNat := fun t ht => BitVec.le_def.mp (hdue t ht)
  have hsplit := (filter_split hsorted hle fun t ht => by
    have hlt := hhead t ht
    have hnot : t ∉ due := by
      intro hm
      exact (List.nodup_append.mp hnd).2.2 t hm t (List.mem_of_mem_head? ht) rfl
    rw [htw.others t hnot] at hlt
    exact BitVec.lt_def.mp hlt).1
  rw [← htw.sleep] at hsplit
  have hfilter : (s.sleepQueue.filter fun t => decide ((s.threads t).wakeTick ≤ now)) = due := by
    rw [← hsplit]
    refine List.filter_congr fun t _ => ?_
    rw [decide_eq_decide]
    exact BitVec.le_def
  rw [hfilter]
  exact htw

namespace System

variable {σ₀ σ : System} {k : Kernel} {ops : List Op}

/-- In every reachable state the sleep queue is sorted by wake tick, with equal ticks in the order in which the
threads went to sleep, and for every `now` the timer wakes exactly the threads that are due, in this order. -/
theorem wakeSleepers_exact (hf : Fresh k) (hboot : boot k = .ok σ₀) (h : Runs σ₀ ops σ) :
    (∃ es, History σ₀ ops es σ) ∧
    (∀ es, History σ₀ ops es σ →
      Stable σ.kernel.sched.wakeKey (es.foldl SchedEvent.slept []) σ.kernel.sched.sleepQueue) ∧
    ∀ now : U64, ∃ s', σ.kernel.sched.wakeSleepers now = .ok s' ∧
      TimerWoken σ.queueSet (σ.kernel.sched.sleepQueue.filter fun t => (σ.kernel.sched.threads t).wakeTick ≤ now)
        σ.kernel.sched s' := by
  have hbooted := boot_ok hf hboot
  have hempty : σ₀.kernel.sched.sleepQueue = [] := by
    refine List.eq_nil_iff_forall_not_mem.mpr fun t ht => ?_
    obtain ⟨hreal, hin⟩ := (hbooted.ok.sched.ok.mem_sleep t).mp ht
    rw [hbooted.threads t hreal] at hin
    cases hin
  have h₀ : SleepOk [] σ₀.kernel.sched := by
    refine ⟨by rw [hempty]; exact .nil _, fun t ht => ?_⟩
    rw [hempty] at ht
    cases ht
  obtain ⟨es, hes⟩ := h.history hbooted.ok
  exact ⟨⟨es, hes⟩, fun es hes => (h₀.acts (hes.acts hbooted.ok)).stable,
    wakeSleepers_due (h.sysOk hbooted.ok).sched.ok (h₀.acts (hes.acts hbooted.ok))⟩

/-- A thread that sleeps for one tick, and the next tick. -/
theorem wakeSleepers_exact_sample : ∃ σ : System, σ.kernel.sched.sleepQueue = [1] ∧
    ∀ now : U64, ∃ s', σ.kernel.sched.wakeSleepers now = .ok s' ∧
      TimerWoken σ.queueSet (σ.kernel.sched.sleepQueue.filter fun t => (σ.kernel.sched.threads t).wakeTick ≤ now)
        σ.kernel.sched s' := by
  have hrun : ∃ σ₀ σ, boot sampleKernel = .ok σ₀ ∧
      Runs σ₀ [.threadCreate (some "a") 0x80004000 0, .waitQueueInit 0x80010000 none, .threadStart,
        .control { op := threadTrapWaitTimeout, arg0 := 0x80010000, arg1 := some 1 } (sampleSite 1)] σ ∧
      σ.kernel.sched.sleepQueue = [1] := by
    refine ⟨_, _, rfl, .cons ⟨?_, trivial⟩ rfl (.cons ⟨⟨?_, ?_⟩, trivial⟩ rfl (.cons ⟨rfl, trivial⟩ rfl
      (.single ⟨⟨1, rfl, rfl, rfl, .inr ⟨by decide, .inr (.inr ⟨.inr rfl, List.mem_cons_self⟩)⟩,
        sampleSite_onStack (by decide)⟩, trivial⟩ rfl))), rfl⟩
    · intro c hc
      cases hc
    · intro c hc
      cases hc
    · decide
  obtain ⟨σ₀, σ, hboot, h, hq⟩ := hrun
  exact ⟨σ, hq, (wakeSleepers_exact sampleKernel_fresh hboot h).2.2⟩

end System

end QemuRtos
