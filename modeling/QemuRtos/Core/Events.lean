import QemuRtos.Core.ThreadsOk

/-!
# Steps as sequences of scheduler events

Each step of the system moves threads between the queues one at a time: a thread is woken, requeued, parked,
retired, dispatched or created. `Acts image Q s es s'` says that the events `es`, in this order, lead from `s`
to `s'`. What holds of a thread or of a queue over a whole run follows from what each event does.
-/

namespace QemuRtos

open Lib

/-- What ends a wait. -/
inductive Cause
  | event (queue : U64)
  | timer (now : U64)

def Cause.Holds : Cause → Nat → Int → Sched → Prop
  | .event queue => EventWake queue
  | .timer now => TimerWake now

inductive SchedEvent
  | silent (saver : Option Nat)
  | wake (tid : Nat) (result : Int) (cause : Cause)
  | requeue (tid : Nat)
  | nullRequeue
  | park (tid : Nat) (b : Block)
  | retire (tid : Nat)
  | dispatch (tid : Nat)
  | create (tid : Nat)

/-- Between the moves: a thread that does not run keeps its control block, and only the thread `saver`
writes frames on its own stack. -/
structure Silent (image : Image) (Q : Set U64) (saver : Option Nat) (s s' : Sched) : Prop where
  others : ∀ t, (s.threads t).state ≠ .running → s'.threads t = s.threads t
  state : ∀ t, (s.threads t).state = .running → (s'.threads t).state = .running
  kernel : ∀ t, (s.threads t).userTask = 0 →
    (s'.threads t).userTask = 0 ∧ (s'.threads t).trapFrame = (s.threads t).trapFrame
  frames : ∀ t, tidIsReal t → saver ≠ some t → ∀ a, OnStack image t a → s'.frames a = s.frames a
  ready : s'.ready = s.ready
  sleep : s'.sleepQueue = s.sleepQueue
  waits : ∀ q ∈ Q, s'.waits q = s.waits q

/-- What one event does. -/
inductive Act (image : Image) (Q : Set U64) : SchedEvent → Sched → Sched → Prop
  | silent {saver : Option Nat} {s s' : Sched} (hrun : ∀ c, saver = some c → (s.threads c).state = .running)
    (h : Silent image Q saver s s') : Act image Q (.silent saver) s s'
  | wake {tid : Nat} {result : Int} {cause : Cause} {s s' : Sched} (hok : SchedOk Q s) (hw : Woken Q tid result s s')
    (hc : cause.Holds tid result s) (hq : ∀ queue, cause = .event queue → queue ∈ Q) :
    Act image Q (.wake tid result cause) s s'
  | requeue {c : Nat} {frame : U64} {s s' : Sched} (hc : tidIsReal c) (hrun : (s.threads c).state = .running)
    (h : Requeued c frame s s') : Act image Q (.requeue c) s s'
  | nullRequeue {frame : U64} {s s' : Sched} (hrun : (s.threads threadNullTid).state = .running)
    (h : NullRequeued frame s s') : Act image Q .nullRequeue s s'
  | park {c : Nat} {frame : U64} {b : Block} {s s' : Sched} (hc : tidIsReal c) (hrun : (s.threads c).state = .running)
    (hplace : OnStack image c frame ∨ InPages image frame ∧ b.queue = none) (h : Parked Q c frame b s s') : Act image Q (.park c b) s s'
  | retire {c : Nat} {s s' : Sched} (hc : tidIsReal c) (hrun : (s.threads c).state = .running)
    (h : Retired c s s') : Act image Q (.retire c) s s'
  | dispatch {s s' : Sched} (hok : SchedOk Q s) (hh : Halted s) (h : Dispatched s.next s s') :
    Act image Q (.dispatch s.next) s s'
  | create {tid : Nat} {th : Thread} {own : Set U64} {s s' : Sched} (h : Installed Q tid th own s s')
    (hst : th.state = .ready) (hown : ∀ a ∈ own, OnStack image tid a) : Act image Q (.create tid) s s'

/-- A sequence of events. `Q` lists queues that are initialised throughout. -/
inductive Acts (image : Image) (Q : Set U64) : Sched → List SchedEvent → Sched → Prop
  | nil (s : Sched) : Acts image Q s [] s
  | cons {Q' : Set U64} {e : SchedEvent} {es : List SchedEvent} {s s' s'' : Sched} (hQ : Q ⊆ Q')
    (h : Act image Q' e s s') (rest : Acts image Q s' es s'') : Acts image Q s (e :: es) s''

variable {image : Image} {Q Q' : Set U64} {s s' s'' : Sched} {c t : Nat} {frame next : U64}
  {es es' : List SchedEvent} {e : SchedEvent} {k k' : Kernel}

namespace Acts

theorem single (h : Act image Q e s s') : Acts image Q s [e] s' := .cons subset_rfl h (.nil s')

theorem append (h : Acts image Q s es s') (h' : Acts image Q s' es' s'') : Acts image Q s (es ++ es') s'' := by
  induction h with
  | nil => exact h'
  | cons hQ h _ ih => exact .cons hQ h (ih h')

theorem mono (h : Acts image Q s es s') (hQ : Q' ⊆ Q) : Acts image Q' s es s' := by
  induction h with
  | nil => exact .nil _
  | cons hQ' h _ ih => exact .cons (hQ.trans hQ') h ih

theorem silent (h : Silent image Q none s s') : Acts image Q s [.silent none] s' :=
  single (.silent nofun h)

theorem save (h : Silent image Q (some c) s s') (hrun : (s.threads c).state = .running) :
    Acts image Q s [.silent (some c)] s' :=
  single (.silent (fun d hd => by rwa [← Option.some.inj hd]) h)

end Acts

/-! ### Silent changes -/

variable {saver : Option Nat}

theorem Silent.refl (image : Image) (Q : Set U64) (saver : Option Nat) (s : Sched) : Silent image Q saver s s :=
  ⟨fun _ _ => rfl, fun _ h => h, fun _ h => ⟨h, rfl⟩, fun _ _ _ _ _ => rfl, rfl, rfl, fun _ _ => rfl⟩

theorem Silent.trans (h : Silent image Q saver s s') (h' : Silent image Q saver s' s'') :
    Silent image Q saver s s'' where
  others t ht := by
    have := h.others t ht
    rw [h'.others t (by rwa [this]), this]
  state t ht := h'.state t (h.state t ht)
  kernel t ht := by
    have h₁ := h.kernel t ht
    have h₂ := h'.kernel t h₁.1
    exact ⟨h₂.1, h₂.2.trans h₁.2⟩
  frames t ht hne a ha := (h'.frames t ht hne a ha).trans (h.frames t ht hne a ha)
  ready := h'.ready.trans h.ready
  sleep := h'.sleep.trans h.sleep
  waits q hq := (h'.waits q hq).trans (h.waits q hq)

theorem Silent.setFrames {frames : U64 → TrapFrame}
    (h : ∀ t, tidIsReal t → saver ≠ some t → ∀ a, OnStack image t a → frames a = s.frames a) :
    Silent image Q saver s { s with frames := frames } :=
  ⟨fun _ _ => rfl, fun _ h => h, fun _ ht => ⟨ht, rfl⟩, h, rfl, rfl, fun _ _ => rfl⟩

theorem Silent.setFrame {f : TrapFrame → TrapFrame}
    (h : ∀ t, tidIsReal t → saver ≠ some t → ¬OnStack image t frame) :
    Silent image Q saver s (s.setFrame frame f) :=
  .setFrames fun t ht hst _ ha => Sched.setFrame_of_ne _ _ _ fun he => h t ht hst (he ▸ ha)

theorem Silent.saveFrame {f : TrapFrame → TrapFrame} (hplace : OnStack image c frame ∨ InPages image frame) :
    Silent image Q (some c) s (s.setFrame frame f) := by
  refine .setFrame fun t ht hne hon => ?_
  rcases hplace with h | h
  · exact hne (congrArg some (h.unique hon))
  · exact h.not_onStack (tidIsReal_iff.mp ht).2 hon

theorem Adjusted.silent (h : Adjusted c s s') (hrun : (s.threads c).state = .running)
    (hframe : (s.threads c).userTask = 0 → (s'.threads c).trapFrame = (s.threads c).trapFrame) :
    Silent image Q saver s s' where
  others t ht := h.others t fun he => ht (he ▸ hrun)
  state t ht := by
    by_cases hc : t = c
    · subst hc; rw [h.state]; exact ht
    · rw [h.others t hc]; exact ht
  kernel t ht := by
    by_cases hc : t = c
    · subst hc; exact ⟨h.task.trans ht, hframe ht⟩
    · rw [h.others t hc]; exact ⟨ht, rfl⟩
  frames _ _ _ _ _ := by rw [h.frames]
  ready := by rw [Sched.ready, h.readyQueue, Sched.ready]
  sleep := h.sleepQueue
  waits q _ := by rw [Sched.waits, h.waitQueues, Sched.waits]

theorem Returned.silent (h : Returned next k k') (hs : SchedInv Q k.sched) :
    Silent image Q saver k.sched k'.sched := by
  cases h with
  | supervisor => exact .refl image Q saver _
  | @user c hcur htask hnext hspp sie =>
    exact (Adjusted.setTrapFrame c k.sched hnext).silent (hs.started hcur).2.state fun hz => absurd hz htask

theorem Silent.newQueue {image : Image} {queue : U64} {queues : List U64} {s s' : Sched} (hq : queue ∉ queues)
    (hthreads : s'.threads = s.threads) (hframes : s'.frames = s.frames)
    (hqueues : s'.ready = s.ready ∧ s'.sleepQueue = s.sleepQueue)
    (hothers : ∀ q ≠ queue, s'.waitQueues q = s.waitQueues q) : Silent image {q | q ∈ queues} saver s s' where
  others t _ := by rw [hthreads]
  state t ht := by rw [hthreads]; exact ht
  kernel t ht := by rw [hthreads]; exact ⟨ht, rfl⟩
  frames _ _ _ _ _ := by rw [hframes]
  ready := hqueues.1
  sleep := hqueues.2
  waits q hqQ := by
    rw [Sched.waits, hothers q fun he => hq (he ▸ hqQ), Sched.waits]

/-! ### Sequences -/

theorem WokenSeq.acts {P : Nat → Int → Sched → Prop} (h : WokenSeq Q P s s') (image : Image) (cause : Cause)
    (hP : ∀ tid result s, P tid result s → cause.Holds tid result s)
    (hq : ∀ queue, cause = .event queue → queue ∈ Q) : ∃ es, Acts image Q s es s' ∧
      ∀ e ∈ es, ∃ tid result, e = .wake tid result cause := by
  induction h with
  | nil s => exact ⟨[], .nil s, nofun⟩
  | @cons tid result _ _ _ hok hp hw _ ih =>
    obtain ⟨es, hes, hall⟩ := ih
    exact ⟨.wake tid result cause :: es, .cons subset_rfl (.wake hok hw (hP _ _ _ hp) hq) hes,
      List.forall_mem_cons.mpr ⟨⟨tid, result, rfl⟩, hall⟩⟩

/-- How the current thread leaves, as an event. -/
def Leave.event (c : Nat) : Leave → SchedEvent
  | .stay => .silent none
  | .requeue => .requeue c
  | .nullRequeue => .nullRequeue
  | .park b => .park c b
  | .retire => .retire c

theorem Switched.acts {R : Sched → Sched → Prop} (h : Switched Q R s s' next)
    (hR : ∀ s₁, R s s₁ → Act image Q e s s₁) :
    ∃ d, Acts image Q s [e, .dispatch d] s' ∧ s'.currentThread = some d := by
  obtain ⟨s₁, hr, hok, hh, hd, -, hrun, -⟩ := h
  exact ⟨s₁.next, .cons subset_rfl (hR s₁ hr) (.single (.dispatch hok hh hd)), hrun.current⟩

theorem Left.acts {l : Leave} (h : Left Q c frame s l next s') (hrun : Running c s)
    (hplace : OnStack image c frame ∨ InPages image frame ∧ ∀ b, l = .park b → b.queue = none) :
    ∃ es, Acts image Q s (l.event c :: es) s' ∧
      (es = [] ∧ l = .stay ∨ l ≠ .stay ∧ ∃ d, es = [.dispatch d] ∧ s'.currentThread = some d) := by
  have hst := hrun.state
  cases l with
  | stay => exact ⟨[], .silent (h.1.toAdjusted.silent hst fun _ => h.1.trapFrame), .inl ⟨rfl, rfl⟩⟩
  | requeue =>
    obtain ⟨d, ha, hcur⟩ := h.2.acts fun s₁ hr => Act.requeue h.1 hst hr
    exact ⟨_, ha, .inr ⟨nofun, d, rfl, hcur⟩⟩
  | nullRequeue =>
    obtain ⟨rfl, hsw⟩ := h
    obtain ⟨d, ha, hcur⟩ := hsw.acts fun s₁ hr => Act.nullRequeue hst hr
    exact ⟨_, ha, .inr ⟨nofun, d, rfl, hcur⟩⟩
  | park b =>
    obtain ⟨d, ha, hcur⟩ := h.2.acts fun s₁ hr => Act.park h.1 hst (hplace.imp_right fun hp => ⟨hp.1, hp.2 b rfl⟩) hr
    exact ⟨_, ha, .inr ⟨nofun, d, rfl, hcur⟩⟩
  | retire =>
    obtain ⟨d, ha, hcur⟩ := h.2.acts fun s₁ hr => Act.retire h.1 hst hr
    exact ⟨_, ha, .inr ⟨nofun, d, rfl, hcur⟩⟩

/-! ### What an event does to a thread that waits -/

/-- Blocked threads have saved their registers on their stack, or in their trap context when they wait on no
queue. -/
def Placed (image : Image) (s : Sched) : Prop :=
  ∀ t, tidIsReal t → (s.threads t).state = .blocked →
    OnStack image t (s.threads t).trapFrame ∨ InPages image (s.threads t).trapFrame ∧ (s.threads t).inWaitQueue = false

theorem Act.blocked (h : Act image Q e s s') (hb : (s.threads t).state = .blocked) :
    s'.threads t = s.threads t ∨
      ∃ r cause, e = .wake t r cause ∧ SchedOk Q s ∧ Woken Q t r s s' ∧ cause.Holds t r s ∧
        ∀ queue, cause = .event queue → queue ∈ Q := by
  have hother : ∀ {c : Nat} {th : Thread}, (s.threads c).state ≠ .blocked →
      s'.threads = Function.update s.threads c th → s'.threads t = s.threads t := fun hc hth => by
    rw [hth, Function.update_of_ne]
    rintro rfl
    exact hc hb
  cases h with
  | silent _ h => exact .inl (h.others t (by rw [hb]; decide))
  | @wake tid r cause _ _ hok hw hc hq =>
    by_cases ht : t = tid
    · subst ht; exact .inr ⟨r, cause, rfl, hok, hw, hc, hq⟩
    · exact .inl (hw.of_ne ht)
  | requeue _ hrun h => exact .inl (hother (by rw [hrun]; decide) h.threads)
  | nullRequeue hrun h => exact .inl (hother (by rw [hrun]; decide) h.threads)
  | park _ hrun _ h => exact .inl (hother (by rw [hrun]; decide) h.threads)
  | retire _ hrun h => exact .inl (hother (by rw [hrun]; decide) h.threads)
  | dispatch hok hh h => exact .inl (hother (by rw [hok.next_state hh]; decide) h.threads)
  | create h => exact .inl (hother (by rcases h.free with hf | hf <;> rw [hf] <;> decide) h.threads)

theorem Act.ready (h : Act image Q e s s') (hb : (s.threads t).state = .ready) :
    s'.threads t = s.threads t ∨ e = .dispatch t ∨ t = threadNullTid := by
  have hother : ∀ {c : Nat} {th : Thread}, (s.threads c).state ≠ .ready →
      s'.threads = Function.update s.threads c th → s'.threads t = s.threads t := fun hc hth => by
    rw [hth, Function.update_of_ne]
    rintro rfl
    exact hc hb
  cases h with
  | silent _ h => exact .inl (h.others t (by rw [hb]; decide))
  | wake hok hw hc => exact .inl (hother (by rw [hw.blocked]; decide) hw.threads)
  | requeue _ hrun h => exact .inl (hother (by rw [hrun]; decide) h.threads)
  | nullRequeue hrun h => exact .inl (hother (by rw [hrun]; decide) h.threads)
  | park _ hrun _ h => exact .inl (hother (by rw [hrun]; decide) h.threads)
  | retire _ hrun h => exact .inl (hother (by rw [hrun]; decide) h.threads)
  | dispatch hok hh h =>
    by_cases ht : t = s.next
    · exact .inr (.inl (by rw [ht]))
    · exact .inl (by rw [h.threads, Function.update_of_ne ht])
  | create h => exact .inl (hother (by rcases h.free with hf | hf <;> rw [hf] <;> decide) h.threads)

theorem Act.blocks (h : Act image Q e s s') (hb : (s'.threads t).state = .blocked) :
    (s.threads t).state = .blocked ∨ ∃ b, e = .park t b := by
  have hother : ∀ {c : Nat} {th : Thread}, th.state ≠ .blocked →
      s'.threads = Function.update s.threads c th → (s.threads t).state = .blocked := fun {c th} hc hth => by
    rw [hth] at hb
    by_cases ht : t = c
    · subst ht; rw [Function.update_self] at hb; exact absurd hb hc
    · rwa [Function.update_of_ne ht] at hb
  cases h with
  | silent _ h =>
    by_cases hr : (s.threads t).state = .running
    · rw [h.state t hr] at hb; cases hb
    · rw [h.others t hr] at hb; exact .inl hb
  | wake hok hw hc => exact .inl (hother (by simp [Thread.woken]) hw.threads)
  | requeue _ hrun h => exact .inl (hother (by simp [Thread.requeue]) h.threads)
  | nullRequeue hrun h => exact .inl (hother (by simp [Thread.requeue]) h.threads)
  | @park c frame b _ _ _ hrun _ h =>
    by_cases ht : t = c
    · subst ht; exact .inr ⟨b, rfl⟩
    · rw [h.threads, Function.update_of_ne ht] at hb; exact .inl hb
  | retire _ hrun h => exact .inl (hother (by simp [Thread.retire]) h.threads)
  | dispatch hok hh h => exact .inl (hother (by simp [Thread.dispatched]) h.threads)
  | create h hst => exact .inl (hother (by rw [hst]; decide) h.threads)

theorem Act.placed (h : Act image Q e s s') (hp : Placed image s) : Placed image s' := by
  intro t ht hb
  rcases h.blocks hb with hb₀ | ⟨b, rfl⟩
  · rcases h.blocked hb₀ with heq | ⟨r, cause, rfl, -, hw, -⟩
    · rw [heq]; exact hp t ht hb₀
    · rw [hw.self] at hb; cases hb
  · cases h with
    | @park _ frame _ _ _ hc hrun hplace h =>
      rw [h.threads, Function.update_self]
      refine hplace.imp_right fun ⟨hin, hq⟩ => ⟨hin, ?_⟩
      show b.queue.isSome = false
      rw [hq]; rfl

theorem Act.frames (h : Act image Q e s s') (hp : Placed image s) (ht : tidIsReal t) (hsave : e ≠ .silent (some t))
    (hcreate : e ≠ .create t) {a : U64} (ha : OnStack image t a) :
    s'.frames a = s.frames a ∨ ∃ r cause, e = .wake t r cause ∧ a = (s.threads t).trapFrame ∧
      s'.frames a = { s.frames a with a0 := intReg r } := by
  cases h with
  | silent _ h => exact .inl (h.frames t ht (fun he => hsave (congrArg _ he)) a ha)
  | @wake tid r cause _ _ hok hw hc =>
    by_cases haf : a = (s.threads tid).trapFrame
    · right
      have hte : t = tid := by
        rcases hp tid hw.real hw.blocked with hon | ⟨hin, -⟩
        · exact ha.unique (haf ▸ hon)
        · exact absurd (haf ▸ ha) (hin.not_onStack (tidIsReal_iff.mp ht).2)
      subst hte
      exact ⟨r, cause, rfl, haf, by rw [hw.frames, haf, Function.update_self]⟩
    · exact .inl (by rw [hw.frames, Function.update_of_ne haf])
  | requeue _ _ h => exact .inl (by rw [h.frames])
  | nullRequeue _ h => exact .inl (by rw [h.frames])
  | park _ _ _ h => exact .inl (by rw [h.frames])
  | retire _ _ h => exact .inl (by rw [h.frames])
  | dispatch _ _ h => exact .inl (by rw [h.frames])
  | @create tid th own _ _ h hst hown =>
    refine .inl (h.frames a fun hmem => hcreate ?_)
    rw [(hown a hmem).unique ha]

theorem Act.not_save (h : Act image Q e s s') (hr : (s.threads t).state ≠ .running) : e ≠ .silent (some t) := by
  rintro rfl
  cases h with
  | silent hrun => exact hr (hrun t rfl)

theorem Act.not_create (h : Act image Q e s s') (hl : (s.threads t).state.live = true) : e ≠ .create t := by
  rintro rfl
  cases h with
  | create h => rcases h.free with hf | hf <;> rw [hf] at hl <;> cases hl

theorem Act.not_wake (h : Act image Q e s s') (hb : (s.threads t).state ≠ .blocked) (r : Int) (cause : Cause) :
    e ≠ .wake t r cause := by
  rintro rfl
  cases h with
  | wake _ hw => exact hb hw.blocked

theorem Acts.placed (h : Acts image Q s es s') (hp : Placed image s) : Placed image s' := by
  induction h with
  | nil => exact hp
  | cons _ h _ ih => exact ih (h.placed hp)

theorem Acts.wake_parked (h : Acts image Q s es s') (hb : (s.threads t).state ≠ .blocked) {es₁ es₂ : List SchedEvent}
    {r : Int} {cause : Cause} (hes : es = es₁ ++ .wake t r cause :: es₂) : ∃ b, .park t b ∈ es₁ := by
  induction h generalizing es₁ with
  | nil => simp at hes
  | @cons Q' e es s s₁ s' hQ h _ ih =>
    cases es₁ with
    | nil =>
      obtain ⟨rfl, -⟩ := List.cons.inj hes
      cases h with
      | wake _ hw => exact absurd hw.blocked hb
    | cons e' es₁ =>
      obtain ⟨rfl, hes'⟩ := List.cons.inj hes
      by_cases hb₁ : (s₁.threads t).state = .blocked
      · obtain ⟨b, rfl⟩ := (h.blocks hb₁).resolve_left hb
        exact ⟨b, List.mem_cons_self⟩
      · obtain ⟨b, hmem⟩ := ih hb₁ hes'
        exact ⟨b, List.mem_cons_of_mem _ hmem⟩

theorem Acts.park_of_blocked (h : Acts image Q s es s') (hb : (s.threads t).state ≠ .blocked)
    (hb' : (s'.threads t).state = .blocked) : ∃ b, .park t b ∈ es := by
  induction h with
  | nil => exact absurd hb' hb
  | @cons Q' e es s s₁ s' hQ h _ ih =>
    by_cases hb₁ : (s₁.threads t).state = .blocked
    · obtain ⟨b, rfl⟩ := (h.blocks hb₁).resolve_left hb
      exact ⟨b, List.mem_cons_self⟩
    · obtain ⟨b, hmem⟩ := ih hb₁ hb'
      exact ⟨b, List.mem_cons_of_mem _ hmem⟩

theorem Acts.wakeTick (h : Acts image Q s es s') {tick : U64} (hpark : ∀ b, .park t b ∈ es → b.wakeTick = some tick)
    (hb : (s.threads t).state = .blocked → (s.threads t).wakeTick = tick) (hb' : (s'.threads t).state = .blocked) :
    (s'.threads t).wakeTick = tick := by
  induction h with
  | nil => exact hb hb'
  | @cons Q' e es s s₁ s' hQ h _ ih =>
    refine ih (fun b hm => hpark b (List.mem_cons_of_mem _ hm)) (fun hb₁ => ?_) hb'
    rcases h.blocks hb₁ with hb₀ | ⟨b, rfl⟩
    · rcases h.blocked hb₀ with hsame | ⟨r, cause, rfl, -, hw, -⟩
      · rw [hsame]; exact hb hb₀
      · rw [hw.self] at hb₁; cases hb₁
    · have htick := hpark b List.mem_cons_self
      cases h with
      | park _ _ _ h =>
        rw [h.threads, Function.update_self]
        show b.wakeTick.getD _ = tick
        rw [htick]; rfl

theorem Acts.blocked (h : Acts image Q s es s') (ht : tidIsReal t) (hp : Placed image s)
    (hb : (s.threads t).state = .blocked) :
    ((∀ r cause, .wake t r cause ∉ es) ∧ s'.threads t = s.threads t ∧
      ∀ a, OnStack image t a → s'.frames a = s.frames a) ∨
    ∃ es₁ r cause es₂ s₁ s₂, es = es₁ ++ .wake t r cause :: es₂ ∧ (∀ r cause, .wake t r cause ∉ es₁) ∧
      Acts image Q s es₁ s₁ ∧ (∃ Q', Q ⊆ Q' ∧ Act image Q' (.wake t r cause) s₁ s₂) ∧ Acts image Q s₂ es₂ s' ∧
      s₁.threads t = s.threads t ∧ ∀ a, OnStack image t a → s₁.frames a = s.frames a := by
  induction h with
  | nil => exact .inl ⟨fun _ _ => List.not_mem_nil, rfl, fun _ _ => rfl⟩
  | @cons Q' e es s s₁ s' hQ h rest ih =>
    by_cases hw : ∃ r cause, e = .wake t r cause
    · obtain ⟨r, cause, rfl⟩ := hw
      exact .inr ⟨[], r, cause, es, s, s₁, rfl, fun _ _ => List.not_mem_nil, .nil s, ⟨Q', hQ, h⟩, rest, rfl,
        fun _ _ => rfl⟩
    · have hsame : s₁.threads t = s.threads t :=
        (h.blocked hb).resolve_right fun ⟨r, cause, he, _⟩ => hw ⟨r, cause, he⟩
      have hframes : ∀ a, OnStack image t a → s₁.frames a = s.frames a := fun a ha =>
        (h.frames hp ht (h.not_save (by rw [hb]; decide)) (h.not_create (by rw [hb]; rfl)) ha).resolve_right
          fun ⟨r, cause, he, _⟩ => hw ⟨r, cause, he⟩
      have hnot : ∀ r cause, SchedEvent.wake t r cause ≠ e := fun r cause he => hw ⟨r, cause, he.symm⟩
      rcases ih (h.placed hp) (by rw [hsame]; exact hb) with ⟨hno, hth, hfr⟩ |
        ⟨es₁, r, cause, es₂, s₂, s₃, rfl, hno, h₁, h₂, h₃, hth, hfr⟩
      · refine .inl ⟨fun r cause hm => ?_, hth.trans hsame, fun a ha => (hfr a ha).trans (hframes a ha)⟩
        exact (List.mem_cons.mp hm).elim (hnot r cause) (hno r cause)
      · refine .inr ⟨e :: es₁, r, cause, es₂, s₂, s₃, rfl, fun r cause hm => ?_, .cons hQ h h₁, h₂, h₃,
          hth.trans hsame, fun a ha => (hfr a ha).trans (hframes a ha)⟩
        exact (List.mem_cons.mp hm).elim (hnot r cause) (hno r cause)

theorem Acts.ready (h : Acts image Q s es s') (ht : tidIsReal t) (hp : Placed image s)
    (hb : (s.threads t).state = .ready) :
    (.dispatch t ∉ es ∧ s'.threads t = s.threads t ∧ ∀ a, OnStack image t a → s'.frames a = s.frames a) ∨
    ∃ es₁ es₂ s₁ s₂, es = es₁ ++ .dispatch t :: es₂ ∧ .dispatch t ∉ es₁ ∧ Acts image Q s es₁ s₁ ∧
      Dispatched t s₁ s₂ ∧ Acts image Q s₂ es₂ s' ∧
      s₁.threads t = s.threads t ∧ ∀ a, OnStack image t a → s₁.frames a = s.frames a := by
  induction h with
  | nil => exact .inl ⟨List.not_mem_nil, rfl, fun _ _ => rfl⟩
  | @cons Q' e es s s₁ s' hQ h rest ih =>
    by_cases hw : e = .dispatch t
    · subst hw
      generalize hd : SchedEvent.dispatch t = e at h
      cases h with
      | dispatch _ _ hdisp =>
        cases hd
        exact .inr ⟨[], es, s, s₁, rfl, List.not_mem_nil, .nil s, hdisp, rest, rfl, fun _ _ => rfl⟩
      | _ => cases hd
    · have hsame : s₁.threads t = s.threads t :=
        (h.ready hb).resolve_right fun he => he.elim hw (tidIsReal_ne_null ht)
      have hframes : ∀ a, OnStack image t a → s₁.frames a = s.frames a := fun a ha =>
        (h.frames hp ht (h.not_save (by rw [hb]; decide)) (h.not_create (by rw [hb]; rfl)) ha).resolve_right
          fun ⟨r, cause, he, _⟩ => h.not_wake (by rw [hb]; decide) r cause he
      rcases ih (h.placed hp) (by rw [hsame]; exact hb) with ⟨hno, hth, hfr⟩ |
        ⟨es₁, es₂, s₂, s₃, rfl, hno, h₁, h₂, h₃, hth, hfr⟩
      · refine .inl ⟨fun hm => ?_, hth.trans hsame, fun a ha => (hfr a ha).trans (hframes a ha)⟩
        exact (List.mem_cons.mp hm).elim (fun he => hw he.symm) hno
      · refine .inr ⟨e :: es₁, es₂, s₂, s₃, rfl, fun hm => ?_, .cons hQ h h₁, h₂, h₃,
          hth.trans hsame, fun a ha => (hfr a ha).trans (hframes a ha)⟩
        exact (List.mem_cons.mp hm).elim (fun he => hw he.symm) hno

/-- A thread that is blocked at the end was blocked all along, or has been parked last with what its control
block says. -/
theorem Acts.parked (h : Acts image Q s es s') (hb' : (s'.threads t).state = .blocked) :
    (s.threads t).state = .blocked ∧ s'.threads t = s.threads t ∨
      ∃ b, .park t b ∈ es ∧ (s'.threads t).waitQueue = b.queue.getD 0 ∧ (s'.threads t).waitReason = b.reason := by
  induction h with
  | nil => exact .inl ⟨hb', rfl⟩
  | @cons Q' e es s s₁ s' hQ h _ ih =>
    rcases ih hb' with ⟨hb₁, hth⟩ | ⟨b, hm, hq, hr⟩
    · rcases h.blocks hb₁ with hb | ⟨b, rfl⟩
      · rcases h.blocked hb with hsame | ⟨r, cause, -, -, hw, -⟩
        · exact .inl ⟨hb, hth.trans hsame⟩
        · rw [hw.self] at hb₁; cases hb₁
      · refine .inr ⟨b, List.mem_cons_self, ?_⟩
        rw [hth]
        cases h with
        | park _ _ _ h => rw [h.threads, Function.update_self]; exact ⟨rfl, rfl⟩
    · exact .inr ⟨b, List.mem_cons_of_mem _ hm, hq, hr⟩

/-! ### What an event does to a thread that does not act -/

/-- The events that thread `t` brings about itself. -/
def SchedEvent.own (t : Nat) : SchedEvent → Prop
  | .silent saver => saver = some t
  | .requeue c | .park c _ | .retire c | .create c => c = t
  | .nullRequeue => threadNullTid = t
  | .wake .. | .dispatch _ => False

/-- A kernel thread that lives and does not act keeps its saved frame. Unless it is woken, the contents of the
frame stay too. -/
theorem Act.passive (h : Act image Q e s s') (hp : Placed image s) (ht : tidIsReal t)
    (hk : (s.threads t).userTask = 0) (hown : ¬e.own t) :
    (s'.threads t).userTask = 0 ∧ (s'.threads t).trapFrame = (s.threads t).trapFrame ∧
      ((s.threads t).state ≠ .blocked → (s'.threads t).state ≠ .blocked ∧
        ∀ a, OnStack image t a → s'.frames a = s.frames a) := by
  have hframes : (s.threads t).state ≠ .blocked → ∀ a, OnStack image t a → s'.frames a = s.frames a := by
    intro hb a ha
    refine (h.frames hp ht (fun he => hown ?_) (fun he => hown ?_) ha).resolve_right ?_
    · rw [he]; exact rfl
    · rw [he]; exact rfl
    · rintro ⟨r, cause, he, -⟩
      exact h.not_wake hb r cause he
  have hblocks : (s.threads t).state ≠ .blocked → (s'.threads t).state ≠ .blocked := by
    intro hb hb'
    obtain ⟨b, rfl⟩ := (h.blocks hb').resolve_left hb
    exact hown rfl
  have hthread : (s'.threads t).userTask = 0 ∧ (s'.threads t).trapFrame = (s.threads t).trapFrame := by
    have hother : ∀ {c : Nat} {th : Thread}, t ≠ c → s'.threads = Function.update s.threads c th →
        (s'.threads t).userTask = 0 ∧ (s'.threads t).trapFrame = (s.threads t).trapFrame := fun hc hth => by
      rw [hth, Function.update_of_ne hc]
      exact ⟨hk, rfl⟩
    cases h with
    | silent _ h => exact h.kernel t hk
    | @wake tid r cause _ _ hok hw hc hq =>
      by_cases hte : t = tid
      · subst hte; rw [hw.self]; exact ⟨hk, rfl⟩
      · exact hother hte hw.threads
    | requeue _ _ h => exact hother (fun he => hown he.symm) h.threads
    | nullRequeue _ h => exact hother (fun he => hown he.symm) h.threads
    | park _ _ _ h => exact hother (fun he => hown he.symm) h.threads
    | retire _ _ h => exact hother (fun he => hown he.symm) h.threads
    | dispatch hok hh h =>
      by_cases hte : t = s.next
      · rw [h.threads, hte, Function.update_self, ← hte]; exact ⟨hk, rfl⟩
      · exact hother hte h.threads
    | create h => exact hother (fun he => hown he.symm) h.threads
  exact ⟨hthread.1, hthread.2, fun hb => ⟨hblocks hb, hframes hb⟩⟩

theorem Acts.passive (h : Acts image Q s es s') (hp : Placed image s) (ht : tidIsReal t)
    (hk : (s.threads t).userTask = 0) (hown : ∀ e ∈ es, ¬e.own t) (hb : (s.threads t).state ≠ .blocked) :
    (s'.threads t).state ≠ .blocked ∧ (s'.threads t).trapFrame = (s.threads t).trapFrame ∧
      ∀ a, OnStack image t a → s'.frames a = s.frames a := by
  induction h with
  | nil => exact ⟨hb, rfl, fun _ _ => rfl⟩
  | @cons Q' e es s s₁ s' hQ h rest ih =>
    obtain ⟨hk₁, hf₁, hrest⟩ := h.passive hp ht hk (hown e List.mem_cons_self)
    obtain ⟨hb₁, hframes⟩ := hrest hb
    obtain ⟨hb', hf', hframes'⟩ := ih (h.placed hp) hk₁ (fun e he => hown e (List.mem_cons_of_mem _ he)) hb₁
    exact ⟨hb', hf'.trans hf₁, fun a ha => (hframes' a ha).trans (hframes a ha)⟩

/-! ### The wait queues -/

/-- What an event does to the threads that wait on `queue`: who parks joins at the end, who is woken leaves. -/
def SchedEvent.queued (queue : U64) (waiters : List Nat) : SchedEvent → List Nat
  | .wake tid _ _ => waiters.erase tid
  | .park c b => if b.queue = some queue then waiters ++ [c] else waiters
  | _ => waiters

theorem Act.waits (h : Act image Q e s s') {q : U64} (hq : q ∈ Q) : s'.waits q = e.queued q (s.waits q) := by
  cases h with
  | silent _ h => exact h.waits q hq
  | wake _ hw => exact hw.waits q hq
  | requeue _ _ h => rw [Sched.waits, h.waits]; rfl
  | nullRequeue _ h => rw [Sched.waits, h.waits]; rfl
  | park _ _ _ h => exact h.waits q hq
  | retire _ _ h => rw [Sched.waits, h.waits]; rfl
  | dispatch _ _ h => rw [Sched.waits, h.waits]; rfl
  | create h => rw [Sched.waits, h.waits]; rfl

theorem Acts.waits (h : Acts image Q s es s') {q : U64} (hq : q ∈ Q) :
    s'.waits q = es.foldl (SchedEvent.queued q) (s.waits q) := by
  induction h with
  | nil => rfl
  | cons hQ h _ ih => rw [List.foldl_cons, ih, h.waits (hQ hq)]

/-- The threads of `waiters` that are blocked. -/
def Sched.stillBlocked (s : Sched) (waiters : List Nat) : List Nat :=
  waiters.filter fun t => (s.threads t).state = .blocked

theorem Act.stillBlocked_of_ne (h : Act image Q e s s') {waiters : List Nat}
    (hpark : ∀ t b, e = .park t b → t ∉ waiters) (hne : ∀ tid r cause, e ≠ .wake tid r cause) :
    s'.stillBlocked waiters = s.stillBlocked waiters := by
  refine List.filter_congr fun t ht => decide_eq_decide.mpr ⟨fun hb => ?_, fun hb => ?_⟩
  · exact (h.blocks hb).resolve_right fun ⟨b, he⟩ => hpark t b he ht
  · rcases h.blocked hb with hsame | ⟨r, cause, he, -⟩
    · rwa [hsame]
    · exact absurd he (hne t r cause)

theorem Act.stillBlocked_wake {tid : Nat} {r : Int} {cause : Cause} (h : Act image Q (.wake tid r cause) s s')
    {waiters : List Nat} (hnd : waiters.Nodup) : s'.stillBlocked waiters = (s.stillBlocked waiters).erase tid := by
  cases h with
  | wake _ hw =>
    rw [Sched.stillBlocked, Sched.stillBlocked, (hnd.filter _).erase_eq_filter, List.filter_filter]
    refine List.filter_congr fun t _ => ?_
    by_cases ht : t = tid
    · subst ht
      rw [hw.self]
      simp [Thread.woken]
    · rw [hw.of_ne ht]
      simp [ht]

/-- Over events that park thread `c` only, the threads that keep waiting keep their order, and `c` stands behind
them if it has come to wait. -/
theorem Acts.arrivals (h : Acts image Q s es s') {q : U64} (hq : q ∈ Q) {waiters joined : List Nat}
    (hnd : waiters.Nodup) (hc : c ∉ waiters) (hpark : ∀ t b, .park t b ∈ es → t = c)
    (hjoined : joined = [] ∨ joined = [c] ∧ (s.threads c).state = .blocked)
    (hs : s.waits q = s.stillBlocked waiters ++ joined) :
    ∃ joined', (joined' = [] ∨ joined' = [c]) ∧ s'.waits q = s'.stillBlocked waiters ++ joined' := by
  induction h generalizing joined with
  | nil => exact ⟨joined, hjoined.imp_right And.left, hs⟩
  | @cons Q' e es s s₁ s' hQ h _ ih =>
    have hrest : ∀ t b, .park t b ∈ es → t = c := fun t b hm => hpark t b (List.mem_cons_of_mem _ hm)
    have hparks : ∀ t b, e = .park t b → t ∉ waiters := fun t b he hm => by
      rw [hpark t b (he ▸ List.mem_cons_self)] at hm
      exact hc hm
    have hwaits := h.waits (hQ hq)
    rw [hs] at hwaits
    have hblocked : (∀ r cause, e ≠ .wake c r cause) → (s.threads c).state = .blocked → (s₁.threads c).state = .blocked :=
      fun hne hb => by
        rw [(h.blocked hb).resolve_right fun ⟨r, cause, he, _⟩ => hne r cause he]
        exact hb
    cases e with
    | wake tid r cause =>
      rw [SchedEvent.queued] at hwaits
      refine @ih (if tid = c then [] else joined) hrest ?_ ?_
      · split
        · exact .inl rfl
        · next hne => exact hjoined.imp_right fun ⟨he, hb⟩ => ⟨he, hblocked (fun _ _ he => hne (by cases he; rfl)) hb⟩
      · rw [hwaits, h.stillBlocked_wake hnd]
        by_cases hmem : tid ∈ s.stillBlocked waiters
        · rw [List.erase_append_left _ hmem, if_neg]
          rintro rfl
          exact hc (List.mem_of_mem_filter hmem)
        · rw [List.erase_append_right _ hmem, List.erase_of_not_mem hmem]
          rcases hjoined with rfl | ⟨rfl, -⟩
          · simp
          · by_cases htc : tid = c
            · simp [htc]
            · simp [htc, Ne.symm htc]
    | park d b =>
      obtain rfl := hpark d b List.mem_cons_self
      have hnil : joined = [] := hjoined.resolve_right fun ⟨_, hb⟩ => by
        cases h with
        | park _ hrun => rw [hrun] at hb; cases hb
      rw [SchedEvent.queued, hnil, List.append_nil, ← h.stillBlocked_of_ne hparks (fun _ _ _ => nofun)] at hwaits
      refine @ih (if b.queue = some q then [d] else []) hrest ?_ ?_
      · split
        · refine .inr ⟨rfl, ?_⟩
          cases h with
          | park _ _ _ h => rw [h.threads, Function.update_self]; rfl
        · exact .inl rfl
      · rw [hwaits]
        split <;> simp
    | _ =>
      refine ih hrest (hjoined.imp_right fun ⟨he, hb⟩ => ⟨he, hblocked nofun hb⟩) ?_
      rw [h.stillBlocked_of_ne hparks nofun]
      exact hwaits

end QemuRtos
