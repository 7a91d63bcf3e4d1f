import QemuRtos.Core.Events
import QemuRtos.SystemRun

/-!
# The events of a step

Each step of the system is a sequence of scheduler events; `EventOk` says which events a step can make. The
history of a run is made of the events of its steps, in order.
-/

namespace QemuRtos

open Lib

namespace System

variable {σ σ' : System} {op : Op} {c : Nat}

/-- The events that a step from `σ` to `σ'` can make. -/
def EventOk (σ : System) (op : Op) (σ' : System) : SchedEvent → Prop
  | .silent saver => ∀ c, saver = some c → σ.kernel.sched.currentThread = some c
  | .dispatch d => σ'.kernel.sched.currentThread = some d
  | .create tid => op.Creates ∧ (σ.kernel.sched.threads tid).state.live = false
  | .wake tid _ (.event queue) => queue ∈ σ.queues ∧ (op = .wakeOne queue ∨ op = .wakeAll queue ∨
      op = .dispatchIrqs ∧ queue = accelWaiters σ.kernel.machine.image ∨
      ∃ mutex, op = .mutexUnlock mutex ∧ queue = mutexWaiters mutex ∧ (σ'.kernel.mutexes mutex).owner = tid)
  | .wake _ _ (.timer now) => (∃ mtime site, op = .timer mtime site) ∧ now = σ.now + 1
  | .requeue c | .retire c => σ.kernel.sched.currentThread = some c
  | .nullRequeue => σ.kernel.sched.currentThread = some threadNullTid
  | .park c b => σ.kernel.sched.currentThread = some c ∧ b.wakeTick = σ.wakeTick op ∧
      (∀ q, b.queue = some q → q ∈ σ.queues) ∧ ∃ frame mstatus, Traps σ op c frame mstatus (.park b) (σ'.calls c)

/-- The step makes the events `es`: they lead from its start to its end, and it can make each of them. -/
structure StepEvents (op : Op) (σ : System) (es : List SchedEvent) (σ' : System) : Prop where
  acts : Acts σ.kernel.machine.image σ.queueSet σ.kernel.sched es σ'.kernel.sched
  ok : ∀ e ∈ es, EventOk σ op σ' e

def StepActs (σ : System) (op : Op) (σ' : System) : Prop := ∃ es, StepEvents op σ es σ'

theorem StepActs.silent (h : Silent σ.kernel.machine.image σ.queueSet none σ.kernel.sched σ'.kernel.sched) :
    StepActs σ op σ' :=
  ⟨[.silent none], .silent h, fun e he => by rw [List.mem_singleton.mp he]; exact nofun⟩

theorem StepActs.of_eq (h : σ'.kernel.sched = σ.kernel.sched) : StepActs σ op σ' :=
  .silent (by rw [h]; exact .refl _ _ _ _)

theorem SysOk.running (h : SysOk σ) (hcur : σ.kernel.sched.currentThread = some c) : Running c σ.kernel.sched :=
  (h.sched.started hcur).2

theorem UserFrame.place {frame mstatus : U64} (hf : UserFrame σ.kernel c frame mstatus) (h : SysOk σ)
    (hcur : σ.kernel.sched.currentThread = some c) : InPages σ.kernel.machine.image frame := by
  have hc := h.real_of_userTask hcur hf.task
  rw [hf.frame]
  exact (h.threads.contexts _ ((h.threads.thread c hc).ready hf.task)).1

theorem Entered.silent {k₁ : Kernel} {saver : Option Nat} (hk : Entered c σ.kernel k₁) (h : SysOk σ)
    (hcur : σ.kernel.sched.currentThread = some c) :
    Silent σ.kernel.machine.image σ.queueSet saver σ.kernel.sched k₁.sched := by
  rw [hk.eq]
  refine .setFrames fun t ht _ a ha => (hk.frames a).resolve_right ?_
  rintro ⟨htask, rfl, -⟩
  have hc := h.real_of_userTask hcur htask
  exact (h.threads.contexts _ ((h.threads.thread c hc).ready htask)).1.not_onStack (tidIsReal_iff.mp ht).2 ha

theorem trap_acts {Q : Set U64} {image : Image} {frame next : U64} {s s₁ s' : Sched} {l : Leave} {k k' : Kernel}
    (hrun₀ : (s.threads c).state = .running) (hsave : Silent image Q (some c) s s₁)
    (hl : Left Q c frame s₁ l next s') (hrun : Running c s₁)
    (hplace : OnStack image c frame ∨ InPages image frame ∧ ∀ b, l = .park b → b.queue = none)
    (hr : Returned next k k') (hk : k.sched = s')
    (hs : SchedInv Q s') :
    ∃ es, Acts image Q s es k'.sched ∧
      ∀ e ∈ es, e = .silent none ∨ e = .silent (some c) ∨ e = l.event c ∨
        ∃ d, e = .dispatch d ∧ k'.sched.currentThread = some d := by
  subst hk
  obtain ⟨es, hes, hshape⟩ := hl.acts hrun hplace
  have hret : Silent image Q none k.sched k'.sched := hr.silent hs
  refine ⟨_, ((Acts.save hsave hrun₀).append hes).append (.silent hret), fun e he => ?_⟩
  simp only [List.mem_append, List.mem_cons, List.not_mem_nil, or_false] at he
  rcases he with (rfl | rfl | he) | rfl
  · exact .inr (.inl rfl)
  · exact .inr (.inr (.inl rfl))
  · rcases hshape with ⟨rfl, -⟩ | ⟨-, d, rfl, hcur⟩
    · exact (List.not_mem_nil he).elim
    · exact .inr (.inr (.inr ⟨d, List.mem_singleton.mp he, hr.current.trans hcur⟩))
  · exact .inl rfl

theorem eventOk_silent : EventOk σ op σ' (.silent none) := by
  intro c hc
  cases hc

theorem eventOk_of_shape {l : Leave} {e : SchedEvent} (hcur : σ.kernel.sched.currentThread = some c)
    (hl : EventOk σ op σ' (l.event c))
    (he : e = .silent none ∨ e = .silent (some c) ∨ e = l.event c ∨
      ∃ d, e = .dispatch d ∧ σ'.kernel.sched.currentThread = some d) : EventOk σ op σ' e := by
  rcases he with rfl | rfl | rfl | ⟨d, rfl, hd⟩
  · exact eventOk_silent
  · intro d hd
    cases hd
    exact hcur
  · exact hl
  · exact hd

theorem Traps.park {frame mstatus : U64} {b : Block} {call : Call} (hw : Traps σ op c frame mstatus (.park b) call)
    (h : SysOk σ) : b.wakeTick = σ.wakeTick op ∧ ∀ q, b.queue = some q → q ∈ σ.queues := by
  cases hw with
  | kernel _ _ hpark => exact ⟨(hpark b rfl).1, fun q hq => ((hpark b rfl).2 q hq).1⟩
  | user _ _ _ hpark => rw [hpark b rfl]; exact ⟨rfl, nofun⟩
  | waits hcall hbusy =>
    refine ⟨rfl, fun q hq => ?_⟩
    cases call with
    | idle => exact absurd rfl hbusy
    | lock call => cases hq; exact (h.mutexQueue _ hcall.2.1).2
    | submit sub => cases hq; exact h.accelQueue hcall.1
    | userMemset u sub => cases hq; exact h.accelQueue hcall.1

theorem Stepped.acts (hs : Stepped σ op σ') (h : SysOk σ) : StepActs σ op σ' := by
  cases hs with
  | driver hk => exact .of_eq (by rw [setKernel, hk.eq])
  | submitted hcur hcall hk => exact .of_eq (by rw [setCall, setKernel, hk.eq])
  | woken hk hsie hq hop hw hs' =>
    obtain ⟨es, hes, hall⟩ := hw.acts σ.kernel.machine.image (.event _) (fun _ _ _ hp => hp)
      fun q he => by cases he; exact hq
    refine ⟨es, hes, fun e he => ?_⟩
    obtain ⟨tid, result, rfl⟩ := hall e he
    exact ⟨hq, hop.imp_right (Or.imp_right .inl)⟩
  | @installed tid th own k' hop hi hk hs' hready hown hplace =>
    refine ⟨[.create tid], .single (.create hi hready hown), fun e he => ?_⟩
    rw [List.mem_singleton.mp he]
    refine ⟨hop, ?_⟩
    rcases hi.free with hf | hf
    · rw [hf]; rfl
    · rw [hf]; rfl
  | @started s₁ k' hst hd hs' hr =>
    have hh : Halted σ.kernel.sched := by
      rcases h.sched.phase with ⟨-, -, hh⟩ | ⟨ht, -⟩
      · exact hh
      · rw [hst] at ht; cases ht
    have hflags : Silent σ.kernel.machine.image σ.queueSet none s₁ { s₁ with
        threadsStarted := true, rescheduleRequested := σ.kernel.sched.rescheduleRequested } :=
      ⟨fun _ _ => rfl, fun _ h => h, fun _ h => ⟨h, rfl⟩, fun _ _ _ _ _ => rfl, rfl, rfl, fun _ _ => rfl⟩
    refine ⟨[.dispatch _, .silent none], .cons subset_rfl (.dispatch h.sched.ok hh hd) (.silent (hflags.trans (hr.silent hs'))),
      fun e he => ?_⟩
    simp only [List.mem_cons, List.not_mem_nil, or_false] at he
    rcases he with rfl | rfl
    · have hcur : s₁.currentThread = some σ.kernel.sched.next := congrArg (fun x => x.2.1) hd.statics
      exact hr.current.trans hcur
    · exact eventOk_silent
  | taskInit hi =>
    refine .silent ?_
    rw [setKernel, hi.eq]
    refine .setFrames fun t ht _ a ha => (hi.frames a).resolve_right ?_
    rintro ⟨hman, -⟩
    have hpage : InPages σ.kernel.machine.image a := h.above.trans hman.start_le
    exact hpage.not_onStack (tidIsReal_iff.mp ht).2 ha
  | queueInit hq hnil hthreads hframes hstatics hqueues hothers hs' =>
    exact .silent (.newQueue hq hthreads hframes hqueues hothers)
  | mutexInit hne hm hq hnil hthreads hframes hstatics hqueues hothers hs' =>
    exact .silent (.newQueue hq hthreads hframes hqueues hothers)
  | @timer c frame regs s₁ s₂ s₃ l next timer k' hop hcur hidle hframe hw hs₁ ht hl hleft hcharge hticks hr =>
    have hplace : OnStack σ.kernel.machine.image c frame ∨ InPages σ.kernel.machine.image frame :=
      hframe.imp (fun hf => hf.frame) fun hf => hf.place h hcur
    have hsave : Silent σ.kernel.machine.image σ.queueSet (some c) σ.kernel.sched
      (σ.kernel.sched.setFrame frame fun _ => regs) := .saveFrame hplace
    obtain ⟨es, hes, hall⟩ := hw.acts σ.kernel.machine.image (.timer (σ.now + 1))
      (fun _ _ _ hp => hp) fun _ hc => Cause.noConfusion hc
    have hcur₁ := (congrArg (fun x => x.2.1) hw.statics).trans hcur
    have hrun₁ := (hs₁.started hcur₁).2
    have hs₂ := ht.schedInv hs₁
    have hrun₂ := (hs₂.started (ht.current.trans hcur₁)).2
    have hs₃ := hleft.schedInv hs₂ (hs₂.started (ht.current.trans hcur₁)).1
    obtain ⟨es', hes', hshape⟩ := trap_acts hrun₁.state
      (ht.toAdjusted.silent hrun₁.state fun _ => ht.trapFrame) hleft hrun₂ (hplace.imp_right fun hp =>
      ⟨hp, fun b hb => by rcases hl with he | he <;> rw [he] at hb <;> cases hb⟩) hr rfl hs₃
    refine ⟨_, ((Acts.save hsave (h.running hcur).state).append hes).append hes', fun e he => ?_⟩
    simp only [List.mem_append, List.mem_singleton] at he
    rcases he with (rfl | he) | he
    · intro d hd
      cases hd
      exact hcur
    · obtain ⟨tid, result, rfl⟩ := hall e he
      exact ⟨hop, rfl⟩
    · refine eventOk_of_shape hcur ?_ (hshape e he)
      rcases hl with rfl | rfl
      · exact eventOk_silent
      · exact hcur
  | @bootTimer frame regs timer k' hop hcur hframe hticks hr =>
    have hs₁ : SchedInv σ.queueSet (σ.kernel.sched.setFrame frame fun _ => regs) := h.sched.setFrame _
    have hsave : Silent σ.kernel.machine.image σ.queueSet none σ.kernel.sched
      (σ.kernel.sched.setFrame frame fun _ => regs) := .setFrame fun t ht _ => hframe.2.2 t (tidIsReal_iff.mp ht).2
    exact .silent (hsave.trans (hr.silent hs₁))
  | @trapped c frame f l call k₁ k' hcur hk hsie hwhy ht hstay =>
    obtain ⟨next, s', hl, hr⟩ := ht
    have hth : k₁.sched.threads = σ.kernel.sched.threads := by rw [hk.eq]
    have hplace : OnStack σ.kernel.machine.image c frame ∨ InPages σ.kernel.machine.image frame ∧
        ∀ b, l = .park b → b.queue = none := by
      cases hwhy with
      | kernel _ hf => exact .inl hf.frame
      | user _ hf _ hpark => exact .inr ⟨hf.place h hcur, fun b hb => by rw [hpark b hb]⟩
      | memset _ hf => exact .inr ⟨hf.place h hcur, fun _ hb => Leave.noConfusion hb⟩
      | waits _ _ _ hf => exact .inl hf
    have hs₁ : SchedInv σ.queueSet k₁.sched := by rw [hk.eq]; exact h.sched.frames _
    have hcur₁ : k₁.sched.currentThread = some c := by rw [hk.eq]; exact hcur
    have hs₂ : SchedInv σ.queueSet (k₁.sched.setFrame frame fun _ => f) := hs₁.setFrame _
    have hrun₂ := (hs₂.started hcur₁).2
    have hsave := (Entered.silent hk h hcur).trans (Silent.saveFrame (f := fun _ => f) (hplace.imp_right And.left))
    obtain ⟨es, hes, hshape⟩ :=
      trap_acts (h.running hcur).state hsave hl hrun₂ hplace hr rfl (hl.schedInv hs₂ (hs₂.started hcur₁).1)
    refine ⟨es, hes, fun e he => eventOk_of_shape hcur ?_ (hshape e he)⟩
    cases l with
    | stay => exact eventOk_silent
    | requeue => exact hcur
    | nullRequeue => exact hl.1 ▸ hcur
    | retire => exact hcur
    | park b =>
      obtain ⟨htick, hq⟩ := hwhy.park h
      refine ⟨hcur, htick, hq, frame, f.mstatus, ?_⟩
      rw [setCall_calls_self]
      exact hwhy
  | @exited c frame regs s' next m t k' hcur hidle hframe hsw hm ht hr =>
    have hplace : OnStack σ.kernel.machine.image c frame ∨ InPages σ.kernel.machine.image frame :=
      .inr (hframe.place h hcur)
    have hsave : Silent σ.kernel.machine.image σ.queueSet (some c) σ.kernel.sched
      (σ.kernel.sched.setFrame frame fun _ => regs) := .saveFrame hplace
    have hs₁ : SchedInv σ.queueSet (σ.kernel.sched.setFrame frame fun _ => regs) := h.sched.setFrame _
    have hc := h.real_of_userTask hcur hframe.task
    have hleft : Left σ.queueSet c frame (σ.kernel.sched.setFrame frame fun _ => regs) .retire next s' := ⟨hc, hsw⟩
    have hs' := hleft.schedInv hs₁ (h.sched.started hcur).1
    obtain ⟨es, hes, hshape⟩ := trap_acts (h.running hcur).state hsave hleft (hs₁.started hcur).2
      (hplace.imp_right fun hp => ⟨hp, fun _ hb => Leave.noConfusion hb⟩) hr rfl hs'
    exact ⟨es, hes, fun e he => eventOk_of_shape (l := .retire) hcur hcur (hshape e he)⟩
  | locked hcur hcall hentry ho =>
    refine .of_eq ?_
    cases ho <;> (simp only [lockReturned]; split <;> rfl)
  | unlocked hop hcur hm howner hs' hnext =>
    rcases hnext with ⟨-, -, rfl⟩ | ⟨hhead, hw⟩
    · exact .of_eq rfl
    · refine ⟨[.wake _ _ (.event (mutexWaiters _))], .single (.wake h.sched.ok hw ⟨hhead, rfl⟩ fun q he => ?_), fun e he => ?_⟩
      · exact (Cause.event.inj he) ▸ (h.mutexQueue _ hm).2
      rw [List.mem_singleton.mp he]
      refine ⟨(h.mutexQueue _ hm).2, .inr (.inr (.inr ⟨_, hop, rfl, ?_⟩))⟩
      simp only [setHolds, setKernel, Kernel.setMutex, Function.update_self]

/-! ### A blocked thread -/

theorem eventOk_park {es : List SchedEvent} {t : Nat} {b : Block} (hes : ∀ e ∈ es, EventOk σ op σ' e)
    (h : SysOk σ) (hb : (σ.kernel.sched.threads t).state = .blocked) : .park t b ∉ es := fun hm => by
  have := (h.running (hes _ hm).1).state
  rw [hb] at this
  cases this

/-- A thread that a step does not wake keeps its control block. If it is not blocked afterwards, one wake
has ended its wait. -/
theorem Stepped.blocked (hs : Stepped σ op σ') (h : SysOk σ) {t : Nat} (ht : tidIsReal t)
    (hp : Placed σ.kernel.machine.image σ.kernel.sched) (hb : (σ.kernel.sched.threads t).state = .blocked) :
    (σ'.kernel.sched.threads t = σ.kernel.sched.threads t ∧
      ∀ a, OnStack σ.kernel.machine.image t a → σ'.kernel.sched.frames a = σ.kernel.sched.frames a) ∨
    (σ'.kernel.sched.threads t).state ≠ .blocked ∧
      ∃ r cause s₁ s₂ Q', EventOk σ op σ' (.wake t r cause) ∧ Act σ.kernel.machine.image Q' (.wake t r cause) s₁ s₂ ∧
        s₁.threads t = σ.kernel.sched.threads t := by
  obtain ⟨es, hes, hall⟩ := hs.acts h
  rcases hes.blocked ht hp hb with ⟨-, hth, hfr⟩ | ⟨es₁, r, cause, es₂, s₁, s₂, rfl, -, -, ⟨Q', -, h₂⟩, h₃, hth, -⟩
  · exact .inl ⟨hth, hfr⟩
  · refine .inr ⟨fun hb' => ?_, r, cause, s₁, s₂, Q', hall _ (by simp), h₂, hth⟩
    have hready : (s₂.threads t).state ≠ .blocked := by
      cases h₂ with
      | wake _ hw => rw [hw.self]; exact nofun
    obtain ⟨b, hm⟩ := h₃.park_of_blocked hready hb'
    exact eventOk_park hall h hb (List.mem_append_right _ (List.mem_cons_of_mem _ hm))

/-- What a step does to a thread that does not act: it keeps its saved frame, and is woken once at most. -/
def Passive (σ : System) (op : Op) (σ' : System) (t : Nat) : Prop :=
  (σ.kernel.sched.threads t).state ≠ .blocked ∧ (σ'.kernel.sched.threads t).state ≠ .blocked ∧
    σ'.resumedA0 t = σ.resumedA0 t ∨
  σ'.kernel.sched.threads t = σ.kernel.sched.threads t ∧ σ'.resumedA0 t = σ.resumedA0 t ∨
  (σ.kernel.sched.threads t).state = .blocked ∧ (σ'.kernel.sched.threads t).state ≠ .blocked ∧
    ∃ r cause s Q, σ'.resumedA0 t = intReg r ∧ EventOk σ op σ' (.wake t r cause) ∧ SchedOk Q s ∧
      cause.Holds t r s ∧ (∀ q, cause = .event q → q ∈ Q) ∧ s.threads t = σ.kernel.sched.threads t

theorem Stepped.passive (hs : Stepped σ op σ') (h : SysOk σ) (hp : Placed σ.kernel.machine.image σ.kernel.sched)
    {t : Nat} (hbusy : σ.busy t = true) (hk : (σ.kernel.sched.threads t).userTask = 0)
    (hcur : σ.kernel.sched.currentThread ≠ some t) : Passive σ op σ' t := by
  have ht := h.threads.real t hbusy
  have hthread := h.threads.thread t ht
  have hon := (hthread.saved hbusy).1
  obtain ⟨es, hes, hall⟩ := hs.acts h
  have hown : ∀ e ∈ es, ¬e.own t := fun e he ho => by
    have hok := hall e he
    cases e with
    | silent saver => exact hcur (hok t ho)
    | requeue c => exact hcur (ho ▸ hok)
    | park c b => exact hcur (ho ▸ hok.1)
    | retire c => exact hcur (ho ▸ hok)
    | create c =>
      have hdead := hok.2
      rw [show c = t from ho, hthread.live hbusy] at hdead
      cases hdead
    | nullRequeue => exact tidIsReal_ne_null ht (Eq.symm ho)
    | wake _ _ _ => exact ho
    | dispatch _ => exact ho
  by_cases hb : (σ.kernel.sched.threads t).state = .blocked
  · rcases hes.blocked ht hp hb with ⟨-, hth, hfr⟩ | ⟨es₁, r, cause, es₂, s₁, s₂, rfl, -, h₁, ⟨Q', -, h₂⟩, h₃, hth, hfr⟩
    · exact .inr (.inl ⟨hth, by rw [resumedA0, hth, hfr _ hon, resumedA0]⟩)
    · have hp₂ := h₂.placed (h₁.placed hp)
      have hev := hall _ (List.mem_append_right _ List.mem_cons_self)
      cases h₂ with
      | wake hok hw hc hq =>
        have hframe : (s₂.threads t).trapFrame = (σ.kernel.sched.threads t).trapFrame := by rw [hw.self, ← hth]; rfl
        obtain ⟨hnb, hf, hfr'⟩ := h₃.passive hp₂ ht (by rw [hw.self]; show (s₁.threads t).userTask = 0; rw [hth]; exact hk)
          (fun e he => hown e (List.mem_append_right _ (List.mem_cons_of_mem _ he))) (by rw [hw.self]; exact nofun)
        refine .inr (.inr ⟨hb, hnb, r, cause, s₁, Q', ?_, hev, hok, hc, hq, hth⟩)
        rw [resumedA0, hf, hframe, hfr' _ hon, hw.frames, hth, Function.update_self]
  · obtain ⟨hnb, hf, hfr⟩ := hes.passive hp ht hk hown hb
    exact .inl ⟨hb, hnb, by rw [resumedA0, hf, hfr _ hon, resumedA0]⟩

/-! ### Runs -/

/-- A step keeps the image and what is initialised; only a timer interrupt counts a tick. -/
structure Grows (σ : System) (op : Op) (σ' : System) : Prop where
  image : σ'.kernel.machine.image = σ.kernel.machine.image
  queues : ∀ q ∈ σ.queues, q ∈ σ'.queues
  mutexes : ∀ m ∈ σ.mutexes, m ∈ σ'.mutexes
  now : σ'.now = σ.now ∨ (∃ mtime site, op = .timer mtime site) ∧ σ'.now = σ.now + 1

theorem kept_image {m m' : Machine} {b : Bool} (h : ({ m with sie := b } : Machine).Kept m') : m'.image = m.image := by
  rw [h.eq]

theorem returned_image {next : U64} {k k' : Kernel} (h : Returned next k k') :
    k'.machine.image = k.machine.image := by rw [h.rest]

theorem returned_timer {next : U64} {k k' : Kernel} (h : Returned next k k') : k'.timer = k.timer := by rw [h.rest]

theorem driver_timer {k k' : Kernel} (h : DriverChange k k') : k'.timer = k.timer := by rw [h.eq]

theorem Stepped.grows (hs : Stepped σ op σ') : Grows σ op σ' := by
  have hid : ∀ {k' : Kernel} {calls : Nat → Call} {holds : Nat → U64 → Bool},
      k'.machine.image = σ.kernel.machine.image → k'.timer = σ.kernel.timer →
        Grows σ op { σ with kernel := k', calls := calls, holds := holds } := fun hi ht =>
    ⟨hi, fun _ hq => hq, fun _ hm => hm, .inl (congrArg Timer.ticks ht)⟩
  cases hs with
  | driver hk => exact hid (kept_image hk.kept) (driver_timer hk)
  | submitted _ _ hk => exact hid (kept_image hk.kept) (driver_timer hk)
  | woken hk =>
    have htimer := driver_timer hk
    exact hid (kept_image hk.kept) htimer
  | @installed _ _ _ k' _ _ hk =>
    have hm : k'.machine = σ.kernel.machine ∧ k'.timer = σ.kernel.timer := by rw [hk]; exact ⟨rfl, rfl⟩
    exact hid (congrArg Machine.image hm.1) hm.2
  | started _ _ _ hr =>
    have himage := returned_image hr
    have htimer := returned_timer hr
    exact hid himage htimer
  | @taskInit _ k' hi =>
    have himage : k'.machine.image = σ.kernel.machine.image := by rw [hi.kept.eq]
    have htimer : k'.timer = σ.kernel.timer := by rw [hi.eq]
    exact hid himage htimer
  | queueInit => exact ⟨rfl, fun _ hq => List.mem_cons_of_mem _ hq, fun _ hm => hm, .inl rfl⟩
  | mutexInit =>
    exact ⟨rfl, fun _ hq => List.mem_cons_of_mem _ hq, fun _ hm => List.mem_cons_of_mem _ hm, .inl rfl⟩
  | timer hop _ _ _ _ _ _ _ _ _ hticks hr =>
    have himage := returned_image hr
    have htimer := returned_timer hr
    exact ⟨himage, fun _ hq => hq, fun _ hm => hm, .inr ⟨hop, (congrArg Timer.ticks htimer).trans hticks⟩⟩
  | bootTimer hop _ _ hticks hr =>
    have himage := returned_image hr
    have htimer := returned_timer hr
    exact ⟨himage, fun _ hq => hq, fun _ hm => hm, .inr ⟨hop, (congrArg Timer.ticks htimer).trans hticks⟩⟩
  | @trapped _ _ _ _ _ k₁ _ _ hk _ _ ht =>
    obtain ⟨next, s', -, hr⟩ := ht
    have htimer₁ : k₁.timer = σ.kernel.timer := by rw [hk.eq]
    have himage := returned_image hr
    have htimer := returned_timer hr
    exact hid (himage.trans (kept_image hk.kept)) (htimer.trans htimer₁)
  | exited _ _ _ _ hm _ hr =>
    have himage := returned_image hr
    have htimer := returned_timer hr
    exact hid (himage.trans (kept_image hm)) htimer
  | locked _ _ _ ho =>
    cases ho <;> (simp only [lockReturned]; split <;> exact hid rfl rfl)
  | unlocked => exact hid rfl rfl

theorem Grows.queueSet (h : Grows σ op σ') : σ.queueSet ⊆ σ'.queueSet := h.queues

/-- What holds in every state of a run, besides `SysOk`. -/
structure RunOk (σ : System) : Prop extends SysOk σ where
  placed : Placed σ.kernel.machine.image σ.kernel.sched

theorem Booted.runOk (h : Booted σ) : RunOk σ where
  toSysOk := h.ok
  placed t ht hb := by
    rw [h.threads t ht] at hb
    cases hb

theorem Stepped.runOk (hs : Stepped σ op σ') (h : RunOk σ) : RunOk σ' where
  toSysOk := hs.sysOk h.toSysOk
  placed := by
    obtain ⟨es, hes, -⟩ := hs.acts h.toSysOk
    rw [hs.grows.image]
    exact hes.placed h.placed

theorem Runs.runOk {l : List Op} (h : Runs σ l σ') (hok : RunOk σ) : RunOk σ' :=
  Run.invariant (fun _ _ _ hi hp hx => (exec_stepped hi.toSysOk hp.1 hp.2 hx).runOk hi) h hok

/-- The history of a run: the events of its steps, in order. -/
abbrev History (σ : System) (l : List Op) (es : List SchedEvent) (σ' : System) : Prop :=
  Traced System.exec (fun op σ => Enabled op σ ∧ AttachOnce op σ) StepEvents σ l es σ'

theorem Runs.history {l : List Op} (h : Runs σ l σ') (hok : SysOk σ) : ∃ es, History σ l es σ' :=
  Run.traced (fun _ _ _ hi hp hx => (exec_stepped hi hp.1 hp.2 hx).sysOk hi)
    (fun _ _ _ hi hp hx => (exec_stepped hi hp.1 hp.2 hx).acts hi) h hok

theorem History.acts {l : List Op} {es : List SchedEvent} (h : History σ l es σ') (hok : SysOk σ) :
    Acts σ.kernel.machine.image σ.queueSet σ.kernel.sched es σ'.kernel.sched := by
  induction h with
  | nil σ => exact .nil _
  | cons hp hx hm _ ih =>
    have hs := exec_stepped hok hp.1 hp.2 hx
    have hes := ih (hs.sysOk hok)
    rw [hs.grows.image] at hes
    exact hm.acts.append (hes.mono hs.grows.queueSet)

end System

end QemuRtos
