import QemuRtos.SystemEvents

/-!
# How waits end

A timed wait is ended once, in one step of the run: by a step that wakes its queue, or by a timer interrupt. The
winner takes the thread out of both queues and tells it the result in its saved `a0`; nothing else in the saved frame
changes before the thread is dispatched. A wait is not timed out before its tick.
-/

namespace QemuRtos

open Lib

/-- The wait of `t`, which started in `s`, is ended by `cause` in the step from `s₁` to `s₂`. -/
structure WaitEnded (Q : Set U64) (t : Nat) (r : Int) (cause : Cause) (s s₁ s₂ : Sched) : Prop where
  thread : s₁.threads t = s.threads t
  frame : s₁.frames (s.threads t).trapFrame = s.frames (s.threads t).trapFrame
  winner : cause = .event (s.threads t).waitQueue ∧ (s₁.waits (s.threads t).waitQueue).head? = some t ∧ r = waitOk ∨
    ∃ now, cause = .timer now ∧ (s.threads t).wakeTick ≤ now ∧ s₁.sleepQueue.head? = some t ∧ r = waitTimeout
  result : s₂.frames (s.threads t).trapFrame = { s.frames (s.threads t).trapFrame with a0 := intReg r }
  gone : t ∉ s₂.sleepQueue ∧ ∀ q ∈ Q, t ∉ s₂.waits q
  order : s₂.sleepQueue = s₁.sleepQueue.erase t ∧ ∀ q ∈ Q, s₂.waits q = (s₁.waits q).erase t
  others : ∀ u ≠ t, s₂.threads u = s₁.threads u
  awake : (s₂.threads t).state = .ready

/-- From the end of the wait to the next dispatch of the thread, if there is one in the events `es`. -/
def UntilDispatched (image : Image) (Q : Set U64) (t : Nat) (frame : U64) (s : Sched) (es : List SchedEvent)
    (s' : Sched) : Prop :=
  .dispatch t ∉ es ∧ s'.threads t = s.threads t ∧ s'.frames frame = s.frames frame ∨
    ∃ es₁ es₂ s₁ s₂, es = es₁ ++ .dispatch t :: es₂ ∧ .dispatch t ∉ es₁ ∧ Acts image Q s es₁ s₁ ∧
      Dispatched t s₁ s₂ ∧ Acts image Q s₂ es₂ s' ∧ s₁.threads t = s.threads t ∧ s₁.frames frame = s.frames frame

variable {image : Image} {Q Q' : Set U64} {s s₁ s₂ s' : Sched} {t : Nat} {es : List SchedEvent}

theorem Act.waitEnded {r : Int} {cause : Cause} (h : Act image Q' (.wake t r cause) s₁ s₂) (hQ : Q ⊆ Q')
    (hth : s₁.threads t = s.threads t)
    (hframe : s₁.frames (s.threads t).trapFrame = s.frames (s.threads t).trapFrame)
    (hreason : (s.threads t).waitReason = .queueTimeout) : WaitEnded Q t r cause s s₁ s₂ := by
  cases h with
  | wake hok hw hc hq =>
    have hsleep : t ∉ s₂.sleepQueue := by
      rw [hw.sleep]
      exact hok.sleep_nodup.not_mem_erase
    have hwaits : ∀ q ∈ Q, t ∉ s₂.waits q := fun q hqQ => by
      rw [hw.waits q (hQ hqQ)]
      exact (hok.wait_nodup q (hQ hqQ)).not_mem_erase
    refine ⟨hth, hframe, ?_, ?_, ⟨hsleep, hwaits⟩, ⟨hw.sleep, fun q hqQ => hw.waits q (hQ hqQ)⟩, fun u hu => hw.of_ne hu,
      by rw [hw.self]; rfl⟩
    · cases cause with
      | event queue =>
        obtain ⟨hhead, rfl⟩ := hc
        have hmem := List.mem_of_head? hhead
        obtain ⟨-, -, hback⟩ := (hok.mem_wait queue (hq queue rfl) t).mp hmem
        rw [hth] at hback
        subst hback
        exact .inl ⟨rfl, hhead, rfl⟩
      | timer now =>
        obtain ⟨hhead, hdue, hres⟩ := hc
        rw [hth] at hdue hres
        refine .inr ⟨now, rfl, hdue, hhead, ?_⟩
        rcases hres with ⟨-, hr⟩ | ⟨hsl, -⟩
        · exact hr
        · rw [hreason] at hsl; cases hsl
    · rw [hw.frames, hth, Function.update_self, hframe]

theorem WaitEnded.congr {s₀ : Sched} {r : Int} {cause : Cause} (h : WaitEnded Q' t r cause s s₁ s₂) (hQ : Q ⊆ Q')
    (hth : s.threads t = s₀.threads t)
    (hframe : s.frames (s₀.threads t).trapFrame = s₀.frames (s₀.threads t).trapFrame) :
    WaitEnded Q t r cause s₀ s₁ s₂ where
  thread := h.thread.trans hth
  frame := by
    have := h.frame
    rw [hth] at this
    exact this.trans hframe
  winner := by
    have := h.winner
    rwa [hth] at this
  result := by
    have := h.result
    rwa [hth, hframe] at this
  gone := ⟨h.gone.1, fun q hq => h.gone.2 q (hQ hq)⟩
  order := ⟨h.order.1, fun q hq => h.order.2 q (hQ hq)⟩
  others := h.others
  awake := h.awake

theorem UntilDispatched.mono {frame : U64} (h : UntilDispatched image Q' t frame s es s') (hQ : Q ⊆ Q') :
    UntilDispatched image Q t frame s es s' := by
  rcases h with h | ⟨es₁, es₂, s₁, s₂, hes, hno, h₁, hd, h₂, hth, hframe⟩
  · exact .inl h
  · exact .inr ⟨es₁, es₂, s₁, s₂, hes, hno, h₁.mono hQ, hd, h₂.mono hQ, hth, hframe⟩

namespace System

variable {σ₀ σ σ' σ₁ σ₂ : System} {k : Kernel} {l₀ l : List Op} {op : Op}

/-! ### One winner -/

/-- The step wakes threads that wait on `queue`. -/
def Wakes (σ : System) (op : Op) (queue : U64) : Prop :=
  op = .wakeOne queue ∨ op = .wakeAll queue ∨ op = .dispatchIrqs ∧ queue = accelWaiters σ.kernel.machine.image ∨
    ∃ mutex, op = .mutexUnlock mutex ∧ queue = mutexWaiters mutex

/-- The step `op` from `σ₁` to `σ₂` ends the wait that `t` was in when the scheduler was in state `s`: one of its events
is the wake of `t`, after `es₁` and before `es₂`. -/
structure EndsWait (t : Nat) (Q : Set U64) (s : Sched) (op : Op) (σ₁ σ₂ : System) (es₁ : List SchedEvent) (r : Int)
    (cause : Cause) (es₂ : List SchedEvent) (s₁ s₂ : Sched) : Prop where
  exec : exec op σ₁ = .ok σ₂
  events : StepEvents op σ₁ (es₁ ++ .wake t r cause :: es₂) σ₂
  before : Acts σ₁.kernel.machine.image σ₁.queueSet σ₁.kernel.sched es₁ s₁
  ended : WaitEnded Q t r cause s s₁ s₂
  after : Acts σ₁.kernel.machine.image σ₁.queueSet s₂ es₂ σ₂.kernel.sched
  result : r = waitOk ∨ r = waitTimeout
  event : r = waitOk ↔ Wakes σ₁ op (s.threads t).waitQueue
  timer : r = waitTimeout ↔ ∃ mtime site, op = .timer mtime site
  due : r = waitTimeout → (s.threads t).wakeTick ≤ σ₁.now + 1

/-- A run from `σ`, where `t` is in a timed wait, with its history: the wait goes on untouched, or one wake in one step
of the run ends it, and `t` is not woken again before it is parked again. -/
inductive OneWinner (t : Nat) (σ : System) : List Op → List SchedEvent → System → Prop
  | waits {l : List Op} {es : List SchedEvent} {σ' : System} (hno : ∀ r cause, .wake t r cause ∉ es)
    (hthread : σ'.kernel.sched.threads t = σ.kernel.sched.threads t)
    (hframe : σ'.kernel.sched.frames (σ.kernel.sched.threads t).trapFrame =
      σ.kernel.sched.frames (σ.kernel.sched.threads t).trapFrame) : OneWinner t σ l es σ'
  | ended {l₁ l₂ : List Op} {op : Op} {es₀ es₁ es₂ es₃ : List SchedEvent} {r : Int} {cause : Cause}
    {σ₁ σ₂ σ' : System} {s₁ s₂ : Sched} (hbefore : History σ l₁ es₀ σ₁)
    (hstep : EndsWait t σ.queueSet σ.kernel.sched op σ₁ σ₂ es₁ r cause es₂ s₁ s₂) (hafter : History σ₂ l₂ es₃ σ')
    (hno : ∀ r cause, .wake t r cause ∉ es₀ ++ es₁)
    (hagain : ∀ es es' r' cause', es₂ ++ es₃ = es ++ .wake t r' cause' :: es' → ∃ b, .park t b ∈ es)
    (huntil : UntilDispatched σ.kernel.machine.image σ.queueSet t (σ.kernel.sched.threads t).trapFrame s₂ (es₂ ++ es₃)
      σ'.kernel.sched) :
    OneWinner t σ (l₁ ++ op :: l₂) (es₀ ++ ((es₁ ++ .wake t r cause :: es₂) ++ es₃)) σ'

theorem WaitEnded.endsWait {s : Sched} {es₁ es₂ : List SchedEvent} {r : Int} {cause : Cause}
    (h : WaitEnded Q t r cause s s₁ s₂) (hx : exec op σ₁ = .ok σ₂)
    (hes : StepEvents op σ₁ (es₁ ++ .wake t r cause :: es₂) σ₂)
    (h₁ : Acts σ₁.kernel.machine.image σ₁.queueSet σ₁.kernel.sched es₁ s₁)
    (h₂ : Acts σ₁.kernel.machine.image σ₁.queueSet s₂ es₂ σ₂.kernel.sched) :
    EndsWait t Q s op σ₁ σ₂ es₁ r cause es₂ s₁ s₂ := by
  have hev := hes.ok _ (List.mem_append_right _ List.mem_cons_self)
  have hne : waitOk ≠ waitTimeout := by decide
  have htimer : ∀ {mtime site}, op = .timer mtime site → ¬Wakes σ₁ op (s.threads t).waitQueue := by
    rintro mtime site rfl (he | he | ⟨he, -⟩ | ⟨_, he, -⟩) <;> cases he
  rcases h.winner with ⟨rfl, -, rfl⟩ | ⟨now, rfl, hdue, -, rfl⟩
  · have hwakes : Wakes σ₁ op (s.threads t).waitQueue := by
      rcases hev.2 with he | he | he | ⟨mutex, he, hq, -⟩
      · exact .inl he
      · exact .inr (.inl he)
      · exact .inr (.inr (.inl he))
      · exact .inr (.inr (.inr ⟨mutex, he, hq⟩))
    exact ⟨hx, hes, h₁, h, h₂, .inl rfl, iff_of_true rfl hwakes,
      iff_of_false hne fun ⟨_, _, he⟩ => htimer he hwakes, fun he => absurd he hne⟩
  · obtain ⟨⟨mtime, site, hop⟩, rfl⟩ := hev
    exact ⟨hx, hes, h₁, h, h₂, .inr rfl, iff_of_false hne.symm (htimer hop), iff_of_true rfl ⟨mtime, site, hop⟩,
      fun _ => hdue⟩

theorem OneWinner.cons {es es' : List SchedEvent} (h : OneWinner t σ₁ l es' σ') (hp : Enabled op σ ∧ AttachOnce op σ)
    (hx : exec op σ = .ok σ₁) (hm : StepEvents op σ es σ₁) (hg : Grows σ op σ₁) (hno : ∀ r cause, .wake t r cause ∉ es)
    (hth : σ₁.kernel.sched.threads t = σ.kernel.sched.threads t)
    (hframe : σ₁.kernel.sched.frames (σ.kernel.sched.threads t).trapFrame =
      σ.kernel.sched.frames (σ.kernel.sched.threads t).trapFrame) : OneWinner t σ (op :: l) (es ++ es') σ' := by
  cases h with
  | waits hno' hth' hframe' =>
    rw [hth] at hth' hframe'
    refine .waits (fun r cause hmem => ?_) hth' (hframe'.trans hframe)
    exact (List.mem_append.mp hmem).elim (hno r cause) (hno' r cause)
  | @ended l₁ l₂ op' es₀ es₁ es₂ es₃ r cause σ₂ σ₃ _ s₁ s₂ hbefore hstep hafter hno' hagain huntil =>
    rw [hth, hg.image] at huntil
    have hstep' : EndsWait t σ.queueSet σ.kernel.sched op' σ₂ σ₃ es₁ r cause es₂ s₁ s₂ :=
      WaitEnded.endsWait (hstep.ended.congr hg.queueSet hth hframe) hstep.exec hstep.events hstep.before hstep.after
    rw [← List.append_assoc]
    refine OneWinner.ended (.cons hp hx hm hbefore) hstep' hafter (fun r cause hmem => ?_) hagain (huntil.mono hg.queueSet)
    rw [List.append_assoc] at hmem
    exact (List.mem_append.mp hmem).elim (hno r cause) (hno' r cause)

/-- The induction is over the steps of the run; the wait ends in the first that wakes the thread. -/
theorem History.oneWinner {es : List SchedEvent} (h : History σ l es σ') (hok : RunOk σ) (ht : tidIsReal t)
    (hb : (σ.kernel.sched.threads t).state = .blocked) (hreason : (σ.kernel.sched.threads t).waitReason = .queueTimeout)
    (hin : (σ.kernel.sched.threads t).inWaitQueue = true) : OneWinner t σ l es σ' := by
  induction h with
  | nil σ => exact .waits (fun _ _ => List.not_mem_nil) rfl rfl
  | @cons σ σ₁ σ' op l es es' hp hx hm rest ih =>
    have hs := exec_stepped hok.toSysOk hp.1 hp.2 hx
    have hon : OnStack σ.kernel.machine.image t (σ.kernel.sched.threads t).trapFrame := by
      rcases hok.placed t ht hb with hon | ⟨-, hno⟩
      · exact hon
      · rw [hin] at hno; cases hno
    rcases hm.acts.blocked ht hok.placed hb with ⟨hno, hth, hfr⟩ |
      ⟨es₁, r, cause, es₂, s₁, s₂, rfl, hno, h₁, ⟨Q', hQ, h₂⟩, h₃, hth, hfr⟩
    · have hrest := ih (hs.runOk hok) (by rw [hth]; exact hb) (by rw [hth]; exact hreason) (by rw [hth]; exact hin)
      exact hrest.cons hp hx hm hs.grows hno hth (hfr _ hon)
    · have hend := h₂.waitEnded hQ hth (hfr _ hon) hreason
      have hacts := History.acts rest (hs.sysOk hok.toSysOk)
      rw [hs.grows.image] at hacts
      have hafter := h₃.append (hacts.mono hs.grows.queueSet)
      show OneWinner t σ ([] ++ op :: l) ([] ++ ((es₁ ++ .wake t r cause :: es₂) ++ es')) σ'
      refine .ended (.nil σ) (WaitEnded.endsWait hend hx hm h₁ h₃) rest hno (fun es₃ es₄ r' cause' hes => ?_) ?_
      · exact hafter.wake_parked (by rw [hend.awake]; decide) hes
      · rcases hafter.ready ht (h₂.placed (h₁.placed hok.placed)) hend.awake with ⟨hnod, hth', hfr'⟩ |
          ⟨es₃, es₄, s₃, s₄, hes, hnod, h₄, h₅, h₆, hth', hfr'⟩
        · exact .inl ⟨hnod, hth', hfr' _ hon⟩
        · exact .inr ⟨es₃, es₄, s₃, s₄, hes, hnod, h₄, h₅, h₆, hth', hfr' _ hon⟩

/-- A timed wait has one winner, in every run from a state in which thread `t` is in one. -/
theorem timedWait_one_winner (hf : Fresh k) (hboot : boot k = .ok σ₀) (h₀ : Runs σ₀ l₀ σ) (ht : tidIsReal t)
    (hb : (σ.kernel.sched.threads t).state = .blocked)
    (hreason : (σ.kernel.sched.threads t).waitReason = .queueTimeout) (h : Runs σ l σ') :
    (∃ es, History σ l es σ') ∧ ∀ es, History σ l es σ' → OneWinner t σ l es σ' := by
  have hok := h₀.runOk (boot_ok hf hboot).runOk
  exact ⟨h.history hok.toSysOk, fun es hes => History.oneWinner hes hok ht hb hreason
    ((hok.sched.ok.coherent t ht).in_wait.mpr ⟨hb, .inr hreason⟩)⟩

theorem timedWait_one_winner_sample : ∃ (σ σ' : System) (es : List SchedEvent),
    (σ.kernel.sched.threads 1).waitReason = .queueTimeout ∧ (σ'.kernel.sched.threads 1).state = .ready ∧
    History σ [.timer 0 (sampleSite 0)] es σ' ∧ OneWinner 1 σ [.timer 0 (sampleSite 0)] es σ' := by
  have hrun : ∃ σ₀ σ σ', boot sampleKernel = .ok σ₀ ∧
      Runs σ₀ [.threadCreate (some "a") 0x80004000 0, .waitQueueInit 0x80010000 none, .threadStart,
        .control { op := threadTrapWaitTimeout, arg0 := 0x80010000, arg1 := some 1 } (sampleSite 1)] σ ∧
      (σ.kernel.sched.threads 1).state = .blocked ∧ (σ.kernel.sched.threads 1).waitReason = .queueTimeout ∧
      Runs σ [.timer 0 (sampleSite 0)] σ' ∧ (σ'.kernel.sched.threads 1).state = .ready := by
    refine ⟨_, _, _, rfl, .cons ⟨?_, trivial⟩ rfl (.cons ⟨⟨?_, ?_⟩, trivial⟩ rfl (.cons ⟨rfl, trivial⟩ rfl
      (.single ⟨⟨1, rfl, rfl, rfl, .inr ⟨by decide, .inr (.inr ⟨.inr rfl, List.mem_cons_self⟩)⟩,
        sampleSite_onStack (by decide)⟩, trivial⟩ rfl))), rfl, rfl, .single ⟨?_, trivial⟩ rfl, rfl⟩
    · intro c hc
      cases hc
    · intro c hc
      cases hc
    · decide
    · exact ⟨rfl, sampleSite_onStack (by decide)⟩
  obtain ⟨σ₀, σ, σ', hboot, h₀, hb, hreason, h, hready⟩ := hrun
  obtain ⟨⟨es, hes⟩, hall⟩ := timedWait_one_winner sampleKernel_fresh hboot h₀ (by decide) hb hreason h
  exact ⟨σ, σ', es, hreason, hready, hes, hall es hes⟩

/-! ### No early timeout -/

variable {σ₃ σ₄ : System} {c mtime : Nat} {n : U64} {site : TrapSite}

/-- The wait of `n` ticks that the current thread starts in this step ends at a tick that fits the counter. -/
def FitsTicks (op : Op) (σ : System) : Prop := ∀ n, σ.requested op = some n → σ.now.toNat + n.toNat < 2 ^ 64

/-- A run in which thread `c` stays blocked. -/
abbrev BlockedRuns (c : Nat) (σ : System) (l : List Op) (σ' : System) : Prop :=
  Run System.exec (fun op σ => Enabled op σ ∧ AttachOnce op σ ∧ (σ.kernel.sched.threads c).state = .blocked) σ l σ'

theorem BlockedRuns.thread (h : BlockedRuns c σ l σ') (hok : RunOk σ) (hc : tidIsReal c)
    (hb' : (σ'.kernel.sched.threads c).state = .blocked) :
    RunOk σ' ∧ σ'.kernel.sched.threads c = σ.kernel.sched.threads c := by
  induction h with
  | nil => exact ⟨hok, rfl⟩
  | @cons σ σ₁ σ' op l hp hx rest ih =>
    have hs := exec_stepped hok.toSysOk hp.1 hp.2.1 hx
    obtain ⟨hok', hth⟩ := ih (hs.runOk hok) hb'
    refine ⟨hok', hth.trans ?_⟩
    have hb₁ : (σ₁.kernel.sched.threads c).state = .blocked := by rw [← hth]; exact hb'
    exact ((hs.blocked hok.toSysOk hc hok.placed hp.2.2).resolve_right fun hw => hw.1 hb₁).1

/-- A thread that starts to wait for `n` ticks and stays blocked is not made ready by the timer before tick
`t + n`, when the wait starts at a tick `t` for which `t + n` fits the counter. -/
theorem no_early_timeout (hf : Fresh k) (hboot : boot k = .ok σ₀) (h₀ : Runs σ₀ l₀ σ₁)
    (hen : Enabled op σ₁) (hone : AttachOnce op σ₁) (hfit : FitsTicks op σ₁)
    (hcur : σ₁.kernel.sched.currentThread = some c) (hreq : σ₁.requested op = some n) (hx : exec op σ₁ = .ok σ₂)
    (hb₂ : (σ₂.kernel.sched.threads c).state = .blocked) (hwait : BlockedRuns c σ₂ l σ₃)
    (hb₃ : (σ₃.kernel.sched.threads c).state = .blocked) (hen₃ : Enabled (.timer mtime site) σ₃)
    (hx₃ : exec (.timer mtime site) σ₃ = .ok σ₄) (hwoken : (σ₄.kernel.sched.threads c).state ≠ .blocked) :
    σ₁.now.toNat + n.toNat ≤ (σ₃.now + 1).toNat := by
  have hok := h₀.runOk (boot_ok hf hboot).runOk
  have hs := exec_stepped hok.toSysOk hen hone hx
  have hrun := hok.running hcur
  have hc : tidIsReal c := by
    refine (real_or_null hrun.lt).resolve_right ?_
    rintro rfl
    have := (hs.sysOk hok.toSysOk).sched.ok.null.state
    rw [hb₂] at this
    rcases this with he | he <;> cases he
  have htick : (σ₂.kernel.sched.threads c).wakeTick = σ₁.now + n := by
    obtain ⟨es, hes, hall⟩ := hs.acts hok.toSysOk
    refine hes.wakeTick (fun b hm => ?_) (fun hb => ?_) hb₂
    · rw [(hall _ hm).2.1, wakeTick, hreq]; rfl
    · rw [hrun.state] at hb; cases hb
  obtain ⟨hok₃, hth⟩ := hwait.thread (hs.runOk hok) hc hb₃
  have hs₃ := exec_stepped hok₃.toSysOk hen₃ trivial hx₃
  rcases hs₃.blocked hok₃.toSysOk hc hok₃.placed hb₃ with ⟨hsame, -⟩ | ⟨-, r, cause, s₁, s₂, Q', hev, hact, hth₁⟩
  · rw [hsame] at hwoken; exact absurd hb₃ hwoken
  · cases cause with
    | event q => rcases hev.2 with he | he | ⟨he, -⟩ | ⟨_, he, -⟩ <;> cases he
    | timer now =>
      cases hact with
      | wake _ _ hcause =>
        have hdue := hcause.2.1
        rw [hth₁, hth, htick, hev.2, BitVec.le_def, BitVec.toNat_add, Nat.mod_eq_of_lt (hfit n hreq)] at hdue
        exact hdue

theorem no_early_timeout_sample : ∃ σ₁ σ₄ : System, σ₁.now = 0 ∧ σ₄.now = 1 ∧
    (σ₄.kernel.sched.threads 1).state = .ready ∧ σ₁.now.toNat + (1 : U64).toNat ≤ σ₄.now.toNat := by
  have hrun : ∃ σ₀ σ₁ σ₂ σ₄, boot sampleKernel = .ok σ₀ ∧
      Runs σ₀ [.threadCreate (some "a") 0x80004000 0, .threadStart] σ₁ ∧
      Enabled (.control { op := threadTrapSleep, arg0 := 1, arg1 := none } (sampleSite 1)) σ₁ ∧
      σ₁.kernel.sched.currentThread = some 1 ∧ σ₁.now = 0 ∧
      exec (.control { op := threadTrapSleep, arg0 := 1, arg1 := none } (sampleSite 1)) σ₁ = .ok σ₂ ∧
      (σ₂.kernel.sched.threads 1).state = .blocked ∧ Enabled (.timer 0 (sampleSite 0)) σ₂ ∧
      exec (.timer 0 (sampleSite 0)) σ₂ = .ok σ₄ ∧ (σ₄.kernel.sched.threads 1).state = .ready ∧ σ₂.now = 0 ∧
      σ₄.now = 1 := by
    refine ⟨_, _, _, _, rfl, .cons ⟨?_, trivial⟩ rfl (.single ⟨rfl, trivial⟩ rfl),
      ⟨1, rfl, rfl, rfl, .inr ⟨by decide, .inr (.inl rfl)⟩, sampleSite_onStack (by decide)⟩, rfl, rfl, rfl, rfl,
      ⟨rfl, sampleSite_onStack (by decide)⟩, rfl, rfl, rfl, rfl⟩
    intro c hc
    cases hc
  obtain ⟨σ₀, σ₁, σ₂, σ₄, hboot, h₀, hen, hcur, h₁, hx, hb, hen₂, hx₂, hready, h₂, h₄⟩ := hrun
  refine ⟨σ₁, σ₄, h₁, h₄, hready, ?_⟩
  have hfit : FitsTicks (.control { op := threadTrapSleep, arg0 := 1, arg1 := none } (sampleSite 1)) σ₁ := by
    intro n hn
    cases hn
    rw [h₁]
    decide
  have hnil : BlockedRuns 1 σ₂ [] σ₂ := .nil σ₂
  have := no_early_timeout sampleKernel_fresh hboot h₀ hen trivial hfit hcur rfl hx hb hnil hb hen₂ hx₂
    (by rw [hready]; decide)
  have hnext : σ₄.now = σ₂.now + 1 := by rw [h₂, h₄]; rfl
  rw [hnext]
  exact this

/-- A sleep of `2^64 - 1` ticks that starts at tick 1 wraps to the deadline 0, and ends at tick 2. -/
theorem sleep_wraps_early : ∃ σ₀ σ₁ σ₂ σ₃, boot sampleKernel = .ok σ₀ ∧
    Runs σ₀ [.threadCreate (some "a") 0x80004000 0, .threadStart, .timer 0 (sampleSite 1)] σ₁ ∧
    σ₁.kernel.sched.currentThread = some 1 ∧
    Runs σ₁ [.control { op := threadTrapSleep, arg0 := 0xffffffffffffffff, arg1 := none } (sampleSite 1)] σ₂ ∧
    (σ₂.kernel.sched.threads 1).state = .blocked ∧ Runs σ₂ [.timer 0 (sampleSite 0)] σ₃ ∧
    (σ₃.kernel.sched.threads 1).state = .ready ∧
    ¬ σ₁.now.toNat + (0xffffffffffffffff : U64).toNat ≤ σ₃.now.toNat := by
  refine ⟨_, _, _, _, rfl, .cons ⟨?_, trivial⟩ rfl (.cons ⟨rfl, trivial⟩ rfl
    (.single ⟨⟨rfl, sampleSite_onStack (by decide)⟩, trivial⟩ rfl)), rfl, .single ⟨⟨1, rfl, rfl, rfl,
      .inr ⟨by decide, .inr (.inl rfl)⟩, sampleSite_onStack (by decide)⟩, trivial⟩ rfl, rfl,
    .single ⟨⟨rfl, sampleSite_onStack (by decide)⟩, trivial⟩ rfl, rfl, by decide⟩
  intro c hc
  cases hc

end System

end QemuRtos
