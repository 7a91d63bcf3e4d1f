import QemuRtos.Safety.Scheduler
import QemuRtos.SystemEvents

/-!
# Round robin

Threads run in the order in which they were appended to the ready queue, over every run, and the null thread
runs only when that queue is empty. No switch is pending between steps, so a timer interrupt switches the
running thread out exactly when the tick completes its quantum and another thread is ready.
-/

namespace QemuRtos

open Lib

variable {image : Image} {Q : Set U64} {s s' : Sched} {es es₁ es₂ : List SchedEvent} {e : SchedEvent} {c : Nat}
  {frame next : U64} {k k' : Kernel}

/-! ### The ready queue as a ledger -/

/-- The thread that an event appends to the ready queue. -/
def SchedEvent.appended : SchedEvent → Option Nat
  | .wake tid .. | .requeue tid | .create tid => some tid
  | .silent _ | .nullRequeue | .park .. | .retire _ | .dispatch _ => none

/-- The real thread that an event dispatches. -/
def SchedEvent.dispatched : SchedEvent → Option Nat
  | .dispatch tid => if tidIsReal tid then some tid else none
  | .silent _ | .nullRequeue | .park .. | .retire _ | .wake .. | .requeue _ | .create _ => none

theorem Act.ledger (h : Act image Q e s s') :
    s.ready ++ e.appended.toList = e.dispatched.toList ++ s'.ready := by
  cases h with
  | silent _ h => simp [SchedEvent.appended, SchedEvent.dispatched, h.ready]
  | wake _ hw => simp [SchedEvent.appended, SchedEvent.dispatched, hw.ready]
  | requeue _ _ h => simp [SchedEvent.appended, SchedEvent.dispatched, h.ready]
  | nullRequeue _ h => simp [SchedEvent.appended, SchedEvent.dispatched, h.ready]
  | park _ _ _ h => simp [SchedEvent.appended, SchedEvent.dispatched, h.ready]
  | retire _ _ h => simp [SchedEvent.appended, SchedEvent.dispatched, h.ready]
  | create h => simp [SchedEvent.appended, SchedEvent.dispatched, h.ready]
  | dispatch hok _ h =>
    rw [SchedEvent.appended, SchedEvent.dispatched, h.ready, Sched.next]
    cases hr : s.ready with
    | nil => rfl
    | cons d rest =>
      have hd : tidIsReal d := (hok.mem_ready d).mp (by rw [hr]; exact List.mem_cons_self) |>.1
      simp [hd]

/-- What was appended is what was dispatched, followed by what is still in the queue. -/
theorem Acts.ledger (h : Acts image Q s es s') :
    s.ready ++ es.filterMap SchedEvent.appended = es.filterMap SchedEvent.dispatched ++ s'.ready := by
  induction h with
  | nil s => simp
  | @cons Q' e es s s₁ s' _ h _ ih =>
    have hl := h.ledger
    have happ : ∀ f : SchedEvent → Option Nat, (e :: es).filterMap f = (f e).toList ++ es.filterMap f := fun f => by
      cases hf : f e <;> simp [hf]
    rw [happ, happ, ← List.append_assoc, hl, List.append_assoc, ih, List.append_assoc]

theorem Acts.split (h : Acts image Q s (es₁ ++ e :: es₂) s') : ∃ s₁ s₂ Q', Acts image Q s es₁ s₁ ∧ Act image Q' e s₁ s₂ := by
  induction es₁ generalizing s with
  | nil =>
    cases h with
    | cons _ h _ => exact ⟨_, _, _, .nil _, h⟩
  | cons e' es₁ ih =>
    cases h with
    | cons hQ h rest =>
      obtain ⟨s₁, s₂, Q', h₁, h₂⟩ := ih rest
      exact ⟨s₁, s₂, Q', .cons hQ h h₁, h₂⟩

/-- The null thread is dispatched when everything that was appended has been dispatched. -/
theorem Acts.null_dispatched (h : Acts image Q s es s')
    (hes : es = es₁ ++ .dispatch threadNullTid :: es₂) :
    s.ready ++ es₁.filterMap SchedEvent.appended = es₁.filterMap SchedEvent.dispatched := by
  subst hes
  obtain ⟨s₁, s₂, Q', h₁, h₂⟩ := h.split
  have hnil : s₁.ready = [] := by
    generalize hd : SchedEvent.dispatch threadNullTid = e at h₂
    cases h₂ with
    | dispatch hok _ _ =>
      have hnext : s₁.next = threadNullTid := (SchedEvent.dispatch.inj hd).symm
      cases hr : s₁.ready with
      | nil => rfl
      | cons d rest =>
        have hreal := ((hok.mem_ready d).mp (by rw [hr]; exact List.mem_cons_self)).1
        rw [Sched.next, hr] at hnext
        exact absurd hnext (tidIsReal_ne_null hreal)
    | _ => cases hd
  have := h₁.ledger
  rwa [hnil, List.append_nil] at this

/-! ### Quanta -/

theorem Calm.congr (h : Calm s) (hreq : s'.rescheduleRequested = s.rescheduleRequested)
    (hcur : s'.currentThread = s.currentThread)
    (hq : ∀ c, s.currentThread = some c → tidIsReal c → (s'.threads c).quantumTicks ≤ (s.threads c).quantumTicks) :
    Calm s' := by
  refine ⟨hreq.trans h.1, fun c hc hreal => ?_⟩
  rw [hcur] at hc
  exact (hq c hc hreal).trans_lt (h.2 c hc hreal)

theorem Returned.calm (h : Returned next k k') (hc : Calm k.sched) : Calm k'.sched := by
  cases h with
  | supervisor => exact hc
  | @user d hcur htask hnext hspp sie =>
    refine hc.congr rfl rfl fun c _ _ => ?_
    by_cases hcd : c = d
    · subst hcd
      show ((k.sched.setThread c fun th => { th with trapFrame := next }).threads c).quantumTicks ≤ _
      rw [Sched.setThread_self]
    · show ((k.sched.setThread d fun th => { th with trapFrame := next }).threads c).quantumTicks ≤ _
      rw [Sched.setThread_of_ne _ _ _ hcd]

theorem WokenSeq.running_thread {P : Nat → Int → Sched → Prop} (h : WokenSeq Q P s s')
    (hrun : (s.threads c).state = .running) : s'.threads c = s.threads c := by
  induction h with
  | nil => rfl
  | @cons tid r s s₁ s₂ _ _ hw _ ih =>
    have hne : c ≠ tid := by
      rintro rfl
      have := hw.blocked
      rw [hrun] at this
      cases this
    rw [ih (by rw [hw.of_ne hne]; exact hrun), hw.of_ne hne]

theorem WokenSeq.calm {P : Nat → Int → Sched → Prop} (h : WokenSeq Q P s s') (hinv : SchedInv Q s) (hc : Calm s) :
    Calm s' := by
  have hs := h.statics
  simp only [Sched.statics, Prod.mk.injEq] at hs
  exact hc.congr hs.2.2.2.2.1 hs.2.1 fun c hcur _ =>
    le_of_eq (congrArg Thread.quantumTicks (h.running_thread (hinv.started hcur).2.state))

theorem Calm.setFrame {f : TrapFrame → TrapFrame} (h : Calm s) : Calm (s.setFrame frame f) := h

theorem Woken.calm {tid : Nat} {r : Int} (h : Woken Q tid r s s') (hok : SchedOk Q s) (hinv : SchedInv Q s)
    (hc : Calm s) : Calm s' :=
  WokenSeq.calm (.cons (P := fun _ _ _ => True) hok trivial h (.nil s')) hinv hc

namespace System

variable {σ₀ σ σ' : System} {op : Op} {l : List Op}

theorem Stepped.calm (hs : Stepped σ op σ') (h : SysOk σ) (hc : Calm σ.kernel.sched) : Calm σ'.kernel.sched := by
  cases hs with
  | @driver k' hk _ =>
    have hsched : k'.sched = σ.kernel.sched := by rw [hk.eq]
    exact hsched ▸ hc
  | @submitted c k' _ _ hk =>
    have hsched : k'.sched = σ.kernel.sched := by rw [hk.eq]
    exact hsched ▸ hc
  | woken hk _ _ _ hw _ => exact hw.calm h.sched hc
  | @installed tid th own k' _ hi _ _ _ _ _ =>
    have hst := hi.statics
    simp only [Sched.statics, Prod.mk.injEq] at hst
    refine hc.congr hst.2.2.2.1 hst.1 fun c hcur _ => ?_
    have hne : c ≠ tid := by
      rintro rfl
      have := (h.sched.started hcur).2.state
      rcases hi.free with hf | hf <;> rw [hf] at this <;> cases this
    show (k'.sched.threads c).quantumTicks ≤ _
    rw [hi.threads, Function.update_of_ne hne]
  | @started s₁ k' _ hd _ hr => exact hr.calm ⟨hc.1, hd.calm.2⟩
  | @taskInit _ k' hi =>
    have hsched : k'.sched = { σ.kernel.sched with frames := k'.sched.frames } := congrArg Kernel.sched hi.eq
    show Calm k'.sched
    rw [hsched]; exact hc
  | queueInit _ _ hthreads _ hstatics =>
    simp only [Sched.statics, Prod.mk.injEq] at hstatics
    exact hc.congr hstatics.2.2.2.2.1 hstatics.2.1 fun c _ _ => by rw [hthreads]
  | mutexInit _ _ _ _ hthreads _ hstatics =>
    simp only [Sched.statics, Prod.mk.injEq] at hstatics
    exact hc.congr hstatics.2.2.2.2.1 hstatics.2.1 fun c _ _ => by
      show (_ : Nat) ≤ _
      rw [← hthreads]; rfl
  | timer _ hcur _ _ hw _ _ _ _ hcharge _ hr =>
    exact hr.calm (hcharge (hw.calm (h.sched.setFrame _) hc.setFrame)).calm
  | bootTimer _ _ _ _ hr => exact hr.calm hc.setFrame
  | @trapped c frame f l call k₁ k' hcur hk _ _ ht _ =>
    obtain ⟨next, s', hl, hr⟩ := ht
    have hs₁ : k₁.sched = { σ.kernel.sched with frames := k₁.sched.frames } := congrArg Kernel.sched hk.eq
    have hcalm : Calm k₁.sched := by rw [hs₁]; exact hc
    have hcur₁ : k₁.sched.currentThread = some c := by rw [hs₁]; exact hcur
    exact hr.calm (hl.calm hcur₁ hcalm.setFrame)
  | exited _ _ _ hsw _ _ hr =>
    obtain ⟨s₁, -, -, -, hd, -⟩ := hsw
    exact hr.calm hd.calm
  | locked _ _ _ ho =>
    cases ho <;> (simp only [lockReturned]; split <;> exact hc)
  | unlocked _ _ _ _ _ hnext =>
    rcases hnext with ⟨-, -, rfl⟩ | ⟨-, hw⟩
    · exact hc
    · exact hw.calm h.sched.ok h.sched hc

theorem Runs.calm (h : Runs σ l σ') (hok : SysOk σ) (hc : Calm σ.kernel.sched) : Calm σ'.kernel.sched := by
  induction h with
  | nil => exact hc
  | cons hp hx _ ih =>
    have hs := exec_stepped hok hp.1 hp.2 hx
    exact ih (hs.sysOk hok) (hs.calm hok hc)

theorem Booted.calm (h : Booted σ) : Calm σ.kernel.sched := by
  refine ⟨h.request, fun c hcur _ => ?_⟩
  have := (h.ok.sched.started hcur).1
  rw [h.unstarted] at this
  cases this

theorem Booted.ready_nil (h : Booted σ) : σ.kernel.sched.ready = [] := by
  refine List.eq_nil_iff_forall_not_mem.mpr fun t ht => ?_
  obtain ⟨hreal, hin⟩ := (h.ok.sched.ok.mem_ready t).mp ht
  rw [h.threads t hreal] at hin
  cases hin

/-- What the handler of a timer interrupt does when thread `c` runs: no switch stays pending, and `c` is switched
out when the tick completes its quantum and another thread is ready. Otherwise the interrupted frame is resumed. -/
def TimerServed (σ : System) (c mtime : Nat) (site : TrapSite) : Prop :=
  let task := (σ.kernel.sched.threads c).userTask
  let frame := if task = 0 then site.frame else (σ.kernel.tasks task).trapContext
  let regs := timerFrame (task = 0) σ.kernel.machine.sie site.regs
  ∃ s₁ next k', (σ.kernel.sched.setFrame frame fun _ => regs).wakeSleepers (σ.now + 1) = .ok s₁ ∧
    trapHandle mtime frame (trapEnter frame regs σ.kernel) = .ok (.resume next, k') ∧
    k'.sched.rescheduleRequested = false ∧
    (∀ d, k'.sched.currentThread = some d → tidIsReal d → (k'.sched.threads d).quantumTicks < threadQuantumTicks) ∧
    (k'.sched.currentThread ≠ some c ↔ tidIsReal c ∧
      threadQuantumTicks ≤ (σ.kernel.sched.threads c).quantumTicks + 1 ∧ s₁.ready ≠ []) ∧
    (k'.sched.currentThread = some c → next = frame)

theorem timerServed {mtime c : Nat} {site : TrapSite} (h : SysOk σ) (hcalm : Calm σ.kernel.sched)
    (hcur : σ.kernel.sched.currentThread = some c) (hen : Enabled (.timer mtime site) σ) :
    TimerServed σ c mtime site := by
  unfold TimerServed
  intro task frame regs
  have hrun := (h.sched.started hcur).2
  have hframe : frame ≠ 0 := by
    rw [Enabled, hcur] at hen
    dsimp only at hen
    by_cases htask : task = 0
    · simp only [frame, htask, ↓reduceIte]
      rw [if_pos htask] at hen
      exact hen.2.ne_zero
    · simp only [frame, htask, ↓reduceIte]
      exact (userTaskIsReady_iff.mp ((h.threads.thread c (h.real_of_userTask hcur htask)).ready htask)).2.2.2.2
  obtain ⟨s₁, s₂, l, next, s₃, timer, hwake, hseq, hinv, ht, hl, hleft, hcharge, -, hx⟩ :=
    trapHandle_timer_ok mtime h.sched hcur hframe (show regs.mcause = _ from rfl)
  have hsame := hseq.statics
  simp only [Sched.statics, Prod.mk.injEq] at hsame
  have hcur₁ : s₁.currentThread = some c := hsame.2.1.trans hcur
  have hrun₁ := (hinv.started hcur₁).2
  obtain ⟨hswitch, hcalm'⟩ := hcharge (hseq.calm (h.sched.setFrame _) hcalm.setFrame)
  have hq : (s₁.threads c).quantumTicks = (σ.kernel.sched.threads c).quantumTicks := by
    rw [hseq.running_thread hrun.state]; rfl
  have hready : s₂.ready = s₁.ready := by rw [Sched.ready, ht.readyQueue, Sched.ready]
  have hinv₂ := ht.schedInv hinv
  have hrun₂ := (hinv₂.started (ht.current.trans hcur₁)).2
  rw [hq] at hswitch
  refine ⟨s₁, next, _, hwake, hx, hcalm'.1, hcalm'.2, ?_, ?_⟩
  · rw [← hswitch]
    rcases hl with rfl | rfl
    · exact iff_of_false (fun hne => hne (hleft.1.current.trans hrun₂.current)) fun hl => Leave.noConfusion hl
    · refine iff_of_true (Requeued.current hinv₂.ok hleft.1 hrun₂.state ?_ hleft.2) rfl
      rw [hready]; exact (hswitch.mp rfl).2.2
  · intro hkeep
    rcases hl with rfl | rfl
    · exact hleft.2
    · refine absurd hkeep (Requeued.current hinv₂.ok hleft.1 hrun₂.state ?_ hleft.2)
      rw [hready]; exact (hswitch.mp rfl).2.2

/-- Threads run in the order in which they became ready, the null thread only when none is, and a timer interrupt
switches at the end of a quantum only. -/
theorem roundRobin (hf : Fresh k) (hboot : boot k = .ok σ₀) (h : Runs σ₀ l σ) :
    (∃ es, History σ₀ l es σ) ∧
    (∀ es, History σ₀ l es σ →
      es.filterMap SchedEvent.appended = es.filterMap SchedEvent.dispatched ++ σ.kernel.sched.ready ∧
      ∀ es₁ es₂, es = es₁ ++ .dispatch threadNullTid :: es₂ →
        es₁.filterMap SchedEvent.appended = es₁.filterMap SchedEvent.dispatched) ∧
    ∀ c mtime site, σ.kernel.sched.currentThread = some c → Enabled (.timer mtime site) σ →
      TimerServed σ c mtime site := by
  have hb := boot_ok hf hboot
  refine ⟨h.history hb.ok, fun es hes => ?_,
    fun c mtime site hcur hen => timerServed (h.sysOk hb.ok) (h.calm hb.ok hb.calm) hcur hen⟩
  have hes := hes.acts hb.ok
  refine ⟨?_, fun es₁ es₂ heq => ?_⟩
  · have := hes.ledger
    rwa [hb.ready_nil, List.nil_append] at this
  · have := hes.null_dispatched heq
    rwa [hb.ready_nil, List.nil_append] at this

/-- A tick in the middle of the quantum of the first of two threads. -/
theorem roundRobin_sample : ∃ σ : System, σ.kernel.sched.currentThread = some 1 ∧ σ.kernel.sched.ready = [2] ∧
    TimerServed σ 1 0 (sampleSite 1) := by
  obtain ⟨σ₀, σ, hboot, h, hp⟩ := runs_of_bootCheck
    (p := fun σ => σ.kernel.sched.currentThread = some 1 ∧ σ.kernel.sched.ready = [2] ∧
      Enabled (.timer 0 (sampleSite 1)) σ)
    (l := [.threadCreate (some "a") 0x80004000 0, .threadCreate (some "b") 0x80004000 1, .threadStart])
    (k := sampleKernel) (by decide +kernel)
  obtain ⟨hcur, hready, hen⟩ := of_decide_eq_true hp
  exact ⟨σ, hcur, hready, (roundRobin sampleKernel_fresh hboot h).2.2 1 0 (sampleSite 1) hcur hen⟩

end System

end QemuRtos
