import QemuRtos.Core.Anchor
import QemuRtos.User.SyscallSpec

/-!
# Threads, their frames and their tasks

`ThreadsOk` ties every thread to its saved frame and its user task. A thread that waits in the middle
of a kernel call (`busy`) is saved on its own kernel stack, with interrupts masked; any other user
thread is saved in the trap context of its task, which is ready and belongs to no other thread.
-/

namespace QemuRtos

open Lib

variable {Q : Set U64} {s s' : Sched} {c t tid : Nat} {frame next : U64} {k k' : Kernel} {l : Leave}

structure ThreadOk (k : Kernel) (busy : Bool) (t : Nat) : Prop where
  live : busy → (k.sched.threads t).state.live
  saved : busy → OnStack k.machine.image t (k.sched.threads t).trapFrame ∧
    (k.sched.frames (k.sched.threads t).trapFrame).mstatus &&& sstatusSpp ≠ 0 ∧
    (k.sched.frames (k.sched.threads t).trapFrame).mstatus &&& sstatusSpie = 0
  place : (k.sched.threads t).trapFrame ≠ 0 →
    OnStack k.machine.image t (k.sched.threads t).trapFrame ∨
      InPages k.machine.image (k.sched.threads t).trapFrame
  dead : (k.sched.threads t).state.live = false → (k.sched.threads t).userTask = 0
  ready : (k.sched.threads t).userTask ≠ 0 → userTaskIsReady (k.sched.threads t).userTask k
  context : (k.sched.threads t).userTask ≠ 0 → busy = false →
    (k.sched.threads t).trapFrame = (k.tasks (k.sched.threads t).userTask).trapContext

/-- The trap context of a ready task holds a user frame, in a page. -/
def ContextsOk (k : Kernel) : Prop :=
  ∀ task, userTaskIsReady task k → InPages k.machine.image (k.tasks task).trapContext ∧
    (k.sched.frames (k.tasks task).trapContext).mstatus &&& sstatusSpp = 0

structure ThreadsOk (busy : Nat → Bool) (k : Kernel) : Prop where
  thread : ∀ t, tidIsReal t → ThreadOk k (busy t) t
  real : ∀ t, busy t → tidIsReal t
  unique : ∀ t u, tidIsReal t → tidIsReal u → (k.sched.threads t).userTask ≠ 0 →
    (k.sched.threads t).userTask = (k.sched.threads u).userTask → t = u
  contexts : ContextsOk k
  masked : ∀ c, k.sched.currentThread = some c → busy c → k.machine.sie = false

theorem userTaskIsReady_congr {task : U64} (h : k'.tasks task = k.tasks task) :
    userTaskIsReady task k' = userTaskIsReady task k := by
  simp only [userTaskIsReady, h]

theorem ThreadOk.aside {busy : Bool} (h : ThreadOk k busy t)
    (hanchor : (k'.sched.threads t).anchor = (k.sched.threads t).anchor)
    (hstatus : busy → (k'.sched.frames (k.sched.threads t).trapFrame).mstatus =
      (k.sched.frames (k.sched.threads t).trapFrame).mstatus)
    (htask : (k.sched.threads t).userTask ≠ 0 →
      k'.tasks (k.sched.threads t).userTask = k.tasks (k.sched.threads t).userTask)
    (himage : k'.machine.image = k.machine.image) : ThreadOk k' busy t := by
  simp only [Thread.anchor, Prod.mk.injEq] at hanchor
  obtain ⟨hframe, hut, hlive⟩ := hanchor
  refine ⟨fun hb => by rw [hlive]; exact h.live hb, fun hb => ?_, fun hz => ?_, fun hd => ?_, fun hz => ?_,
    fun hz hb => ?_⟩
  · rw [hframe, himage, hstatus hb]; exact h.saved hb
  · rw [hframe, himage]; exact h.place (by rwa [← hframe])
  · rw [hut]; exact h.dead (by rwa [← hlive])
  · rw [hut] at hz ⊢
    rw [userTaskIsReady_congr (htask hz)]; exact h.ready hz
  · rw [hut] at hz
    rw [hframe, hut, htask hz]; exact h.context hz hb

/-! ### Traps -/

/-- A trap of the running thread `c`, seen from its anchors: `frame` gets the status `mstatus`, other
threads may be woken, `c` leaves as `l` says, and the next frame is resumed. -/
def TrapStep (Q : Set U64) (c : Nat) (frame mstatus : U64) (l : Leave) (k k' : Kernel) : Prop :=
  ∃ s₁ next s' timer,
    (∀ t, (s₁.threads t).anchor = (k.sched.threads t).anchor) ∧
    (∀ a, (s₁.frames a).mstatus = if a = frame then mstatus else (k.sched.frames a).mstatus) ∧
    s₁.currentThread = some c ∧ Left Q c frame s₁ l next s' ∧
    Returned next { k with sched := s', timer := timer } k'

theorem setFrame_mstatus (s : Sched) (frame : U64) (f : TrapFrame) (a : U64) :
    ((s.setFrame frame fun _ => f).frames a).mstatus = if a = frame then f.mstatus else (s.frames a).mstatus := by
  by_cases ha : a = frame
  · subst ha; rw [Sched.setFrame_self, if_pos rfl]
  · rw [Sched.setFrame_of_ne _ _ _ ha, if_neg ha]

theorem Trapped.trapStep {f : TrapFrame} (h : Trapped Q c frame f l k k') (hcur : k.sched.currentThread = some c) :
    TrapStep Q c frame f.mstatus l k k' := by
  obtain ⟨next, s', hl, hr⟩ := h
  exact ⟨k.sched.setFrame frame fun _ => f, next, s', k.timer, fun _ => rfl, setFrame_mstatus _ _ _, hcur, hl, hr⟩

namespace TrapStep

variable {mstatus : U64} (h : TrapStep Q c frame mstatus l k k')
include h

theorem rest : k' = { k with
    machine := { k.machine with sie := k'.machine.sie }, sched := k'.sched, timer := k'.timer } := by
  obtain ⟨s₁, next, s', timer, -, -, -, -, hr⟩ := h
  cases hr <;> rfl

theorem status (a : U64) :
    (k'.sched.frames a).mstatus = if a = frame then mstatus else (k.sched.frames a).mstatus := by
  obtain ⟨s₁, next, s', timer, -, hm, -, hl, hr⟩ := h
  have hf : k'.sched.frames = s'.frames := by cases hr <;> rfl
  rw [hf, hl.frames]
  exact hm a

theorem anchor_of_ne (ht : t ≠ c) : (k'.sched.threads t).anchor = (k.sched.threads t).anchor := by
  obtain ⟨s₁, next, s', timer, ha, -, hcur, hl, hr⟩ := h
  have hs' : (s'.threads t).anchor = (k.sched.threads t).anchor := (hl.anchor_of_ne ht).trans (ha t)
  cases hr with
  | supervisor => exact hs'
  | user hcur' htask hnext hspp sie =>
    rename_i d
    by_cases htd : t = d
    · subst htd
      rcases hl.resumed hcur with ⟨-, -, hc⟩ | ⟨e, hc, hnx, -⟩
      · exact absurd (Option.some.inj (hcur'.symm.trans hc)) ht
      · obtain rfl : t = e := Option.some.inj (hcur'.symm.trans hc)
        show ((s'.setThread t fun th => { th with trapFrame := next }).threads t).anchor = _
        rw [Sched.setThread_self, ← hs', hnx]
    · show ((s'.setThread d fun th => { th with trapFrame := next }).threads t).anchor = _
      rw [Sched.setThread_of_ne _ _ _ htd]
      exact hs'

/-- The trapping thread's own anchor. A user thread that stays is saved in the frame it resumes. -/
theorem anchor_self : (k'.sched.threads c).anchor = l.anchor frame (k.sched.threads c) ∨
    l = .stay ∧ (k.sched.threads c).userTask ≠ 0 ∧ (k'.sched.threads c).anchor =
      (frame, (k.sched.threads c).userTask, (k.sched.threads c).state.live) := by
  obtain ⟨s₁, next, s', timer, ha, -, hcur, hl, hr⟩ := h
  have hl₁ : l.anchor frame (s₁.threads c) = l.anchor frame (k.sched.threads c) := by
    have hc := ha c
    simp only [Thread.anchor, Prod.mk.injEq] at hc
    cases l <;> simp [Leave.anchor, Thread.anchor, hc]
  have hs' := hl.anchor_self.trans hl₁
  cases hr with
  | supervisor => exact .inl hs'
  | user hcur' htask hnext hspp sie =>
    rename_i d
    by_cases hcd : c = d
    · subst hcd
      rcases hl.resumed hcur with ⟨rfl, rfl, hc⟩ | ⟨e, hc, hnx, -⟩
      · simp only [Leave.anchor, Thread.anchor, Prod.mk.injEq] at hs'
        refine .inr ⟨rfl, ?_, ?_⟩
        · rw [← hs'.2.1]; exact htask
        · show ((s'.setThread c fun th => { th with trapFrame := next }).threads c).anchor = _
          rw [Sched.setThread_self, ← hs'.2.1, ← hs'.2.2]
          rfl
      · obtain rfl : c = e := Option.some.inj (hcur'.symm.trans hc)
        refine .inl ?_
        show ((s'.setThread c fun th => { th with trapFrame := next }).threads c).anchor = _
        rw [Sched.setThread_self, ← hs', hnx]
    · refine .inl ?_
      show ((s'.setThread d fun th => { th with trapFrame := next }).threads c).anchor = _
      rw [Sched.setThread_of_ne _ _ _ hcd]
      exact hs'

/-- The thread that runs after a switch resumes its saved frame, with the interrupt state it was
saved with. -/
theorem masked {busy : Bool} {d : Nat} (hd : k'.sched.currentThread = some d) (hok : ThreadOk k' busy d)
    (hb : busy = true) (hne : l ≠ .stay) : k'.machine.sie = false := by
  have hstatus := h.status
  obtain ⟨s₁, next, s', timer, -, -, hcur, hl, hr⟩ := h
  obtain ⟨-, hspp, hspie⟩ := hok.saved hb
  rcases hl.resumed hcur with ⟨he, -⟩ | ⟨e, hc, hnx, -⟩
  · exact absurd he hne
  cases hr with
  | supervisor =>
    obtain rfl : d = e := Option.some.inj (hd.symm.trans hc)
    show decide ((s'.frames next).mstatus &&& sstatusSpie ≠ 0) = false
    rw [hnx]
    exact decide_eq_false (not_not.mpr hspie)
  | user hcur' htask hnext hspp' sie =>
    obtain rfl : d = e := Option.some.inj (hd.symm.trans hc)
    obtain rfl : d = _ := Option.some.inj (hd.symm.trans hcur')
    refine absurd ?_ hspp
    show (s'.frames ((s'.setThread d fun th => { th with trapFrame := next }).threads d).trapFrame).mstatus &&&
      sstatusSpp = 0
    rw [Sched.setThread_self]
    exact hspp'

theorem threadsOk_of_others {busy : Nat → Bool} (hothers : ∀ t, tidIsReal t → t ≠ c → ThreadOk k (busy t) t)
    (hbusy : ∀ t, busy t → tidIsReal t)
    (hunique : ∀ t u, tidIsReal t → tidIsReal u → (k.sched.threads t).userTask ≠ 0 →
      (k.sched.threads t).userTask = (k.sched.threads u).userTask → t = u)
    (hcontexts : ContextsOk k) (hlt : c < threadMax)
    (hplace : OnStack k.machine.image c frame ∨
      (InPages k.machine.image frame ∧ mstatus &&& sstatusSpp = 0)) {b : Bool}
    (hreal : b = true → tidIsReal c) (hstay : l = .stay → b = false)
    (hc : tidIsReal c → ThreadOk k' b c) : ThreadsOk (Function.update busy c b) k' := by
  have hrest := h.rest
  have htasks : k'.tasks = k.tasks := by rw [hrest]
  have himage : k'.machine.image = k.machine.image := by rw [hrest]
  have hoff : ∀ t, tidIsReal t → t ≠ c → ∀ a, OnStack k.machine.image t a → a ≠ frame := by
    rintro t hreal ht a hon rfl
    rcases hplace with hc | ⟨hin, -⟩
    · exact ht (hon.unique hc)
    · exact hin.not_onStack (tidIsReal_iff.mp hreal).2 hon
  have hself := h.anchor_self
  have htask : ∀ t, (k'.sched.threads t).userTask = (k.sched.threads t).userTask ∨
      t = c ∧ (k'.sched.threads t).userTask = 0 := fun t => by
    by_cases ht : t = c
    · subst ht
      rcases hself with ha | ⟨-, -, ha⟩
      · have ha := congrArg (·.2.1) ha
        cases l with
        | retire => exact .inr ⟨rfl, ha⟩
        | _ => exact .inl ha
      · simp only [Thread.anchor, Prod.mk.injEq] at ha
        exact .inl ha.2.1
    · have ha := h.anchor_of_ne ht
      simp only [Thread.anchor, Prod.mk.injEq] at ha
      exact .inl ha.2.1
  have hthread : ∀ t, tidIsReal t → ThreadOk k' (Function.update busy c b t) t := fun t ht => by
    by_cases htc : t = c
    · subst htc; rw [Function.update_self]; exact hc ht
    · rw [Function.update_of_ne htc]
      refine (hothers t ht htc).aside (h.anchor_of_ne htc) (fun hb => ?_) (fun _ => by rw [htasks]) himage
      rw [h.status, if_neg (hoff t ht htc _ ((hothers t ht htc).saved hb).1)]
  refine ⟨hthread, fun t hb => ?_, fun t u ht hu hne heq => ?_, fun task hready => ?_, fun d hd hb => ?_⟩
  · by_cases htc : t = c
    · subst htc; rw [Function.update_self] at hb; exact hreal hb
    · rw [Function.update_of_ne htc] at hb; exact hbusy t hb
  · rcases htask t with ht' | ⟨-, hz⟩
    · rcases htask u with hu' | ⟨-, hz⟩
      · exact hunique t u ht hu (by rwa [← ht']) (by rw [← ht', heq, hu'])
      · rw [heq] at hne; exact absurd hz hne
    · exact absurd hz hne
  · rw [userTaskIsReady_congr (k := k) (by rw [htasks])] at hready
    obtain ⟨hoffs, hspp⟩ := hcontexts task hready
    rw [himage, htasks, h.status]
    refine ⟨hoffs, ?_⟩
    split
    · rename_i he
      rcases hplace with hon | ⟨-, hm⟩
      · rw [← he] at hon
        exact absurd hon (hoffs.not_onStack hlt)
      · exact hm
    · exact hspp
  · by_cases hst : l = .stay
    · -- the running thread stays: it is in no call, before or after
      obtain ⟨s₁, next, s', timer, -, -, hcur, hl, hr⟩ := h
      have hdc : d = c := by
        subst hst
        have hcur' : k'.sched.currentThread = s'.currentThread := by cases hr <;> rfl
        rw [hcur', hl.1.current, hcur] at hd
        exact (Option.some.inj hd).symm
      subst hdc
      rw [Function.update_self, hstay hst] at hb
      cases hb
    · have hdr : tidIsReal d := by
        by_cases hdc : d = c
        · subst hdc; rw [Function.update_self] at hb; exact hreal hb
        · rw [Function.update_of_ne hdc] at hb; exact hbusy d hb
      exact h.masked hd (hthread d hdr) hb hst

theorem threadsOk {busy : Nat → Bool} (hok : ThreadsOk busy k) (hlt : c < threadMax)
    (hplace : OnStack k.machine.image c frame ∨
      (InPages k.machine.image frame ∧ mstatus &&& sstatusSpp = 0)) {b : Bool}
    (hreal : b = true → tidIsReal c) (hstay : l = .stay → b = false)
    (hc : tidIsReal c → ThreadOk k' b c) : ThreadsOk (Function.update busy c b) k' :=
  h.threadsOk_of_others (fun t ht _ => hok.thread t ht) hok.real hok.unique hok.contexts hlt hplace hreal
    hstay hc

theorem threadOk_kernel {b₀ : Bool} (hok : ThreadOk k b₀ c) (hon : OnStack k.machine.image c frame)
    (htask : (k.sched.threads c).userTask = 0) : ThreadOk k' false c := by
  have himage : k'.machine.image = k.machine.image := by rw [h.rest]
  have ha := h.anchor_self.resolve_right fun hr => hr.2.1 htask
  have hut : (k'.sched.threads c).userTask = 0 := by
    have := congrArg (·.2.1) ha
    cases l with
    | retire => exact this
    | _ => exact this.trans htask
  refine ⟨nofun, nofun, fun hz => ?_, fun _ => hut, fun hne => absurd hut hne, fun hne => absurd hut hne⟩
  have hf := congrArg (·.1) ha
  rw [himage]
  cases l with
  | stay =>
    have hf : (k'.sched.threads c).trapFrame = (k.sched.threads c).trapFrame := hf
    rw [hf] at hz ⊢
    exact hok.place hz
  | retire => exact absurd hf hz
  | _ =>
    have hf : (k'.sched.threads c).trapFrame = frame := hf
    rw [hf]
    exact .inl hon

theorem threadOk_busy {b₀ : Bool} {b : Block} (hok : ThreadOk k b₀ c) (hl : l = .park b)
    (hon : OnStack k.machine.image c frame) (hspp : mstatus &&& sstatusSpp ≠ 0)
    (hspie : mstatus &&& sstatusSpie = 0) : ThreadOk k' true c := by
  subst hl
  have himage : k'.machine.image = k.machine.image := by rw [h.rest]
  have ha := h.anchor_self.resolve_right fun hr => by cases hr.1
  simp only [Thread.anchor, Leave.anchor, Prod.mk.injEq] at ha
  obtain ⟨hf, hut, hlive⟩ := ha
  refine ⟨fun _ => hlive, fun _ => ?_, fun _ => .inl (by rw [hf, himage]; exact hon), fun hd => ?_, fun hne => ?_,
    fun _ hidle => by cases hidle⟩
  · rw [hf, h.status, if_pos rfl, himage]
    exact ⟨hon, hspp, hspie⟩
  · rw [hlive] at hd; cases hd
  · rw [hut] at hne ⊢
    rw [userTaskIsReady_congr (k := k) (by rw [h.rest])]
    exact hok.ready hne

theorem threadOk_user (hok : ThreadOk k false c) (hne : l ≠ .retire)
    (htask : (k.sched.threads c).userTask ≠ 0)
    (hframe : frame = (k.tasks (k.sched.threads c).userTask).trapContext)
    (hoff : InPages k.machine.image frame) : ThreadOk k' false c := by
  have himage : k'.machine.image = k.machine.image := by rw [h.rest]
  have htasks : k'.tasks = k.tasks := by rw [h.rest]
  have hbefore := hok.context htask rfl
  have hf : (k'.sched.threads c).trapFrame = frame ∧ (k'.sched.threads c).userTask = (k.sched.threads c).userTask ∧
      ((k'.sched.threads c).state.live = true ∨
        (k'.sched.threads c).state.live = (k.sched.threads c).state.live) := by
    rcases h.anchor_self with ha | ⟨-, -, ha⟩
    · cases l with
      | stay =>
        exact ⟨(congrArg (·.1) ha).trans (hbefore.trans hframe.symm), congrArg (·.2.1) ha, .inr (congrArg (·.2.2) ha)⟩
      | retire => exact absurd rfl hne
      | _ => exact ⟨congrArg (·.1) ha, congrArg (·.2.1) ha, .inl (congrArg (·.2.2) ha)⟩
    · exact ⟨congrArg (·.1) ha, congrArg (·.2.1) ha, .inr (congrArg (·.2.2) ha)⟩
  obtain ⟨hf, hut, hlive⟩ := hf
  refine ⟨nofun, nofun, fun _ => .inr (by rw [hf, himage]; exact hoff), fun hd => ?_, fun _ => ?_, fun _ _ => ?_⟩
  · rw [hut]
    rcases hlive with ht | he
    · rw [ht] at hd; cases hd
    · exact hok.dead (by rw [← he]; exact hd)
  · rw [hut, userTaskIsReady_congr (k := k) (by rw [htasks])]
    exact hok.ready htask
  · rw [hf, hut, htasks, hframe]

end TrapStep

/-! ### Wakes and creation -/

theorem ThreadsOk.woken {busy : Nat → Bool} {P : Nat → Int → Sched → Prop} (hok : ThreadsOk busy k)
    (hw : WokenSeq Q P k.sched s') : ThreadsOk busy { k with sched := s' } where
  thread t ht := (hok.thread t ht).aside (hw.anchor t) (fun _ => hw.mstatus _) (fun _ => rfl) rfl
  real := hok.real
  unique t u ht hu hne heq := by
    have hta : (s'.threads t).userTask = (k.sched.threads t).userTask := congrArg (·.2.1) (hw.anchor t)
    have hua : (s'.threads u).userTask = (k.sched.threads u).userTask := congrArg (·.2.1) (hw.anchor u)
    simp only [hta, hua] at hne heq
    exact hok.unique t u ht hu hne heq
  contexts task hready := by
    obtain ⟨hoff, hspp⟩ := hok.contexts task hready
    exact ⟨hoff, by rw [hw.mstatus]; exact hspp⟩
  masked c hc hb := hok.masked c ((congrArg (·.2.1) hw.statics).symm.trans hc) hb

theorem ThreadsOk.installed {busy : Nat → Bool} {th : Thread} {own : Set U64} (hok : ThreadsOk busy k)
    (hi : Installed Q tid th own k.sched s') (hsched : k'.sched = s') (htasks : k'.tasks = k.tasks)
    (hmachine : k'.machine = k.machine) (hlive : th.state = .ready) (hown : ∀ a ∈ own, OnStack k.machine.image tid a)
    (hplace : OnStack k.machine.image tid th.trapFrame ∧ th.userTask = 0 ∨
      userTaskIsReady th.userTask k ∧ th.trapFrame = (k.tasks th.userTask).trapContext ∧
        ∀ t, tidIsReal t → (k.sched.threads t).userTask ≠ th.userTask) :
    ThreadsOk busy k' := by
  have hfree : busy tid = false := by
    rw [← Bool.not_eq_true]
    intro hb
    have := (hok.thread tid hi.real).live hb
    rcases hi.free with he | he <;> rw [he] at this <;> cases this
  have hself : k'.sched.threads tid = th := by rw [hsched, hi.self]
  have hothers : ∀ t ≠ tid, k'.sched.threads t = k.sched.threads t := fun t ht => by
    rw [hsched, hi.threads, Function.update_of_ne ht]
  have hframes : ∀ t, t ≠ tid → ∀ a, OnStack k.machine.image t a → k'.sched.frames a = k.sched.frames a :=
    fun t ht a hon => by
      rw [hsched]
      exact hi.frames a fun ha => ht (hon.unique (hown a ha))
  refine ⟨fun t ht => ?_, hok.real, fun t u ht hu hne heq => ?_, fun task hready => ?_, fun c hc hb => ?_⟩
  · by_cases htc : t = tid
    · subst htc
      rw [hfree]
      refine ⟨nofun, nofun, fun _ => ?_, fun hd => ?_, fun hne => ?_, fun hne _ => ?_⟩
      · rw [hself, hmachine]
        rcases hplace with ⟨hon, -⟩ | ⟨hready, hctx, -⟩
        · exact .inl hon
        · rw [hctx]; exact .inr (hok.contexts _ hready).1
      · rw [hself, hlive] at hd; cases hd
      · rw [hself] at hne ⊢
        rcases hplace with ⟨-, hz⟩ | ⟨hready, -, -⟩
        · exact absurd hz hne
        · rw [userTaskIsReady_congr (k := k) (by rw [htasks])]; exact hready
      · rw [hself] at hne ⊢
        rcases hplace with ⟨-, hz⟩ | ⟨-, hctx, -⟩
        · exact absurd hz hne
        · rw [htasks]; exact hctx
    · refine (hok.thread t ht).aside (by rw [hothers t htc]) (fun hb => ?_) (fun _ => by rw [htasks])
        (by rw [hmachine])
      rw [hframes t htc _ ((hok.thread t ht).saved hb).1]
  · have hnew : ∀ u, tidIsReal u → u ≠ tid → (k'.sched.threads u).userTask ≠ 0 → th.userTask ≠ 0 →
        (k'.sched.threads u).userTask ≠ th.userTask := fun u hu hut _ hz => by
      rw [hothers u hut]
      rcases hplace with ⟨-, hz'⟩ | ⟨-, -, hnone⟩
      · exact absurd hz' hz
      · exact hnone u hu
    by_cases htc : t = tid
    · subst htc
      by_cases huc : u = t
      · exact huc.symm
      · rw [hself] at hne heq
        exact absurd heq.symm (hnew u hu huc (by rw [← heq]; exact hne) hne)
    · by_cases huc : u = tid
      · subst huc
        rw [hself] at heq
        exact absurd heq (hnew t ht htc hne (by rw [← heq]; exact hne))
      · rw [hothers t htc] at hne heq
        rw [hothers u huc] at heq
        exact hok.unique t u ht hu hne heq
  · rw [userTaskIsReady_congr (k := k) (by rw [htasks])] at hready
    obtain ⟨hoff, hspp⟩ := hok.contexts task hready
    rw [hmachine, htasks, hsched, hi.frames]
    · exact ⟨hoff, hspp⟩
    · exact fun ha => hoff.not_onStack (tidIsReal_iff.mp hi.real).2 (hown _ ha)
  · rw [hsched] at hc
    have hcur : s'.currentThread = k.sched.currentThread := congrArg (·.1) hi.statics
    rw [hmachine]
    exact hok.masked c (hcur ▸ hc) hb

end QemuRtos
