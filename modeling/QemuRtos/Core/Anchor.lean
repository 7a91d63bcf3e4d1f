import QemuRtos.Core.ThreadSpec

/-!
# What a step leaves alone

The anchor of a thread is what ties it to its frame and its task: the saved frame, the user task, and
whether it lives. Wakes keep every anchor, and a trap of one thread keeps those of the others.
-/

namespace QemuRtos

open Lib

variable {Q : Set U64} {s s' : Sched} {c t tid : Nat} {frame next : U64} {k k' : Kernel} {l : Leave}

def ThreadState.live : ThreadState → Bool
  | .unused | .exited => false
  | .ready | .running | .blocked => true

def Thread.anchor (th : Thread) : U64 × U64 × Bool := (th.trapFrame, th.userTask, th.state.live)

theorem Woken.anchor {result : Int} (h : Woken Q tid result s s') (t : Nat) :
    (s'.threads t).anchor = (s.threads t).anchor := by
  by_cases ht : t = tid
  · subst ht
    rw [h.self, Thread.anchor, Thread.anchor, h.blocked]
    rfl
  · rw [h.of_ne ht]

theorem WokenSeq.anchor {P : Nat → Int → Sched → Prop} (h : WokenSeq Q P s s') (t : Nat) :
    (s'.threads t).anchor = (s.threads t).anchor := by
  induction h with
  | nil => rfl
  | cons _ _ hw _ ih => rw [ih, hw.anchor]

theorem Woken.mstatus {result : Int} (h : Woken Q tid result s s') (a : U64) :
    (s'.frames a).mstatus = (s.frames a).mstatus := by
  rw [h.frames]
  by_cases ha : a = (s.threads tid).trapFrame
  · subst ha; rw [Function.update_self]
  · rw [Function.update_of_ne ha]

theorem WokenSeq.mstatus {P : Nat → Int → Sched → Prop} (h : WokenSeq Q P s s') (a : U64) :
    (s'.frames a).mstatus = (s.frames a).mstatus := by
  induction h with
  | nil => rfl
  | cons _ _ hw _ ih => rw [ih, hw.mstatus]

theorem Touched.anchor (h : Touched c s s') (t : Nat) : (s'.threads t).anchor = (s.threads t).anchor := by
  by_cases ht : t = c
  · subst ht; rw [Thread.anchor, Thread.anchor, h.trapFrame, h.task, h.state]
  · rw [h.others t ht]

/-! ### Switches -/

theorem SchedOk.next_state (h : SchedOk Q s) (hh : Halted s) : (s.threads s.next).state = .ready := by
  cases hr : s.ready with
  | nil =>
    rw [Sched.next, hr]
    exact h.null.state.resolve_right (hh threadNullTid (by decide))
  | cons tid rest =>
    rw [Sched.next, hr]
    obtain ⟨ht, hflag⟩ := (h.mem_ready tid).mp (by rw [hr]; exact List.mem_cons_self)
    exact (h.coherent tid ht).in_ready.mp hflag

theorem Dispatched.anchor (h : Dispatched s.next s s') (hok : SchedOk Q s) (hh : Halted s) (t : Nat) :
    (s'.threads t).anchor = (s.threads t).anchor := by
  rw [h.threads]
  by_cases ht : t = s.next
  · subst ht
    rw [Function.update_self, Thread.anchor, Thread.anchor, hok.next_state hh]
    rfl
  · rw [Function.update_of_ne ht]

theorem Switched.of_ne {R : Sched → Sched → Prop} (hsw : Switched Q R s s' next) (ht : t ≠ c)
    (hR : ∀ s₁, R s s₁ → ∃ th, s₁.threads = Function.update s.threads c th) :
    (s'.threads t).anchor = (s.threads t).anchor := by
  obtain ⟨s₁, hr, hok, hh, hd, -⟩ := hsw
  obtain ⟨th, hth⟩ := hR s₁ hr
  rw [hd.anchor hok hh, hth, Function.update_of_ne ht]

theorem Left.anchor_of_ne (hl : Left Q c frame s l next s') (ht : t ≠ c) :
    (s'.threads t).anchor = (s.threads t).anchor := by
  cases l with
  | stay => exact hl.1.anchor t
  | requeue => exact hl.2.of_ne ht fun s₁ hr => ⟨_, hr.threads⟩
  | nullRequeue =>
    obtain ⟨rfl, hsw⟩ := hl
    exact hsw.of_ne ht fun s₁ hr => ⟨_, hr.threads⟩
  | park b => exact hl.2.of_ne ht fun s₁ hr => ⟨_, hr.threads⟩
  | retire => exact hl.2.of_ne ht fun s₁ hr => ⟨_, hr.threads⟩

/-- The anchor of a thread that has left as `l` says, with its frame at `frame`. -/
def Leave.anchor (l : Leave) (frame : U64) (th : Thread) : U64 × U64 × Bool :=
  match l with
  | .stay => th.anchor
  | .requeue | .nullRequeue | .park _ => (frame, th.userTask, true)
  | .retire => (0, 0, false)

theorem Left.anchor_self (hl : Left Q c frame s l next s') :
    (s'.threads c).anchor = l.anchor frame (s.threads c) := by
  have hself : ∀ {R : Sched → Sched → Prop} {th : Thread}, Switched Q R s s' next →
      (∀ s₁, R s s₁ → s₁.threads = Function.update s.threads c th) → (s'.threads c).anchor = th.anchor := by
    rintro R th ⟨s₁, hr, hok, hh, hd, -⟩ hR
    rw [hd.anchor hok hh, hR s₁ hr, Function.update_self]
  cases l with
  | stay => exact hl.1.anchor c
  | requeue => exact hself hl.2 fun s₁ hr => hr.threads
  | nullRequeue =>
    obtain ⟨rfl, hsw⟩ := hl
    exact hself hsw fun s₁ hr => hr.threads
  | park b => exact hself hl.2 fun s₁ hr => hr.threads
  | retire => exact hself hl.2 fun s₁ hr => hr.threads

theorem Left.frames (hl : Left Q c frame s l next s') : s'.frames = s.frames := by
  have hsw : ∀ {R : Sched → Sched → Prop}, Switched Q R s s' next → (∀ s₁, R s s₁ → s₁.frames = s.frames) →
      s'.frames = s.frames := by
    rintro R ⟨s₁, hr, -, -, hd, -⟩ hR
    rw [hd.frames, hR s₁ hr]
  cases l with
  | stay => exact hl.1.frames
  | requeue => exact hsw hl.2 fun s₁ hr => hr.frames
  | nullRequeue => exact hsw hl.2 fun s₁ hr => hr.frames
  | park b => exact hsw hl.2 fun s₁ hr => hr.frames
  | retire => exact hsw hl.2 fun s₁ hr => hr.frames

/-- The thread that runs next, and the frame it resumes: its saved one, unless no switch happened. -/
theorem Left.resumed (hl : Left Q c frame s l next s') (hcur : s.currentThread = some c) :
    l = .stay ∧ next = frame ∧ s'.currentThread = some c ∨
      ∃ d, s'.currentThread = some d ∧ next = (s'.threads d).trapFrame ∧ (s'.threads d).state = .running := by
  have hsw : ∀ {R : Sched → Sched → Prop}, Switched Q R s s' next →
      ∃ d, s'.currentThread = some d ∧ next = (s'.threads d).trapFrame ∧ (s'.threads d).state = .running := by
    rintro R ⟨s₁, -, hok, hh, hd, -, hrun, rfl⟩
    have ha := hd.anchor hok hh s₁.next
    simp only [Thread.anchor, Prod.mk.injEq] at ha
    exact ⟨s₁.next, hrun.current, ha.1.symm, hrun.state⟩
  cases l with
  | stay => exact .inl ⟨rfl, hl.2, hl.1.current.trans hcur⟩
  | requeue => exact .inr (hsw hl.2)
  | nullRequeue => exact .inr (hsw hl.2)
  | park b => exact .inr (hsw hl.2)
  | retire => exact .inr (hsw hl.2)

theorem Installed.anchor_of_ne {th : Thread} {own : Set U64} (h : Installed Q tid th own s s') (ht : t ≠ tid) :
    (s'.threads t).anchor = (s.threads t).anchor := by
  rw [h.threads, Function.update_of_ne ht]

theorem Installed.self {th : Thread} {own : Set U64} (h : Installed Q tid th own s s') : s'.threads tid = th := by
  rw [h.threads, Function.update_self]

end QemuRtos
