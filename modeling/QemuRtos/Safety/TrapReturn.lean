import QemuRtos.SystemReturn

/-!
# The frame a trap resumes

After `thread_start` the frame that `trap_return_from_handler` gets is the trap context of the current thread's
ready task when it is a user frame, and is then restored under the `satp` of that task; otherwise it lies on the
current thread's kernel stack, where the thread was saved last.
-/

namespace QemuRtos

open Lib

variable {Q : Set U64} {c d t : Nat} {frame mstatus : U64} {k k' k₁ : Kernel} {l : Leave} {e : TrapExit}

namespace System

variable {σ σ' : System} {op : Op} {call : Call} {saved : Nat → U64}

/-! ### Which frame is resumed -/

/-- What a thread has saved on its kernel stack while it does not run. -/
structure StackSaved (σ : System) (t : Nat) (last : U64) : Prop where
  place : OnStack σ.kernel.machine.image t (σ.kernel.sched.threads t).trapFrame
  spp : (σ.kernel.sched.frames (σ.kernel.sched.threads t).trapFrame).mstatus &&& sstatusSpp ≠ 0
  last : last = (σ.kernel.sched.threads t).trapFrame

/-- Kernel threads, and user threads in the middle of a call, are saved on their stacks while they do not run. -/
def SavedOk (σ : System) (saved : Nat → U64) : Prop :=
  ∀ t < threadMax, (σ.kernel.sched.threads t).state.live = true → σ.kernel.sched.currentThread ≠ some t →
    ((σ.kernel.sched.threads t).userTask = 0 ∨ σ.busy t = true) → StackSaved σ t (saved t)

theorem Left.current_lt {s s' : Sched} {next : U64} (hl : Left Q c frame s l next s') (hne : l ≠ .stay) :
    ∃ d < threadMax, s'.currentThread = some d ∧ (s'.threads d).state = .running ∧
      next = (s'.threads d).trapFrame := by
  have hsw : ∀ {R : Sched → Sched → Prop}, Switched Q R s s' next →
      ∃ d < threadMax, s'.currentThread = some d ∧ (s'.threads d).state = .running ∧
        next = (s'.threads d).trapFrame := by
    rintro R ⟨s₁, -, hok, hh, hd, -, hrun, rfl⟩
    exact ⟨s₁.next, hrun.lt, hrun.current, hrun.state, (congrArg (·.1) (hd.anchor hok hh s₁.next)).symm⟩
  cases l with
  | stay => exact absurd rfl hne
  | requeue => exact hsw hl.2
  | nullRequeue => exact hsw hl.2
  | park b => exact hsw hl.2
  | retire => exact hsw hl.2

theorem ExitOk.inPages (h : SysOk σ) (hu : UserFrame σ.kernel c frame mstatus)
    (hcur : σ.kernel.sched.currentThread = some c) :
    InPages σ.kernel.machine.image frame ∧ userTaskIsReady (σ.kernel.sched.threads c).userTask σ.kernel := by
  have hready := (h.threads.thread c (h.real_of_userTask hcur hu.task)).ready hu.task
  rw [hu.frame]
  exact ⟨(h.threads.contexts _ hready).1, hready⟩

theorem ExitOk.frame_ne (he : ExitOk σ e c frame mstatus l call) (h : SysOk σ) {a : U64} (ht : t < threadMax)
    (htc : t ≠ c) (ha : OnStack σ.kernel.machine.image t a) : a ≠ frame := by
  rintro rfl
  rcases he.place with ⟨hon, -⟩ | ⟨hu, -⟩
  · exact htc (ha.unique hon)
  · exact (ExitOk.inPages h hu he.current).1.not_onStack ht ha

/-- The frame that `trap_return_from_handler` gets, and whose it is. -/
theorem ExitOk.selects (he : ExitOk σ e c frame mstatus l call) (h : SysOk σ) (hs : SavedOk σ saved) :
    ∃ d < threadMax, e.kernel.sched.currentThread = some d ∧
      (userTaskIsReady (e.kernel.sched.threads d).userTask e.kernel = true ∧
          e.frame = (e.kernel.tasks (e.kernel.sched.threads d).userTask).trapContext ∧
          (e.kernel.sched.frames e.frame).mstatus &&& sstatusSpp = 0 ∧ InPages σ.kernel.machine.image e.frame ∨
        OnStack σ.kernel.machine.image d e.frame ∧ (e.kernel.sched.frames e.frame).mstatus &&& sstatusSpp ≠ 0 ∧
          e.frame = σ.lastSaved (some e) saved d) := by
  obtain ⟨s₁, hanchor, hcur₁, hm, hothers, hl⟩ := he.left
  have hframes := hl.frames
  have hlt := (h.sched.started he.current).2.lt
  -- the thread goes on in the frame of its trap
  have hself : e.frame = frame → l ≠ .retire →
      (e.kernel.sched.threads c).userTask = (σ.kernel.sched.threads c).userTask →
      userTaskIsReady (e.kernel.sched.threads c).userTask e.kernel = true ∧
          e.frame = (e.kernel.tasks (e.kernel.sched.threads c).userTask).trapContext ∧
          (e.kernel.sched.frames e.frame).mstatus &&& sstatusSpp = 0 ∧ InPages σ.kernel.machine.image e.frame ∨
        OnStack σ.kernel.machine.image c e.frame ∧ (e.kernel.sched.frames e.frame).mstatus &&& sstatusSpp ≠ 0 ∧
          e.frame = σ.lastSaved (some e) saved c := by
    intro hframe hne htask
    have hstatus : (e.kernel.sched.frames e.frame).mstatus = mstatus := by rw [hframe, hframes, hm]
    rw [hstatus]
    rcases he.place with ⟨hon, hspp⟩ | ⟨hu, -⟩
    · refine .inr ⟨by rw [hframe]; exact hon, hspp, ?_⟩
      rcases he.saved with hsaved | ⟨-, -, hu⟩
      · rw [lastSaved, if_pos he.current, Option.bind_some, hsaved, hframe]; rfl
      · exact absurd hu.spp hspp
    · have htasks : e.kernel.tasks (σ.kernel.sched.threads c).userTask =
          σ.kernel.tasks (σ.kernel.sched.threads c).userTask :=
        he.tasks _ fun hr => absurd hr hne
      rw [htask, userTaskIsReady_congr (k := σ.kernel) htasks, htasks]
      obtain ⟨hin, hready⟩ := ExitOk.inPages h hu he.current
      exact .inl ⟨hready, hframe.trans hu.frame, hu.spp, by rw [hframe]; exact hin⟩
  by_cases hst : l = .stay
  · subst hst
    obtain ⟨hrest, hnext⟩ := hl
    have htask : (e.kernel.sched.threads c).userTask = (σ.kernel.sched.threads c).userTask :=
      (congrArg (·.2.1) (hrest.anchor c)).trans (congrArg (·.2.1) (hanchor c))
    exact ⟨c, hlt, hrest.current.trans hcur₁, hself hnext Leave.noConfusion htask⟩
  obtain ⟨d, hdlt, hd, hrunning, hnext⟩ := Left.current_lt hl hst
  refine ⟨d, hdlt, hd, ?_⟩
  by_cases hdc : d = c
  · subst hdc
    have ha := hl.anchor_self
    have htask : (s₁.threads d).userTask = (σ.kernel.sched.threads d).userTask := congrArg (·.2.1) (hanchor d)
    cases l with
    | stay => exact absurd rfl hst
    | retire =>
      have hdead : (e.kernel.sched.threads d).state.live = false := congrArg (·.2.2) ha
      rw [hrunning] at hdead
      cases hdead
    | requeue => exact hself (hnext.trans (congrArg (·.1) ha)) Leave.noConfusion ((congrArg (·.2.1) ha).trans htask)
    | nullRequeue =>
      exact hself (hnext.trans (congrArg (·.1) ha)) Leave.noConfusion ((congrArg (·.2.1) ha).trans htask)
    | park b => exact hself (hnext.trans (congrArg (·.1) ha)) Leave.noConfusion ((congrArg (·.2.1) ha).trans htask)
  have ha := (hl.anchor_of_ne hdc).trans (hanchor d)
  simp only [Thread.anchor, Prod.mk.injEq] at ha
  obtain ⟨hframe, htask, hlive⟩ := ha
  rw [hrunning] at hlive
  have hnotcur : σ.kernel.sched.currentThread ≠ some d := fun hc => hdc (Option.some.inj (hc.symm.trans he.current))
  rw [lastSaved, if_neg hnotcur, htask, hnext, hframe, hframes]
  by_cases hk : (σ.kernel.sched.threads d).userTask = 0 ∨ σ.busy d = true
  · obtain ⟨hplace, hspp, hlast⟩ := hs d hdlt hlive.symm hnotcur hk
    refine .inr ⟨hplace, ?_, hlast.symm⟩
    rcases hothers _ (he.frame_ne h hdlt hdc hplace) with hsame | ⟨hin, -⟩
    · rw [hsame]; exact hspp
    · exact absurd hplace (hin.not_onStack hdlt)
  · obtain ⟨hne, hidle⟩ := not_or.mp hk
    have hreal : tidIsReal d := by
      refine (real_or_null hdlt).resolve_right ?_
      rintro rfl
      exact hne h.sched.ok.null.task
    have hthread := h.threads.thread d hreal
    have hready := hthread.ready hne
    have hcontext := hthread.context hne (Bool.not_eq_true _ ▸ hidle)
    have htasks : e.kernel.tasks (σ.kernel.sched.threads d).userTask =
        σ.kernel.tasks (σ.kernel.sched.threads d).userTask := by
      refine he.tasks _ fun hr heq => hdc ?_
      subst hr
      exact h.threads.unique d c hreal hl.1 hne heq
    obtain ⟨hin, hspp⟩ := h.threads.contexts _ hready
    rw [userTaskIsReady_congr (k := σ.kernel) htasks, htasks, hcontext]
    refine .inl ⟨hready, rfl, ?_, hin⟩
    by_cases hf : (σ.kernel.tasks (σ.kernel.sched.threads d).userTask).trapContext = frame
    · rw [hf, hm]
      rcases he.place with ⟨hon, -⟩ | ⟨hu, -⟩
      · exact absurd (hf ▸ hon) (hin.not_onStack hlt)
      · exact hu.spp
    · rcases hothers _ hf with hsame | ⟨-, hclear⟩
      · rw [hsame]; exact hspp
      · exact hclear

/-! ### What the other threads have saved -/

theorem returned_others {next : U64} {k k' : Kernel} (hr : Returned next k k')
    (hnext : ∀ d, k.sched.currentThread = some d → next = (k.sched.threads d).trapFrame) (t : Nat) :
    (k'.sched.threads t).anchor = (k.sched.threads t).anchor := by
  cases hr with
  | supervisor => rfl
  | @user d hcur _ _ _ sie =>
    show ((k.sched.setThread d fun th => { th with trapFrame := next }).threads t).anchor = _
    by_cases ht : t = d
    · subst ht; rw [Sched.setThread_self, hnext t hcur]
    · rw [Sched.setThread_of_ne _ _ _ ht]

theorem returned_frames {next : U64} {k k' : Kernel} (hr : Returned next k k') :
    k'.sched.frames = k.sched.frames := by
  cases hr <;> rfl

theorem driver_sched {k k' : Kernel} (h : DriverChange k k') : k'.sched = k.sched := by rw [h.eq]

/-- What ties thread `t` to what it has saved. -/
structure Kept (σ σ' : System) (t : Nat) : Prop where
  anchor : (σ'.kernel.sched.threads t).anchor = (σ.kernel.sched.threads t).anchor
  status : ∀ a, OnStack σ.kernel.machine.image t a →
    (σ'.kernel.sched.frames a).mstatus = (σ.kernel.sched.frames a).mstatus
  call : σ'.calls t = σ.calls t

theorem Stepped.kept (hs : Stepped σ op σ') (h : SysOk σ) (ht : t < threadMax)
    (hlive : (σ.kernel.sched.threads t).state.live = true) (hcur : σ.kernel.sched.currentThread ≠ some t) :
    Kept σ σ' t := by
  have hne : ∀ c, σ.kernel.sched.currentThread = some c → t ≠ c := fun c hc he => hcur (he ▸ hc)
  have hid : ∀ {k' : Kernel} {calls : Nat → Call} {queues mutexes : List U64} {holds : Nat → U64 → Bool},
      k'.sched.threads = σ.kernel.sched.threads → k'.sched.frames = σ.kernel.sched.frames → calls t = σ.calls t →
        Kept σ ⟨k', calls, queues, mutexes, holds⟩ t := fun hth hfr hc =>
    ⟨congrArg (fun f => (f t).anchor) hth, fun a _ => congrArg (fun f => (f a).mstatus) hfr, hc⟩
  have htrap : ∀ {k₁ k' : Kernel} {c : Nat} {frame mstatus : U64} {l : Leave} {calls : Nat → Call},
      TrapStep σ.queueSet c frame mstatus l k₁ k' → σ.kernel.sched.currentThread = some c →
      k₁.sched.threads = σ.kernel.sched.threads →
      (∀ a, OnStack σ.kernel.machine.image t a → (k₁.sched.frames a).mstatus = (σ.kernel.sched.frames a).mstatus) →
      (OnStack σ.kernel.machine.image c frame ∨ InPages σ.kernel.machine.image frame) → calls t = σ.calls t →
      Kept σ { σ with kernel := k', calls := calls } t := by
    intro k₁ k' c frame mstatus l calls hstep hc hth hfr hplace hcalls
    refine ⟨(hstep.anchor_of_ne (hne c hc)).trans (congrArg (fun f => (f t).anchor) hth), fun a ha => ?_, hcalls⟩
    have hoff : a ≠ frame := by
      rintro rfl
      rcases hplace with hon | hin
      · exact hne c hc (ha.unique hon)
      · exact hin.not_onStack ht ha
    rw [← hfr a ha]
    exact (hstep.status a).trans (if_neg hoff)
  have hcall : ∀ {c : Nat} {call : Call}, σ.kernel.sched.currentThread = some c →
      Function.update σ.calls c call t = σ.calls t := fun hc => Function.update_of_ne (hne _ hc) _ _
  cases hs with
  | driver hk => exact hid (congrArg Sched.threads (driver_sched hk)) (congrArg Sched.frames (driver_sched hk)) rfl
  | submitted hc _ hk =>
    exact hid (congrArg Sched.threads (driver_sched hk)) (congrArg Sched.frames (driver_sched hk)) (hcall hc)
  | woken hk _ _ _ hw => exact ⟨hw.anchor t, fun a _ => hw.mstatus a, rfl⟩
  | @installed tid _ _ k' _ hi _ _ _ hown =>
    have htid : t ≠ tid := by
      rintro rfl
      rcases hi.free with hf | hf <;> rw [hf] at hlive <;> cases hlive
    refine ⟨hi.anchor_of_ne htid, fun a ha => ?_, rfl⟩
    show (k'.sched.frames a).mstatus = _
    rw [hi.frames a fun hm => htid (ha.unique (hown a hm))]
  | @started s₁ k' hst hd hs' hr =>
    have hhalt : Halted σ.kernel.sched := by
      rcases h.sched.phase with ⟨-, -, hh⟩ | ⟨ht, -⟩
      · exact hh
      · rw [hst] at ht; cases ht
    have hanchor := hd.anchor h.sched.ok hhalt
    refine ⟨(returned_others hr (fun d hdcur => ?_) t).trans (hanchor t), fun a _ => ?_, rfl⟩
    · obtain rfl : σ.kernel.sched.next = d := Option.some.inj ((congrArg (·.2.1) hd.statics).symm.trans hdcur)
      exact (congrArg (·.1) (hanchor _)).symm
    · show (k'.sched.frames a).mstatus = _
      rw [returned_frames hr]
      exact congrArg (fun f => (f a).mstatus) hd.frames
  | @taskInit task k' hi =>
    have hth : k'.sched.threads = σ.kernel.sched.threads := by rw [hi.eq]
    refine ⟨congrArg (fun f => (f t).anchor) hth, fun a ha => ?_, rfl⟩
    rcases hi.frames a with he | ⟨hman, -⟩
    · exact congrArg TrapFrame.mstatus he
    · have hpage : InPages σ.kernel.machine.image a := h.above.trans hman.start_le
      exact absurd ha (hpage.not_onStack ht)
  | queueInit _ _ hth hfr => exact hid hth hfr rfl
  | mutexInit _ _ _ _ hth hfr => exact hid hth hfr rfl
  | @timer c frame regs s₁ s₂ s₃ l next timer k' hop hc hidle hframe hw hs₁ ht' hl hleft hcharge hticks hr =>
    have hstat := hw.statics
    simp only [Sched.statics, Prod.mk.injEq] at hstat
    have hstep : TrapStep σ.queueSet c frame regs.mstatus l σ.kernel k' := by
      refine ⟨s₂, next, s₃, timer, fun u => (ht'.anchor u).trans (hw.anchor u), fun a => ?_,
        ht'.current.trans (hstat.2.1.trans hc), hleft, hr⟩
      rw [ht'.frames, hw.mstatus, setFrame_mstatus]
    have hplace := hframe.imp (fun hf => hf.frame) fun hf => hf.place h hc
    exact (htrap hstep hc rfl (fun _ _ => rfl) hplace rfl : Kept σ { σ with kernel := k', calls := σ.calls } t)
  | @bootTimer frame regs timer k' hop hc hframe hticks hr =>
    refine ⟨returned_others hr (fun d hd => ?_) t, fun a ha => ?_, rfl⟩
    · have hd : σ.kernel.sched.currentThread = some d := hd
      rw [hc] at hd
      cases hd
    · show (k'.sched.frames a).mstatus = _
      rw [returned_frames hr]
      show ((σ.kernel.sched.setFrame frame fun _ => regs).frames a).mstatus = _
      rw [Sched.setFrame_of_ne]
      rintro rfl
      exact hframe.2.2 t ht ha
  | @trapped c frame f l call k₁ k' hc hk hsie hwhy ht' hstay =>
    have hth : k₁.sched.threads = σ.kernel.sched.threads := by rw [hk.eq]
    have hc₁ : k₁.sched.currentThread = some c := by rw [hk.eq]; exact hc
    refine htrap (ht'.trapStep hc₁) hc hth (fun a ha => ?_) ?_ (hcall hc)
    · rcases Entered.inPages h hc hk a with he | ⟨hin, -⟩
      · exact he
      · exact absurd ha (hin.not_onStack ht)
    · cases hwhy with
      | kernel _ hf => exact .inl hf.frame
      | user _ hf => exact .inr (hf.place h hc)
      | memset _ hf => exact .inr (hf.place h hc)
      | waits _ _ _ hf => exact .inl hf
  | @exited c frame regs s' next m ut k' hc hidle hframe hsw hm hut hr =>
    have hreal := h.real_of_userTask hc hframe.task
    have hleft : Left σ.queueSet c frame (σ.kernel.sched.setFrame frame fun _ => regs) .retire next s' := ⟨hreal, hsw⟩
    let k₁ : Kernel := { σ.kernel with
      machine := m, tasks := Function.update σ.kernel.tasks (σ.kernel.sched.threads c).userTask ut }
    have hstep : TrapStep σ.queueSet c frame regs.mstatus .retire k₁ k' :=
      ⟨σ.kernel.sched.setFrame frame fun _ => regs, next, s', σ.kernel.timer, fun _ => rfl, setFrame_mstatus _ _ _,
        hc, hleft, hr⟩
    exact (htrap hstep hc rfl (fun _ _ => rfl) (.inr (hframe.place h hc)) rfl :
      Kept σ { σ with kernel := k', calls := σ.calls } t)
  | @locked c call entry r k' hc hcall' hentry ho =>
    have hsched : k'.sched = σ.kernel.sched := by cases ho <;> rfl
    have : Kept σ ((σ.setKernel k').setCall c .idle) t :=
      hid (congrArg Sched.threads hsched) (congrArg Sched.frames hsched) (hcall hc)
    rw [lockReturned]
    split
    · exact this
    · exact ⟨this.anchor, this.status, this.call⟩
  | unlocked _ _ _ _ _ hnext =>
    rcases hnext with ⟨-, -, rfl⟩ | ⟨-, hw⟩
    · exact hid rfl rfl rfl
    · exact ⟨hw.anchor t, fun a _ => hw.mstatus a, rfl⟩

/-! ### Steps without a trap -/

/-- No thread starts or stops running, and none is saved elsewhere. -/
structure Untrapped (σ σ' : System) : Prop where
  anchor : ∀ t, (σ'.kernel.sched.threads t).anchor = (σ.kernel.sched.threads t).anchor
  current : ∀ c, σ.kernel.sched.currentThread = some c → σ'.kernel.sched.currentThread = some c

theorem Untrapped.same (hth : σ'.kernel.sched.threads = σ.kernel.sched.threads)
    (hcur : σ'.kernel.sched.currentThread = σ.kernel.sched.currentThread) : Untrapped σ σ' :=
  ⟨fun t => congrArg (fun f => (f t).anchor) hth, fun _ hc => hcur.trans hc⟩

theorem Untrapped.sched (hs : σ'.kernel.sched = σ.kernel.sched) : Untrapped σ σ' :=
  .same (congrArg Sched.threads hs) (congrArg Sched.currentThread hs)

theorem Untrapped.woken {P : Nat → Int → Sched → Prop} (hw : WokenSeq Q P σ.kernel.sched σ'.kernel.sched) :
    Untrapped σ σ' :=
  ⟨hw.anchor, fun _ hc => (congrArg (·.2.1) hw.statics).trans hc⟩

theorem Untrapped.wokenOne {tid : Nat} {result : Int} (hw : Woken Q tid result σ.kernel.sched σ'.kernel.sched) :
    Untrapped σ σ' :=
  ⟨hw.anchor, fun _ hc => (congrArg (·.2.1) hw.statics).trans hc⟩

theorem lock_untrapped {lock : LockCall} {entry : LockEntry} {site : TrapSite} {p : Progress LockCall Int}
    (h : SysOk σ)
    (hcur : σ.kernel.sched.currentThread = some c) (hc : tidIsReal c) (hcall : σ.CallOk c (.lock lock))
    (hon : OnStack σ.kernel.machine.image c site.frame) (ho : LockOutcome σ.kernel lock entry p)
    (hx : p.trapExit site = .ok none) (hrun : σ.lockProgress c lock.mutex site p = .ok σ') : Untrapped σ σ' := by
  cases p with
  | ret r k =>
    obtain rfl := Except.ok.inj hrun
    have hsched : k.sched = σ.kernel.sched := by cases ho <;> rfl
    split
    · exact .sched hsched
    · exact .sched hsched
  | trap regs next k =>
    cases ho with
    | waits =>
      obtain ⟨e, mstatus, l, heq, -⟩ := exitOk_of_control h hcur (DriverChange.irqSave _).entered hon
        (controlOk_waitTrap hc (h.mutexQueue _ hcall.2.1).2) (.lock lock)
      cases heq.symm.trans hx

theorem submit_untrapped {sub : Submission} {site : TrapSite} {p : Progress Submission Int} (h : SysOk σ)
    (hreal : σ.kernel.sched.threadsStarted = true → σ.kernel.sched.currentThread = some c ∧ tidIsReal c ∧
      OnStack σ.kernel.machine.image c site.frame ∧ p.trapExit site = .ok none)
    (hbound : p.returned = true ∨ sub.ticks ≠ 0 ∧ σ.kernel.accelBound = true) (hp : SubmitProgress σ.kernel sub p)
    (hrun : σ.submitProgress c site p = .ok σ') : Untrapped σ σ' := by
  cases p with
  | ret r k =>
    obtain rfl := Except.ok.inj hrun
    exact .sched (driver_sched hp.1)
  | trap regs next k =>
    obtain ⟨hk, -, -, hst, rfl⟩ := hp
    obtain ⟨hcur, hc, hon, hx⟩ := hreal hst
    have hb := (hbound.resolve_left Bool.false_ne_true).2
    obtain ⟨e, mstatus, l, heq, -⟩ := exitOk_of_control h hcur hk.entered hon
      (controlOk_waitTrap hc (h.accelQueue hb)) (.submit next)
    cases heq.symm.trans hx

theorem resume_untrapped {site : TrapSite} (h : SysOk σ) (hen : Enabled (.resume site) σ)
    (hx : ∀ c, σ.kernel.sched.currentThread = some c → trapExit (.resume site) σ = .ok none)
    (hrun : exec (.resume site) σ = .ok σ') : Untrapped σ σ' := by
  obtain ⟨c, hcur, hbusy, hon⟩ := hen
  have hx := hx c hcur
  have hc : tidIsReal c := h.threads.real c (decide_eq_true hbusy)
  have hsie : σ.kernel.machine.sie = false := h.threads.masked c hcur (decide_eq_true hbusy)
  have hok := h.call c
  have hrun : σ.resume σ.current site = .ok σ' := hrun
  rw [current_eq hcur] at hrun
  simp only [trapExit, current_eq hcur] at hx
  cases hcall : σ.calls c with
  | idle => exact absurd hcall hbusy
  | lock lock =>
    rw [hcall] at hok hx
    rw [resume, hcall] at hrun
    obtain ⟨p, hp, hx⟩ := bind_eq_ok.mp hx
    obtain ⟨p', hp', hrun⟩ := bind_eq_ok.mp hrun
    cases hp.symm.trans hp'
    exact lock_untrapped h hcur hc hok hon (lockResume_outcome hsie hp) hx hrun
  | submit sub =>
    rw [hcall] at hok hx
    rw [resume, hcall] at hrun
    obtain ⟨p, hp, hx⟩ := bind_eq_ok.mp hx
    obtain ⟨p', hp', hrun⟩ := bind_eq_ok.mp hrun
    cases hp.symm.trans hp'
    exact submit_untrapped h (fun _ => ⟨hcur, hc, hon, hx⟩) (.inr ⟨hok.2.1, hok.1⟩)
      (submissionResume_progress hsie hp)
      hrun
  | userMemset u sub =>
    rw [hcall] at hok hx
    obtain ⟨p, hp, hx⟩ := bind_eq_ok.mp hx
    obtain ⟨p₁, hp₁, hx⟩ := bind_eq_ok.mp hx
    have hu := userMemset_frame h hc hok
    obtain ⟨e, a, mstatus, l, call, heq, -⟩ := memsetExit_ok h hcur (.refl c _) hu (.inr hok.1) hon
      (userAccelAfterSubmit_progress (submissionResume_progress hsie hp) hp₁) (.inr rfl)
    cases heq.symm.trans hx

theorem started_anchor {k₁ k' : Kernel} {r : TrapReturn} (h : SysOk σ) (hst : σ.kernel.sched.threadsStarted = false)
    (h₁ : QemuRtos.threadStart σ.kernel = .ok (frame, k₁)) (hret : trapReturnFromHandler frame k₁ = .ok (r, k'))
    (t : Nat) : (k'.sched.threads t).anchor = (σ.kernel.sched.threads t).anchor := by
  have hhalt : Halted σ.kernel.sched := by
    rcases h.sched.phase with ⟨-, -, hh⟩ | ⟨hst', -⟩
    · exact hh
    · rw [hst] at hst'; cases hst'
  obtain ⟨s₁, heq, hd, -⟩ := threadStart_spec h.sched hst
  cases h₁.symm.trans heq
  have hanchor := hd.anchor h.sched.ok hhalt
  refine (returned_others (trapReturnFromHandler_ok hret) (fun d hdcur => ?_) t).trans (hanchor t)
  obtain rfl : σ.kernel.sched.next = d := Option.some.inj ((congrArg (·.2.1) hd.statics).symm.trans hdcur)
  exact (congrArg (·.1) (hanchor _)).symm

theorem exec_untrapped (h : SysOk σ) (hen : Enabled op σ)
    (hcreate : ∀ name entry arg, op ≠ .threadCreate name entry arg)
    (huser : ∀ name task, op ≠ .threadCreateUser name task)
    (hx : ∀ c, σ.kernel.sched.currentThread = some c → trapExit op σ = .ok none)
    (hrun : exec op σ = .ok σ') : Untrapped σ σ' := by
  cases op with
  | threadCreate name entry arg => exact absurd rfl (hcreate name entry arg)
  | threadCreateUser name task => exact absurd rfl (huser name task)
  | threadStart =>
    have hst : σ.kernel.sched.threadsStarted = false := hen
    obtain ⟨⟨frame, k₁⟩, h₁, hrun⟩ := bind_eq_ok.mp hrun
    obtain ⟨⟨r, k₂⟩, hret, hrun⟩ := bind_eq_ok.mp hrun
    cases hrun
    refine ⟨started_anchor h hst h₁ hret, fun c hc => ?_⟩
    rw [(h.sched.started hc).1] at hst
    cases hst
  | userTaskInit task program =>
    obtain ⟨⟨r, k₁⟩, h₁, hrun⟩ := bind_eq_ok.mp hrun
    cases hrun
    rcases userTaskInit_ok h.pages h₁ with rfl | hi
    · exact .sched rfl
    · have hth : k₁.sched.threads = σ.kernel.sched.threads := by rw [hi.eq]
      have hc : k₁.sched.currentThread = σ.kernel.sched.currentThread := by rw [hi.eq]
      exact .same hth hc
  | waitQueueInit queue name =>
    obtain ⟨k₁, h₁, hrun⟩ := bind_eq_ok.mp hrun
    cases hrun
    by_cases hz : queue = 0
    · simp only [QemuRtos.waitQueueInit, hz, ↓reduceIte] at h₁
      cases h₁
    · obtain ⟨s', heq, -, hth, -, -, -, hst, -⟩ := waitQueueInit_spec h.sched hen.2 hz name
      cases h₁.symm.trans heq
      exact .same hth (congrArg (·.2.1) hst)
  | wakeOne queue =>
    obtain ⟨⟨tid, k₁⟩, h₁, hrun⟩ := bind_eq_ok.mp hrun
    cases hrun
    obtain ⟨tid', s', heq, -, hcase⟩ := waitQueueWakeOne_spec h.sched hen.2
    cases h₁.symm.trans heq
    rcases hcase with ⟨-, -, rfl⟩ | ⟨-, hw⟩
    · exact .sched rfl
    · exact .wokenOne hw
  | wakeAll queue =>
    obtain ⟨k₁, h₁, hrun⟩ := bind_eq_ok.mp hrun
    cases hrun
    obtain ⟨s', heq, -, hw, -⟩ := waitQueueWakeAll_spec h.sched hen.2
    cases h₁.symm.trans heq
    exact .woken hw
  | control t site =>
    obtain ⟨d, hd, -, htask, hallow, hon⟩ := hen
    have hlt := (h.sched.started hd).2.lt
    obtain ⟨e, mstatus, l, heq, -⟩ := exitOk_of_control h hd (.refl d _) hon (hallow.controlOk hlt htask) .idle
    cases heq.symm.trans (hx d hd)
  | ecall regs site =>
    obtain ⟨c, hcur, -⟩ := id hen
    obtain ⟨e, he, -⟩ := trapExit_ecall h hen (hx c hcur)
    cases he
  | timer mtime site =>
    cases hcur : σ.kernel.sched.currentThread with
    | some c =>
      obtain ⟨e, he, -⟩ := trapExit_timer h hcur hen (hx c hcur)
      cases he
    | none =>
      obtain ⟨k₁, h₁, hrun⟩ := bind_eq_ok.mp hrun
      cases hrun
      have hnull : σ.current = threadNullTid := by rw [current, hcur]; rfl
      rw [hnull, h.sched.ok.null.task] at h₁
      obtain ⟨timer, -, hr⟩ := takeTrap_timer_unstarted h.sched hcur rfl h₁
      refine ⟨fun t => (returned_others hr (fun d hd => ?_) t).trans rfl, fun c hc => ?_⟩
      · have hd : σ.kernel.sched.currentThread = some d := hd
        rw [hcur] at hd
        cases hd
      · rw [hcur] at hc
        cases hc
  | resume site => exact resume_untrapped h hen hx hrun
  | mutexInit mutex name =>
    obtain ⟨k₁, h₁, hrun⟩ := bind_eq_ok.mp hrun
    cases hrun
    obtain ⟨-, s', rfl, -, hth, -, hst, -⟩ := mutexInit_ok h.sched hen.2.2 h₁
    exact .same hth (congrArg (·.2.1) hst)
  | mutexLock mutex site =>
    obtain ⟨c, hc, hm, -, hon⟩ := hen
    obtain ⟨p, hp, hrun⟩ := bind_eq_ok.mp hrun
    obtain ⟨p', hp', hx⟩ := bind_eq_ok.mp (hx c hc.current)
    cases hp.symm.trans hp'
    obtain ⟨-, -, ho⟩ := mutexLock_outcome hp
    rw [threadCurrentTid_eq h hc.current] at ho
    rw [current_eq hc.current] at hrun
    have hcall : σ.CallOk c (.lock (.lock mutex c σ.kernel.machine.sie)) := ⟨rfl, hm, hc.kernel⟩
    exact lock_untrapped h hc.current (hc.real_tid h) hcall hon ho hx hrun
  | mutexLockTimeout mutex ticks site =>
    obtain ⟨c, hc, hm, -, hon⟩ := hen
    obtain ⟨p, hp, hrun⟩ := bind_eq_ok.mp hrun
    obtain ⟨p', hp', hx⟩ := bind_eq_ok.mp (hx c hc.current)
    cases hp.symm.trans hp'
    obtain ⟨-, -, ho⟩ := mutexLockTimeout_outcome hp
    rw [threadCurrentTid_eq h hc.current] at ho
    rw [current_eq hc.current] at hrun
    have hcall : σ.CallOk c (.lock (.lockTimeout mutex c σ.kernel.machine.sie)) := ⟨rfl, hm, hc.kernel⟩
    exact lock_untrapped h hc.current (hc.real_tid h) hcall hon ho hx hrun
  | mutexTrylock mutex =>
    obtain ⟨⟨r, k₁⟩, h₁, hrun⟩ := bind_eq_ok.mp hrun
    cases hrun
    obtain ⟨-, -, hcase⟩ := mutexTrylock_ok h₁
    have hsched : k₁.sched = σ.kernel.sched := by
      rcases hcase with ⟨-, rfl, -⟩ | ⟨-, rfl, -⟩
      · rfl
      · rfl
    split
    · exact .sched hsched
    · exact .sched hsched
  | mutexUnlock mutex =>
    obtain ⟨d, hd, hm, -⟩ := hen
    obtain ⟨k₁, h₁, hrun⟩ := bind_eq_ok.mp hrun
    cases hrun
    obtain ⟨-, next, s', rfl, -, hnext⟩ := mutexUnlock_ok h.sched (h.mutexQueue _ hm).2 h₁
    rcases hnext with ⟨-, -, rfl⟩ | ⟨-, hw⟩
    · exact .sched rfl
    · exact .wokenOne hw
  | accelSubmit cmd ticks site =>
    obtain ⟨p, hp, hrun⟩ := bind_eq_ok.mp hrun
    obtain ⟨hprog, hbound⟩ := accelSubmitSyncTimeout_progress hp
    refine submit_untrapped h (fun hst => ?_) hbound hprog hrun
    rcases h.sched.phase with ⟨hf, -⟩ | ⟨-, c, hrunning⟩
    · rw [hst] at hf; cases hf
    · have hcur := hrunning.current
      obtain ⟨p', hp', hx⟩ := bind_eq_ok.mp (hx c hcur)
      cases hp.symm.trans hp'
      rw [current_eq hcur]
      exact ⟨hcur, (hen.1 c hcur).real_tid h, hen.2 c hcur, hx⟩
  | accelControl control =>
    obtain rfl := Except.ok.inj hrun
    exact .sched (driver_sched (accelWriteControlRaw_change control σ.kernel).1)
  | accelAck mask =>
    obtain rfl := Except.ok.inj hrun
    exact .sched (driver_sched (accelAckIrq_change mask σ.kernel).1)
  | accelStep =>
    obtain rfl := Except.ok.inj hrun
    exact .sched (driver_sched (.platformAccelStep _))
  | dispatchIrqs =>
    obtain ⟨k₁, h₁, hrun⟩ := bind_eq_ok.mp hrun
    cases hrun
    cases platformDispatchPendingIrqs_outcome h.sched h.accelQueue h₁ with
    | none hirq => exact .sched rfl
    | spurious hirq hbound hfree => exact .sched rfl
    | completed hirq hbound huse hcmd hs hw hnil => exact .woken hw
  | pageAlloc =>
    obtain ⟨⟨a, m⟩, h₁, hrun⟩ := bind_eq_ok.mp hrun
    cases hrun
    exact .sched rfl
  | pageFree page =>
    obtain ⟨m, h₁, hrun⟩ := bind_eq_ok.mp hrun
    cases hrun
    exact .sched rfl
  | write mem =>
    obtain rfl := Except.ok.inj hrun
    exact .sched rfl

/-- Where a thread that leaves in a trap is saved. -/
theorem ExitOk.saves (he : ExitOk σ e c frame mstatus l call) (hret : ReturnsFrom σ e c call σ')
    (hlive : (σ'.kernel.sched.threads c).state.live = true) (hcur : σ'.kernel.sched.currentThread ≠ some c)
    (hk : (σ'.kernel.sched.threads c).userTask = 0 ∨ σ'.busy c = true) :
    StackSaved σ' c (e.saved.getD (saved c)) := by
  obtain ⟨s₁, hanchor, hcur₁, hm, hothers, hl⟩ := he.left
  obtain ⟨r, k', hr, rfl⟩ := hret
  have hr := trapReturnFromHandler_ok hr
  have hframes : k'.sched.frames = s₁.frames := (returned_frames hr).trans hl.frames
  have hcurrent : k'.sched.currentThread = e.kernel.sched.currentThread := hr.current
  have himage : k'.machine.image = σ.kernel.machine.image := (returned_image hr).trans he.image
  have hst : l ≠ .stay := by
    rintro rfl
    exact hcur (hcurrent.trans (hl.1.current.trans hcur₁))
  obtain ⟨d, -, hd, -, hnext⟩ := Left.current_lt hl hst
  have ha : (k'.sched.threads c).anchor = l.anchor frame (s₁.threads c) :=
    (returned_others hr (fun d' hd' => Option.some.inj (hd.symm.trans hd') ▸ hnext) c).trans hl.anchor_self
  have hself : (k'.sched.threads c).trapFrame = frame ∧
      (k'.sched.threads c).userTask = (σ.kernel.sched.threads c).userTask := by
    have htask : (s₁.threads c).userTask = (σ.kernel.sched.threads c).userTask := congrArg (·.2.1) (hanchor c)
    cases l with
    | stay => exact absurd rfl hst
    | retire =>
      have hdead : (k'.sched.threads c).state.live = false := congrArg (·.2.2) ha
      have hlive : (k'.sched.threads c).state.live = true := hlive
      rw [hdead] at hlive
      cases hlive
    | requeue => exact ⟨congrArg (·.1) ha, (congrArg (·.2.1) ha).trans htask⟩
    | nullRequeue => exact ⟨congrArg (·.1) ha, (congrArg (·.2.1) ha).trans htask⟩
    | park b => exact ⟨congrArg (·.1) ha, (congrArg (·.2.1) ha).trans htask⟩
  obtain ⟨hframe, htask⟩ := hself
  have hplace : OnStack σ.kernel.machine.image c frame ∧ mstatus &&& sstatusSpp ≠ 0 := by
    refine he.place.resolve_right ?_
    rintro ⟨hu, rfl⟩
    rcases hk with hz | hbusy
    · exact hu.task (htask.symm.trans hz)
    · exact busy_eq_true.mp hbusy (Function.update_self _ _ _)
  have hsaved : e.saved = some frame := he.saved.resolve_right fun hs => hst hs.2.1
  refine ⟨?_, ?_, ?_⟩
  · show OnStack k'.machine.image c (k'.sched.threads c).trapFrame
    rw [himage, hframe]
    exact hplace.1
  · show (k'.sched.frames (k'.sched.threads c).trapFrame).mstatus &&& _ ≠ 0
    rw [hframe, hframes, hm]
    exact hplace.2
  · rw [hsaved]
    exact hframe.symm

theorem ExitOk.dead (he : ExitOk σ e c frame mstatus l call) (hret : ReturnsFrom σ e c call σ') (htc : t ≠ c)
    (hdead : (σ.kernel.sched.threads t).state.live = false) : (σ'.kernel.sched.threads t).state.live = false := by
  obtain ⟨s₁, hanchor, hcur₁, -, -, hl⟩ := he.left
  obtain ⟨r, k', hr, rfl⟩ := hret
  have ha : (e.kernel.sched.threads t).anchor = (σ.kernel.sched.threads t).anchor :=
    (hl.anchor_of_ne htc).trans (hanchor t)
  have hdead' : (e.kernel.sched.threads t).state.live = false := (congrArg (·.2.2) ha).trans hdead
  have hr := trapReturnFromHandler_ok hr
  show (k'.sched.threads t).state.live = false
  cases hr with
  | supervisor => exact hdead'
  | @user d hcur _ _ _ sie =>
    show ((e.kernel.sched.setThread d fun th => { th with trapFrame := e.frame }).threads t).state.live = false
    by_cases ht : t = d
    · subst ht; rw [Sched.setThread_self]; exact hdead'
    · rw [Sched.setThread_of_ne _ _ _ ht]; exact hdead'

/-! ### New threads -/

theorem installThread_saved {tid : Nat} {name : Option String} {entry arg : U64}
    (h : installThread tid name entry arg k = .ok k₁) :
    (∀ t ≠ tid, k₁.sched.threads t = k.sched.threads t) ∧
      (k₁.sched.threads tid).trapFrame = initialFrame tid k.machine.image ∧
      (k₁.sched.frames (initialFrame tid k.machine.image)).mstatus &&& sstatusSpp ≠ 0 := by
  rw [installThread] at h
  split at h
  · cases h
  have hclear : ∀ s : Sched, (s.usercopyProbeClear tid).threads = s.threads := fun s => by
    rw [Sched.usercopyProbeClear]
    split <;> rfl
  obtain rfl := Except.ok.inj h
  refine ⟨fun t ht => ?_, ?_, ?_⟩
  · rw [prepareInitialTrapFrame, Sched.setThread_of_ne _ _ _ ht, Sched.setFrame_threads, hclear,
      Sched.setThread_of_ne _ _ _ ht]
  · rw [prepareInitialTrapFrame, Sched.setThread_self]
    rfl
  · rw [prepareInitialTrapFrame, Sched.setThread_frames, ← initialFrame, Sched.setFrame_self]
    show (sstatusSpp ||| sstatusSpie) &&& sstatusSpp ≠ 0
    decide

theorem readyEnqueue_saved {tid : Nat} {s s' : Sched} (h : s.readyEnqueue tid = .ok s') : s'.frames = s.frames ∧
    ∀ t, (s'.threads t).trapFrame = (s.threads t).trapFrame ∧ (s'.threads t).state = (s.threads t).state := by
  rw [Sched.readyEnqueue] at h
  split at h
  · cases h
  split at h
  · cases h
  split at h
  · cases h
  obtain rfl := Except.ok.inj h
  refine ⟨rfl, fun t => ?_⟩
  by_cases ht : t = tid
  · subst ht
    rw [Sched.setThread_self]
    exact ⟨rfl, rfl⟩
  · rw [Sched.setThread_of_ne _ _ _ ht]
    exact ⟨rfl, rfl⟩

theorem threadCreate_saved {name : Option String} {entry arg : U64} {result : Int}
    (h : threadCreate name entry arg k = .ok (result, k')) (hdead : (k.sched.threads t).state.live = false)
    (hlive : (k'.sched.threads t).state.live = true) :
    (k'.sched.threads t).trapFrame = initialFrame t k.machine.image ∧
      (k'.sched.frames (initialFrame t k.machine.image)).mstatus &&& sstatusSpp ≠ 0 := by
  have hsame : ¬(k'.sched.threads t).state = (k.sched.threads t).state := fun he => by
    rw [he, hdead] at hlive
    cases hlive
  rw [threadCreate] at h
  split at h
  · cases h
    exact absurd rfl hsame
  dsimp only [Kernel.irqSave] at h
  split at h
  · cases h
    exact absurd rfl hsame
  · rename_i tid hfree
    obtain ⟨k₁, h₁, h⟩ := bind_eq_ok.mp h
    obtain ⟨s, hs, h⟩ := bind_eq_ok.mp h
    cases h
    obtain ⟨hothers, hframe, hspp⟩ := installThread_saved h₁
    obtain ⟨hframes, hthreads⟩ := readyEnqueue_saved hs
    have hself : t = tid := by
      by_contra hne
      exact hsame ((hthreads t).2.trans (congrArg Thread.state (hothers t hne)))
    subst hself
    refine ⟨(hthreads t).1.trans hframe, ?_⟩
    show (s.frames _).mstatus &&& _ ≠ 0
    rw [hframes]
    exact hspp

theorem boot_saved (hf : Fresh k) (hboot : boot k = .ok σ) :
    SavedOk σ σ.firstSaved := by
  have hb := boot_ok hf hboot
  intro t ht hlive _ _
  rcases real_or_null ht with hreal | rfl
  · rw [hb.threads t hreal] at hlive
    cases hlive
  · obtain ⟨m, -, hboot⟩ := bind_eq_ok.mp hboot
    obtain ⟨k₁, -, hboot⟩ := bind_eq_ok.mp hboot
    obtain ⟨k₂, h₂, hboot⟩ := bind_eq_ok.mp hboot
    cases hboot
    obtain ⟨k₃, h₃, h₂⟩ := bind_eq_ok.mp h₂
    cases h₂
    obtain ⟨-, hframe, hspp⟩ := installThread_saved h₃
    have himage : k₃.machine.image = k₁.machine.image := by
      rw [installThread] at h₃
      split at h₃
      · cases h₃
      · cases h₃; rfl
    have hframe : (k₃.sched.threads threadNullTid).trapFrame = initialFrame threadNullTid k₁.machine.image := hframe
    refine ⟨?_, ?_, rfl⟩
    · show OnStack k₃.machine.image threadNullTid (k₃.sched.threads threadNullTid).trapFrame
      rw [himage, hframe]
      exact initialFrame_onStack _ ht
    · show (k₃.sched.frames (k₃.sched.threads threadNullTid).trapFrame).mstatus &&& _ ≠ 0
      rw [hframe]
      exact hspp

theorem create_current (h : SysOk σ)
    (hop : (∃ name entry arg, op = .threadCreate name entry arg) ∨ ∃ name task, op = .threadCreateUser name task)
    (hrun : exec op σ = .ok σ') : σ'.kernel.sched.currentThread = σ.kernel.sched.currentThread := by
  rcases hop with ⟨name, entry, arg, rfl⟩ | ⟨name, task, rfl⟩
  · obtain ⟨⟨r, k₁⟩, h₁, hrun⟩ := bind_eq_ok.mp hrun
    cases hrun
    obtain ⟨r', k', heq, hcase⟩ := threadCreate_spec h.sched name entry arg
    cases h₁.symm.trans heq
    rcases hcase with ⟨-, rfl⟩ | ⟨tid, s', -, rfl, hi, -⟩
    · rfl
    · exact congrArg (·.1) hi.statics
  · obtain ⟨⟨r, k₁⟩, h₁, hrun⟩ := bind_eq_ok.mp hrun
    cases hrun
    obtain ⟨r', k', heq, hcase⟩ := threadCreateUser_spec h.sched name task
    obtain ⟨rfl, rfl⟩ := Prod.mk.inj (Except.ok.inj (h₁.symm.trans heq))
    rcases hcase with ⟨-, rfl⟩ | ⟨tid, s', -, -, hk, hi, -⟩
    · rfl
    · show k₁.sched.currentThread = _
      rw [hk]
      exact congrArg (·.1) hi.statics

theorem createUser_kept {name : Option String} {task : U64} (h : SysOk σ)
    (hrun : exec (.threadCreateUser name task) σ = .ok σ') (hdead : (σ.kernel.sched.threads t).state.live = false)
    (hlive : (σ'.kernel.sched.threads t).state.live = true) :
    (σ'.kernel.sched.threads t).userTask ≠ 0 ∧ σ'.busy t = false := by
  obtain ⟨⟨r, k₁⟩, h₁, hrun⟩ := bind_eq_ok.mp hrun
  cases hrun
  obtain ⟨r', k', heq, hcase⟩ := threadCreateUser_spec h.sched name task
  obtain ⟨rfl, rfl⟩ := Prod.mk.inj (Except.ok.inj (h₁.symm.trans heq))
  rcases hcase with ⟨-, rfl⟩ | ⟨tid, s', -, hready, hk, hi, -⟩
  · have hlive : (σ.kernel.sched.threads t).state.live = true := hlive
    rw [hdead] at hlive
    cases hlive
  · have hs : k₁.sched = s' := by rw [hk]
    have hlive : (k₁.sched.threads t).state.live = true := hlive
    have hself : t = tid := by
      by_contra hne
      rw [hs, hi.threads, Function.update_of_ne hne, hdead] at hlive
      cases hlive
    subst hself
    refine ⟨?_, ?_⟩
    · show (k₁.sched.threads t).userTask ≠ 0
      rw [hs, hi.self]
      exact (userTaskIsReady_iff.mp hready).1
    · show σ.busy t = false
      by_contra hbusy
      rw [(h.threads.thread t hi.real).live (Bool.not_eq_false _ ▸ hbusy)] at hdead
      cases hdead

/-! ### Runs -/

theorem StackSaved.kept {last : U64} (hs : StackSaved σ t last) (hk : Kept σ σ' t)
    (himage : σ'.kernel.machine.image = σ.kernel.machine.image) : StackSaved σ' t last := by
  have hframe : (σ'.kernel.sched.threads t).trapFrame = (σ.kernel.sched.threads t).trapFrame :=
    congrArg (·.1) hk.anchor
  refine ⟨?_, ?_, hs.last.trans hframe.symm⟩
  · rw [himage, hframe]; exact hs.place
  · rw [hframe, hk.status _ hs.place]; exact hs.spp

theorem SavedOk.step {saved' : Nat → U64} (hs : SavedOk σ saved) (h : SysOk σ) (hen : Enabled op σ)
    (hone : AttachOnce op σ) (hx : savingStep op (σ, saved) = .ok (σ', saved')) : SavedOk σ' saved' := by
  obtain ⟨x, he, hx⟩ := bind_eq_ok.mp hx
  obtain ⟨σ₁, hrun, hx⟩ := bind_eq_ok.mp hx
  cases hx
  have hstep := exec_stepped h hen hone hrun
  have himage := hstep.grows.image
  have htrap : σ.kernel.sched.threadsStarted = true ∧ (∃ e, x = some e) ∨
      ∀ c, σ.kernel.sched.currentThread = some c → trapExit op σ = .ok none := by
    cases hcurrent : σ.kernel.sched.currentThread with
    | none => exact .inr fun _ hc => by cases hc
    | some c =>
      cases x with
      | none => exact .inr fun _ _ => he
      | some e => exact .inl ⟨(h.sched.started hcurrent).1, e, rfl⟩
  -- a trap starts no thread, and neither does a step without one that creates none
  have hborn : ∀ t, (σ.kernel.sched.threads t).state.live = false → (σ'.kernel.sched.threads t).state.live = true →
      (∃ name entry arg, op = .threadCreate name entry arg) ∨ ∃ name task, op = .threadCreateUser name task := by
    intro t hdead hlive
    by_contra hno
    obtain ⟨hcreate, huser⟩ := not_or.mp hno
    have hstays : (σ'.kernel.sched.threads t).state.live = false := by
      rcases htrap with ⟨hst, e, rfl⟩ | hx
      · obtain ⟨c, frame, mstatus, l, call, hexit, hret⟩ := trapExit_takesTrap h hst hen he
        refine hexit.dead (hret σ' hrun) ?_ hdead
        rintro rfl
        rw [(h.running hexit.current).state] at hdead
        cases hdead
      · have hu := exec_untrapped h hen (fun name entry arg ho => hcreate ⟨name, entry, arg, ho⟩)
          (fun name task ho => huser ⟨name, task, ho⟩) hx hrun
        exact (congrArg (·.2.2) (hu.anchor t)).trans hdead
    rw [hstays] at hlive
    cases hlive
  intro t ht hlive hcur hk
  by_cases hdead : (σ.kernel.sched.threads t).state.live = false
  · have hlast : σ.savedAfter x σ' saved t = (σ'.kernel.sched.threads t).trapFrame := if_pos ⟨hdead, hlive⟩
    rcases hborn t hdead hlive with ⟨name, entry, arg, rfl⟩ | ⟨name, task, rfl⟩
    · obtain ⟨⟨r, k₁⟩, h₁, hrun⟩ := bind_eq_ok.mp hrun
      cases hrun
      obtain ⟨hframe, hspp⟩ := threadCreate_saved h₁ hdead hlive
      have hframe : ((σ.setKernel k₁).kernel.sched.threads t).trapFrame = initialFrame t σ.kernel.machine.image :=
        hframe
      refine ⟨?_, ?_, hlast⟩
      · rw [himage, hframe]
        exact initialFrame_onStack _ ht
      · rw [hframe]
        exact hspp
    · obtain ⟨htask, hidle⟩ := createUser_kept h hrun hdead hlive
      rcases hk with hz | hbusy
      · exact absurd hz htask
      · rw [hidle] at hbusy; cases hbusy
  · have hlive₀ : (σ.kernel.sched.threads t).state.live = true := Bool.not_eq_false _ ▸ hdead
    rw [show σ.savedAfter x σ' saved t = σ.lastSaved x saved t from if_neg fun hn => hdead hn.1, lastSaved]
    by_cases hwas : σ.kernel.sched.currentThread = some t
    · rw [if_pos hwas]
      by_cases hcreate : (∃ name entry arg, op = .threadCreate name entry arg) ∨
          ∃ name task, op = .threadCreateUser name task
      · exact absurd ((create_current h hcreate hrun).trans hwas) hcur
      · obtain ⟨hcreate, huser⟩ := not_or.mp hcreate
        rcases htrap with ⟨hst, e, rfl⟩ | hx
        · obtain ⟨c, frame, mstatus, l, call, hexit, hret⟩ := trapExit_takesTrap h hst hen he
          obtain rfl : c = t := Option.some.inj (hexit.current.symm.trans hwas)
          exact hexit.saves (hret σ' hrun) hlive hcur hk
        · have hu := exec_untrapped h hen (fun name entry arg ho => hcreate ⟨name, entry, arg, ho⟩)
            (fun name task ho => huser ⟨name, task, ho⟩) hx hrun
          exact absurd (hu.current t hwas) hcur
    · rw [if_neg hwas]
      have hkept := hstep.kept h ht hlive₀ hwas
      have htask : (σ'.kernel.sched.threads t).userTask = (σ.kernel.sched.threads t).userTask :=
        congrArg (·.2.1) hkept.anchor
      refine (hs t ht hlive₀ hwas ?_).kept hkept himage
      rw [htask] at hk
      refine hk.imp_right fun hb => ?_
      rw [busy, ← hkept.call]
      exact hb

/-- Runs of the system, with where each thread has been saved last. -/
abbrev SavingRuns (σ₀ : System) (l : List Op) (σ : System) (saved : Nat → U64) : Prop :=
  Run savingStep (fun op x => Enabled op x.1 ∧ AttachOnce op x.1) (σ₀, σ₀.firstSaved) l (σ, saved)

def SavingOk (x : System × (Nat → U64)) : Prop := SysOk x.1 ∧ SavedOk x.1 x.2

theorem SavingOk.step {x y : System × (Nat → U64)} (hx : SavingOk x) (hen : Enabled op x.1) (hone : AttachOnce op x.1)
    (hs : savingStep op x = .ok y) : SavingOk y := by
  obtain ⟨e, he, hy⟩ := bind_eq_ok.mp hs
  obtain ⟨σ', hrun, hy⟩ := bind_eq_ok.mp hy
  cases hy
  exact ⟨(exec_stepped hx.1 hen hone hrun).sysOk hx.1, hx.2.step hx.1 hen hone hs⟩

theorem SavingRuns.ok {σ₀ : System} {l : List Op} (h : SavingRuns σ₀ l σ saved) (hf : Fresh k)
    (hboot : boot k = .ok σ₀) : SavingOk (σ, saved) :=
  Run.invariant (fun _ _ _ hi hp hs => hi.step hp.1 hp.2 hs) h ⟨(boot_ok hf hboot).ok, boot_saved hf hboot⟩

/-! ### The return -/

theorem trapReturn_user (hcur : k.sched.currentThread = some c)
    (hready : userTaskIsReady (k.sched.threads c).userTask k)
    (hframe : frame = (k.tasks (k.sched.threads c).userTask).trapContext)
    (hspp : (k.sched.frames frame).mstatus &&& sstatusSpp = 0) :
    ∃ k', trapReturnFromHandler frame k =
      .ok (.user frame (k.tasks (k.sched.threads c).userTask).userSatp, k') := by
  obtain ⟨htask, -, -, hsatp, hctx⟩ := userTaskIsReady_iff.mp hready
  have hz : frame ≠ 0 := by rw [hframe]; exact hctx
  have hset : threadSetCurrentTrapFrameFromTrap frame k =
      { k with sched := k.sched.setThread c fun th => { th with trapFrame := frame } } := by
    simp only [threadSetCurrentTrapFrameFromTrap, hcur, hz, ↓reduceIte]
  have hready' : userTaskIsReady (k.sched.threads c).userTask (threadSetCurrentTrapFrameFromTrap frame k) = true := by
    rw [userTaskIsReady_congr (k := k) (by rw [hset])]
    exact hready
  have htasks : (threadSetCurrentTrapFrameFromTrap frame k).tasks = k.tasks := by rw [hset]
  have hframes : (threadSetCurrentTrapFrameFromTrap frame k).sched.frames = k.sched.frames := by
    rw [hset]
    rfl
  have hf : userTaskTrapFrame (k.sched.threads c).userTask (threadSetCurrentTrapFrameFromTrap frame k) = frame := by
    rw [userTaskTrapFrame, if_pos hready', htasks, hframe]
  have hs : userTaskSatp (k.sched.threads c).userTask (threadSetCurrentTrapFrameFromTrap frame k) =
      (k.tasks (k.sched.threads c).userTask).userSatp := by
    rw [userTaskSatp, if_pos hready', htasks]
  rw [trapReturnFromHandler, threadCurrentUserTaskForFrame_eq hcur hready hframe hspp]
  simp only [htask, trapReturnToUser, hf, hs, hz, hsatp, hframes, hspp, ne_eq, not_true_eq_false, not_false_eq_true,
    or_self, ↓reduceIte]
  exact ⟨_, rfl⟩

theorem trapReturn_supervisor (hspp : (k.sched.frames frame).mstatus &&& sstatusSpp ≠ 0) :
    trapReturnFromHandler frame k = .ok (.supervisor frame, sretFrom frame k) := by
  have htask : threadCurrentUserTaskForFrame frame k = 0 := by
    rw [threadCurrentUserTaskForFrame]
    cases k.sched.currentThread with
    | none => rfl
    | some c => exact if_pos (.inr (.inr hspp))
  rw [trapReturnFromHandler, htask]
  rfl

theorem ExitOk.task (he : ExitOk σ e c frame mstatus l call) (t : Nat) :
    (e.kernel.sched.threads t).userTask = (σ.kernel.sched.threads t).userTask ∨
      (e.kernel.sched.threads t).userTask = 0 := by
  obtain ⟨s₁, hanchor, -, -, -, hl⟩ := he.left
  by_cases ht : t = c
  · subst ht
    have ha := hl.anchor_self
    have htask : (s₁.threads t).userTask = (σ.kernel.sched.threads t).userTask := congrArg (·.2.1) (hanchor t)
    cases l with
    | stay => exact .inl ((congrArg (·.2.1) ha).trans htask)
    | requeue => exact .inl ((congrArg (·.2.1) ha).trans htask)
    | nullRequeue => exact .inl ((congrArg (·.2.1) ha).trans htask)
    | park b => exact .inl ((congrArg (·.2.1) ha).trans htask)
    | retire => exact .inr (congrArg (·.2.1) ha)
  · exact .inl (congrArg (·.2.1) ((hl.anchor_of_ne ht).trans (hanchor t)))

theorem ExitOk.task_unique (he : ExitOk σ e c frame mstatus l call) (h : SysOk σ) {d : Nat} (hd : d < threadMax)
    (hne : (e.kernel.sched.threads d).userTask ≠ 0) (ht : tidIsReal t) (htd : t ≠ d) :
    (e.kernel.sched.threads t).userTask ≠ (e.kernel.sched.threads d).userTask := by
  intro heq
  have htask := (he.task d).resolve_right hne
  have htask' := (he.task t).resolve_right (heq ▸ hne)
  have hreal : tidIsReal d := by
    refine (real_or_null hd).resolve_right ?_
    rintro rfl
    exact hne (htask.trans h.sched.ok.null.task)
  refine htd (h.threads.unique t d ht hreal ?_ ?_)
  · rw [← htask', heq]; exact hne
  · rw [← htask', ← htask, heq]

/-! ### Every run has such a history -/

theorem takeTrapExit_of_takeTrap {mtime : Nat} {regs : TrapFrame} (h : takeTrap mtime frame regs k = .ok k') :
    ∃ x, takeTrapExit mtime frame regs k = .ok x := by
  obtain ⟨⟨action, k₁⟩, h₁, -⟩ := bind_eq_ok.mp h
  rw [takeTrapExit, h₁, ok_bind]
  cases action with
  | resume next => exact ⟨_, rfl⟩
  | accelMemset frame => exact ⟨_, rfl⟩

theorem progress_trapExit {κ α : Type} {site : TrapSite} {p : Progress κ α}
    (h : ∀ regs next k, p = .trap regs next k → ∃ k', controlTrap regs site k = .ok k') :
    ∃ x, p.trapExit site = .ok x := by
  cases p with
  | ret r k => exact ⟨_, rfl⟩
  | trap regs next k =>
    obtain ⟨k', hk'⟩ := h regs next k rfl
    exact takeTrapExit_of_takeTrap hk'

theorem lockProgress_trapExit {mutex : U64} {site : TrapSite} {p : Progress LockCall Int}
    (h : σ.lockProgress c mutex site p = .ok σ') : ∃ x, p.trapExit site = .ok x := by
  refine progress_trapExit ?_
  rintro regs next k rfl
  obtain ⟨k', hk', -⟩ := bind_eq_ok.mp h
  exact ⟨k', hk'⟩

theorem submitProgress_trapExit {site : TrapSite} {p : Progress Submission Int}
    (h : σ.submitProgress c site p = .ok σ') : ∃ x, p.trapExit site = .ok x := by
  refine progress_trapExit ?_
  rintro regs next k rfl
  obtain ⟨k', hk', -⟩ := bind_eq_ok.mp h
  exact ⟨k', hk'⟩

theorem memsetProgress_trapExit {saved : Option U64} {site : TrapSite} {p : Progress (UserMemset × Submission) Int}
    (h : σ.memsetProgress c frame site p = .ok σ') : ∃ x, memsetExit saved frame site p = .ok x := by
  cases p with
  | ret r k => exact ⟨_, rfl⟩
  | trap regs next k =>
    obtain ⟨k', hk', -⟩ := bind_eq_ok.mp h
    exact takeTrapExit_of_takeTrap hk'

theorem trapExit_of_exec (h : exec op σ = .ok σ') : ∃ x, trapExit op σ = .ok x := by
  cases op with
  | control t site =>
    obtain ⟨k', hk', -⟩ := bind_eq_ok.mp h
    exact takeTrapExit_of_takeTrap hk'
  | ecall regs site =>
    obtain ⟨⟨action, k₁⟩, h₁, h⟩ := bind_eq_ok.mp h
    simp only [trapExit, h₁, ok_bind]
    cases action with
    | resume next => exact ⟨_, rfl⟩
    | accelMemset frame =>
      obtain ⟨p, hp, h⟩ := bind_eq_ok.mp h
      simp only [hp, ok_bind]
      exact memsetProgress_trapExit h
  | timer mtime site =>
    obtain ⟨k', hk', -⟩ := bind_eq_ok.mp h
    exact takeTrapExit_of_takeTrap hk'
  | resume site =>
    have h : σ.resume σ.current site = .ok σ' := h
    rw [resume] at h
    rw [trapExit]
    cases hcall : σ.calls σ.current with
    | idle => exact ⟨_, rfl⟩
    | lock lock =>
      rw [hcall] at h
      obtain ⟨p, hp, h⟩ := bind_eq_ok.mp h
      simp only [hp, ok_bind]
      exact lockProgress_trapExit h
    | submit sub =>
      rw [hcall] at h
      obtain ⟨p, hp, h⟩ := bind_eq_ok.mp h
      simp only [hp, ok_bind]
      exact submitProgress_trapExit h
    | userMemset u sub =>
      rw [hcall] at h
      obtain ⟨p, hp, h⟩ := bind_eq_ok.mp h
      obtain ⟨p₁, hp₁, h⟩ := bind_eq_ok.mp h
      simp only [hp, hp₁, ok_bind]
      exact memsetProgress_trapExit h
  | mutexLock mutex site =>
    obtain ⟨p, hp, h⟩ := bind_eq_ok.mp h
    simp only [trapExit, hp, ok_bind]
    exact lockProgress_trapExit h
  | mutexLockTimeout mutex ticks site =>
    obtain ⟨p, hp, h⟩ := bind_eq_ok.mp h
    simp only [trapExit, hp, ok_bind]
    exact lockProgress_trapExit h
  | accelSubmit cmd ticks site =>
    obtain ⟨p, hp, h⟩ := bind_eq_ok.mp h
    simp only [trapExit, hp, ok_bind]
    exact submitProgress_trapExit h
  | _ => exact ⟨_, rfl⟩

/-- The history only watches: every run of the system has one. -/
theorem Runs.saving {σ₀ : System} {l : List Op} (h : Runs σ₀ l σ) : ∃ saved, SavingRuns σ₀ l σ saved := by
  suffices ∀ saved, ∃ saved',
      Run savingStep (fun op x => Enabled op x.1 ∧ AttachOnce op x.1) (σ₀, saved) l (σ, saved') from
    this _
  induction h with
  | nil s => exact fun saved => ⟨saved, .nil _⟩
  | @cons s t u op l hp hs _ ih =>
    intro saved
    obtain ⟨x, hx⟩ := trapExit_of_exec hs
    have hstep : savingStep op (s, saved) = .ok (t, s.savedAfter x t saved) := by
      simp only [savingStep, hx, hs, ok_bind]
    obtain ⟨saved', hrun⟩ := ih (s.savedAfter x t saved)
    exact ⟨saved', .cons hp hstep hrun⟩

/-! ### The frame of every trap -/

/-- After `thread_start`, every trap ends in a return to a frame of the current thread: with `SPP` clear, to the
trap context of its ready task, which no other thread has, under that task's `satp`; with `SPP` set, to where the
thread was saved last, on its own kernel stack. -/
theorem trapReturn_selects {σ₀ : System} {l : List Op} (hf : Fresh k) (hboot : boot k = .ok σ₀)
    (hrun : SavingRuns σ₀ l σ saved) (hst : σ.kernel.sched.threadsStarted = true) (hen : Enabled op σ)
    (hx : trapExit op σ = .ok (some e)) :
    ∃ c r k', c < threadMax ∧ e.kernel.sched.currentThread = some c ∧
      trapReturnFromHandler e.frame e.kernel = .ok (r, k') ∧ (∀ σ', exec op σ = .ok σ' → σ'.kernel = k') ∧
      (∀ t < threadMax, t ≠ c → ¬OnStack σ.kernel.machine.image t e.frame) ∧
      ((e.kernel.sched.frames e.frame).mstatus &&& sstatusSpp = 0 →
        userTaskIsReady (e.kernel.sched.threads c).userTask e.kernel = true ∧
        e.frame = (e.kernel.tasks (e.kernel.sched.threads c).userTask).trapContext ∧
        r = .user e.frame (e.kernel.tasks (e.kernel.sched.threads c).userTask).userSatp ∧
        ∀ t, tidIsReal t → t ≠ c → (e.kernel.sched.threads t).userTask ≠ (e.kernel.sched.threads c).userTask) ∧
      ((e.kernel.sched.frames e.frame).mstatus &&& sstatusSpp ≠ 0 →
        OnStack σ.kernel.machine.image c e.frame ∧ e.frame = σ.lastSaved (some e) saved c ∧
        r = .supervisor e.frame) := by
  obtain ⟨hok, hs⟩ := hrun.ok hf hboot
  obtain ⟨c, frame, mstatus, l, call, he, hret⟩ := trapExit_takesTrap hok hst hen hx
  obtain ⟨d, hlt, hcur, hsel⟩ := he.selects hok hs
  have hexec : ∀ {r : TrapReturn} {k' : Kernel}, trapReturnFromHandler e.frame e.kernel = .ok (r, k') →
      ∀ σ', exec op σ = .ok σ' → σ'.kernel = k' := by
    intro r k' hr σ' hσ'
    obtain ⟨r', k'', hr', rfl⟩ := hret σ' hσ'
    cases hr.symm.trans hr'
    rfl
  rcases hsel with ⟨hready, hframe, hspp, hin⟩ | ⟨hplace, hspp, hlast⟩
  · obtain ⟨k', hr⟩ := trapReturn_user hcur hready hframe hspp
    have hne := (userTaskIsReady_iff.mp hready).1
    exact ⟨d, _, k', hlt, hcur, hr, hexec hr, fun t ht _ => hin.not_onStack ht,
      fun _ => ⟨hready, hframe, rfl, fun t ht htd => he.task_unique hok hlt hne ht htd⟩, fun hne => absurd hspp hne⟩
  · have hr := trapReturn_supervisor (k := e.kernel) hspp
    exact ⟨d, _, _, hlt, hcur, hr, hexec hr, fun t _ htd hon => htd (hon.unique hplace),
      fun hz => absurd hz hspp, fun _ => ⟨hplace, hlast, rfl⟩⟩

/-- A system call of the user thread. -/
def sampleEcall (syscallNr arg0 : U64) : Op := .ecall { a7 := syscallNr, a0 := arg0 } (sampleSite 1)

theorem sleep_run : ∃ x₀ x, (boot sampleKernel).map (fun σ => (σ, σ.firstSaved)) = .ok x₀ ∧
    Run savingStep (fun op x => Enabled op x.1 ∧ AttachOnce op x.1) x₀ sampleUserOps x ∧
    (decide (x.1.kernel.sched.threadsStarted = true ∧ x.1.kernel.sched.currentThread = some 1 ∧
        Enabled (sampleEcall userSyscallSleep 1) x.1) &&
      succeeds (fun e => e.any fun e => decide (e.kernel.sched.currentThread = some threadNullTid ∧
        (e.kernel.sched.frames e.frame).mstatus &&& sstatusSpp ≠ 0))
        (trapExit (sampleEcall userSyscallSleep 1) x.1)) = true :=
  run_of_startCheck (by decide +kernel)

/-- The only user thread sleeps: the null thread goes on where it was saved, on its own stack. -/
theorem trapReturn_selects_sample : ∃ σ₀ σ saved e k', boot sampleKernel = .ok σ₀ ∧
    SavingRuns σ₀ sampleUserOps σ saved ∧ trapExit (sampleEcall userSyscallSleep 1) σ = .ok (some e) ∧
    e.kernel.sched.currentThread = some threadNullTid ∧ e.frame = saved threadNullTid ∧
    OnStack σ.kernel.machine.image threadNullTid e.frame ∧
    trapReturnFromHandler e.frame e.kernel = .ok (.supervisor e.frame, k') := by
  obtain ⟨x₀, ⟨σ, saved⟩, hstart, hrun, hp⟩ := sleep_run
  obtain ⟨σ₀, hboot, rfl⟩ : ∃ σ₀, boot sampleKernel = .ok σ₀ ∧ (σ₀, σ₀.firstSaved) = x₀ := by
    cases hb : boot sampleKernel with
    | error p =>
      rw [hb] at hstart
      cases hstart
    | ok σ₀ =>
      rw [hb] at hstart
      exact ⟨σ₀, rfl, Except.ok.inj hstart⟩
  obtain ⟨hstate, hp⟩ := Bool.and_eq_true_iff.mp hp
  obtain ⟨hst, huser, hen⟩ := of_decide_eq_true hstate
  obtain ⟨x, hx, hp⟩ := of_succeeds hp
  cases x with
  | none => cases hp
  | some e =>
    obtain ⟨hnull, hspp⟩ := of_decide_eq_true hp
    obtain ⟨c, r, k', -, hcur, hr, -, -, -, hsupervisor⟩ :=
      trapReturn_selects sampleKernel_fresh hboot hrun hst hen hx
    obtain rfl : threadNullTid = c := Option.some.inj (hnull.symm.trans hcur)
    obtain ⟨hon, hlast, rfl⟩ := hsupervisor hspp
    have hkept : σ.lastSaved (some e) saved threadNullTid = saved threadNullTid := by
      rw [lastSaved, huser]
      rfl
    exact ⟨σ₀, σ, saved, e, k', hboot, hrun, hx, hnull, hlast.trans hkept, hon, hr⟩

end System

end QemuRtos
