import QemuRtos.SystemSpec

/-!
# Every step keeps the invariant

`Stepped.sysOk` goes through the kinds of steps. Each case shows the same three things: the scheduler is
in order, the threads are with their frames and tasks, and a call in progress can still rely on what it
relied on.
-/

namespace QemuRtos

open Lib

variable {Q : Set U64} {busy : Nat → Bool} {c : Nat} {k k' k₁ : Kernel} {s s' : Sched}

/-! ### Threads -/

theorem ThreadsOk.aside (h : ThreadsOk busy k) (hanchor : ∀ t, (k'.sched.threads t).anchor = (k.sched.threads t).anchor)
    (hstatus : ∀ t, tidIsReal t → busy t → (k'.sched.frames (k.sched.threads t).trapFrame).mstatus =
      (k.sched.frames (k.sched.threads t).trapFrame).mstatus)
    (hcontext : ∀ task, userTaskIsReady task k →
      (k'.sched.frames (k.tasks task).trapContext).mstatus &&& sstatusSpp = 0)
    (htasks : k'.tasks = k.tasks) (himage : k'.machine.image = k.machine.image)
    (hmasked : ∀ c, k'.sched.currentThread = some c → busy c → k'.machine.sie = false) : ThreadsOk busy k' where
  thread t ht := (h.thread t ht).aside (hanchor t) (hstatus t ht) (fun _ => by rw [htasks]) himage
  real := h.real
  unique t u ht hu hne heq := by
    have hta : (k'.sched.threads t).userTask = (k.sched.threads t).userTask := congrArg (·.2.1) (hanchor t)
    have hua : (k'.sched.threads u).userTask = (k.sched.threads u).userTask := congrArg (·.2.1) (hanchor u)
    rw [hta] at hne heq
    rw [hua] at heq
    exact h.unique t u ht hu hne heq
  contexts task hready := by
    rw [userTaskIsReady_congr (k := k) (by rw [htasks])] at hready
    rw [himage, htasks]
    exact ⟨(h.contexts task hready).1, hcontext task hready⟩
  masked := hmasked

theorem ThreadsOk.driver (h : ThreadsOk busy k) (hk : DriverChange k k')
    (hmasked : ∀ c, k.sched.currentThread = some c → busy c → k'.machine.sie = false) : ThreadsOk busy k' := by
  have hs : k'.sched = k.sched := by rw [hk.eq]
  refine h.aside (fun t => by rw [hs]) (fun _ _ _ => by rw [hs]) (fun task ht => ?_) (by rw [hk.eq])
    (by rw [hk.kept.eq]) fun c hc => hmasked c (by rwa [← hs])
  rw [hs]
  exact (h.contexts task ht).2

theorem ThreadsOk.entered (h : ThreadsOk busy k) (hk : Entered c k k₁)
    (hreal : (k.sched.threads c).userTask ≠ 0 → tidIsReal c)
    (hmasked : ∀ c, k.sched.currentThread = some c → busy c → k₁.machine.sie = false) : ThreadsOk busy k₁ := by
  have hth : k₁.sched.threads = k.sched.threads := by rw [hk.eq]
  have hspp : ∀ a, (k.sched.frames a).mstatus &&& sstatusSpp = 0 → (k₁.sched.frames a).mstatus &&& sstatusSpp = 0 :=
    fun a ha => by
      rcases hk.frames a with he | ⟨-, -, hs⟩
      · rw [he]; exact ha
      · exact hs
  refine h.aside (fun t => by rw [hth]) (fun t ht hb => ?_) (fun task ht => hspp _ (h.contexts task ht).2)
    (by rw [hk.eq]) (by rw [hk.kept.eq]) fun d hd => hmasked d (by rw [hk.eq] at hd; exact hd)
  rcases hk.frames (k.sched.threads t).trapFrame with he | ⟨hne, he, -⟩
  · rw [he]
  · -- the saved frame of a busy thread is on its stack, a trap context is in a page
    have hon := ((h.thread t ht).saved hb).1
    rw [he] at hon
    exact absurd hon ((h.contexts _ ((h.thread c (hreal hne)).ready hne)).1.not_onStack (tidIsReal_iff.mp ht).2)

theorem ThreadsOk.release (h : ThreadsOk busy k) (hcur : k.sched.currentThread = some c)
    (hc : busy c = false ∨ (k.sched.threads c).userTask = 0) : ThreadsOk (Function.update busy c false) k where
  thread t ht := by
    by_cases htc : t = c
    · subst htc
      have hok := h.thread t ht
      rw [Function.update_self]
      refine ⟨nofun, nofun, hok.place, hok.dead, hok.ready, fun hne hb => ?_⟩
      exact hok.context hne (hc.resolve_right hne)
    · rw [Function.update_of_ne htc]; exact h.thread t ht
  real t hb := by
    by_cases htc : t = c
    · subst htc; rw [Function.update_self] at hb; cases hb
    · rw [Function.update_of_ne htc] at hb; exact h.real t hb
  unique := h.unique
  contexts := h.contexts
  masked d hd hb := by
    obtain rfl : c = d := Option.some.inj (hcur.symm.trans hd)
    rw [Function.update_self] at hb
    cases hb

theorem threadOk_resumed {b : Bool} (h : ThreadOk k b c) (htask : (k.sched.threads c).userTask ≠ 0)
    (hanchor : (k'.sched.threads c).anchor =
      ((k.tasks (k.sched.threads c).userTask).trapContext, (k.sched.threads c).userTask, true))
    (htasks : k'.tasks = k.tasks) (himage : k'.machine.image = k.machine.image)
    (hin : InPages k.machine.image (k.tasks (k.sched.threads c).userTask).trapContext) : ThreadOk k' false c := by
  simp only [Thread.anchor, Prod.mk.injEq] at hanchor
  obtain ⟨hf, hut, hlive⟩ := hanchor
  refine ⟨fun hb => absurd hb Bool.false_ne_true, fun hb => absurd hb Bool.false_ne_true,
    fun _ => .inr (by rw [hf, himage]; exact hin), fun hd => ?_, fun _ => ?_, fun _ _ => ?_⟩
  · rw [hlive] at hd; cases hd
  · rw [hut, userTaskIsReady_congr (k := k) (by rw [htasks])]
    exact h.ready htask
  · rw [hf, hut, htasks]

namespace System

variable {σ σ' : System} {op : Op}

/-! ### The parts of the invariant -/

theorem busy_eq_false {t : Nat} : σ.busy t = false ↔ σ.calls t = .idle := by
  rw [busy, decide_eq_false_iff_not, not_not]

theorem busy_eq_true {t : Nat} : σ.busy t = true ↔ σ.calls t ≠ .idle := by
  rw [busy, decide_eq_true_eq]

theorem busy_setCall (k : Kernel) (c : Nat) (call : Call) :
    ((σ.setKernel k).setCall c call).busy = Function.update σ.busy c (decide (call ≠ .idle)) := by
  funext t
  by_cases ht : t = c
  · subst ht; rw [Function.update_self]; simp only [busy, setCall, Function.update_self]
  · rw [Function.update_of_ne ht]; simp only [busy, setCall, setKernel, Function.update_of_ne ht]

@[simp] theorem setCall_calls_self (σ : System) (c : Nat) (call : Call) : (σ.setCall c call).calls c = call :=
  Function.update_self ..

theorem setCall_calls_of_ne (σ : System) {c t : Nat} (call : Call) (h : t ≠ c) :
    (σ.setCall c call).calls t = σ.calls t := Function.update_of_ne h ..

theorem CallOk.aside {t : Nat} {call : Call} (h : σ.CallOk t call) (hm : ∀ m ∈ σ.mutexes, m ∈ σ'.mutexes)
    (hb : σ'.kernel.accelBound = σ.kernel.accelBound)
    (hut : (σ'.kernel.sched.threads t).userTask = (σ.kernel.sched.threads t).userTask)
    (htask : (σ.kernel.sched.threads t).userTask ≠ 0 →
      σ'.kernel.tasks (σ.kernel.sched.threads t).userTask = σ.kernel.tasks (σ.kernel.sched.threads t).userTask) :
    σ'.CallOk t call := by
  cases call with
  | idle => trivial
  | lock call => exact ⟨h.1, hm _ h.2.1, hut.trans h.2.2⟩
  | submit sub => exact ⟨hb.trans h.1, h.2.1, hut.trans h.2.2⟩
  | userMemset u sub =>
    obtain ⟨h1, h2, h3, h4, h5, h6⟩ := h
    refine ⟨hb.trans h1, h2, h3.trans hut.symm, h4, ?_, h6⟩
    rw [h5, h3, htask (h3 ▸ h4)]

/-- What keeps the parts of the invariant that are not about threads. -/
structure Background (σ σ' : System) : Prop where
  kept : ({ σ.kernel.machine with sie := σ'.kernel.machine.sie } : Machine).Kept σ'.kernel.machine
  seen : σ'.kernel.trapSelftestSeen = σ.kernel.trapSelftestSeen
  bound : σ'.kernel.accelBound = σ.kernel.accelBound
  queues : ∀ q ∈ σ.queues, q ∈ σ'.queues
  mutexes : ∀ m ∈ σ.mutexes, m ∈ σ'.mutexes
  new : ∀ m ∈ σ'.mutexes, m ∈ σ.mutexes ∨ m ≠ 0 ∧ mutexWaiters m ∈ σ'.queues

theorem SysOk.of_background (h : SysOk σ) (hb : Background σ σ') (hs : SchedInv σ'.queueSet σ'.kernel.sched)
    (ht : ThreadsOk σ'.busy σ'.kernel) (hc : ∀ t, σ'.CallOk t (σ'.calls t)) : SysOk σ' where
  sched := hs
  seen := hb.seen.trans h.seen
  pages := hb.kept.ok h.pages
  above := by
    have hr := hb.kept.range
    simp only [PageAllocator.range, Prod.mk.injEq] at hr
    have hi : σ'.kernel.machine.image = σ.kernel.machine.image := by rw [hb.kept.eq]
    rw [hi, hr.1]
    exact h.above
  accelQueue hbound := by
    have hi : σ'.kernel.machine.image = σ.kernel.machine.image := by rw [hb.kept.eq]
    rw [hi]
    exact hb.queues _ (h.accelQueue (hb.bound ▸ hbound))
  mutexQueue m hm := (hb.new m hm).elim (fun h' => (h.mutexQueue m h').imp_right (hb.queues _)) id
  threads := ht
  call := hc

theorem Background.kernel {k' : Kernel}
    (hk : ({ σ.kernel.machine with sie := k'.machine.sie } : Machine).Kept k'.machine)
    (hseen : k'.trapSelftestSeen = σ.kernel.trapSelftestSeen) (hbound : k'.accelBound = σ.kernel.accelBound) :
    Background σ (σ.setKernel k') where
  kept := hk
  seen := hseen
  bound := hbound
  queues _ := id
  mutexes _ := id
  new _ := .inl

theorem Background.setCall (h : Background σ σ') (c : Nat) (call : Call) : Background σ (σ'.setCall c call) where
  kept := h.kept
  seen := h.seen
  bound := h.bound
  queues := h.queues
  mutexes := h.mutexes
  new := h.new

theorem SysOk.calls_aside (h : SysOk σ) (hb : Background σ σ') (hcalls : σ'.calls = σ.calls)
    (hanchor : ∀ t, σ.calls t ≠ .idle → (σ'.kernel.sched.threads t).anchor = (σ.kernel.sched.threads t).anchor)
    (htasks : ∀ t, tidIsReal t → (σ.kernel.sched.threads t).userTask ≠ 0 → σ.calls t ≠ .idle →
      σ'.kernel.tasks (σ.kernel.sched.threads t).userTask = σ.kernel.tasks (σ.kernel.sched.threads t).userTask)
    (t : Nat) : σ'.CallOk t (σ'.calls t) := by
  rw [hcalls]
  by_cases ht : σ.calls t = .idle
  · rw [ht]; trivial
  · exact (h.call t).aside hb.mutexes hb.bound (congrArg (·.2.1) (hanchor t ht)) fun hne =>
      htasks t (h.threads.real t (busy_eq_true.mpr ht)) hne ht

/-! ### Steps without a switch -/

theorem SysOk.driver {k' : Kernel} (h : SysOk σ) (hk : DriverChange σ.kernel k')
    (hsie : k'.machine.sie = σ.kernel.machine.sie) : SysOk (σ.setKernel k') := by
  have hb : Background σ (σ.setKernel k') := .kernel hk.kept (by rw [hk.eq]) (by rw [hk.eq])
  have hs : k'.sched = σ.kernel.sched := by rw [hk.eq]
  refine h.of_background hb ?_ (h.threads.driver hk fun c hc hbusy => ?_)
    (h.calls_aside hb rfl (fun t _ => ?_) fun t _ _ _ => ?_)
  · show SchedInv σ.queueSet k'.sched
    rw [hs]; exact h.sched
  · show k'.machine.sie = false
    rw [hsie]; exact h.threads.masked c hc hbusy
  · show (k'.sched.threads t).anchor = _
    rw [hs]
  · show k'.tasks _ = _
    rw [hk.eq]

theorem SysOk.returns {k' : Kernel} (h : SysOk σ) (hcur : σ.kernel.sched.currentThread = some c)
    (hfree : σ.calls c = .idle ∨ (σ.kernel.sched.threads c).userTask = 0)
    (hk : k' = { σ.kernel with
      machine := k'.machine
      mutexes := k'.mutexes
      accelRequest := k'.accelRequest
      accelMmio := k'.accelMmio })
    (hm : ({ σ.kernel.machine with sie := k'.machine.sie } : Machine).Kept k'.machine) :
    SysOk ((σ.setKernel k').setCall c .idle) := by
  have hb : Background σ (σ.setKernel k') := .kernel hm (by rw [hk]) (by rw [hk])
  have hs : k'.sched = σ.kernel.sched := by rw [hk]
  refine h.of_background (hb.setCall c .idle) ?_ ?_ fun t => ?_
  · show SchedInv σ.queueSet k'.sched
    rw [hs]; exact h.sched
  · rw [busy_setCall]
    show ThreadsOk _ k'
    refine (h.threads.release hcur (hfree.imp_left busy_eq_false.mpr)).aside (fun t => by rw [hs])
      (fun _ _ _ => by rw [hs]) (fun task ht => by rw [hs]; exact (h.threads.contexts task ht).2)
      (by rw [hk]) (by rw [hm.eq]) fun d hd hbusy => ?_
    rw [hs] at hd
    obtain rfl : c = d := Option.some.inj (hcur.symm.trans hd)
    rw [Function.update_self] at hbusy
    cases hbusy
  · by_cases htc : t = c
    · subst htc; rw [setCall_calls_self]; trivial
    · rw [setCall_calls_of_ne _ _ htc]
      refine (h.call t).aside (fun _ => id) hb.bound ?_ fun _ => ?_
      · show (k'.sched.threads t).userTask = _
        rw [hs]
      · show k'.tasks _ = _
        rw [hk]

theorem SysOk.woken {P : Nat → Int → Sched → Prop} {k' : Kernel} {s' : Sched} (h : SysOk σ)
    (hk : DriverChange σ.kernel k') (hsie : k'.machine.sie = σ.kernel.machine.sie)
    (hw : WokenSeq σ.queueSet P σ.kernel.sched s') (hs : SchedInv σ.queueSet s') :
    SysOk (σ.setKernel { k' with sched := s' }) := by
  have hd := h.driver hk hsie
  have hk' : k'.sched = σ.kernel.sched := by rw [hk.eq]
  have hb : Background σ (σ.setKernel { k' with sched := s' }) :=
    .kernel hk.kept (by rw [hk.eq]) (by rw [hk.eq])
  refine h.of_background hb hs (hd.threads.woken (P := P) (Q := σ.queueSet) ?_)
    (h.calls_aside hb rfl (fun t _ => hw.anchor t) fun t _ _ _ => ?_)
  · show WokenSeq σ.queueSet P k'.sched s'
    rw [hk']; exact hw
  · show k'.tasks _ = _
    rw [hk.eq]

theorem SysOk.installed {tid : Nat} {th : Thread} {own : Set U64} {k' : Kernel} (h : SysOk σ)
    (hi : Installed σ.queueSet tid th own σ.kernel.sched k'.sched)
    (hk : k' = { σ.kernel with sched := k'.sched, contexts := k'.contexts })
    (hs : SchedInv σ.queueSet k'.sched) (hready : th.state = .ready)
    (hown : ∀ a ∈ own, OnStack σ.kernel.machine.image tid a)
    (hplace : OnStack σ.kernel.machine.image tid th.trapFrame ∧ th.userTask = 0 ∨
      userTaskIsReady th.userTask σ.kernel ∧ th.trapFrame = (σ.kernel.tasks th.userTask).trapContext ∧
        ∀ t, tidIsReal t → (σ.kernel.sched.threads t).userTask ≠ th.userTask) :
    SysOk (σ.setKernel k') := by
  have hm : k'.machine = σ.kernel.machine := by rw [hk]
  have hb : Background σ (σ.setKernel k') :=
    .kernel (by rw [hm]; exact .refl _) (by rw [hk]) (by rw [hk])
  have hthreads : ThreadsOk σ.busy k' := h.threads.installed hi rfl (by rw [hk]) hm hready hown hplace
  refine h.of_background hb hs hthreads (h.calls_aside hb rfl (fun t ht => hi.anchor_of_ne ?_) fun t _ _ _ => ?_)
  · rintro rfl
    have hlive := (h.threads.thread t hi.real).live (busy_eq_true.mpr ht)
    rcases hi.free with he | he <;> rw [he] at hlive <;> cases hlive
  · show k'.tasks _ = _
    rw [hk]

theorem SysOk.newQueue {queue : U64} {s' : Sched} {k' : Kernel} {mutexes : List U64} (h : SysOk σ)
    (hk : k' = { σ.kernel with sched := s', mutexes := k'.mutexes })
    (hthreads : s'.threads = σ.kernel.sched.threads) (hframes : s'.frames = σ.kernel.sched.frames)
    (hstatics : s'.statics = σ.kernel.sched.statics) (hs : SchedInv (insert queue σ.queueSet) s')
    (hold : ∀ m ∈ σ.mutexes, m ∈ mutexes)
    (hnew : ∀ m ∈ mutexes, m ∈ σ.mutexes ∨ m ≠ 0 ∧ mutexWaiters m ∈ queue :: σ.queues) :
    SysOk { σ with kernel := k', queues := queue :: σ.queues, mutexes := mutexes } := by
  let σ' : System := { σ with kernel := k', queues := queue :: σ.queues, mutexes := mutexes }
  have hset : σ'.queueSet = insert queue σ.queueSet := Set.ext fun q => List.mem_cons
  have hm : k'.machine = σ.kernel.machine := by rw [hk]
  have hs' : k'.sched = s' := by rw [hk]
  have hb : Background σ σ' :=
    { kept := by show ({ σ.kernel.machine with sie := k'.machine.sie } : Machine).Kept k'.machine
                 rw [hm]; exact .refl _
      seen := by show k'.trapSelftestSeen = _; rw [hk]
      bound := by show k'.accelBound = _; rw [hk]
      queues := fun q hq => List.mem_cons_of_mem _ hq
      mutexes := hold
      new := hnew }
  refine h.of_background hb (by rw [hset]; show SchedInv _ k'.sched; rw [hs']; exact hs) ?_
    (h.calls_aside hb rfl (fun t _ => ?_) fun t _ _ _ => ?_)
  · show ThreadsOk σ.busy k'
    refine h.threads.aside (fun t => by rw [hs', hthreads])
      (fun _ _ _ => by rw [hs', hframes]) (fun task ht => ?_) (by rw [hk]) (by rw [hm]) fun d hd hb => ?_
    · rw [hs', hframes]; exact (h.threads.contexts task ht).2
    · rw [hm]
      refine h.threads.masked d ?_ hb
      rw [← hd, hs']
      exact (congrArg (·.2.1) hstatics).symm
  · show (k'.sched.threads t).anchor = _
    rw [hs', hthreads]
  · show k'.tasks _ = _
    rw [hk]

theorem SysOk.setHolds (h : SysOk σ) (t : Nat) (mutex : U64) (held : Bool) : SysOk (σ.setHolds t mutex held) :=
  ⟨h.sched, h.seen, h.pages, h.above, h.accelQueue, h.mutexQueue, h.threads, fun t => (h.call t).aside
    (fun _ => id) rfl rfl fun _ => rfl⟩

theorem SysOk.setMutex (h : SysOk σ) (mutex : U64) (f : Mutex → Mutex) :
    SysOk (σ.setKernel (σ.kernel.setMutex mutex f)) := by
  have hb : Background σ (σ.setKernel (σ.kernel.setMutex mutex f)) := .kernel (.refl _) rfl rfl
  exact h.of_background hb h.sched (h.threads.aside (fun _ => rfl) (fun _ _ _ => rfl)
    (fun task ht => (h.threads.contexts task ht).2) rfl rfl h.threads.masked)
    (h.calls_aside hb rfl (fun _ _ => rfl) fun _ _ _ _ => rfl)

theorem SysOk.locked {call : LockCall} {entry : LockEntry} {r : Int} {k' : Kernel} (h : SysOk σ)
    (hcur : σ.kernel.sched.currentThread = some c) (hcall : σ.CallOk c (.lock call))
    (ho : LockOutcome σ.kernel call entry (.ret r k')) : SysOk (σ.lockReturned c call.mutex r k') := by
  have hret : SysOk ((σ.setKernel k').setCall c .idle) := by
    refine h.returns hcur (.inr hcall.2.2) ?_ ?_
    · cases ho <;> rfl
    · cases ho <;> exact .refl _
  rw [lockReturned]
  split
  · exact hret
  · exact hret.setHolds c call.mutex true

theorem SysOk.unlocked {next : Nat} {mutex : U64} {s' : Sched} (h : SysOk σ) (hs : SchedInv σ.queueSet s')
    (hnext : next = mutexNoOwner ∧ σ.kernel.sched.waits (mutexWaiters mutex) = [] ∧ s' = σ.kernel.sched ∨
      (σ.kernel.sched.waits (mutexWaiters mutex)).head? = some next ∧
        Woken σ.queueSet next waitOk σ.kernel.sched s') :
    SysOk ((σ.setKernel ({ σ.kernel with sched := s' }.setMutex mutex
      fun m => { m with owner := next })).setHolds c mutex false) := by
  have hw : WokenSeq σ.queueSet (EventWake (mutexWaiters mutex)) σ.kernel.sched s' := by
    rcases hnext with ⟨-, -, rfl⟩ | ⟨hhead, hw⟩
    · exact .nil _
    · exact .cons h.sched.ok ⟨hhead, rfl⟩ hw (.nil _)
  exact ((h.woken (.refl _) rfl hw hs).setMutex mutex _).setHolds c mutex false

/-! ### Start, and interrupts before it -/

end System

/-- Resuming the saved frame of the current thread keeps `ThreadsOk`: a busy thread was saved with
interrupts masked. -/
theorem ThreadsOk.returned {next : U64} (h : ThreadsOk busy k) (hcur : k.sched.currentThread = some c)
    (hnext : next = (k.sched.threads c).trapFrame) (hr : Returned next k k') : ThreadsOk busy k' := by
  have hstatus : busy c = true → (k.sched.frames next).mstatus &&& sstatusSpp ≠ 0 ∧
      (k.sched.frames next).mstatus &&& sstatusSpie = 0 := fun hb => by
    rw [hnext]; exact ((h.thread c (h.real c hb)).saved hb).2
  cases hr with
  | supervisor =>
    refine h.aside (fun _ => rfl) (fun _ _ _ => rfl) (fun task ht => (h.contexts task ht).2) rfl rfl fun d hd hb => ?_
    obtain rfl : c = d := Option.some.inj (hcur.symm.trans hd)
    exact decide_eq_false (not_not.mpr (hstatus hb).2)
  | user hcur' htask hne hspp sie =>
    obtain rfl : c = _ := Option.some.inj (hcur.symm.trans hcur')
    refine h.aside (fun t => ?_) (fun _ _ _ => rfl) (fun task ht => (h.contexts task ht).2) rfl rfl fun d hd hb => ?_
    · show ((k.sched.setThread c fun th => { th with trapFrame := next }).threads t).anchor = _
      by_cases htc : t = c
      · subst htc; rw [Sched.setThread_self, hnext]
      · rw [Sched.setThread_of_ne _ _ _ htc]
    · obtain rfl : c = d := Option.some.inj (hcur.symm.trans hd)
      exact absurd hspp (hstatus hb).1

theorem Returned.rest {next : U64} (h : Returned next k k') :
    k' = { k with machine := { k.machine with sie := k'.machine.sie }, sched := k'.sched } := by
  cases h <;> rfl

theorem Returned.current {next : U64} (h : Returned next k k') : k'.sched.currentThread = k.sched.currentThread := by
  cases h <;> rfl

namespace System

variable {σ σ' : System} {op : Op}

theorem SysOk.started {s₁ : Sched} {k' : Kernel} (h : SysOk σ) (hst : σ.kernel.sched.threadsStarted = false)
    (hd : Dispatched σ.kernel.sched.next σ.kernel.sched s₁)
    (hs : SchedInv σ.queueSet { s₁ with
      threadsStarted := true, rescheduleRequested := σ.kernel.sched.rescheduleRequested })
    (hr : Returned (σ.kernel.sched.threads σ.kernel.sched.next).trapFrame { σ.kernel with
      machine := { σ.kernel.machine with sie := false }
      sched := { s₁ with
        threadsStarted := true, rescheduleRequested := σ.kernel.sched.rescheduleRequested } } k') :
    SysOk (σ.setKernel k') := by
  have hhalt : Halted σ.kernel.sched := by
    rcases h.sched.phase with ⟨-, -, hh⟩ | ⟨ht, -⟩
    · exact hh
    · rw [hst] at ht; cases ht
  have hanchor := hd.anchor h.sched.ok hhalt
  have hcur : s₁.currentThread = some σ.kernel.sched.next := congrArg (·.2.1) hd.statics
  let s₂ : Sched := { s₁ with
    threadsStarted := true, rescheduleRequested := σ.kernel.sched.rescheduleRequested }
  let k₂ : Kernel := { σ.kernel with machine := { σ.kernel.machine with sie := false }, sched := s₂ }
  have hthreads : ThreadsOk σ.busy k₂ := h.threads.aside hanchor (fun _ _ _ => by show (s₁.frames _).mstatus = _; rw [hd.frames])
    (fun task ht => by show (s₁.frames _).mstatus &&& _ = 0; rw [hd.frames]; exact (h.threads.contexts task ht).2)
    rfl rfl fun _ _ _ => rfl
  have hnext : (σ.kernel.sched.threads σ.kernel.sched.next).trapFrame = (s₁.threads σ.kernel.sched.next).trapFrame :=
    (congrArg (·.1) (hanchor σ.kernel.sched.next)).symm
  have hok := hthreads.returned (k := k₂) hcur hnext hr
  have hrest := hr.rest
  have hb : Background σ (σ.setKernel k') := .kernel (by rw [hrest]; exact .refl _) (by rw [hrest]) (by rw [hrest])
  refine h.of_background hb (hr.schedInv hs) hok (h.calls_aside hb rfl (fun t _ => ?_) fun t _ _ _ => ?_)
  · have hr' : (k'.sched.threads t).anchor = (s₁.threads t).anchor := by
      cases hr with
      | supervisor => rfl
      | user hcur' _ _ _ _ =>
        obtain rfl : σ.kernel.sched.next = _ := Option.some.inj (hcur.symm.trans hcur')
        show ((s₂.setThread _ fun th => { th with trapFrame := _ }).threads t).anchor = _
        by_cases ht : t = σ.kernel.sched.next
        · subst ht; rw [Sched.setThread_self, hnext]
        · rw [Sched.setThread_of_ne _ _ _ ht]
    exact hr'.trans (hanchor t)
  · show k'.tasks _ = _
    rw [hrest]

theorem SysOk.bootTimer {frame : U64} {regs : TrapFrame} {timer : Timer} {k' : Kernel} (h : SysOk σ)
    (hcur : σ.kernel.sched.currentThread = none) (hframe : OnBootStack σ.kernel.machine.image frame)
    (hr : Returned frame { σ.kernel with
      sched := σ.kernel.sched.setFrame frame fun _ => regs, timer := timer } k') : SysOk (σ.setKernel k') := by
  have hs := hr.schedInv (h.sched.setFrame fun _ => regs)
  have hrest := hr.rest
  have hb : Background σ (σ.setKernel k') := .kernel (by rw [hrest]; exact .refl _) (by rw [hrest]) (by rw [hrest])
  obtain rfl : k' = _ := by
    cases hr with
    | supervisor => rfl
    | user hcur' => exact nomatch hcur.symm.trans hcur'
  refine h.of_background hb hs (h.threads.aside (fun _ => rfl) (fun t ht hbusy => ?_) (fun task ht => ?_) rfl rfl
    fun c hc => ?_) (h.calls_aside hb rfl (fun _ _ => rfl) fun _ _ _ _ => rfl)
  · show ((σ.kernel.sched.setFrame frame fun _ => regs).frames _).mstatus = _
    rw [Sched.setFrame_of_ne]
    rintro he
    exact hframe.2.2 t (tidIsReal_iff.mp ht).2 (he ▸ ((h.threads.thread t ht).saved hbusy).1)
  · show ((σ.kernel.sched.setFrame frame fun _ => regs).frames _).mstatus &&& _ = 0
    rw [Sched.setFrame_of_ne]
    · exact (h.threads.contexts task ht).2
    · intro he
      have hin := (h.threads.contexts task ht).1
      rw [he] at hin
      exact absurd hframe.2.1 (Nat.not_lt.mpr hin)
  · exact nomatch hcur.symm.trans hc

/-! ### Traps -/

theorem SysOk.trapStep {frame mstatus : U64} {l : Leave} {call : Call} {k' : Kernel} (h : SysOk σ)
    (hcur : σ.kernel.sched.currentThread = some c) (hk : Entered c σ.kernel k₁)
    (hsie : σ.calls c ≠ .idle → k₁.machine.sie = false) (hstep : TrapStep σ.queueSet c frame mstatus l k₁ k')
    (hs : SchedInv σ.queueSet k'.sched)
    (hplace : KernelFrame σ.kernel c frame ∨ UserFrame σ.kernel c frame mstatus ∨ OnStack σ.kernel.machine.image c frame)
    (hreal : call ≠ .idle → tidIsReal c) (hstay : l = .stay → call = .idle)
    (hself : ThreadsOk σ.busy k₁ → tidIsReal c → ThreadOk k' (decide (call ≠ .idle)) c)
    (hcall : ((σ.setKernel k').setCall c call).CallOk c call) : SysOk ((σ.setKernel k').setCall c call) := by
  have hth₁ : k₁.sched.threads = σ.kernel.sched.threads := by rw [hk.eq]
  have htasks₁ : k₁.tasks = σ.kernel.tasks := by rw [hk.eq]
  have himage₁ : k₁.machine.image = σ.kernel.machine.image := by rw [hk.kept.eq]
  have h₁ : ThreadsOk σ.busy k₁ := h.threads.entered hk (h.real_of_userTask hcur) fun d hd hb => by
    obtain rfl : c = d := Option.some.inj (hcur.symm.trans hd)
    exact hsie (busy_eq_true.mp hb)
  have hlt := (h.sched.started hcur).2.lt
  have hrest := hstep.rest
  have hb : Background σ (σ.setKernel k') := by
    refine .kernel ?_ (by rw [hrest, hk.eq]) (by rw [hrest, hk.eq])
    rw [hrest]
    exact hk.kept.setSie _
  have hin : OnStack k₁.machine.image c frame ∨ InPages k₁.machine.image frame ∧ mstatus &&& sstatusSpp = 0 := by
    rw [himage₁]
    rcases hplace with hf | hf | hf
    · exact .inl hf.frame
    · have hc := h.real_of_userTask hcur hf.task
      rw [hf.frame]
      exact .inr ⟨(h.threads.contexts _ ((h.threads.thread c hc).ready hf.task)).1, hf.spp⟩
    · exact .inl hf
  refine h.of_background (hb.setCall c call) hs ?_ fun t => ?_
  · rw [busy_setCall]
    exact hstep.threadsOk h₁ hlt hin (fun hd => hreal (of_decide_eq_true hd))
      (fun hl => decide_eq_false (not_not.mpr (hstay hl))) (hself h₁)
  · by_cases htc : t = c
    · subst htc; rw [setCall_calls_self]; exact hcall
    · rw [setCall_calls_of_ne _ _ htc]
      refine (h.call t).aside (fun _ => id) hb.bound ?_ fun _ => ?_
      · show (k'.sched.threads t).userTask = _
        exact (congrArg (·.2.1) (hstep.anchor_of_ne htc)).trans (congrArg (fun f => (f t).userTask) hth₁)
      · show k'.tasks _ = _
        rw [hrest, htasks₁]

theorem SysOk.trapped {frame : U64} {f : TrapFrame} {l : Leave} {call : Call} {k' : Kernel} (h : SysOk σ)
    (hcur : σ.kernel.sched.currentThread = some c) (hk : Entered c σ.kernel k₁)
    (hsie : σ.calls c ≠ .idle → k₁.machine.sie = false) (hwhy : Traps σ op c frame f.mstatus l call)
    (ht : Trapped σ.queueSet c frame f l k₁ k')
    (hstay : l = .stay → (σ.kernel.sched.threads c).userTask ≠ 0 → (k'.sched.threads c).trapFrame = frame) :
    SysOk ((σ.setKernel k').setCall c call) := by
  have hcur₁ : k₁.sched.currentThread = some c := by rw [hk.eq]; exact hcur
  have hth₁ : k₁.sched.threads = σ.kernel.sched.threads := by rw [hk.eq]
  have htasks₁ : k₁.tasks = σ.kernel.tasks := by rw [hk.eq]
  have himage₁ : k₁.machine.image = σ.kernel.machine.image := by rw [hk.kept.eq]
  have hstep := ht.trapStep hcur₁
  obtain ⟨hst, hrun⟩ := h.sched.started hcur
  have hs : SchedInv σ.queueSet k'.sched := by
    refine ht.schedInv ?_ (by rw [hk.eq]; exact hst)
    rw [hk.eq]; exact h.sched.frames _
  cases hwhy with
  | kernel hidle hframe hpark =>
    refine h.trapStep hcur hk hsie hstep hs (.inl hframe) (fun hne => absurd rfl hne) (fun _ => rfl)
      (fun h₁ hc => ?_) trivial
    exact hstep.threadOk_kernel (h₁.thread c hc) (by rw [himage₁]; exact hframe.frame)
      (by rw [hth₁]; exact hframe.task)
  | user hidle hframe hne hpark =>
    refine h.trapStep hcur hk hsie hstep hs (.inr (.inl hframe)) (fun hne => absurd rfl hne) (fun _ => rfl)
      (fun h₁ hc => ?_) trivial
    have hok := h₁.thread c hc
    rw [busy_eq_false.mpr hidle] at hok
    refine hstep.threadOk_user hok hne (by rw [hth₁]; exact hframe.task)
      (by rw [hth₁, htasks₁]; exact hframe.frame) ?_
    rw [himage₁, hframe.frame]
    exact (h.threads.contexts _ ((h.threads.thread c hc).ready hframe.task)).1
  | memset hcall hframe =>
    refine h.trapStep hcur hk hsie hstep hs (.inr (.inl hframe)) (fun hne => absurd rfl hne) (fun _ => rfl)
      (fun h₁ hc => ?_) trivial
    have hanchor : (k'.sched.threads c).userTask = (k₁.sched.threads c).userTask ∧
        (k'.sched.threads c).state.live = (k₁.sched.threads c).state.live := by
      rcases hstep.anchor_self with ha | ⟨-, -, ha⟩
      · exact ⟨congrArg (·.2.1) ha, congrArg (·.2.2) ha⟩
      · exact ⟨congrArg (·.2.1) ha, congrArg (·.2.2) ha⟩
    have hlive : (k₁.sched.threads c).state.live = true := by rw [hth₁, hrun.state]; rfl
    refine threadOk_resumed (h₁.thread c hc) (by rw [hth₁]; exact hframe.task) ?_ (by rw [hstep.rest])
      (by rw [hstep.rest]) ?_
    · rw [Thread.anchor, hanchor.1, hanchor.2, hlive, hstay rfl hframe.task, hth₁, htasks₁, hframe.frame]
    · rw [hth₁, htasks₁, himage₁]
      exact (h.threads.contexts _ ((h.threads.thread c hc).ready hframe.task)).1
  | waits hcall hbusy hbefore hframe hspp hspie hlock =>
    have hreal : tidIsReal c := by
      obtain ⟨next, s', hl, -⟩ := ht
      exact hl.1
    have hanchor := hstep.anchor_self.resolve_right fun hr => Leave.noConfusion hr.1
    refine h.trapStep hcur hk hsie hstep hs (.inr (.inr hframe)) (fun _ => hreal) (fun hl => Leave.noConfusion hl)
      (fun h₁ hc => ?_) ?_
    · rw [decide_eq_true hbusy]
      exact hstep.threadOk_busy (h₁.thread c hc) rfl (by rw [himage₁]; exact hframe) hspp hspie
    · refine hcall.aside (fun _ => id) ?_ ?_ fun _ => ?_
      · show k'.accelBound = _
        rw [hstep.rest, hk.eq]
      · show (k'.sched.threads c).userTask = _
        exact (congrArg (·.2.1) hanchor).trans (congrArg (fun f => (f c).userTask) hth₁)
      · show k'.tasks _ = _
        rw [hstep.rest, htasks₁]

theorem SysOk.timer {frame : U64} {regs : TrapFrame} {s₁ s₂ s₃ : Sched} {l : Leave} {next : U64}
    {timer : Timer} {k' : Kernel} (h : SysOk σ)
    (hcur : σ.kernel.sched.currentThread = some c) (hidle : σ.calls c = .idle)
    (hframe : KernelFrame σ.kernel c frame ∨ UserFrame σ.kernel c frame regs.mstatus)
    (hw : WokenSeq σ.queueSet (TimerWake (σ.now + 1)) (σ.kernel.sched.setFrame frame fun _ => regs) s₁)
    (hs : SchedInv σ.queueSet s₁) (ht : Touched c s₁ s₂) (hl : l = .stay ∨ l = .requeue)
    (hleft : Left σ.queueSet c frame s₂ l next s₃)
    (hr : Returned next { σ.kernel with sched := s₃, timer := timer } k') : SysOk (σ.setKernel k') := by
  have hstat := hw.statics
  simp only [Sched.statics, Prod.mk.injEq] at hstat
  have hstep : TrapStep σ.queueSet c frame regs.mstatus l σ.kernel k' := by
    refine ⟨s₂, next, s₃, timer, fun t => (ht.anchor t).trans (hw.anchor t), fun a => ?_,
      ht.current.trans (hstat.2.1.trans hcur), hleft, hr⟩
    rw [ht.frames, hw.mstatus, setFrame_mstatus]
  obtain ⟨hst, -⟩ := h.sched.started hcur
  have hs' : SchedInv σ.queueSet k'.sched :=
    hr.schedInv (hleft.schedInv (ht.toAdjusted.schedInv hs) (ht.started.trans (hstat.2.2.2.1.trans hst)))
  have hfin : SysOk ((σ.setKernel k').setCall c .idle) := by
    refine h.trapStep hcur (.refl c _) (fun hne => absurd hidle hne) hstep hs' (hframe.imp_right .inl)
      (fun hne => absurd rfl hne) (fun _ => rfl) (fun h₁ hc => ?_) trivial
    have hok := h₁.thread c hc
    rcases hframe with hf | hf
    · exact hstep.threadOk_kernel hok hf.frame hf.task
    · rw [busy_eq_false.mpr hidle] at hok
      refine hstep.threadOk_user hok (by rcases hl with rfl | rfl <;> exact Leave.noConfusion) hf.task hf.frame ?_
      rw [hf.frame]
      exact (h.threads.contexts _ (hok.ready hf.task)).1
  have he : (σ.setKernel k').setCall c .idle = σ.setKernel k' := by
    rw [setCall, ← hidle]
    simp only [setKernel, Function.update_eq_self]
  exact he ▸ hfin

/-! ### The life of a user task -/

/-- A user thread's exit: its task is no one else's, so the tasks of the others stay. -/
theorem SysOk.exited {frame : U64} {regs : TrapFrame} {s' : Sched} {next : U64} {m : Machine} {t : UserTask}
    {k' : Kernel} (h : SysOk σ) (hcur : σ.kernel.sched.currentThread = some c) (hidle : σ.calls c = .idle)
    (hframe : UserFrame σ.kernel c frame regs.mstatus)
    (hsw : Switched σ.queueSet (Retired c) (σ.kernel.sched.setFrame frame fun _ => regs) s' next)
    (hm : ({ σ.kernel.machine with sie := m.sie } : Machine).Kept m) (ht : t.state = .destroyed)
    (hr : Returned next { σ.kernel with
      machine := m
      sched := s'
      tasks := Function.update σ.kernel.tasks (σ.kernel.sched.threads c).userTask t } k') :
    SysOk (σ.setKernel k') := by
  have hreal := h.real_of_userTask hcur hframe.task
  have hready := (h.threads.thread c hreal).ready hframe.task
  have himage : m.image = σ.kernel.machine.image := by rw [hm.eq]
  let task := (σ.kernel.sched.threads c).userTask
  let k₁ : Kernel := { σ.kernel with machine := m, tasks := Function.update σ.kernel.tasks task t }
  have hleft : Left σ.queueSet c frame (σ.kernel.sched.setFrame frame fun _ => regs) .retire next s' := ⟨hreal, hsw⟩
  have hstep : TrapStep σ.queueSet c frame regs.mstatus .retire k₁ k' :=
    ⟨σ.kernel.sched.setFrame frame fun _ => regs, next, s', σ.kernel.timer, fun _ => rfl, setFrame_mstatus _ _ _,
      hcur, hleft, hr⟩
  obtain ⟨hst, hrun⟩ := h.sched.started hcur
  have hs' : SchedInv σ.queueSet k'.sched :=
    hr.schedInv (hleft.schedInv (h.sched.setFrame _) hst)
  have hother : ∀ u, tidIsReal u → u ≠ c → (σ.kernel.sched.threads u).userTask ≠ 0 →
      k₁.tasks (σ.kernel.sched.threads u).userTask = σ.kernel.tasks (σ.kernel.sched.threads u).userTask :=
    fun u hu hne hz => Function.update_of_ne (fun he => hne (h.threads.unique u c hu hreal hz he)) ..
  have hrest := hstep.rest
  have hb : Background σ (σ.setKernel k') := by
    refine .kernel ?_ (by rw [hrest]) (by rw [hrest])
    rw [hrest]
    exact hm.setSie _
  have hnot : userTaskIsReady task k₁ = false := by
    refine not_ready_of_state ?_
    show (Function.update σ.kernel.tasks task t task).state ≠ .ready
    rw [Function.update_self, ht]; exact nofun
  have hretire := hstep.anchor_self.resolve_right fun hr => nomatch hr.1
  have hthreads : ThreadsOk (Function.update σ.busy c false) k' := by
    refine hstep.threadsOk_of_others (fun u hu hne => (h.threads.thread u hu).aside rfl (fun _ => rfl)
      (hother u hu hne) himage) h.threads.real h.threads.unique (fun u hu => ?_) hrun.lt (.inr ⟨?_, hframe.spp⟩)
      (fun hb => nomatch hb) (fun _ => rfl) fun _ => ?_
    · by_cases hut : u = task
      · subst hut; rw [hnot] at hu; cases hu
      · have htask : k₁.tasks u = σ.kernel.tasks u := Function.update_of_ne hut ..
        rw [userTaskIsReady_congr (k := σ.kernel) htask] at hu
        rw [htask]
        show InPages m.image _ ∧ _
        rw [himage]
        exact h.threads.contexts u hu
    · show InPages m.image frame
      rw [himage, hframe.frame]
      exact (h.threads.contexts _ hready).1
    · have hut : (k'.sched.threads c).userTask = 0 := congrArg (·.2.1) hretire
      exact ⟨nofun, nofun, fun hz => absurd (congrArg (·.1) hretire) hz, fun _ => hut, fun hz => absurd hut hz,
        fun hz => absurd hut hz⟩
  rw [← busy_eq_false.mpr hidle, Function.update_eq_self] at hthreads
  refine h.of_background hb hs' hthreads (h.calls_aside hb rfl (fun u hu => hstep.anchor_of_ne ?_)
    fun u hu hz hbusy => ?_)
  · rintro rfl; exact hu hidle
  · show k'.tasks _ = _
    rw [hrest]
    exact hother u hu (fun he => hbusy (he ▸ hidle)) hz

/-- Setting up a user task: it was not ready before, so no thread has it, and its trap context is a page. -/
theorem SysOk.taskInit {task : U64} {k' : Kernel} (h : SysOk σ) (hi : TaskInitialized task σ.kernel k') :
    SysOk (σ.setKernel k') := by
  have himage : k'.machine.image = σ.kernel.machine.image := by rw [hi.kept.eq]
  have hsie : k'.machine.sie = σ.kernel.machine.sie := by rw [hi.kept.eq]
  have hth : k'.sched.threads = σ.kernel.sched.threads := by rw [hi.eq]
  have hothers : ∀ u ≠ task, k'.tasks u = σ.kernel.tasks u := fun u hu => by
    rw [hi.eq]; exact Function.update_of_ne hu ..
  have hstack : ∀ t, tidIsReal t → ∀ a, OnStack σ.kernel.machine.image t a →
      k'.sched.frames a = σ.kernel.sched.frames a := fun t ht a hon => by
    refine (hi.frames a).resolve_right fun ⟨hman, _⟩ => ?_
    have hin : InPages σ.kernel.machine.image a := h.above.trans hman.start_le
    exact hin.not_onStack (tidIsReal_iff.mp ht).2 hon
  have hb : Background σ (σ.setKernel k') := by
    refine .kernel ?_ (by rw [hi.eq]) (by rw [hi.eq])
    rw [hsie]
    exact hi.kept
  have htask : ∀ u, userTaskIsReady u σ.kernel → k'.tasks u = σ.kernel.tasks u := fun u hu =>
    hothers u fun he => by rw [he, hi.before] at hu; cases hu
  refine h.of_background hb ?_ ⟨fun t ht => ?_, h.threads.real, fun t u => ?_, fun u hu => ?_, fun d hd hbusy => ?_⟩
    (h.calls_aside hb rfl (fun t _ => ?_) fun t ht hz _ => htask _ ((h.threads.thread t ht).ready hz))
  · show SchedInv σ.queueSet k'.sched
    rw [hi.eq]; exact h.sched.frames _
  · have hok := h.threads.thread t ht
    show ThreadOk k' (σ.busy t) t
    refine hok.aside (by rw [hth]) (fun hbusy => ?_) (fun hz => htask _ (hok.ready hz)) himage
    rw [hstack t ht _ (hok.saved hbusy).1]
  · show _ → _ → (k'.sched.threads t).userTask ≠ 0 →
      (k'.sched.threads t).userTask = (k'.sched.threads u).userTask → t = u
    rw [hth]; exact h.threads.unique t u
  · show InPages k'.machine.image (k'.tasks u).trapContext ∧ (k'.sched.frames (k'.tasks u).trapContext).mstatus &&&
      sstatusSpp = 0
    rw [himage]
    by_cases hut : u = task
    · subst hut
      obtain ⟨hman, hstatus⟩ := hi.context hu
      exact ⟨h.above.trans hman.start_le, by rw [hstatus]; rfl⟩
    · have hu' : userTaskIsReady u σ.kernel := by rw [← userTaskIsReady_congr (hothers u hut)]; exact hu
      obtain ⟨hin, hspp⟩ := h.threads.contexts u hu'
      rw [hothers u hut]
      refine ⟨hin, ?_⟩
      rcases hi.frames (σ.kernel.tasks u).trapContext with he | ⟨-, hs⟩
      · rw [he]; exact hspp
      · exact hs
  · show k'.machine.sie = false
    rw [hsie]
    refine h.threads.masked d ?_ hbusy
    have : k'.sched.currentThread = σ.kernel.sched.currentThread := by rw [hi.eq]
    exact this ▸ hd
  · show (k'.sched.threads t).anchor = _
    rw [hth]

/-- Every step keeps the invariant. -/
theorem Stepped.sysOk (hs : Stepped σ op σ') (h : SysOk σ) : SysOk σ' := by
  cases hs with
  | driver hk hsie => exact h.driver hk hsie
  | @submitted c k' hcur hcall hk =>
    refine h.returns hcur (hcall.imp_right ?_) (by rw [hk.eq]) hk.kept
    rintro ⟨sub, hsub⟩
    have := h.call c
    rw [hsub] at this
    exact this.2.2
  | woken hk hsie hq hop hw hs => exact h.woken hk hsie hw hs
  | installed _ hi hk hs hready hown hplace => exact h.installed hi hk hs hready hown hplace
  | started hst hd hs hr => exact h.started hst hd hs hr
  | taskInit hi => exact h.taskInit hi
  | queueInit hq hnil hthreads hframes hstatics hqueues hothers hs =>
    exact h.newQueue rfl hthreads hframes hstatics hs (fun _ => id) fun _ => .inl
  | mutexInit hne hm hq hnil hthreads hframes hstatics hqueues hothers hs =>
    refine h.newQueue rfl hthreads hframes hstatics hs (fun _ => List.mem_cons_of_mem _) fun m hmem => ?_
    rcases List.mem_cons.mp hmem with rfl | hmem
    · exact .inr ⟨hne, List.mem_cons_self⟩
    · exact .inl hmem
  | timer hop hcur hidle hframe hw hs ht hl hleft _ hticks hr => exact h.timer hcur hidle hframe hw hs ht hl hleft hr
  | bootTimer hop hcur hframe hticks hr => exact h.bootTimer hcur hframe hr
  | trapped hcur hk hsie hwhy ht hstay => exact h.trapped hcur hk hsie hwhy ht hstay
  | exited hcur hidle hframe hsw hm ht hr => exact h.exited hcur hidle hframe hsw hm ht hr
  | locked hcur hcall hentry ho => exact h.locked hcur hcall ho
  | unlocked hop hcur hm howner hs hnext => exact h.unlocked hs hnext

end System

end QemuRtos
