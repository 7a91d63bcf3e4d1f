import QemuRtos.Safety.Scheduler
import QemuRtos.SystemEvents

/-!
# Mutexes

The invariant of the mutexes, over every run in which only the lock calls use their queues: a thread that
holds a mutex owns it, a mutex with waiters has an owner, and a lock call that goes on after its wait finds the
mutex handed to it, or has timed out.
-/

namespace QemuRtos

open Lib

namespace System

variable {σ σ' : System} {op : Op} {c t : Nat} {mutex : U64} {call : LockCall}

def owner (σ : System) (mutex : U64) : Nat := (σ.kernel.mutexes mutex).owner

/-! ### The invariant -/

/-- Thread `t` waits for the mutex of its lock call. -/
structure Waiting (σ : System) (t : Nat) (call : LockCall) : Prop where
  blocked : (σ.kernel.sched.threads t).state = .blocked
  reason : (σ.kernel.sched.threads t).waitReason = if call.timed then .queueTimeout else .queue
  queue : (σ.kernel.sched.threads t).waitQueue = mutexWaiters call.mutex
  owner : σ.owner call.mutex ≠ t

/-- Thread `t` has been handed the mutex of its lock call. -/
structure Granted (σ : System) (t : Nat) (call : LockCall) : Prop where
  awake : (σ.kernel.sched.threads t).state ≠ .blocked
  result : σ.resumedA0 t = intReg waitOk
  owner : σ.owner call.mutex = t

/-- The wait of thread `t` in its lock call has timed out. -/
structure TimedOut (σ : System) (t : Nat) (call : LockCall) : Prop where
  awake : (σ.kernel.sched.threads t).state ≠ .blocked
  timed : call.timed = true
  result : σ.resumedA0 t = intReg waitTimeout
  owner : σ.owner call.mutex ≠ t

/-- Where a thread in a lock call is. -/
def LockPhase (σ : System) (t : Nat) (call : LockCall) : Prop :=
  σ.Waiting t call ∨ σ.Granted t call ∨ σ.TimedOut t call

structure MutexInv (σ : System) : Prop where
  phase : ∀ t call, σ.calls t = .lock call → σ.LockPhase t call
  held : ∀ t m, σ.holds t m = true →
    t ≠ mutexNoOwner ∧ m ∈ σ.mutexes ∧ σ.owner m = t ∧ ∀ call, σ.calls t = .lock call → call.mutex ≠ m
  owned : ∀ m ∈ σ.mutexes, ∀ t, σ.owner m = t → t ≠ mutexNoOwner →
    σ.holds t m = true ∨ ∃ call, σ.calls t = .lock call ∧ call.mutex = m
  waits : ∀ m ∈ σ.mutexes, ∀ t ∈ σ.kernel.sched.waits (mutexWaiters m),
    σ.owner m ≠ mutexNoOwner ∧ ∃ call, σ.calls t = .lock call ∧ call.mutex = m
  accel : ∀ m ∈ σ.mutexes, mutexWaiters m ≠ accelWaiters σ.kernel.machine.image
  accelQueue : accelWaiters σ.kernel.machine.image ∈ σ.queues

/-- The wait queues of mutexes are used by the lock calls only. -/
def PrivateQueues (op : Op) (σ : System) : Prop :=
  match op with
  | .wakeOne queue | .wakeAll queue => ∀ m ∈ σ.mutexes, queue ≠ mutexWaiters m
  | .control t _ => t.op = threadTrapWait ∨ t.op = threadTrapWaitTimeout → ∀ m ∈ σ.mutexes, t.arg0 ≠ mutexWaiters m
  | _ => True

/-! ### What a step does to the mutexes -/

/-- What a step does to the calls, to the mutexes and to who holds them. -/
inductive Books (σ : System) (op : Op) (σ' : System) : Prop
  /-- Nothing, and the current thread is in no lock call. -/
  | same (hfree : ∀ c call, σ.kernel.sched.currentThread = some c → σ.calls c ≠ .lock call)
    (hcalls : ∀ t call, σ'.calls t = .lock call ↔ σ.calls t = .lock call) (hholds : σ'.holds = σ.holds)
    (hlist : σ'.mutexes = σ.mutexes) (howner : σ'.owner = σ.owner)
  /-- The lock call of the current thread waits. -/
  | waits {c : Nat} {call : LockCall} (hcur : σ.kernel.sched.currentThread = some c) (hm : call.mutex ∈ σ.mutexes)
    (hbefore : σ.calls c = .idle ∨ σ.calls c = .lock call) (hcalls : σ'.calls = Function.update σ.calls c (.lock call))
    (hwaiting : σ'.Waiting c call) (howned : σ.owner call.mutex ≠ mutexNoOwner) (hholds : σ'.holds = σ.holds)
    (hlist : σ'.mutexes = σ.mutexes) (howner : σ'.owner = σ.owner)
  /-- The lock call of the current thread returns. -/
  | returned {c : Nat} {call : LockCall} {entry : LockEntry} {r : Int} {k' : Kernel}
    (hcur : σ.kernel.sched.currentThread = some c) (hcall : σ.CallOk c (.lock call))
    (hentry : σ.calls c = .idle ∧ (∀ a0, entry ≠ .resume a0) ∨
      σ.calls c = .lock call ∧ entry = .resume (σ.resumedA0 c))
    (ho : LockOutcome σ.kernel call entry (.ret r k')) (heq : σ' = σ.lockReturned c call.mutex r k')
  /-- The current thread unlocks a mutex. -/
  | unlocked {c next : Nat} {mutex : U64} (hop : op = .mutexUnlock mutex) (hcur : InKernel σ c)
    (hm : mutex ∈ σ.mutexes) (hwas : σ.owner mutex = c) (hcalls : σ'.calls = σ.calls)
    (hholds : σ'.holds = Function.update σ.holds c (Function.update (σ.holds c) mutex false))
    (hlist : σ'.mutexes = σ.mutexes) (howner : σ'.owner = Function.update σ.owner mutex next)
    (hnext : next = mutexNoOwner ∧ σ.kernel.sched.waits (mutexWaiters mutex) = [] ∨
      (σ.kernel.sched.waits (mutexWaiters mutex)).head? = some next ∧ (σ'.kernel.sched.threads next).state = .ready)
  /-- A mutex is set up. -/
  | init {mutex : U64} (hfree : ∀ c call, σ.kernel.sched.currentThread = some c → σ.calls c ≠ .lock call)
    (hm : mutex ∉ σ.mutexes) (hq : mutexWaiters mutex ∉ σ.queues)
    (hnil : σ'.kernel.sched.waits (mutexWaiters mutex) = []) (hcalls : σ'.calls = σ.calls) (hholds : σ'.holds = σ.holds)
    (hlist : σ'.mutexes = mutex :: σ.mutexes) (howner : σ'.owner = Function.update σ.owner mutex mutexNoOwner)

theorem returned_mutexes {next : U64} {k k' : Kernel} (h : Returned next k k') : k'.mutexes = k.mutexes := by
  cases h <;> rfl

theorem trapped_parked {Q : Set U64} {frame : U64} {f : TrapFrame} {b : Block} {k k' : Kernel}
    (h : Trapped Q c frame f (.park b) k k') :
    k'.sched.threads c = (k.sched.threads c).parked frame f.sp b ∧ k'.mutexes = k.mutexes := by
  obtain ⟨next, s', ⟨-, s₁, hp, hok, hh, hd, -, hrun, -⟩, hr⟩ := h
  have hblocked : s₁.threads c = (k.sched.threads c).parked frame f.sp b := by
    rw [hp.threads, Function.update_self, Sched.setFrame_self, Sched.setFrame_threads]
  have hne : c ≠ s₁.next := by
    intro he
    have hready := hok.next_state hh
    rw [← he, hblocked] at hready
    cases hready
  have hs' : s'.threads c = (k.sched.threads c).parked frame f.sp b := by
    rw [hd.threads, Function.update_of_ne hne, hblocked]
  have hm := returned_mutexes hr
  refine ⟨?_, hm⟩
  cases hr with
  | supervisor => exact hs'
  | @user d hcur htask hnext hspp sie =>
    have hcd : c ≠ d := by
      intro he
      exact hne (he.trans (Option.some.inj (hcur.symm.trans hrun.current)))
    show (s'.setThread d fun th => { th with trapFrame := next }).threads c = _
    rw [Sched.setThread_of_ne _ _ _ hcd]
    exact hs'

theorem books_waits (k₁ : Kernel) {k' : Kernel} {Q : Set U64} {frame : U64} {f : TrapFrame} {l : Leave}
    (hcur : σ.kernel.sched.currentThread = some c) (hmutexes : k₁.mutexes = σ.kernel.mutexes)
    (hwhy : Traps σ op c frame f.mstatus l (.lock call)) (ht : Trapped Q c frame f l k₁ k') :
    Books σ op ((σ.setKernel k').setCall c (.lock call)) := by
  have hl : l = .park ⟨some (mutexWaiters call.mutex), σ.wakeTick op⟩ := by
    cases hwhy with
    | waits => rfl
  rw [hl] at ht
  obtain ⟨hth, hm'⟩ := trapped_parked ht
  have howner : ((σ.setKernel k').setCall c (.lock call)).owner = σ.owner := by
    funext m
    show (k'.mutexes m).owner = _
    rw [hm', hmutexes]
    rfl
  cases hwhy with
  | waits hcall _ hbefore _ _ _ hlock =>
    obtain ⟨howned, hother, htimed⟩ := hlock call rfl
    refine .waits hcur hcall.2.1 hbefore rfl ⟨?_, ?_, ?_, ?_⟩ howned rfl rfl howner
    · show (k'.sched.threads c).state = _
      rw [hth]; rfl
    · show (k'.sched.threads c).waitReason = _
      rw [hth, htimed]
      show Block.reason _ = _
      cases hw : σ.wakeTick op <;> rfl
    · show (k'.sched.threads c).waitQueue = _
      rw [hth]; rfl
    · rw [howner]; exact hother

theorem LockStep.books (hs : LockStep σ op c call σ') (hcur : σ.kernel.sched.currentThread = some c)
    (hcall : σ.CallOk c (.lock call)) : Books σ op σ' := by
  cases hs with
  | returned hentry ho => exact .returned hcur hcall hentry ho rfl
  | waits hwhy ht => exact books_waits σ.kernel.irqSave.2 hcur rfl hwhy ht

theorem Stepped.books (hs : Stepped σ op σ')
    (hfree : ∀ c call, σ.kernel.sched.currentThread = some c → σ.calls c ≠ .lock call) : Books σ op σ' := by
  have howners : ∀ {k' : Kernel}, k'.mutexes = σ.kernel.mutexes → (σ.setKernel k').owner = σ.owner := fun h => by
    funext m
    show (_ : Nat) = _
    simp only [owner, setKernel, h]
  have hsame : ∀ {k' : Kernel}, k'.mutexes = σ.kernel.mutexes → Books σ op (σ.setKernel k') := fun h =>
    .same hfree (fun _ _ => Iff.rfl) rfl rfl (howners h)
  have hset : ∀ {k' : Kernel} {c : Nat} {call : Call}, k'.mutexes = σ.kernel.mutexes →
      σ.kernel.sched.currentThread = some c → (∀ lock, call ≠ .lock lock) →
      Books σ op ((σ.setKernel k').setCall c call) := fun {k' c call} h hcur hne => by
    refine .same hfree (fun t lock => ?_) rfl rfl (howners h)
    by_cases ht : t = c
    · subst ht
      rw [setCall_calls_self]
      exact iff_of_false (hne lock) (hfree t lock hcur)
    · rw [setCall_calls_of_ne _ _ ht]; rfl
  cases hs with
  | @driver k' hk => exact hsame (by rw [hk.eq])
  | @submitted c k' hcur _ hk => exact hset (by rw [hk.eq]) hcur fun _ hcall => Call.noConfusion hcall
  | @woken k' s' _ hk =>
    have : k'.mutexes = σ.kernel.mutexes := by rw [hk.eq]
    exact hsame this
  | @installed _ _ _ k' _ _ hk =>
    have : k'.mutexes = σ.kernel.mutexes := by rw [hk]
    exact hsame this
  | started _ _ _ hr =>
    have := returned_mutexes hr
    exact hsame this
  | @taskInit _ k' hi => exact hsame (by rw [hi.eq])
  | queueInit => exact .same hfree (fun _ _ => Iff.rfl) rfl rfl rfl
  | @mutexInit mutex name s' hne hm hq hnil _ _ _ _ _ _ =>
    refine .init hfree hm hq hnil rfl rfl rfl ?_
    funext m
    show ((Function.update σ.kernel.mutexes mutex _) m).owner = _
    by_cases h : m = mutex
    · subst h; rw [Function.update_self, Function.update_self]
    · rw [Function.update_of_ne h, Function.update_of_ne h]; rfl
  | timer _ _ _ _ _ _ _ _ _ _ _ hr =>
    have := returned_mutexes hr
    exact hsame this
  | bootTimer _ _ _ _ hr =>
    have := returned_mutexes hr
    exact hsame this
  | @trapped c frame f l call k₁ k' hcur hk _ hwhy ht _ =>
    have hm₁ : k₁.mutexes = σ.kernel.mutexes := by rw [hk.eq]
    have hm' : k'.mutexes = σ.kernel.mutexes := by
      obtain ⟨next, s', -, hr⟩ := id ht
      exact (returned_mutexes hr).trans hm₁
    cases hcall : call with
    | lock lock =>
      subst hcall
      exact books_waits k₁ hcur hm₁ hwhy ht
    | idle => exact hset hm' hcur fun _ hcall => Call.noConfusion hcall
    | submit sub => exact hset hm' hcur fun _ hcall => Call.noConfusion hcall
    | userMemset u sub => exact hset hm' hcur fun _ hcall => Call.noConfusion hcall
  | exited _ _ _ _ _ _ hr =>
    have := returned_mutexes hr
    exact hsame this
  | @locked c call entry r k' hcur hcall hentry ho => exact .returned hcur hcall hentry ho rfl
  | @unlocked c next mutex s' hop hcur hm howner _ hnext =>
    refine @Books.unlocked σ op _ c next mutex hop hcur hm howner rfl rfl rfl ?_ ?_
    · funext m
      show ((Function.update σ.kernel.mutexes mutex _) m).owner = _
      by_cases h : m = mutex
      · subst h; rw [Function.update_self, Function.update_self]
      · rw [Function.update_of_ne h, Function.update_of_ne h]; rfl
    · rcases hnext with ⟨h1, h2, -⟩ | ⟨h1, h2⟩
      · exact .inl ⟨h1, h2⟩
      · refine .inr ⟨h1, ?_⟩
        show (s'.threads next).state = _
        rw [h2.self]
        rfl

theorem Enabled.resume_of_lock (hen : Enabled op σ) (hcur : σ.kernel.sched.currentThread = some c)
    (hcall : σ.calls c = .lock call) (h : SysOk σ) : ∃ site, op = .resume site := by
  have hbusy : σ.calls c ≠ .idle := by rw [hcall]; exact nofun
  have hquiet : ¬Quiet σ := fun hq => hbusy (hq c hcur)
  have hsetup : ¬InSetup σ := fun hq => hbusy (hq c hcur).idle
  have hkernel : ∀ d, ¬InKernel σ d := fun d hd => by
    obtain rfl : c = d := Option.some.inj (hcur.symm.trans hd.current)
    exact hbusy hd.idle
  cases op with
  | resume site => exact ⟨site, rfl⟩
  | threadCreate | threadCreateUser | userTaskInit | accelControl | accelAck => exact absurd hen hsetup
  | waitQueueInit | mutexInit | accelSubmit => exact absurd hen.1 hsetup
  | wakeOne | wakeAll => exact absurd hen.1 hquiet
  | accelStep | dispatchIrqs | pageAlloc | pageFree | write => exact absurd hen hquiet
  | mutexLock | mutexLockTimeout | mutexTrylock | mutexUnlock =>
    obtain ⟨d, hd, -⟩ := hen
    exact absurd hd (hkernel d)
  | control | ecall =>
    obtain ⟨d, hd, hidle, -⟩ := hen
    obtain rfl : c = d := Option.some.inj (hcur.symm.trans hd)
    exact absurd hidle hbusy
  | threadStart =>
    have := (h.sched.started hcur).1
    rw [show σ.kernel.sched.threadsStarted = false from hen] at this
    cases this
  | timer mtime site =>
    rw [Enabled, hcur] at hen
    have hb := decide_eq_true hbusy
    have hmasked := h.threads.masked c hcur hb
    have hok := h.call c
    rw [hcall] at hok
    dsimp only at hen
    rw [if_pos hok.2.2, hmasked] at hen
    cases hen.1

theorem exec_books (h : SysOk σ) (hen : Enabled op σ) (hone : AttachOnce op σ) (hx : exec op σ = .ok σ') :
    Books σ op σ' := by
  by_cases hlock : ∃ c call, σ.kernel.sched.currentThread = some c ∧ σ.calls c = .lock call
  · obtain ⟨c, call, hcur, hcall⟩ := hlock
    obtain ⟨site, rfl⟩ := hen.resume_of_lock hcur hcall h
    have hok := h.call c
    rw [hcall] at hok
    exact (exec_resume_lock h hen hcur hcall hx).books hcur hok
  · refine (exec_stepped h hen hone hx).books fun c call hcur hcall => hlock ⟨c, call, hcur, hcall⟩

/-! ### A step keeps the invariant -/

theorem mutexWaiters_inj {m m' : U64} (h : mutexWaiters m = mutexWaiters m') : m = m' := by
  unfold mutexWaiters at h
  exact add_right_cancel h

theorem real_ne_noOwner (ht : tidIsReal t) : t ≠ mutexNoOwner := tidIsReal_ne_invalid ht

theorem SysOk.current_ne_noOwner (h : SysOk σ) (hcur : σ.kernel.sched.currentThread = some c) : c ≠ mutexNoOwner := by
  have hlt := (h.running hcur).lt
  unfold mutexNoOwner threadInvalidTid
  unfold threadMax at hlt
  omega

/-- A thread in a lock call that does not act: its wait goes on, or it is handed the mutex by an unlock, or it
times out. -/
theorem LockPhase.passive (hphase : σ.LockPhase t call) (hpass : Passive σ op σ' t) (hpriv : PrivateQueues op σ)
    (hm : call.mutex ∈ σ.mutexes) (haccel : mutexWaiters call.mutex ≠ accelWaiters σ.kernel.machine.image)
    (ht : tidIsReal t) (hkeep : σ.owner call.mutex = t → σ'.owner call.mutex = t)
    (hgain : σ'.owner call.mutex = t → σ.owner call.mutex = t ∨ (σ.kernel.sched.threads t).state = .blocked ∧
      (σ'.kernel.sched.threads t).state ≠ .blocked ∧ ∃ mutex, op = .mutexUnlock mutex) : σ'.LockPhase t call := by
  rcases hphase with hw | hg | hout
  · rcases hpass with ⟨hnb, -, -⟩ | ⟨hth, -⟩ | ⟨-, hnb', r, cause, s, Q, ha0, hev, hok, hc, hq, hth⟩
    · exact absurd hw.blocked hnb
    · refine .inl ⟨by rw [hth]; exact hw.blocked, by rw [hth]; exact hw.reason, by rw [hth]; exact hw.queue, ?_⟩
      intro ho
      rcases hgain ho with ho | ⟨-, hnb, -⟩
      · exact hw.owner ho
      · rw [hth] at hnb; exact hnb hw.blocked
    · cases cause with
      | event q =>
        -- the woken thread waited on the queue of its mutex, which only an unlock wakes
        have hmem : t ∈ s.waits q := List.mem_of_mem_head? hc.1
        have hqueue := ((hok.mem_waits_iff ht (hq q rfl)).mp hmem).2
        rw [hth, hw.queue] at hqueue
        rcases hev.2 with he | he | ⟨-, he⟩ | ⟨mutex, -, he, howner⟩
        · subst he; exact absurd hqueue.symm (hpriv _ hm)
        · subst he; exact absurd hqueue.symm (hpriv _ hm)
        · exact absurd (hqueue.trans he) haccel
        · rw [← hqueue] at he
          rw [← mutexWaiters_inj he] at howner
          refine .inr (.inl ⟨hnb', ?_, howner⟩)
          rw [ha0, hc.2]
      | timer now =>
        have hreason := hc.2.2
        rw [hth, hw.reason] at hreason
        have hop := hev.1
        have hne : σ'.owner call.mutex ≠ t := by
          intro ho
          rcases hgain ho with ho | ⟨-, -, mutex, he⟩
          · exact hw.owner ho
          · obtain ⟨_, _, he'⟩ := hop
            rw [he] at he'
            cases he'
        by_cases htimed : call.timed = true
        · rw [if_pos htimed] at hreason
          rcases hreason with ⟨-, hr⟩ | ⟨he, -⟩
          · exact .inr (.inr ⟨hnb', htimed, by rw [ha0, hr], hne⟩)
          · cases he
        · rw [if_neg htimed] at hreason
          rcases hreason with ⟨he, -⟩ | ⟨he, -⟩ <;> cases he
  · rcases hpass with ⟨-, hnb', ha0⟩ | ⟨hth, ha0⟩ | ⟨hb, -⟩
    · exact .inr (.inl ⟨hnb', ha0.trans hg.result, hkeep hg.owner⟩)
    · exact .inr (.inl ⟨by rw [hth]; exact hg.awake, ha0.trans hg.result, hkeep hg.owner⟩)
    · exact absurd hb hg.awake
  · have hne : σ'.owner call.mutex ≠ t := by
      intro ho
      rcases hgain ho with ho | ⟨hb, -⟩
      · exact hout.owner ho
      · exact hout.awake hb
    rcases hpass with ⟨-, hnb', ha0⟩ | ⟨hth, ha0⟩ | ⟨hb, -⟩
    · exact .inr (.inr ⟨hnb', hout.timed, ha0.trans hout.result, hne⟩)
    · exact .inr (.inr ⟨by rw [hth]; exact hout.awake, hout.timed, ha0.trans hout.result, hne⟩)
    · exact absurd hb hout.awake

theorem lockReturned_holds_ok {k' : Kernel} (mutex : U64) : (σ.lockReturned c mutex waitOk k').holds =
    Function.update σ.holds c (Function.update (σ.holds c) mutex true) := rfl

theorem lockReturned_holds_timeout {k' : Kernel} (mutex : U64) :
    (σ.lockReturned c mutex waitTimeout k').holds = σ.holds := rfl

theorem lockReturned_calls {k' : Kernel} (mutex : U64) (r : Int) :
    (σ.lockReturned c mutex r k').calls = Function.update σ.calls c .idle := by
  unfold lockReturned
  dsimp only
  split <;> rfl

theorem lockReturned_mutexes {k' : Kernel} (mutex : U64) (r : Int) :
    (σ.lockReturned c mutex r k').mutexes = σ.mutexes ∧ (σ.lockReturned c mutex r k').kernel = k' := by
  unfold lockReturned
  dsimp only
  split <;> exact ⟨rfl, rfl⟩

theorem Books.calls (hb : Books σ op σ') (ht : σ.kernel.sched.currentThread ≠ some t) :
    σ'.calls t = .lock call ↔ σ.calls t = .lock call := by
  cases hb with
  | same _ hcalls => exact hcalls t call
  | waits hcur _ _ hcalls =>
    rw [hcalls, Function.update_of_ne]
    rintro rfl
    exact ht hcur
  | returned hcur _ _ _ heq =>
    rw [heq, lockReturned_calls, Function.update_of_ne]
    rintro rfl
    exact ht hcur
  | unlocked _ _ _ _ hcalls => rw [hcalls]
  | init _ _ _ _ hcalls => rw [hcalls]

/-- A thread that does not act keeps its mutexes, and is given one by an unlock only, while it waits. -/
theorem Books.owner (hb : Books σ op σ') (h : SysOk σ) {m : U64} (hm : m ∈ σ.mutexes) (ht : t ≠ mutexNoOwner)
    (hcur : σ.kernel.sched.currentThread ≠ some t) :
    (σ.owner m = t → σ'.owner m = t) ∧
      (σ'.owner m = t → σ.owner m = t ∨ (σ.kernel.sched.threads t).state = .blocked ∧
        (σ'.kernel.sched.threads t).state ≠ .blocked ∧ ∃ mutex, op = .mutexUnlock mutex) := by
  have hsame : σ'.owner m = σ.owner m → (σ.owner m = t → σ'.owner m = t) ∧
      (σ'.owner m = t → σ.owner m = t ∨ (σ.kernel.sched.threads t).state = .blocked ∧
        (σ'.kernel.sched.threads t).state ≠ .blocked ∧ ∃ mutex, op = .mutexUnlock mutex) := by
    intro heq
    rw [heq]
    exact ⟨id, .inl⟩
  cases hb with
  | same _ _ _ _ howner => exact hsame (by rw [howner])
  | waits _ _ _ _ _ _ _ _ howner => exact hsame (by rw [howner])
  | @returned c call entry r k' hc hcall _ ho heq =>
    have hct : c ≠ t := by
      rintro rfl
      exact hcur hc
    have howner : ∀ x, σ'.owner x = (k'.mutexes x).owner := by
      intro x
      rw [heq, System.owner, (lockReturned_mutexes _ _).2]
    rcases ho.ret_cases with ⟨-, hnew, hothers, hold⟩ | ⟨-, hmutexes, -⟩
    · by_cases hmc : m = call.mutex
      · subst hmc
        have htid : (k'.mutexes call.mutex).owner ≠ t := by rw [hnew, hcall.1]; exact hct
        refine ⟨fun hot => ?_, fun hot => absurd ((howner _).symm.trans hot) htid⟩
        rcases hold with hfree | hold
        · exact absurd (hot.symm.trans hfree) ht
        · exact absurd ((hcall.1.symm.trans hold.symm).trans hot) hct
      · exact hsame ((howner m).trans (hothers m hmc))
    · exact hsame ((howner m).trans (by rw [hmutexes]; rfl))
  | @unlocked c next mutex hop hc hmutex hwas _ _ _ howner hnext =>
    by_cases hmc : m = mutex
    · subst hmc
      rw [howner, Function.update_self]
      refine ⟨fun hot => absurd (hc.current.trans (congrArg some (hwas.symm.trans hot))) hcur, fun hot => .inr ?_⟩
      subst hot
      rcases hnext with ⟨he, -⟩ | ⟨hhead, hready⟩
      · exact absurd he ht
      · have hmem := List.mem_of_mem_head? hhead
        have hq := (h.mutexQueue m hm).2
        have hreal := ((h.sched.ok.mem_wait _ hq _).mp hmem).1
        have hb := ((h.sched.ok.mem_waits_iff hreal hq).mp hmem).1.1
        exact ⟨hb, by rw [hready]; exact nofun, m, hop⟩
    · refine hsame ?_
      rw [howner, Function.update_of_ne hmc]
  | @init mutex _ hnew _ _ _ _ _ howner =>
    refine hsame ?_
    rw [howner, Function.update_of_ne]
    rintro rfl
    exact hnew hm

theorem Books.owned (hb : Books σ op σ') {m : U64} (hm : m ∈ σ.mutexes) (howned : σ.owner m ≠ mutexNoOwner)
    (hsys : SysOk σ) (hwaits : σ.kernel.sched.waits (mutexWaiters m) ≠ [] ∨
      ∃ c call, σ.kernel.sched.currentThread = some c ∧ σ'.calls c = .lock call) :
    σ'.owner m ≠ mutexNoOwner := by
  cases hb with
  | same _ _ _ _ howner => rwa [howner]
  | waits _ _ _ _ _ _ _ _ howner => rwa [howner]
  | @returned c call entry r k' hc hcall _ ho heq =>
    rw [heq, System.owner, (lockReturned_mutexes _ _).2]
    rcases ho.ret_cases with ⟨-, hnew, hothers, -⟩ | ⟨-, hmutexes, -⟩
    · by_cases hmc : m = call.mutex
      · subst hmc
        rw [hnew, hcall.1]
        exact hsys.current_ne_noOwner hc
      · rw [hothers m hmc]; exact howned
    · rw [hmutexes]; exact howned
  | @unlocked c next mutex _ hc _ _ hcalls _ _ howner hnext =>
    by_cases hmc : m = mutex
    · subst hmc
      rw [howner, Function.update_self]
      rcases hnext with ⟨-, hnil⟩ | ⟨hhead, -⟩
      · obtain ⟨d, call, hd, hcall⟩ := hwaits.resolve_left fun hne => hne hnil
        obtain rfl : c = d := Option.some.inj (hc.current.symm.trans hd)
        rw [hcalls, hc.idle] at hcall
        cases hcall
      · exact real_ne_noOwner ((hsys.sched.ok.mem_wait _ (hsys.mutexQueue m hm).2 _).mp (List.mem_of_mem_head? hhead)).1
    · rw [howner, Function.update_of_ne hmc]; exact howned
  | @init mutex _ hnew _ _ _ _ _ howner =>
    rw [howner, Function.update_of_ne]
    · exact howned
    · rintro rfl
      exact hnew hm

theorem SysOk.lockCall (h : SysOk σ) (hcall : σ.calls t = .lock call) :
    tidIsReal t ∧ call.tid = t ∧ call.mutex ∈ σ.mutexes ∧ (σ.kernel.sched.threads t).userTask = 0 ∧ σ.busy t = true := by
  have hok := h.call t
  rw [hcall] at hok
  have hbusy : σ.busy t = true := by
    unfold busy
    rw [hcall]
    exact decide_eq_true nofun
  exact ⟨h.threads.real t hbusy, hok.1, hok.2.1, hok.2.2, hbusy⟩

theorem MutexInv.phase_step (hi : MutexInv σ) (h : RunOk σ) (hb : Books σ op σ') (hs : Stepped σ op σ')
    (hpriv : PrivateQueues op σ) (hcall : σ'.calls t = .lock call) : σ'.LockPhase t call := by
  by_cases hcur : σ.kernel.sched.currentThread = some t
  · -- the call of the current thread waits: in the other cases it is in no lock call afterwards
    cases hb with
    | same hfree hcalls => exact absurd ((hcalls t call).mp hcall) (hfree t call hcur)
    | @waits c call' hc _ _ hcalls hwaiting =>
      obtain rfl : c = t := Option.some.inj (hc.symm.trans hcur)
      rw [hcalls, Function.update_self] at hcall
      cases hcall
      exact .inl hwaiting
    | @returned c call' _ _ _ hc _ _ _ heq =>
      obtain rfl : c = t := Option.some.inj (hc.symm.trans hcur)
      rw [heq, lockReturned_calls, Function.update_self] at hcall
      cases hcall
    | @unlocked c _ _ _ hc _ _ hcalls =>
      obtain rfl : c = t := Option.some.inj (hc.current.symm.trans hcur)
      rw [hcalls, hc.idle] at hcall
      cases hcall
    | init hfree _ _ _ hcalls =>
      rw [hcalls] at hcall
      exact absurd hcall (hfree t call hcur)
  · have hcall₀ := (hb.calls hcur).mp hcall
    obtain ⟨ht, -, hm, hk, hbusy⟩ := h.lockCall hcall₀
    obtain ⟨hkeep, hgain⟩ := hb.owner h.toSysOk hm (real_ne_noOwner ht) hcur
    exact (hi.phase t call hcall₀).passive (hs.passive h.toSysOk h.placed hbusy hk hcur) hpriv hm (hi.accel _ hm) ht
      hkeep hgain

theorem MutexInv.held_step (hi : MutexInv σ) (h : SysOk σ) (hb : Books σ op σ') {m : U64} (hheld : σ'.holds t m = true) :
    t ≠ mutexNoOwner ∧ m ∈ σ'.mutexes ∧ σ'.owner m = t ∧ ∀ call, σ'.calls t = .lock call → call.mutex ≠ m := by
  -- a thread that held the mutex before, and does not act, keeps it
  have hother : σ.holds t m = true → σ.kernel.sched.currentThread ≠ some t → (∀ m ∈ σ.mutexes, m ∈ σ'.mutexes) →
      t ≠ mutexNoOwner ∧ m ∈ σ'.mutexes ∧ σ'.owner m = t ∧ ∀ call, σ'.calls t = .lock call → call.mutex ≠ m := by
    intro h₀ hcur hsub
    obtain ⟨ht, hm, howner, hno⟩ := hi.held t m h₀
    exact ⟨ht, hsub m hm, (hb.owner h hm ht hcur).1 howner, fun call hcall => hno call ((hb.calls hcur).mp hcall)⟩
  cases hb with
  | same _ hcalls hholds hlist howner =>
    rw [hholds] at hheld
    rw [hlist, howner]
    obtain ⟨ht, hm, hown, hno⟩ := hi.held t m hheld
    exact ⟨ht, hm, hown, fun call hcall => hno call ((hcalls t call).mp hcall)⟩
  | @waits c call hc _ _ hcalls hwaiting _ hholds hlist howner =>
    rw [hholds] at hheld
    obtain ⟨ht, hm, hown, hno⟩ := hi.held t m hheld
    refine ⟨ht, by rwa [hlist], by rwa [howner], fun call' hcall' => ?_⟩
    by_cases htc : t = c
    · subst htc
      rw [hcalls, Function.update_self] at hcall'
      cases hcall'
      rintro rfl
      exact hwaiting.owner (by rwa [howner])
    · rw [hcalls, Function.update_of_ne htc] at hcall'
      exact hno call' hcall'
  | @returned c call entry r k' hc hcall _ ho heq =>
    have hlist : σ'.mutexes = σ.mutexes := by rw [heq]; exact (lockReturned_mutexes _ _).1
    by_cases htc : t = c
    · subst htc
      have hidle : ∀ call', σ'.calls t = .lock call' → call'.mutex ≠ m := by
        intro call' hcall'
        rw [heq, lockReturned_calls, Function.update_self] at hcall'
        cases hcall'
      have howner : ∀ x, σ'.owner x = (k'.mutexes x).owner := by
        intro x
        rw [heq, System.owner, (lockReturned_mutexes _ _).2]
      have ht := h.current_ne_noOwner hc
      rcases ho.ret_cases with ⟨rfl, hnew, hothers, -⟩ | ⟨rfl, hmutexes, -⟩
      · by_cases hmc : m = call.mutex
        · subst hmc
          exact ⟨ht, hlist ▸ hcall.2.1, (howner _).trans (hnew.trans hcall.1), hidle⟩
        · rw [heq, lockReturned_holds_ok, Function.update_self, Function.update_of_ne hmc] at hheld
          obtain ⟨-, hm, hown, -⟩ := hi.held t m hheld
          exact ⟨ht, hlist ▸ hm, (howner m).trans ((hothers m hmc).trans hown), hidle⟩
      · rw [heq, lockReturned_holds_timeout] at hheld
        obtain ⟨-, hm, hown, -⟩ := hi.held t m hheld
        exact ⟨ht, hlist ▸ hm, (howner m).trans (by rw [hmutexes]; exact hown), hidle⟩
    · refine hother ?_ (fun hct => htc (Option.some.inj (hct.symm.trans hc))) (fun _ hm => hlist ▸ hm)
      rcases ho.ret_cases with ⟨rfl, -⟩ | ⟨rfl, -⟩
      · rwa [heq, lockReturned_holds_ok, Function.update_of_ne htc] at hheld
      · rwa [heq, lockReturned_holds_timeout] at hheld
  | @unlocked c next mutex _ hc _ _ hcalls hholds hlist howner _ =>
    by_cases htc : t = c
    · subst htc
      rw [hholds, Function.update_self] at hheld
      have hmc : m ≠ mutex := by
        rintro rfl
        rw [Function.update_self] at hheld
        cases hheld
      rw [Function.update_of_ne hmc] at hheld
      obtain ⟨ht, hm, hown, hno⟩ := hi.held t m hheld
      exact ⟨ht, by rwa [hlist], by rwa [howner, Function.update_of_ne hmc], fun call hcall => hno call (hcalls ▸ hcall)⟩
    · refine hother ?_ (fun hct => htc (Option.some.inj (hct.symm.trans hc.current))) (fun _ hm => hlist ▸ hm)
      rwa [hholds, Function.update_of_ne htc] at hheld
  | @init mutex _ hnew _ _ hcalls hholds hlist howner =>
    rw [hholds] at hheld
    obtain ⟨ht, hm, hown, hno⟩ := hi.held t m hheld
    refine ⟨ht, hlist ▸ List.mem_cons_of_mem _ hm, ?_, fun call hcall => hno call (hcalls ▸ hcall)⟩
    rw [howner, Function.update_of_ne]
    · exact hown
    · rintro rfl
      exact hnew hm

theorem MutexInv.owned_step (hi : MutexInv σ) (hb : Books σ op σ') {m : U64} (hm : m ∈ σ'.mutexes)
    (howns : σ'.owner m = t) (ht : t ≠ mutexNoOwner) :
    σ'.holds t m = true ∨ ∃ call, σ'.calls t = .lock call ∧ call.mutex = m := by
  cases hb with
  | same _ hcalls hholds hlist howner =>
    rw [hholds]
    refine (hi.owned m (hlist ▸ hm) t (howner ▸ howns) ht).imp_right ?_
    rintro ⟨call, hcall, hmc⟩
    exact ⟨call, (hcalls t call).mpr hcall, hmc⟩
  | @waits c call _ _ hbefore hcalls _ _ hholds hlist howner =>
    rw [hholds]
    refine (hi.owned m (hlist ▸ hm) t (howner ▸ howns) ht).imp_right ?_
    rintro ⟨call', hcall', hmc⟩
    by_cases htc : t = c
    · subst htc
      rcases hbefore with hidle | hsame
      · rw [hidle] at hcall'; cases hcall'
      · rw [hsame] at hcall'
        cases hcall'
        exact ⟨call, by rw [hcalls, Function.update_self], hmc⟩
    · exact ⟨call', by rw [hcalls, Function.update_of_ne htc]; exact hcall', hmc⟩
  | @returned c call entry r k' hc hcall hentry ho heq =>
    have hlist : σ'.mutexes = σ.mutexes := by rw [heq]; exact (lockReturned_mutexes _ _).1
    have howner : σ'.owner m = (k'.mutexes m).owner := by rw [heq, System.owner, (lockReturned_mutexes _ _).2]
    rw [howner] at howns
    -- a lock call of another thread goes on
    have hcalls : ∀ call', t ≠ c → σ.calls t = .lock call' → σ'.calls t = .lock call' := by
      intro call' htc hcall'
      rw [heq, lockReturned_calls, Function.update_of_ne htc, hcall']
    rcases ho.ret_cases with ⟨rfl, hnew, hothers, -⟩ | ⟨rfl, hmutexes, -, htimeout⟩
    · by_cases hmc : m = call.mutex
      · subst hmc
        obtain rfl : c = t := hcall.1.symm.trans (hnew.symm.trans howns)
        left
        rw [heq, lockReturned_holds_ok, Function.update_self, Function.update_self]
      · rcases hi.owned m (hlist ▸ hm) t ((hothers m hmc).symm.trans howns) ht with hheld | ⟨call', hcall', hmc'⟩
        · left
          rw [heq, lockReturned_holds_ok]
          by_cases htc : t = c
          · subst htc; rwa [Function.update_self, Function.update_of_ne hmc]
          · rwa [Function.update_of_ne htc]
        · refine .inr ⟨call', hcalls call' ?_ hcall', hmc'⟩
          rintro rfl
          rcases hentry with ⟨hidle, -⟩ | ⟨hsame, -⟩
          · rw [hidle] at hcall'; cases hcall'
          · rw [hsame] at hcall'
            cases hcall'
            exact hmc hmc'.symm
    · have howns₀ : σ.owner m = t := by rw [System.owner, ← hmutexes]; exact howns
      rcases hi.owned m (hlist ▸ hm) t howns₀ ht with hheld | ⟨call', hcall', hmc'⟩
      · left
        rwa [heq, lockReturned_holds_timeout]
      · refine .inr ⟨call', hcalls call' ?_ hcall', hmc'⟩
        rintro rfl
        rcases hentry with ⟨hidle, -⟩ | ⟨hsame, hresume⟩
        · rw [hidle] at hcall'; cases hcall'
        · -- its wait was ended by an unlock, so it does not time out
          rw [hsame] at hcall'
          cases hcall'
          have hbad := htimeout _ hresume
          rcases hi.phase t call hsame with hw | hg | hout
          · exact hw.owner (hmc' ▸ howns₀)
          · rw [hg.result, regInt_intReg_ok] at hbad
            cases hbad
          · exact hout.owner (hmc' ▸ howns₀)
  | @unlocked c next mutex _ hc hmutex _ hcalls hholds hlist howner hnext =>
    rw [hlist] at hm
    rw [hcalls]
    by_cases hmc : m = mutex
    · subst hmc
      rw [howner, Function.update_self] at howns
      subst howns
      rcases hnext with ⟨he, -⟩ | ⟨hhead, -⟩
      · exact absurd he ht
      · exact .inr (hi.waits m hm next (List.mem_of_mem_head? hhead)).2
    · rw [howner, Function.update_of_ne hmc] at howns
      refine (hi.owned m hm t howns ht).imp_left fun hheld => ?_
      rw [hholds]
      by_cases htc : t = c
      · subst htc; rwa [Function.update_self, Function.update_of_ne hmc]
      · rwa [Function.update_of_ne htc]
  | @init mutex _ hnew _ _ hcalls hholds hlist howner =>
    rw [hcalls, hholds]
    have hmc : m ≠ mutex := by
      rintro rfl
      rw [howner, Function.update_self] at howns
      exact ht howns.symm
    rw [howner, Function.update_of_ne hmc] at howns
    rw [hlist] at hm
    exact hi.owned m ((List.mem_cons.mp hm).resolve_left hmc) t howns ht

theorem SysOk.waiter_blocked (h : SysOk σ) {m : U64} (hm : m ∈ σ.mutexes)
    (ht : t ∈ σ.kernel.sched.waits (mutexWaiters m)) : tidIsReal t ∧ (σ.kernel.sched.threads t).state = .blocked ∧
      (σ.kernel.sched.threads t).waitQueue = mutexWaiters m := by
  have hq := (h.mutexQueue m hm).2
  have hreal := ((h.sched.ok.mem_wait _ hq _).mp ht).1
  obtain ⟨hb, hqueue⟩ := (h.sched.ok.mem_waits_iff hreal hq).mp ht
  exact ⟨hreal, hb.1, hqueue⟩

theorem MutexInv.waiter_cases (hi : MutexInv σ) (h : RunOk σ) (h' : SysOk σ') (hs : Stepped σ op σ')
    (hpriv : PrivateQueues op σ) {m : U64} (hm : m ∈ σ.mutexes) (hm' : m ∈ σ'.mutexes)
    (ht : t ∈ σ'.kernel.sched.waits (mutexWaiters m)) :
    t ∈ σ.kernel.sched.waits (mutexWaiters m) ∨ σ.kernel.sched.currentThread = some t ∧
      σ.owner m ≠ mutexNoOwner ∧ ∃ call, σ'.calls t = .lock call ∧ call.mutex = m := by
  have hq := (h.mutexQueue m hm).2
  have hreal := ((h'.sched.ok.mem_wait _ (h'.mutexQueue m hm').2 _).mp ht).1
  obtain ⟨⟨hb', hreason⟩, hqueue⟩ := (h'.sched.ok.mem_waits_iff hreal (h'.mutexQueue m hm').2).mp ht
  obtain ⟨es, hes, hall⟩ := hs.acts h.toSysOk
  rcases hes.parked hb' with ⟨hb, hsame⟩ | ⟨b, hmem, hbq, -⟩
  · rw [hsame] at hreason hqueue
    exact .inl ((h.sched.ok.mem_waits_iff hreal hq).mpr ⟨⟨hb, hreason⟩, hqueue⟩)
  · obtain ⟨hcur, -, -, frame, mstatus, hwhy⟩ := hall _ hmem
    have hbq' : b.queue = some (mutexWaiters m) := by
      rw [hbq] at hqueue
      cases hbn : b.queue with
      | none =>
        rw [hbn] at hqueue
        exact absurd hqueue.symm (h.sched.ok.queue_ne_zero hq)
      | some q => rw [hbn] at hqueue; exact congrArg some hqueue
    refine .inr ⟨hcur, ?_⟩
    generalize hc : σ'.calls t = call at hwhy
    cases hwhy with
    | kernel _ _ hpark =>
      obtain ⟨-, tr, site, rfl, harg, hop⟩ := (hpark b rfl).2 _ hbq'
      exact absurd harg (hpriv hop m hm)
    | user _ _ _ hpark =>
      rw [hpark b rfl] at hbq'
      cases hbq'
    | waits hcall hbusy _ _ _ _ hlock =>
      cases call with
      | idle => exact absurd rfl hbusy
      | lock call =>
        obtain rfl : call.mutex = m := mutexWaiters_inj (Option.some.inj hbq')
        exact ⟨(hlock call rfl).1, call, rfl, rfl⟩
      | submit sub => exact absurd (Option.some.inj hbq').symm (hi.accel m hm)
      | userMemset u sub => exact absurd (Option.some.inj hbq').symm (hi.accel m hm)

theorem MutexInv.waits_step (hi : MutexInv σ) (h : RunOk σ) (h' : SysOk σ') (hb : Books σ op σ') (hs : Stepped σ op σ')
    (hpriv : PrivateQueues op σ) {m : U64} (hm' : m ∈ σ'.mutexes) (ht : t ∈ σ'.kernel.sched.waits (mutexWaiters m)) :
    σ'.owner m ≠ mutexNoOwner ∧ ∃ call, σ'.calls t = .lock call ∧ call.mutex = m := by
  have hold : m ∈ σ.mutexes → σ'.owner m ≠ mutexNoOwner ∧ ∃ call, σ'.calls t = .lock call ∧ call.mutex = m := by
    intro hm
    rcases hi.waiter_cases h h' hs hpriv hm hm' ht with hwas | ⟨hcur, howned, call, hcall, hmc⟩
    · obtain ⟨howned, call, hcall, hmc⟩ := hi.waits m hm t hwas
      refine ⟨hb.owned hm howned h.toSysOk (.inl (List.ne_nil_of_mem hwas)), call, (hb.calls ?_).mpr hcall, hmc⟩
      -- a waiting thread does not run
      intro hcur
      obtain ⟨-, hblocked, -⟩ := h.waiter_blocked hm hwas
      rw [(h.running hcur).state] at hblocked
      cases hblocked
    · exact ⟨hb.owned hm howned h.toSysOk (.inr ⟨t, call, hcur, hcall⟩), call, hcall, hmc⟩
  cases id hb with
  | same _ _ _ hlist => exact hold (hlist ▸ hm')
  | waits _ _ _ _ _ _ _ hlist => exact hold (hlist ▸ hm')
  | returned _ _ _ _ heq => exact hold (by rw [heq, (lockReturned_mutexes _ _).1] at hm'; exact hm')
  | unlocked _ _ _ _ _ _ hlist => exact hold (hlist ▸ hm')
  | @init mutex _ _ _ hnil _ _ hlist =>
    rw [hlist] at hm'
    rcases List.mem_cons.mp hm' with rfl | hm
    · rw [hnil] at ht
      cases ht
    · exact hold hm

/-- Each step keeps the invariant of the mutexes. -/
theorem MutexInv.step (hi : MutexInv σ) (h : RunOk σ) (hen : Enabled op σ) (hone : AttachOnce op σ)
    (hpriv : PrivateQueues op σ) (hx : exec op σ = .ok σ') : MutexInv σ' := by
  have hs := exec_stepped h.toSysOk hen hone hx
  have hb := exec_books h.toSysOk hen hone hx
  have hgrows := hs.grows
  have h' := hs.sysOk h.toSysOk
  constructor
  · intro t call hcall
    exact hi.phase_step h hb hs hpriv hcall
  · intro t m hheld
    exact hi.held_step h.toSysOk hb hheld
  · intro m hm t howns ht
    exact hi.owned_step hb hm howns ht
  · intro m hm t ht
    exact hi.waits_step h h' hb hs hpriv hm ht
  · intro m hm
    rw [hgrows.image]
    cases hb with
    | same _ _ _ hlist => exact hi.accel m (hlist ▸ hm)
    | waits _ _ _ _ _ _ _ hlist => exact hi.accel m (hlist ▸ hm)
    | returned _ _ _ _ heq =>
      rw [heq, (lockReturned_mutexes _ _).1] at hm
      exact hi.accel m hm
    | unlocked _ _ _ _ _ _ hlist => exact hi.accel m (hlist ▸ hm)
    | init _ _ hq _ _ _ hlist =>
      rw [hlist] at hm
      rcases List.mem_cons.mp hm with rfl | hm
      · intro he
        rw [he] at hq
        exact hq hi.accelQueue
      · exact hi.accel m hm
  · rw [hgrows.image]
    exact hgrows.queues _ hi.accelQueue

theorem Booted.mutexInv (hb : Booted σ) : MutexInv σ := by
  constructor
  · intro t call hcall
    rw [hb.calls t] at hcall
    cases hcall
  · intro t m hheld
    rw [hb.holds t m] at hheld
    cases hheld
  · intro m hm
    rw [hb.mutexes] at hm
    cases hm
  · intro m hm
    rw [hb.mutexes] at hm
    cases hm
  · intro m hm
    rw [hb.mutexes] at hm
    cases hm
  · rw [hb.queues]
    exact List.mem_cons_self

/-! ### Runs -/

/-- A run in which the wait queues of mutexes are used by the lock calls only. -/
abbrev MutexRuns (σ : System) (l : List Op) (σ' : System) : Prop :=
  Run System.exec (fun op σ => Enabled op σ ∧ AttachOnce op σ ∧ PrivateQueues op σ) σ l σ'

variable {σ₀ : System} {k : Kernel} {l : List Op}

theorem MutexRuns.inv (h : MutexRuns σ l σ') (hok : RunOk σ) (hi : MutexInv σ) : RunOk σ' ∧ MutexInv σ' := by
  induction h with
  | nil => exact ⟨hok, hi⟩
  | cons hp hx _ ih =>
    exact ih ((exec_stepped hok.toSysOk hp.1 hp.2.1 hx).runOk hok) (hi.step hok hp.1 hp.2.1 hp.2.2 hx)

theorem Runs.mutexRuns (h : Runs σ l σ') (hl : ∀ op ∈ l, ∀ σ, PrivateQueues op σ) : MutexRuns σ l σ' := by
  induction h with
  | nil => exact .nil _
  | cons hp hx _ ih =>
    exact .cons ⟨hp.1, hp.2, hl _ List.mem_cons_self _⟩ hx (ih fun op hm => hl op (List.mem_cons_of_mem _ hm))

theorem MutexRuns.runs (h : MutexRuns σ l σ') : Runs σ l σ' :=
  h.mono fun _ _ hp => ⟨hp.1, hp.2.1⟩

/-! ### A thread that stays away from a mutex -/

/-- Thread `t` does not hold the mutex, and is in no lock call on it. -/
structure Apart (σ : System) (t : Nat) (m : U64) : Prop where
  holds : σ.holds t m = false
  call : ∀ call, σ.calls t = .lock call → call.mutex ≠ m

end System

/-- The mutex that a step tries to take. -/
def Op.takes : Op → Option U64
  | .mutexLock mutex _ | .mutexLockTimeout mutex _ _ | .mutexTrylock mutex => some mutex
  | _ => none

/-- The mutex of a lock call. -/
def Call.mutex : Call → Option U64
  | .lock call => some call.mutex
  | _ => none

theorem Call.mutex_eq_some {call : Call} {m : U64} :
    call.mutex = some m ↔ ∃ lock, call = .lock lock ∧ lock.mutex = m := by
  cases call <;> simp [mutex]

namespace System

theorem Apart.setKernel {k : Kernel} {m : U64} (h : Apart σ t m) : Apart (σ.setKernel k) t m := ⟨h.holds, h.call⟩

theorem Apart.setCall {m : U64} {next : Call} (h : Apart σ t m)
    (hne : t = c → ∀ call, next = .lock call → call.mutex ≠ m) : Apart (σ.setCall c next) t m where
  holds := h.holds
  call call hcall := by
    by_cases htc : t = c
    · subst htc
      rw [setCall_calls_self] at hcall
      exact hne rfl call hcall
    · rw [setCall_calls_of_ne _ _ htc] at hcall
      exact h.call call hcall

theorem Apart.setHolds {m : U64} {held : Bool} {mutex : U64} (h : Apart σ t m) (hne : t = c → m = mutex → held = false) :
    Apart (σ.setHolds c mutex held) t m where
  holds := by
    show Function.update σ.holds c _ t m = false
    by_cases htc : t = c
    · subst htc
      rw [Function.update_self]
      by_cases hm : m = mutex
      · subst hm
        rw [Function.update_self]
        exact hne rfl rfl
      · rw [Function.update_of_ne hm]
        exact h.holds
    · rw [Function.update_of_ne htc]
      exact h.holds
  call := h.call

theorem lockProgress_apart {k : Kernel} {entry : LockEntry} {site : TrapSite} {p : Progress LockCall Int} {m : U64}
    (h : Apart σ t m) (hne : t = c → call.mutex ≠ m) (ho : LockOutcome k call entry p)
    (hx : σ.lockProgress c call.mutex site p = .ok σ') : Apart σ' t m := by
  cases p with
  | ret r k' =>
    obtain rfl := Except.ok.inj hx
    have hidle : Apart ((σ.setKernel k').setCall c .idle) t m := h.setKernel.setCall fun _ => nofun
    split
    · exact hidle
    · exact hidle.setHolds fun htc hm => absurd hm.symm (hne htc)
  | trap regs next k' =>
    obtain ⟨k'', -, hx⟩ := bind_eq_ok.mp hx
    obtain rfl := Except.ok.inj hx
    cases ho with
    | waits =>
      refine h.setKernel.setCall fun htc call' he => ?_
      obtain rfl := Call.lock.inj he
      exact hne htc

theorem submitProgress_apart {site : TrapSite} {p : Progress Submission Int} {m : U64} (h : Apart σ t m)
    (hx : σ.submitProgress c site p = .ok σ') : Apart σ' t m := by
  cases p with
  | ret r k' =>
    obtain rfl := Except.ok.inj hx
    exact h.setKernel.setCall fun _ => nofun
  | trap regs next k' =>
    obtain ⟨k'', -, hx⟩ := bind_eq_ok.mp hx
    obtain rfl := Except.ok.inj hx
    exact h.setKernel.setCall fun _ => nofun

theorem memsetProgress_apart {frame : U64} {site : TrapSite} {p : Progress (UserMemset × Submission) Int} {m : U64}
    (h : Apart σ t m) (hx : σ.memsetProgress c frame site p = .ok σ') : Apart σ' t m := by
  cases p with
  | ret r k' =>
    obtain ⟨⟨mode, k''⟩, -, hx⟩ := bind_eq_ok.mp hx
    obtain rfl := Except.ok.inj hx
    exact h.setKernel.setCall fun _ => nofun
  | trap regs next k' =>
    obtain ⟨k'', -, hx⟩ := bind_eq_ok.mp hx
    obtain rfl := Except.ok.inj hx
    exact h.setKernel.setCall fun _ => nofun

theorem resume_apart {site : TrapSite} {m : U64} (h : SysOk σ) (hen : Enabled (.resume site) σ) (ha : Apart σ t m)
    (hx : exec (.resume site) σ = .ok σ') : Apart σ' t m := by
  obtain ⟨c, hcur, hbusy, -⟩ := hen
  have hx : σ.resume σ.current site = .ok σ' := hx
  rw [current_eq hcur, resume] at hx
  split at hx
  · obtain rfl := Except.ok.inj hx
    exact ha
  · rename_i call hcall
    obtain ⟨p, hp, hx⟩ := bind_eq_ok.mp hx
    refine lockProgress_apart ha (fun htc => ?_)
      (lockResume_outcome (h.threads.masked c hcur (decide_eq_true hbusy)) hp) hx
    subst htc
    exact ha.call call hcall
  · obtain ⟨p, -, hx⟩ := bind_eq_ok.mp hx
    exact submitProgress_apart ha hx
  · obtain ⟨p, -, hx⟩ := bind_eq_ok.mp hx
    obtain ⟨p', -, hx⟩ := bind_eq_ok.mp hx
    exact memsetProgress_apart ha hx

theorem exec_apart {m : U64} (h : SysOk σ) (hen : Enabled op σ)
    (hne : σ.kernel.sched.currentThread = some t → op.takes ≠ some m) (ha : Apart σ t m)
    (hx : exec op σ = .ok σ') : Apart σ' t m := by
  have hset : ∀ {k : Kernel}, σ.setKernel k = σ' → Apart σ' t m := by
    rintro k rfl
    exact ha.setKernel
  cases op with
  | threadCreate | threadCreateUser | userTaskInit | wakeOne | wakeAll | control | dispatchIrqs | pageAlloc | pageFree =>
    obtain ⟨r, -, hx⟩ := bind_eq_ok.mp hx
    exact hset (Except.ok.inj hx)
  | threadStart =>
    obtain ⟨r, -, hx⟩ := bind_eq_ok.mp hx
    obtain ⟨r', -, hx⟩ := bind_eq_ok.mp hx
    exact hset (Except.ok.inj hx)
  | waitQueueInit | mutexInit =>
    obtain ⟨k, -, hx⟩ := bind_eq_ok.mp hx
    obtain rfl := Except.ok.inj hx
    exact ⟨ha.holds, ha.call⟩
  | timer mtime site =>
    have hx : σ.timer mtime site = .ok σ' := hx
    unfold timer at hx
    obtain ⟨k, -, hx⟩ := bind_eq_ok.mp hx
    exact hset (Except.ok.inj hx)
  | ecall regs site =>
    have hx : σ.ecall σ.current regs site = .ok σ' := hx
    unfold ecall at hx
    obtain ⟨⟨action, k⟩, -, hx⟩ := bind_eq_ok.mp hx
    cases action with
    | resume next =>
      obtain ⟨r, -, hx⟩ := bind_eq_ok.mp hx
      exact hset (Except.ok.inj hx)
    | accelMemset frame =>
      obtain ⟨p, -, hx⟩ := bind_eq_ok.mp hx
      exact memsetProgress_apart ha hx
  | resume site => exact resume_apart h hen ha hx
  | mutexLock mutex site =>
    obtain ⟨c, hc, -⟩ := hen
    obtain ⟨p, hp, hx⟩ := bind_eq_ok.mp hx
    rw [current_eq hc.current] at hx
    obtain ⟨-, -, ho⟩ := mutexLock_outcome hp
    refine lockProgress_apart ha (fun htc hm => ?_) ho hx
    exact hne (htc ▸ hc.current) (congrArg some hm)
  | mutexLockTimeout mutex ticks site =>
    obtain ⟨c, hc, -⟩ := hen
    obtain ⟨p, hp, hx⟩ := bind_eq_ok.mp hx
    rw [current_eq hc.current] at hx
    obtain ⟨-, -, ho⟩ := mutexLockTimeout_outcome hp
    refine lockProgress_apart ha (fun htc hm => ?_) ho hx
    exact hne (htc ▸ hc.current) (congrArg some hm)
  | mutexTrylock mutex =>
    obtain ⟨c, hc, -⟩ := hen
    obtain ⟨⟨r, k⟩, -, hx⟩ := bind_eq_ok.mp hx
    rw [current_eq hc.current] at hx
    obtain rfl := Except.ok.inj hx
    split
    · refine ha.setKernel.setHolds fun htc hm => ?_
      exact absurd (congrArg some hm.symm) (hne (htc ▸ hc.current))
    · exact ha.setKernel
  | mutexUnlock mutex =>
    obtain ⟨k, -, hx⟩ := bind_eq_ok.mp hx
    obtain rfl := Except.ok.inj hx
    exact ha.setKernel.setHolds fun _ _ => rfl
  | accelSubmit cmd ticks site =>
    obtain ⟨p, -, hx⟩ := bind_eq_ok.mp hx
    exact submitProgress_apart ha hx
  | accelControl | accelAck | accelStep | write => exact hset (Except.ok.inj hx)

/-! ### Mutual exclusion and hand-off -/

/-- What holds of the mutexes in a state. -/
structure MutexSafe (σ : System) : Prop where
  owner : ∀ t m, σ.holds t m = true → σ.owner m = t
  exclusive : ∀ t t' m, σ.holds t m = true → σ.holds t' m = true → t = t'
  guarded : ∀ m ∈ σ.mutexes, σ.kernel.sched.waits (mutexWaiters m) ≠ [] → σ.owner m ≠ mutexNoOwner
  /-- A lock call goes on after its wait: a timed one is not woken without its mutex. -/
  resumes : ∀ c call, σ.kernel.sched.currentThread = some c → σ.calls c = .lock call →
    ∃ p, call.resume (σ.resumedA0 c) σ.kernel = .ok p
  no_panic : ∀ mutex ticks, mutexLockTimeout mutex ticks σ.kernel ≠ .error "timed mutex wake without ownership"

/-- The thread whose lock call on the mutex comes to wait in the step from `σ` to `σ'`. -/
def joined (σ σ' : System) (m : U64) : List Nat :=
  σ.kernel.sched.currentThread.toList.filter fun c => (σ'.calls c).mutex = some m

/-- What a step does to the owners of the mutexes and to the threads that wait for them. -/
structure MutexStep (σ : System) (op : Op) (σ' : System) : Prop where
  /-- Who waits stays in the order of arrival: a lock call that comes to wait stands behind all others. -/
  arrivals : ∀ m ∈ σ.mutexes, σ'.kernel.sched.waits (mutexWaiters m) =
    σ'.kernel.sched.stillBlocked (σ.kernel.sched.waits (mutexWaiters m)) ++ σ.joined σ' m
  /-- Who stops waiting has been handed the mutex, or has timed out. -/
  leaves : ∀ m ∈ σ.mutexes, ∀ t ∈ σ.kernel.sched.waits (mutexWaiters m), (σ'.kernel.sched.threads t).state ≠ .blocked →
    op = .mutexUnlock m ∧ σ'.owner m = t ∨
      (∃ mtime site, op = .timer mtime site) ∧ (σ.kernel.sched.threads t).waitReason = .queueTimeout ∧
        (σ.kernel.sched.threads t).wakeTick ≤ σ.now + 1
  /-- A thread comes to hold a mutex that was handed to it, or that was free and had no waiter. -/
  no_barging : ∀ t m, σ.holds t m = false → σ'.holds t m = true →
    σ.owner m = t ∨ σ.owner m = mutexNoOwner ∧ σ.kernel.sched.waits (mutexWaiters m) = []
  /-- An unlock hands the mutex to the first waiter, which does not run yet. -/
  handoff : ∀ m, op = .mutexUnlock m →
    σ.kernel.sched.waits (mutexWaiters m) = [] ∧ σ'.owner m = mutexNoOwner ∨
      ∃ next, (σ.kernel.sched.waits (mutexWaiters m)).head? = some next ∧ σ'.owner m = next ∧
        (σ'.kernel.sched.threads next).state = .ready

/-- In this step a timed lock call of thread `c` on the mutex returns `WAIT_TIMEOUT`. -/
inductive LockTimesOut (σ : System) (c : Nat) (m : U64) : Op → Prop
  | call {ticks : U64} {site : TrapSite} {k' : Kernel}
    (h : mutexLockTimeout m ticks σ.kernel = .ok (.ret waitTimeout k')) : LockTimesOut σ c m (.mutexLockTimeout m ticks site)
  | resume {call : LockCall} {site : TrapSite} {k' : Kernel} (hcall : σ.calls c = .lock call) (hm : call.mutex = m)
    (h : call.resume (σ.resumedA0 c) σ.kernel = .ok (.ret waitTimeout k')) : LockTimesOut σ c m (.resume site)

/-- A run in which thread `c` does not try to take the mutex. -/
abbrev ApartRuns (c : Nat) (m : U64) (σ : System) (l : List Op) (σ' : System) : Prop :=
  Run System.exec (fun op σ => Enabled op σ ∧ AttachOnce op σ ∧ PrivateQueues op σ ∧
    (σ.kernel.sched.currentThread = some c → op.takes ≠ some m)) σ l σ'

/-- A thread that runs in a lock call has been handed the mutex, or has timed out. -/
theorem MutexInv.resumes (hi : MutexInv σ) (h : SysOk σ) (hcur : σ.kernel.sched.currentThread = some c)
    (hcall : σ.calls c = .lock call) : ∃ p, call.resume (σ.resumedA0 c) σ.kernel = .ok p := by
  obtain ⟨-, htid, -⟩ := h.lockCall hcall
  rcases hi.phase c call hcall with hw | hg | hout
  · have hb := hw.blocked
    rw [(h.running hcur).state] at hb
    cases hb
  · have howner : (σ.kernel.mutexes call.mutex).owner = call.tid := hg.owner.trans htid.symm
    rw [hg.result]
    cases call with
    | lock mutex tid irqState => exact ⟨_, if_pos howner⟩
    | lockTimeout mutex tid irqState =>
      refine ⟨.ret waitOk (σ.kernel.irqRestore irqState), ?_⟩
      show mutexLockTimeoutResume mutex tid irqState (regInt (intReg waitOk)) σ.kernel = _
      rw [regInt_intReg_ok, mutexLockTimeoutResume, if_neg (by decide)]
      exact if_neg (not_not.mpr howner)
  · have htimed := hout.timed
    rw [hout.result]
    cases call with
    | lock => cases htimed
    | lockTimeout mutex tid irqState =>
      refine ⟨.ret waitTimeout (σ.kernel.irqRestore irqState), ?_⟩
      show mutexLockTimeoutResume mutex tid irqState (regInt (intReg waitTimeout)) σ.kernel = _
      rw [regInt_intReg_timeout, mutexLockTimeoutResume, if_pos rfl]

theorem MutexInv.guarded (hi : MutexInv σ) {m : U64} (hm : m ∈ σ.mutexes)
    (hne : σ.kernel.sched.waits (mutexWaiters m) ≠ []) : σ.owner m ≠ mutexNoOwner := by
  obtain ⟨t, ht⟩ := List.exists_mem_of_ne_nil _ hne
  exact (hi.waits m hm t ht).1

theorem MutexInv.safe (hi : MutexInv σ) (h : SysOk σ) : MutexSafe σ where
  owner t m ht := (hi.held t m ht).2.2.1
  exclusive t t' m ht ht' := (hi.held t m ht).2.2.1.symm.trans (hi.held t' m ht').2.2.1
  guarded _ hm hne := hi.guarded hm hne
  resumes _ _ hcur hcall := hi.resumes h hcur hcall
  no_panic _ _ := mutexLockTimeout_ne_error

theorem Books.joins (hb : Books σ op σ') (h' : SysOk σ') (hcur : σ.kernel.sched.currentThread = some c) {m : U64}
    (hlock : (σ'.calls c).mutex = some m) : c ∈ σ'.kernel.sched.waits (mutexWaiters m) := by
  obtain ⟨call, hcall, rfl⟩ := Call.mutex_eq_some.mp hlock
  obtain ⟨hreal, -, hm, -⟩ := h'.lockCall hcall
  cases hb with
  | same hfree hcalls => exact absurd ((hcalls c call).mp hcall) (hfree c call hcur)
  | @waits d call' hc _ _ hcalls hw =>
    obtain rfl : d = c := Option.some.inj (hc.symm.trans hcur)
    rw [hcalls, Function.update_self] at hcall
    cases hcall
    refine (h'.sched.ok.mem_waits_iff hreal (h'.mutexQueue _ hm).2).mpr ⟨⟨hw.blocked, ?_⟩, hw.queue⟩
    rw [hw.reason]
    split
    · exact .inr rfl
    · exact .inl rfl
  | @returned d _ _ _ _ hc _ _ _ heq =>
    obtain rfl : d = c := Option.some.inj (hc.symm.trans hcur)
    rw [heq, lockReturned_calls, Function.update_self] at hcall
    cases hcall
  | @unlocked d _ _ _ hc _ _ hcalls =>
    obtain rfl : d = c := Option.some.inj (hc.current.symm.trans hcur)
    rw [hcalls, hc.idle] at hcall
    cases hcall
  | init hfree _ _ _ hcalls =>
    rw [hcalls] at hcall
    exact absurd hcall (hfree c call hcur)

/-- A step appends the current thread to the queue of the mutex it comes to wait for, and keeps the order of those
who go on waiting. -/
theorem MutexInv.arrivals_step (hi : MutexInv σ) (h : RunOk σ) (h' : SysOk σ') (hb : Books σ op σ')
    (hs : Stepped σ op σ') (hpriv : PrivateQueues op σ) {m : U64} (hm : m ∈ σ.mutexes) :
    σ'.kernel.sched.waits (mutexWaiters m) =
      σ'.kernel.sched.stillBlocked (σ.kernel.sched.waits (mutexWaiters m)) ++ σ.joined σ' m := by
  have hm' := hs.grows.mutexes m hm
  have hq := (h.mutexQueue m hm).2
  have hcurrent : σ.current ∉ σ.kernel.sched.waits (mutexWaiters m) := by
    intro hmem
    obtain ⟨hreal, hblocked, -⟩ := h.waiter_blocked hm hmem
    cases hcur : σ.kernel.sched.currentThread with
    | none => rw [current, hcur] at hreal; exact tidIsReal_ne_null hreal rfl
    | some c => rw [current_eq hcur, (h.running hcur).state] at hblocked; cases hblocked
  obtain ⟨es, hes, hall⟩ := hs.acts h.toSysOk
  obtain ⟨joined', hjoined, hwaits⟩ := hes.arrivals hq (h.sched.ok.wait_nodup _ hq) hcurrent
    (fun t b he => (current_eq (hall _ he).1).symm) (.inl rfl) (by
      rw [List.append_nil]
      exact (List.filter_eq_self.mpr fun t ht => decide_eq_true (h.waiter_blocked hm ht).2.1).symm)
  -- the current thread joined if and only if it is now in a lock call on the mutex
  have hmem : ∀ t, t ∈ joined' ↔ σ.kernel.sched.currentThread = some t ∧ (σ'.calls t).mutex = some m := by
    intro t
    constructor
    · intro ht
      obtain rfl : t = σ.current := by
        rcases hjoined with rfl | rfl
        · cases ht
        · exact List.mem_singleton.mp ht
      have htw : σ.current ∈ σ'.kernel.sched.waits (mutexWaiters m) := hwaits ▸ List.mem_append_right _ ht
      obtain ⟨hcur, -, hcall⟩ := (hi.waiter_cases h h' hs hpriv hm hm' htw).resolve_left hcurrent
      exact ⟨hcur, Call.mutex_eq_some.mpr hcall⟩
    · rintro ⟨hcur, hcall⟩
      have htw := hb.joins h' hcur hcall
      rw [hwaits] at htw
      refine (List.mem_append.mp htw).resolve_left fun hold => hcurrent ?_
      rw [current_eq hcur]
      exact List.mem_of_mem_filter hold
  rw [hwaits]
  congr 1
  rw [joined]
  rcases hjoined with rfl | rfl
  · refine (List.filter_eq_nil_iff.mpr fun t ht hcall => ?_).symm
    exact List.not_mem_nil ((hmem t).mpr ⟨Option.mem_toList.mp ht, of_decide_eq_true hcall⟩)
  · obtain ⟨hcur, hcall⟩ := (hmem _).mp List.mem_cons_self
    rw [hcur, Option.toList_some, List.filter_singleton, decide_eq_true hcall]
    rfl

theorem MutexInv.leaves_step (hi : MutexInv σ) (h : RunOk σ) (hs : Stepped σ op σ') (hpriv : PrivateQueues op σ)
    {m : U64} (hm : m ∈ σ.mutexes) (ht : t ∈ σ.kernel.sched.waits (mutexWaiters m))
    (hawake : (σ'.kernel.sched.threads t).state ≠ .blocked) :
    op = .mutexUnlock m ∧ σ'.owner m = t ∨
      (∃ mtime site, op = .timer mtime site) ∧ (σ.kernel.sched.threads t).waitReason = .queueTimeout ∧
        (σ.kernel.sched.threads t).wakeTick ≤ σ.now + 1 := by
  obtain ⟨hreal, hblocked, hqueue⟩ := h.waiter_blocked hm ht
  rcases hs.blocked h.toSysOk hreal h.placed hblocked with ⟨hsame, -⟩ | ⟨-, r, cause, s₁, s₂, Q', hev, hact, hth⟩
  · exact absurd (hsame ▸ hblocked) hawake
  cases hact with
  | wake hok hw hc hq =>
    cases cause with
    | event q =>
      have hmem : t ∈ s₁.waits q := List.mem_of_mem_head? hc.1
      have heq := ((hok.mem_waits_iff hreal (hq q rfl)).mp hmem).2
      rw [hth, hqueue] at heq
      rcases hev.2 with he | he | ⟨-, he⟩ | ⟨mutex, he, hmq, howner⟩
      · subst he; exact absurd heq.symm (hpriv _ hm)
      · subst he; exact absurd heq.symm (hpriv _ hm)
      · exact absurd (heq.trans he) (hi.accel m hm)
      · obtain rfl := mutexWaiters_inj (heq.trans hmq)
        exact .inl ⟨he, howner⟩
    | timer now =>
      obtain ⟨hop, rfl⟩ := hev
      obtain ⟨-, hdue, hreason⟩ := hc
      rw [hth] at hdue hreason
      refine .inr ⟨hop, hreason.elim And.left fun hsleep => ?_, hdue⟩
      -- who waits on a queue does not sleep
      have hin := ((h.sched.ok.mem_waits_iff hreal (h.mutexQueue m hm).2).mp ht).1.2
      rw [hsleep.1] at hin
      rcases hin with hin | hin <;> cases hin

theorem MutexInv.mutexStep (hi : MutexInv σ) (h : RunOk σ) (hen : Enabled op σ) (hb : Books σ op σ')
    (hs : Stepped σ op σ') (hpriv : PrivateQueues op σ) (hx : exec op σ = .ok σ') : MutexStep σ op σ' := by
  constructor
  · intro m hm
    exact hi.arrivals_step h (hs.sysOk h.toSysOk) hb hs hpriv hm
  · intro m hm t ht hawake
    exact hi.leaves_step h hs hpriv hm ht hawake
  · intro t m hnot hheld
    cases hb with
    | same _ _ hholds => rw [hholds, hnot] at hheld; cases hheld
    | waits _ _ _ _ _ _ hholds => rw [hholds, hnot] at hheld; cases hheld
    | @returned c call entry r k' hcur hcall _ ho heq =>
      rcases ho.ret_cases with ⟨rfl, -, -, hwas⟩ | ⟨rfl, -⟩
      · rw [heq, lockReturned_holds_ok] at hheld
        by_cases htc : t = c
        · subst htc
          rw [Function.update_self] at hheld
          by_cases hmc : m = call.mutex
          · subst hmc
            rcases hwas with hfree | hwas
            · refine .inr ⟨hfree, ?_⟩
              by_contra hne
              exact hi.guarded hcall.2.1 hne hfree
            · exact .inl (hwas.trans hcall.1)
          · rw [Function.update_of_ne hmc, hnot] at hheld
            cases hheld
        · rw [Function.update_of_ne htc, hnot] at hheld
          cases hheld
      · rw [heq, lockReturned_holds_timeout, hnot] at hheld
        cases hheld
    | @unlocked c next mutex _ _ _ _ _ hholds =>
      rw [hholds] at hheld
      by_cases htc : t = c
      · subst htc
        rw [Function.update_self] at hheld
        by_cases hmc : m = mutex
        · subst hmc
          rw [Function.update_self] at hheld
          cases hheld
        · rw [Function.update_of_ne hmc, hnot] at hheld
          cases hheld
      · rw [Function.update_of_ne htc, hnot] at hheld
        cases hheld
    | init _ _ _ _ _ hholds => rw [hholds, hnot] at hheld; cases hheld
  · rintro m rfl
    obtain ⟨c, hc, hm, -⟩ := hen
    obtain ⟨k₁, h₁, hx⟩ := bind_eq_ok.mp hx
    obtain rfl := Except.ok.inj hx
    obtain ⟨-, next, s', rfl, -, hnext⟩ := mutexUnlock_ok h.sched (h.mutexQueue m hm).2 h₁
    have howner : (Function.update σ.kernel.mutexes m { σ.kernel.mutexes m with owner := next } m).owner = next := by
      rw [Function.update_self]
    rcases hnext with ⟨rfl, hnil, -⟩ | ⟨hhead, hw⟩
    · exact .inl ⟨hnil, howner⟩
    · refine .inr ⟨next, hhead, howner, ?_⟩
      show (s'.threads next).state = _
      rw [hw.self]
      rfl

theorem LockTimesOut.apart {m : U64} (ht : LockTimesOut σ c m op) (hi : MutexInv σ) (hen : Enabled op σ)
    (hcur : σ.kernel.sched.currentThread = some c) (hx : exec op σ = .ok σ') : Apart σ' c m := by
  cases ht with
  | @call ticks site k' hret =>
    obtain ⟨d, hd, -, howner, -⟩ := hen
    obtain rfl : c = d := Option.some.inj (hcur.symm.trans hd.current)
    obtain ⟨p, hp, hx⟩ := bind_eq_ok.mp hx
    rw [current_eq hcur] at hx
    cases hret.symm.trans hp
    obtain rfl := Except.ok.inj hx
    refine ⟨?_, fun call hcall => ?_⟩
    · show σ.holds c m = false
      by_contra hne
      exact howner (hi.held c m (Bool.eq_true_of_not_eq_false hne)).2.2.1
    · have hidle : ((σ.setKernel k').setCall c .idle).calls c = .lock call := hcall
      rw [setCall_calls_self] at hidle
      cases hidle
  | @resume call site k' hcall hm hret =>
    obtain ⟨d, hd, -⟩ := hen
    obtain rfl : c = d := Option.some.inj (hcur.symm.trans hd)
    have hx : σ.resume σ.current site = .ok σ' := hx
    rw [current_eq hcur, System.resume, hcall] at hx
    obtain ⟨p, hp, hx⟩ := bind_eq_ok.mp hx
    cases hret.symm.trans hp
    obtain rfl := Except.ok.inj hx
    refine ⟨?_, fun call' hcall' => ?_⟩
    · show σ.holds c m = false
      by_contra hne
      exact (hi.held c m (Bool.eq_true_of_not_eq_false hne)).2.2.2 call hcall hm
    · have hidle : ((σ.setKernel k').setCall c .idle).calls c = .lock call' := hcall'
      rw [setCall_calls_self] at hidle
      cases hidle

theorem LockTimesOut.mem {m : U64} (ht : LockTimesOut σ c m op) (h : SysOk σ) (hen : Enabled op σ) : m ∈ σ.mutexes := by
  cases ht with
  | call =>
    obtain ⟨-, -, hm, -⟩ := hen
    exact hm
  | resume hcall hm => exact hm ▸ (h.lockCall hcall).2.2.1

theorem ApartRuns.inv {m : U64} (h : ApartRuns c m σ l σ') (hok : RunOk σ) (hi : MutexInv σ) (ha : Apart σ c m)
    (hm : m ∈ σ.mutexes) : RunOk σ' ∧ MutexInv σ' ∧ Apart σ' c m ∧ m ∈ σ'.mutexes := by
  induction h with
  | nil => exact ⟨hok, hi, ha, hm⟩
  | cons hp hx _ ih =>
    obtain ⟨hen, hone, hpriv, hne⟩ := hp
    have hs := exec_stepped hok.toSysOk hen hone hx
    exact ih (hs.runOk hok) (hi.step hok hen hone hpriv hx) (exec_apart hok.toSysOk hen hne ha hx) (hs.grows.mutexes _ hm)

theorem MutexInv.apart {m : U64} (hi : MutexInv σ) (ha : Apart σ c m) (hm : m ∈ σ.mutexes) (hc : c ≠ mutexNoOwner) :
    σ.owner m ≠ c ∧ c ∉ σ.kernel.sched.waits (mutexWaiters m) := by
  refine ⟨fun howner => ?_, fun hmem => ?_⟩
  · rcases hi.owned m hm c howner hc with hheld | ⟨call, hcall, hmc⟩
    · rw [ha.holds] at hheld
      cases hheld
    · exact ha.call call hcall hmc
  · obtain ⟨-, call, hcall, hmc⟩ := hi.waits m hm c hmem
    exact ha.call call hcall hmc

/-- Mutual exclusion, and hand-off in the order of arrival, in every run. -/
theorem mutex_handoff (hf : Fresh k) (hboot : boot k = .ok σ₀) (h : MutexRuns σ₀ l σ) :
    MutexSafe σ ∧
    (∀ op σ', Enabled op σ → AttachOnce op σ → PrivateQueues op σ → exec op σ = .ok σ' → MutexStep σ op σ') ∧
    (∀ l' σ', MutexRuns σ l' σ' → (∃ es, History σ l' es σ') ∧ ∀ es, History σ l' es σ' →
      ∀ m ∈ σ.mutexes, σ'.kernel.sched.waits (mutexWaiters m) =
        es.foldl (SchedEvent.queued (mutexWaiters m)) (σ.kernel.sched.waits (mutexWaiters m))) ∧
    (∀ c m op σ₁ l' σ₂, σ.kernel.sched.currentThread = some c → Enabled op σ → AttachOnce op σ →
      PrivateQueues op σ → LockTimesOut σ c m op → exec op σ = .ok σ₁ → ApartRuns c m σ₁ l' σ₂ →
      σ₂.owner m ≠ c ∧ c ∉ σ₂.kernel.sched.waits (mutexWaiters m)) := by
  have hb := boot_ok hf hboot
  obtain ⟨hok, hi⟩ := h.inv hb.runOk hb.mutexInv
  refine ⟨hi.safe hok.toSysOk, ?_, ?_, ?_⟩
  · intro op σ' hen hone hpriv hx
    exact hi.mutexStep hok hen (exec_books hok.toSysOk hen hone hx) (exec_stepped hok.toSysOk hen hone hx) hpriv hx
  · intro l' σ' h'
    refine ⟨h'.runs.history hok.toSysOk, fun es hes m hm => ?_⟩
    exact (hes.acts hok.toSysOk).waits (hok.mutexQueue m hm).2
  · intro c m op σ₁ l' σ₂ hcur hen hone hpriv ht hx h'
    have hs := exec_stepped hok.toSysOk hen hone hx
    have hm := ht.mem hok.toSysOk hen
    obtain ⟨-, hi₂, ha₂, hm₂⟩ := h'.inv (hs.runOk hok) (hi.step hok hen hone hpriv hx)
      (ht.apart hi hen hcur hx) (hs.grows.mutexes m hm)
    exact hi₂.apart ha₂ hm₂ (hok.toSysOk.current_ne_noOwner hcur)

/-- Three threads lock a mutex in turn; the unlock hands it to the second, and the third goes on waiting. -/
theorem mutex_handoff_sample : ∃ σ σ' : System, σ.owner 0x80010000 = 1 ∧ σ.kernel.sched.waits 0x80010008 = [2, 3] ∧
    σ'.owner 0x80010000 = 2 ∧ σ'.kernel.sched.waits 0x80010008 = [3] ∧ MutexSafe σ ∧
    MutexStep σ (.mutexUnlock 0x80010000) σ' := by
  obtain ⟨σ₀, σ, hboot, h, hp⟩ := runs_of_bootCheck
    (p := fun σ => (σ.owner 0x80010000 = 1 ∧ σ.kernel.sched.waits 0x80010008 = [2, 3] ∧
      Enabled (.mutexUnlock 0x80010000) σ) ∧ succeeds (fun σ' => σ'.owner 0x80010000 = 2 ∧
        σ'.kernel.sched.waits 0x80010008 = [3]) (exec (.mutexUnlock 0x80010000) σ))
    (l := [.threadCreate (some "a") 0x80004000 0, .threadCreate (some "b") 0x80004000 1,
      .threadCreate (some "c") 0x80004000 2, .mutexInit 0x80010000 none, .threadStart,
      .mutexLock 0x80010000 (sampleSite 1), .control { op := threadTrapYield, arg0 := 0, arg1 := none } (sampleSite 1),
      .mutexLock 0x80010000 (sampleSite 2), .mutexLock 0x80010000 (sampleSite 3)])
    (k := sampleKernel) (by decide +kernel)
  obtain ⟨⟨howner, hwaits, hen⟩, hafter⟩ := of_decide_eq_true hp
  have hrun : MutexRuns σ₀ _ σ := h.mutexRuns (by
    intro op hmem σ
    simp only [List.mem_cons, List.not_mem_nil, or_false] at hmem
    rcases hmem with rfl | rfl | rfl | rfl | rfl | rfl | rfl | rfl | rfl <;>
      simp [PrivateQueues, threadTrapYield, threadTrapWait, threadTrapWaitTimeout])
  obtain ⟨hsafe, hstep, -⟩ := mutex_handoff sampleKernel_fresh hboot hrun
  obtain ⟨σ', hx, hafter⟩ := of_succeeds hafter
  obtain ⟨howner', hwaits'⟩ := of_decide_eq_true hafter
  exact ⟨σ, σ', howner, hwaits, howner', hwaits', hsafe, hstep _ σ' hen trivial trivial hx⟩

end System

end QemuRtos
