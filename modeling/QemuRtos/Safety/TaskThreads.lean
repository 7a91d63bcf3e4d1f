import QemuRtos.SystemRun
import QemuRtos.Safety.Tasks

/-!
# Threads and the user tasks they run

`thread_create_user` checks that the task is ready, and not that no thread has it. When every thread is
created for a task that no live thread has, each task has at most one live thread, and that thread's trap
context stays allocated until the thread has exited. A second thread for a task outlives the task.
-/

namespace QemuRtos

open Lib

/-- What creates threads and user tasks, and what runs, blocks, wakes and ends them. -/
def Op.Tends : Op → Prop
  | .ecall regs _ => regs.a7 ≠ userSyscallAccelMemset
  | .accelSubmit .. | .accelControl _ | .accelAck _ | .accelStep | .dispatchIrqs | .pageFree _ | .write _ => False
  | _ => True

/-- `k'` is `k` after a step that concerns neither the page allocator, nor memory, nor the user tasks. -/
structure TasksKept (k k' : Kernel) : Prop where
  machine : k'.machine = { k.machine with sie := k'.machine.sie }
  tasks : k'.tasks = k.tasks

section

variable {k k' k'' : Kernel} {Q : Set U64} {c : Nat} {frame next : U64} {f : TrapFrame} {l : Leave}

theorem TasksKept.trans (h : TasksKept k k') (h' : TasksKept k' k'') : TasksKept k k'' where
  machine := by rw [h'.machine, h.machine]
  tasks := h'.tasks.trans h.tasks

theorem Returned.tasksKept (h : Returned next k k') : TasksKept k k' := by
  cases h with
  | supervisor => exact ⟨rfl, rfl⟩
  | user => exact ⟨rfl, rfl⟩

theorem Trapped.tasksKept (h : Trapped Q c frame f l k k') : TasksKept k k' := by
  obtain ⟨next, s', -, hr⟩ := h
  exact ⟨hr.tasksKept.machine, hr.tasksKept.tasks⟩

end

/-- The kernel's clients of the page allocator: the user tasks, and other code, which holds the pages `held`. -/
def Kernel.clients (k : Kernel) (held : U64 → Bool) : Clients := { kernel := k, spaces := fun _ => ⟨0⟩, held := held }

/-- What holds of live threads and their tasks. -/
structure TaskLaw (k : Kernel) : Prop where
  unique : ∀ t u, tidIsReal t → tidIsReal u → (k.sched.threads t).state.live → (k.sched.threads u).state.live →
    (k.sched.threads t).userTask ≠ 0 → (k.sched.threads t).userTask = (k.sched.threads u).userTask → t = u
  ready : ∀ t, tidIsReal t → (k.sched.threads t).state.live → (k.sched.threads t).userTask ≠ 0 →
    userTaskIsReady (k.sched.threads t).userTask k
  allocated : ∀ t, tidIsReal t → (k.sched.threads t).state.live → (k.sched.threads t).userTask ≠ 0 →
    k.machine.pages.Allocated (k.tasks (k.sched.threads t).userTask).trapContext
  frame : ∀ t, tidIsReal t → (k.sched.threads t).state.live → (k.sched.threads t).userTask ≠ 0 →
    (k.sched.threads t).trapFrame = (k.tasks (k.sched.threads t).userTask).trapContext

namespace System

variable {σ σ' : System} {op : Op} {place : TablePlaces} {held : U64 → Bool} {c : Nat}

/-- No thread is created for a task that a live thread has. A call that creates no thread is harmless. -/
def AttachFree (op : Op) (σ : System) : Prop :=
  match op with
  | .threadCreateUser _ task => userTaskIsReady task σ.kernel →
      (∃ tid, tidIsReal tid ∧ (σ.kernel.sched.threads tid).state.live = false) →
      ∀ t, tidIsReal t → (σ.kernel.sched.threads t).state.live → (σ.kernel.sched.threads t).userTask ≠ task
  | _ => True

/-- No thread is in an accelerator call. -/
def OffAccel (σ : System) : Prop := ∀ t, σ.calls t = .idle ∨ ∃ call, σ.calls t = .lock call

structure TendOk (σ : System) : Prop where
  sys : SysOk σ
  calls : σ.OffAccel
  tables : ∃ place held, (σ.kernel.clients held).Ok place

end System

section

variable {k k' k₂ : Kernel} {place : TablePlaces} {held held' : U64 → Bool}

/-- `k'` is `k` after other code has taken pages, and has written in the pages it holds. -/
structure ClientsGrow (held held' : U64 → Bool) (k k' : Kernel) : Prop where
  image : k'.machine.image = k.machine.image
  tasks : k'.tasks = k.tasks
  pages : PagesOk k'.machine.pages
  allocated : ∀ a, k'.machine.pages.Allocated a ↔ k.machine.pages.Allocated a ∨ held' a = true
  keeps : ∀ a, held a = true → held' a = true
  fresh : ∀ a, held' a = true → held a = true ∨ ¬k.machine.pages.Allocated a
  mem : ∀ x, (∀ a, held' a = true → ¬InPage a x) → k'.machine.mem x = k.machine.mem x

/-- What other code takes and writes is nothing of the tasks. -/
theorem ClientsGrow.clients (hg : ClientsGrow held held' k k') (h : (k.clients held).Ok place) : (k'.clients held').Ok place := by
  have hnew : ∀ {a}, held' a = true → place a = none := by
    intro a ha
    rcases hg.fresh a ha with hheld | hfree
    · exact (h.held .clients a hheld).2
    · by_contra hne
      obtain ⟨x, hx⟩ := Option.ne_none_iff_exists'.mp hne
      exact hfree (h.tables.allocated hx)
  have hkeep : ∀ t, place t ≠ none → ∀ x, InPage t x → k'.machine.mem x = k.machine.mem x := by
    intro t ht x hx
    obtain ⟨y, hy⟩ := Option.ne_none_iff_exists'.mp ht
    refine hg.mem x fun a ha hxa => ht ?_
    rw [hx.unique (h.tables.aligned hy) ((hg.allocated a).mpr (.inr ha)).1.aligned hxa]
    exact hnew ha
  obtain ⟨hw, hlookup⟩ := Within.of_write k'.machine.mem 0 ∅ h.tables hkeep
  have hmapped : ∀ {r}, place r = some (r, []) → ∀ va, mapped k'.machine r va = mapped k.machine r va :=
    fun hr va => hlookup _ va hr
  have htasks : ∀ task, some (Clients.Owner.task task) ≠ some .clients →
      (k'.clients held').kernel.tasks task = (k.clients held).kernel.tasks task := fun task _ => congrFun hg.tasks task
  have hroot : ∀ o, (k'.clients held').root o = (k.clients held).root o := by
    intro o
    by_cases ho : some o = some .clients
    · obtain rfl := Option.some.inj ho
      rfl
    · exact Clients.root_congr (fun _ _ => rfl) htasks ho
  have hframes : ∀ o, some o ≠ some .clients → (k'.clients held').frames o = (k.clients held).frames o := fun o ho =>
    Clients.frames_congr htasks (fun hne => absurd rfl hne) ho
  have hold : ∀ {a}, k.machine.pages.Allocated a → k'.machine.pages.Allocated a := fun ha => (hg.allocated _).mpr (.inl ha)
  -- what other code has taken is no frame of a task
  have hapart : ∀ {o a}, some o ≠ some .clients → a ∈ (k.clients held).frames o → held' a ≠ true := by
    intro o a ho ha hheld
    rcases hg.fresh a hheld with hheld | hfree
    · exact ho (congrArg some (h.disjoint o .clients a ha hheld))
    · exact hfree (h.held o a ha).1
  refine ⟨⟨hg.pages, hw.ok.forest, fun hx => hold (h.tables.allocated hx)⟩, fun o hz => ?_, fun o o' hz he => ?_,
    fun o a ha => ?_, fun o o' a ha ha' => ?_, fun task halive => ?_⟩
  · rw [hroot] at hz ⊢
    exact h.live o hz
  · rw [hroot] at hz
    rw [hroot, hroot] at he
    exact h.roots o o' hz he
  · by_cases ho : some o = some .clients
    · obtain rfl := Option.some.inj ho
      exact ⟨(hg.allocated a).mpr (.inr ha), hnew ha⟩
    · rw [hframes o ho] at ha
      obtain ⟨halloc, hnone⟩ := h.held o a ha
      exact ⟨hold halloc, hnone⟩
  · by_cases ho : some o = some .clients <;> by_cases ho' : some o' = some .clients
    · exact Option.some.inj (ho.trans ho'.symm)
    · obtain rfl := Option.some.inj ho
      rw [hframes o' ho'] at ha'
      exact absurd ha (hapart ho' ha')
    · obtain rfl := Option.some.inj ho'
      rw [hframes o ho] at ha
      exact absurd ha' (hapart ho ha)
    · rw [hframes o ho] at ha
      rw [hframes o' ho'] at ha'
      exact h.disjoint o o' a ha ha'
  · have hok := h.tasks task ((Clients.alive_congr (htasks task nofun)).mp halive)
    rw [htasks task nofun]
    refine ⟨hok.live, hok.satp, ⟨fun a ha hz => ?_, hok.frames.code_stack, hok.frames.code_context, hok.frames.stack_context⟩,
      hok.present, hg.image.symm ▸ hok.trampoline, fun va => ?_⟩
    · obtain ⟨halloc, hnone⟩ := hok.frames.held a ha hz
      exact ⟨hold halloc, hnone⟩
    · rw [show mapped (k'.clients held').kernel.machine _ va = _ from hmapped hok.live va,
        show (k'.clients held').kernel.machine.image = _ from hg.image]
      exact hok.mapping va

theorem TasksKept.clients (hk : TasksKept k k') (h : (k.clients held).Ok place) : (k'.clients held).Ok place := by
  have hpages : k'.machine.pages = k.machine.pages := by rw [hk.machine]
  refine ClientsGrow.clients ⟨by rw [hk.machine], hk.tasks, hpages ▸ h.tables.pages, fun a => ?_, fun _ => id, fun _ => .inl,
    fun x _ => by rw [hk.machine]⟩ h
  rw [hpages]
  exact (or_iff_left_of_imp fun ha => (h.held .clients a ha).1).symm

theorem clients_exit {task code : U64} {s : Sched} (h : (k.clients held).Ok place) (hready : userTaskIsReady task k)
    (hrel : userTaskReleaseResources task { k with
      machine := { k.machine with sie := false }
      sched := s
      tasks := Function.update k.tasks task { k.tasks task with state := .exited, exitCode := code } } = .ok k₂) :
    ∃ place', (Kernel.clients (k₂.setTask task fun t => { t with state := .destroyed }) held).Ok place' := by
  obtain ⟨hnull, -⟩ := userTaskIsReady_iff.mp hready
  let k₀ : Kernel := { k with machine := { k.machine with sie := false }, sched := s }
  let k₁ : Kernel := k₀.setTask task fun t => { t with state := .exited, exitCode := code }
  have hok₀ : (k₀.clients held).Ok place := TasksKept.clients ⟨rfl, rfl⟩ h
  have hready₀ : userTaskIsReady task k₀ = true := hready
  obtain ⟨r, c₁, hmark, hstep, -⟩ := Clients.taskMarkExited_step hok₀ task code
  rw [Clients.exec, userTaskMarkExited, show (k₀.clients held).kernel = k₀ from rfl, if_neg (by simp [hready₀])] at hmark
  obtain rfl := (Prod.mk.inj (Except.ok.inj hmark)).2
  obtain ⟨r, c₂, place', hdestroy, hstep', -⟩ := Clients.taskDestroy_step hstep.ok task
  have hguard : ¬(task = 0 ∨ (k₁.tasks task).state ≠ .exited) := by
    rw [Kernel.setTask_self]
    exact not_or.mpr ⟨hnull, not_not.mpr rfl⟩
  obtain ⟨⟨r', k'⟩, hrun, hout⟩ := bind_eq_ok.mp hdestroy
  have hrun : userTaskDestroy task k₁ = .ok (r', k') := hrun
  rw [userTaskDestroy, if_neg hguard] at hrun
  obtain ⟨k₃, hrel', hrun⟩ := bind_eq_ok.mp hrun
  obtain rfl : k₃ = k₂ := Except.ok.inj (hrel'.symm.trans hrel)
  obtain rfl := (Prod.mk.inj (Except.ok.inj hrun)).2
  obtain rfl := (Prod.mk.inj (Except.ok.inj hout)).2
  exact ⟨place', hstep'.ok⟩

end

namespace System

variable {σ σ' : System} {op : Op} {place : TablePlaces} {held : U64 → Bool} {c : Nat}

/-- A call stays as it is, ends, or becomes a lock call. -/
def CallsKept (σ σ' : System) : Prop :=
  ∀ t, σ'.calls t = σ.calls t ∨ σ'.calls t = .idle ∨ ∃ call, σ'.calls t = .lock call

theorem OffAccel.kept (h : σ.OffAccel) (hc : CallsKept σ σ') : σ'.OffAccel := by
  intro t
  obtain ht | ht | ht := hc t
  · rw [ht]
    exact h t
  · exact .inl ht
  · exact .inr ht

theorem callsKept_setCall {k : Kernel} {call : Call} (hcall : call = .idle ∨ ∃ lock, call = .lock lock) :
    CallsKept σ ((σ.setKernel k).setCall c call) := by
  intro t
  by_cases ht : t = c
  · subst ht
    rw [setCall_calls_self]
    exact .inr (hcall.imp id fun ⟨lock, hl⟩ => ⟨lock, hl⟩)
  · rw [setCall_calls_of_ne _ _ ht]
    exact .inl rfl

theorem LockStep.tended {call : LockCall} (hs : LockStep σ op c call σ') :
    TasksKept σ.kernel σ'.kernel ∧ CallsKept σ σ' := by
  cases hs with
  | @returned entry r k' hentry ho =>
    refine ⟨?_, ?_⟩
    · rw [lockReturned]
      have hk : TasksKept σ.kernel k' := by cases ho <;> exact ⟨rfl, rfl⟩
      split
      · exact hk
      · exact hk
    · have hcalls : CallsKept σ ((σ.setKernel k').setCall c .idle) := callsKept_setCall (.inl rfl)
      rw [lockReturned]
      split
      · exact hcalls
      · exact hcalls
  | waits hwhy ht =>
    refine ⟨?_, callsKept_setCall (.inr ⟨call, rfl⟩)⟩
    have hsave : TasksKept σ.kernel σ.kernel.irqSave.2 := ⟨rfl, rfl⟩
    exact hsave.trans ht.tasksKept

theorem CallsKept.of_eq (h : σ'.calls = σ.calls) : CallsKept σ σ' := fun t => .inl (congrFun h t)

theorem resume_tended {site : TrapSite} (h : SysOk σ) (hoff : σ.OffAccel) (hen : Enabled (.resume site) σ)
    (hx : exec (.resume site) σ = .ok σ') : TasksKept σ.kernel σ'.kernel ∧ CallsKept σ σ' := by
  obtain ⟨c, hcur, hbusy, hon⟩ := id hen
  obtain ⟨call, hcall⟩ := (hoff c).resolve_left hbusy
  exact (exec_resume_lock h hen hcur hcall hx).tended

theorem timer_tended {mtime : Nat} {site : TrapSite} (h : SysOk σ) (hen : Enabled (.timer mtime site) σ)
    (hx : exec (.timer mtime site) σ = .ok σ') : TasksKept σ.kernel σ'.kernel ∧ CallsKept σ σ' := by
  obtain ⟨k₁, h₁, hx⟩ := bind_eq_ok.mp hx
  obtain rfl := Except.ok.inj hx
  refine ⟨?_, .of_eq rfl⟩
  cases hcur : σ.kernel.sched.currentThread with
  | none =>
    obtain ⟨timer, -, hr⟩ := takeTrap_timer_unstarted h.sched hcur rfl h₁
    exact ⟨hr.tasksKept.machine, hr.tasksKept.tasks⟩
  | some c =>
    rw [current_eq hcur] at h₁
    rw [Enabled, hcur] at hen
    dsimp only at hen h₁
    have hframe : (if (σ.kernel.sched.threads c).userTask = 0 then site.frame
        else (σ.kernel.tasks (σ.kernel.sched.threads c).userTask).trapContext) ≠ 0 := by
      by_cases htask : (σ.kernel.sched.threads c).userTask = 0
      · rw [if_pos htask] at hen ⊢
        exact hen.2.ne_zero
      · rw [if_neg htask]
        have hready := (h.threads.thread c (h.real_of_userTask hcur htask)).ready htask
        exact (userTaskIsReady_iff.mp hready).2.2.2.2
    obtain ⟨_, _, _, _, _, _, _, _, _, _, _, _, _, hr⟩ := takeTrap_timer_ok h.sched hcur hframe rfl h₁
    exact ⟨hr.tasksKept.machine, hr.tasksKept.tasks⟩

theorem userSyscallDispatch_resumes {k k' : Kernel} {frame : U64} {action : TrapAction}
    (haccel : (k.sched.frames frame).a7 ≠ userSyscallAccelMemset)
    (h : userSyscallDispatch frame k = .ok (action, k')) : ∃ next, action = .resume next := by
  simp only [userSyscallDispatch, haccel, ↓reduceIte] at h
  split_ifs at h <;> obtain ⟨next, -, hact⟩ := resuming_eq_ok.mp h
  all_goals exact ⟨next, hact⟩

/-- What a user thread's system call starts from. -/
structure Calling (σ : System) (regs : TrapFrame) (c : Nat) (frame : U64) (k₀ : Kernel) : Prop where
  current : k₀.sched.currentThread = some c
  sched : SchedInv σ.queueSet k₀.sched
  task : (k₀.sched.threads c).userTask ≠ 0
  ready : userTaskIsReady (k₀.sched.threads c).userTask k₀
  context : frame = (k₀.tasks (k₀.sched.threads c).userTask).trapContext
  regs : k₀.sched.frames frame = ecallFrame σ.kernel.machine.sie regs
  spp : (k₀.sched.frames frame).mstatus &&& sstatusSpp = 0
  kept : TasksKept σ.kernel k₀

theorem ecall_calling {regs : TrapFrame} {site : TrapSite} (h : SysOk σ) (hen : Enabled (.ecall regs site) σ)
    (haccel : regs.a7 ≠ userSyscallAccelMemset) (hx : exec (.ecall regs site) σ = .ok σ') :
    ∃ c frame k₀ next k₁ r, Calling σ regs c frame k₀ ∧ userSyscallDispatch frame k₀ = .ok (.resume next, k₁) ∧
      trapReturnFromHandler next k₁ = .ok (r, σ'.kernel) ∧ σ'.calls = σ.calls := by
  obtain ⟨c, hcur, -, htask, -⟩ := hen
  have hready := (h.threads.thread c (h.real_of_userTask hcur htask)).ready htask
  have hx : σ.ecall σ.current regs site = .ok σ' := hx
  rw [current_eq hcur] at hx
  obtain ⟨⟨action, k₁⟩, h₁, hx⟩ := bind_eq_ok.mp hx
  obtain ⟨frame, hctx⟩ : ∃ frame, frame = (σ.kernel.tasks (σ.kernel.sched.threads c).userTask).trapContext := ⟨_, rfl⟩
  rw [← hctx] at h₁
  have hf : (trapEnter frame (ecallFrame σ.kernel.machine.sie regs) σ.kernel).sched.frames frame =
      ecallFrame σ.kernel.machine.sie regs := trapEnter_frame ..
  have hcall : Calling σ regs c frame (trapEnter frame (ecallFrame σ.kernel.machine.sie regs) σ.kernel) := by
    refine ⟨hcur, ?_, htask, hready, hctx, hf, ?_, ⟨rfl, rfl⟩⟩
    · rw [trapEnter_sched]
      exact h.sched.setFrame _
    · rw [hf]
      show trapStatus false _ _ &&& sstatusSpp = 0
      rw [trapStatus_spp]
      rfl
  rw [trapHandle_ecall (by rw [hf]; rfl)] at h₁
  cases action with
  | resume next =>
    obtain ⟨⟨r, k₂⟩, hret, hx⟩ := bind_eq_ok.mp hx
    obtain rfl := Except.ok.inj hx
    exact ⟨c, frame, _, next, k₁, r, hcall, h₁, hret, rfl⟩
  | accelMemset frame' =>
    have hnr : (ecallFrame σ.kernel.machine.sie regs).a7 ≠ userSyscallAccelMemset := haccel
    obtain ⟨next, hact⟩ := userSyscallDispatch_resumes (by rw [hf]; exact hnr) h₁
    cases hact

theorem ecall_tended {regs : TrapFrame} {site : TrapSite} (h : SysOk σ) (hen : Enabled (.ecall regs site) σ)
    (haccel : regs.a7 ≠ userSyscallAccelMemset) (hexit : regs.a7 ≠ userSyscallExit)
    (hx : exec (.ecall regs site) σ = .ok σ') : TasksKept σ.kernel σ'.kernel ∧ CallsKept σ σ' := by
  obtain ⟨c, frame, k₀, next, k₁, r, hc, h₁, hret, hcalls⟩ := ecall_calling h hen haccel hx
  obtain ⟨l, g, next', s', heq, -, -⟩ := userSyscallDispatch_spec hc.sched hc.current hc.ready hc.context hc.spp
    (by rw [hc.regs]; exact hexit) (by rw [hc.regs]; exact haccel)
  obtain ⟨-, rfl⟩ := Prod.mk.inj (Except.ok.inj (h₁.symm.trans heq))
  have hr := (trapReturnFromHandler_ok hret).tasksKept
  exact ⟨hc.kept.trans ⟨hr.machine, hr.tasks⟩, .of_eq hcalls⟩

theorem ecall_exit_clients {regs : TrapFrame} {site : TrapSite} (h : SysOk σ) (hen : Enabled (.ecall regs site) σ)
    (hexit : regs.a7 = userSyscallExit) (hx : exec (.ecall regs site) σ = .ok σ')
    (hok : (σ.kernel.clients held).Ok place) : (∃ place', (σ'.kernel.clients held).Ok place') ∧ CallsKept σ σ' := by
  obtain ⟨c, frame, k₀, next, k₁, r, hc, h₁, hret, hcalls⟩ := ecall_calling h hen (by rw [hexit]; decide) hx
  refine ⟨?_, .of_eq hcalls⟩
  have hz : frame ≠ 0 := by
    rw [hc.context]
    exact (userTaskIsReady_iff.mp hc.ready).2.2.2.2
  have hnr : (ecallFrame σ.kernel.machine.sie regs).a7 = userSyscallExit := hexit
  simp only [userSyscallDispatch, hc.regs, hnr, hz, ↓reduceIte, resuming_eq_ok] at h₁
  obtain ⟨next', h₁, hnext⟩ := h₁
  cases hnext
  rw [userSyscallExitFromTrap, threadCurrentUserTaskForFrame_eq hc.current hc.ready hc.context hc.spp,
    if_pos hc.task] at h₁
  obtain ⟨s₀, s', k₂, -, hrel, rfl⟩ := userExit_ok hc.sched hc.current hc.ready hc.spp h₁
  obtain ⟨place', hok'⟩ := clients_exit (hc.kept.clients hok) hc.ready hrel
  have hr := (trapReturnFromHandler_ok hret).tasksKept
  refine ⟨place', hr.clients (TasksKept.clients (k := k₂.setTask _ fun t => { t with state := .destroyed }) ?_ hok')⟩
  exact ⟨rfl, rfl⟩

theorem userTaskInit_clients {task : U64} {program : Option (List Byte)}
    (hx : exec (.userTaskInit task program) σ = .ok σ') (hok : (σ.kernel.clients held).Ok place) :
    (∃ place', (σ'.kernel.clients held).Ok place') ∧ CallsKept σ σ' := by
  obtain ⟨⟨r, k₁⟩, h₁, hx⟩ := bind_eq_ok.mp hx
  obtain rfl := Except.ok.inj hx
  obtain ⟨result, c', place', hrun, hstep, -⟩ := Clients.taskInit_step hok task program
  obtain ⟨⟨r', k'⟩, hinit, hout⟩ := bind_eq_ok.mp hrun
  obtain ⟨rfl, rfl⟩ := Prod.mk.inj (Except.ok.inj (h₁.symm.trans hinit))
  obtain rfl := (Prod.mk.inj (Except.ok.inj hout)).2
  exact ⟨⟨place', hstep.ok⟩, .of_eq rfl⟩

theorem pageAlloc_clients (hx : exec .pageAlloc σ = .ok σ') (hok : (σ.kernel.clients held).Ok place) :
    (∃ place' held', (σ'.kernel.clients held').Ok place') ∧ CallsKept σ σ' := by
  obtain ⟨⟨page, m⟩, h₁, hx⟩ := bind_eq_ok.mp hx
  obtain rfl := Except.ok.inj hx
  obtain ⟨a, c', hrun, hstep, -⟩ := Clients.pageAlloc_step hok
  obtain ⟨⟨page', m'⟩, halloc, hout⟩ := bind_eq_ok.mp hrun
  obtain ⟨rfl, rfl⟩ := Prod.mk.inj (Except.ok.inj (h₁.symm.trans halloc))
  have hc := (Prod.mk.inj (Except.ok.inj hout)).2
  refine ⟨?_, .of_eq rfl⟩
  have hok' := hstep.ok
  rw [← hc] at hok'
  split at hok'
  · exact ⟨place, held, hok'⟩
  · exact ⟨place, Function.update held page true, hok'⟩

/-- A step that is neither an allocation nor an exit leaves the clients of the page allocator alone. -/
theorem exec_tended (h : SysOk σ) (hoff : σ.OffAccel) (hen : Enabled op σ) (htends : op.Tends)
    (hinit : ∀ task program, op ≠ .userTaskInit task program) (halloc : op ≠ .pageAlloc)
    (hexit : ∀ regs site, op = .ecall regs site → regs.a7 ≠ userSyscallExit) (hx : exec op σ = .ok σ') :
    TasksKept σ.kernel σ'.kernel ∧ CallsKept σ σ' := by
  cases op with
  | threadCreate name entry arg =>
    obtain ⟨⟨r, k₁⟩, h₁, hx⟩ := bind_eq_ok.mp hx
    obtain rfl := Except.ok.inj hx
    obtain ⟨r', k', heq, hcase⟩ := threadCreate_spec h.sched name entry arg
    obtain ⟨rfl, rfl⟩ := Prod.mk.inj (Except.ok.inj (h₁.symm.trans heq))
    obtain ⟨-, rfl⟩ | ⟨tid, s', -, rfl, -, -⟩ := hcase
    · exact ⟨⟨rfl, rfl⟩, .of_eq rfl⟩
    · exact ⟨⟨rfl, rfl⟩, .of_eq rfl⟩
  | threadCreateUser name task =>
    obtain ⟨⟨r, k₁⟩, h₁, hx⟩ := bind_eq_ok.mp hx
    obtain rfl := Except.ok.inj hx
    obtain ⟨r', k', heq, hcase⟩ := threadCreateUser_spec h.sched name task
    obtain ⟨rfl, rfl⟩ := Prod.mk.inj (Except.ok.inj (h₁.symm.trans heq))
    obtain ⟨-, rfl⟩ | ⟨tid, s', -, -, hk, -, -⟩ := hcase
    · exact ⟨⟨rfl, rfl⟩, .of_eq rfl⟩
    · refine ⟨?_, .of_eq rfl⟩
      rw [show (σ.setKernel k₁).kernel = k₁ from rfl, hk]
      exact ⟨rfl, rfl⟩
  | threadStart =>
    obtain ⟨⟨frame, k₁⟩, h₁, hx⟩ := bind_eq_ok.mp hx
    obtain ⟨⟨r, k₂⟩, h₂, hx⟩ := bind_eq_ok.mp hx
    obtain rfl := Except.ok.inj hx
    obtain ⟨s₁, heq, -, -⟩ := threadStart_spec h.sched hen
    obtain ⟨rfl, rfl⟩ := Prod.mk.inj (Except.ok.inj (h₁.symm.trans heq))
    have hr := (trapReturnFromHandler_ok h₂).tasksKept
    exact ⟨⟨hr.machine, hr.tasks⟩, .of_eq rfl⟩
  | userTaskInit task program => exact absurd rfl (hinit task program)
  | waitQueueInit queue name =>
    obtain ⟨k₁, h₁, hx⟩ := bind_eq_ok.mp hx
    obtain rfl := Except.ok.inj hx
    obtain ⟨-, s', rfl, -⟩ := waitQueueInit_ok h₁
    exact ⟨⟨rfl, rfl⟩, .of_eq rfl⟩
  | wakeOne queue =>
    obtain ⟨⟨tid, k₁⟩, h₁, hx⟩ := bind_eq_ok.mp hx
    obtain rfl := Except.ok.inj hx
    obtain ⟨tid', s', heq, -⟩ := waitQueueWakeOne_spec h.sched hen.2
    obtain ⟨-, rfl⟩ := Prod.mk.inj (Except.ok.inj (h₁.symm.trans heq))
    exact ⟨⟨rfl, rfl⟩, .of_eq rfl⟩
  | wakeAll queue =>
    obtain ⟨k₁, h₁, hx⟩ := bind_eq_ok.mp hx
    obtain rfl := Except.ok.inj hx
    obtain ⟨s', heq, -⟩ := waitQueueWakeAll_spec h.sched hen.2
    obtain rfl := Except.ok.inj (h₁.symm.trans heq)
    exact ⟨⟨rfl, rfl⟩, .of_eq rfl⟩
  | control t site =>
    obtain ⟨c, hcur, hidle, htask, hallow, hon⟩ := hen
    obtain ⟨k₁, h₁, hx⟩ := bind_eq_ok.mp hx
    obtain rfl := Except.ok.inj hx
    have hlt := (h.sched.started hcur).2.lt
    obtain ⟨l, g, -, ht⟩ := controlTrap_ok h.sched hcur h.seen hon.ne_zero (hallow.controlOk hlt htask) h₁
    exact ⟨ht.tasksKept, .of_eq rfl⟩
  | ecall regs site => exact ecall_tended h hen htends (hexit regs site rfl) hx
  | timer mtime site => exact timer_tended h hen hx
  | resume site => exact resume_tended h hoff hen hx
  | mutexInit mutex name =>
    obtain ⟨k₁, h₁, hx⟩ := bind_eq_ok.mp hx
    obtain rfl := Except.ok.inj hx
    obtain ⟨-, s', rfl, -⟩ := mutexInit_ok h.sched hen.2.2 h₁
    exact ⟨⟨rfl, rfl⟩, .of_eq rfl⟩
  | mutexLock mutex site =>
    obtain ⟨c, call, -, -, hstep⟩ := mutexLock_lockStep h hen hx
    exact hstep.tended
  | mutexLockTimeout mutex ticks site =>
    obtain ⟨c, call, -, -, hstep⟩ := mutexLockTimeout_lockStep h hen hx
    exact hstep.tended
  | mutexTrylock mutex =>
    obtain ⟨⟨r, k₁⟩, h₁, hx⟩ := bind_eq_ok.mp hx
    obtain rfl := Except.ok.inj hx
    obtain ⟨-, -, ⟨rfl, rfl, -⟩ | ⟨rfl, rfl, -⟩⟩ := mutexTrylock_ok h₁
    · exact ⟨⟨rfl, rfl⟩, .of_eq rfl⟩
    · exact ⟨⟨rfl, rfl⟩, .of_eq rfl⟩
  | mutexUnlock mutex =>
    obtain ⟨c, -, hm, -⟩ := hen
    obtain ⟨k₁, h₁, hx⟩ := bind_eq_ok.mp hx
    obtain rfl := Except.ok.inj hx
    obtain ⟨-, next, s', rfl, -⟩ := mutexUnlock_ok h.sched (h.mutexQueue _ hm).2 h₁
    exact ⟨⟨rfl, rfl⟩, .of_eq rfl⟩
  | pageAlloc => exact absurd rfl halloc
  | accelSubmit cmd ticks site => exact htends.elim
  | accelControl control => exact htends.elim
  | accelAck mask => exact htends.elim
  | accelStep => exact htends.elim
  | dispatchIrqs => exact htends.elim
  | pageFree page => exact htends.elim
  | write mem => exact htends.elim

theorem exec_stepped_attachFree (h : SysOk σ) (hen : Enabled op σ) (hfree : AttachFree op σ)
    (hx : exec op σ = .ok σ') : Stepped σ op σ' := by
  by_cases hop : ∃ name task, op = .threadCreateUser name task
  · obtain ⟨name, task, rfl⟩ := hop
    obtain ⟨⟨r, k₁⟩, h₁, hx'⟩ := bind_eq_ok.mp hx
    obtain ⟨r', k', heq, hcase⟩ := threadCreateUser_spec h.sched name task
    obtain ⟨rfl, rfl⟩ := Prod.mk.inj (Except.ok.inj (h₁.symm.trans heq))
    obtain ⟨-, rfl⟩ | ⟨tid, s', -, hready, -, hi, -⟩ := hcase
    · obtain rfl := Except.ok.inj hx'
      exact .refl σ _
    · have hdead : (σ.kernel.sched.threads tid).state.live = false := by
        obtain hst | hst := hi.free
        · rw [hst]; rfl
        · rw [hst]; rfl
      refine exec_threadCreateUser h (fun t ht htask => ?_) hx
      by_cases hlive : (σ.kernel.sched.threads t).state.live
      · exact hfree hready ⟨tid, hi.real, hdead⟩ t ht hlive htask
      · rw [(h.threads.thread t ht).dead (by simpa using hlive)] at htask
        exact (userTaskIsReady_iff.mp hready).1 htask.symm
  · refine exec_stepped h hen ?_ hx
    cases op with
    | threadCreateUser name task => exact absurd ⟨name, task, rfl⟩ hop
    | _ => trivial

theorem TendOk.step (h : TendOk σ) (hen : Enabled op σ) (htends : op.Tends) (hfree : AttachFree op σ)
    (hx : exec op σ = .ok σ') : TendOk σ' := by
  obtain ⟨place, held, hok⟩ := h.tables
  have hsys := (exec_stepped_attachFree h.sys hen hfree hx).sysOk h.sys
  by_cases hinit : ∃ task program, op = .userTaskInit task program
  · obtain ⟨task, program, rfl⟩ := hinit
    obtain ⟨⟨place', hok'⟩, hcalls⟩ := userTaskInit_clients hx hok
    exact ⟨hsys, h.calls.kept hcalls, place', held, hok'⟩
  by_cases halloc : op = .pageAlloc
  · subst halloc
    obtain ⟨htables, hcalls⟩ := pageAlloc_clients hx hok
    exact ⟨hsys, h.calls.kept hcalls, htables⟩
  by_cases hexit : ∃ regs site, op = .ecall regs site ∧ regs.a7 = userSyscallExit
  · obtain ⟨regs, site, rfl, ha7⟩ := hexit
    obtain ⟨⟨place', hok'⟩, hcalls⟩ := ecall_exit_clients h.sys hen ha7 hx hok
    exact ⟨hsys, h.calls.kept hcalls, place', held, hok'⟩
  obtain ⟨hk, hcalls⟩ := exec_tended h.sys h.calls hen htends (fun task program he => hinit ⟨task, program, he⟩) halloc
    (fun regs site he ha7 => hexit ⟨regs, site, he, ha7⟩) hx
  exact ⟨hsys, h.calls.kept hcalls, place, held, hk.clients hok⟩

/-- A live thread's task keeps its frames, so the thread's trap context is allocated. -/
theorem TendOk.law (h : TendOk σ) : TaskLaw σ.kernel := by
  have hframe : ∀ t, tidIsReal t → (σ.kernel.sched.threads t).userTask ≠ 0 → σ.busy t = false := by
    intro t ht htask
    obtain hidle | ⟨call, hcall⟩ := h.calls t
    · exact busy_eq_false.mpr hidle
    · have hok := h.sys.call t
      rw [hcall] at hok
      exact absurd hok.2.2 htask
  refine ⟨fun t u ht hu _ _ hz he => h.sys.threads.unique t u ht hu hz he,
    fun t ht _ hz => (h.sys.threads.thread t ht).ready hz, fun t ht _ hz => ?_,
    fun t ht _ hz => (h.sys.threads.thread t ht).context hz (hframe t ht hz)⟩
  obtain ⟨place, held, hok⟩ := h.tables
  have hready := userTaskIsReady_iff.mp ((h.sys.threads.thread t ht).ready hz)
  have htask := hok.tasks (σ.kernel.sched.threads t).userTask (.inl hready.2.1)
  exact (htask.frames.held _ (.inr (.inr rfl)) htask.present.2.2).1

theorem boot_tendOk {k : Kernel} (hf : Fresh k) (hboot : boot k = .ok σ) : TendOk σ := by
  have hb := boot_ok hf hboot
  refine ⟨hb.ok, fun t => .inl (hb.calls t), fun _ => none, fun _ => false, ?_⟩
  refine Clients.Ok.empty hb.ok.pages (fun _ => rfl) (fun _ => rfl) ?_
  rintro task (hs | hs)
  · exact nomatch (hb.tasks task).symm.trans hs
  · exact nomatch (hb.tasks task).symm.trans hs

/-- In a run in which every user thread is created for a task that no live thread has, a task has at most one live
thread, and a live thread's task is ready, with its trap context allocated and the thread saved in it. -/
theorem run_taskLaw {k : Kernel} {σ₀ σ : System} {l : List Op} (hf : Fresh k) (hboot : boot k = .ok σ₀)
    (hrun : Run System.exec (fun op σ => (Enabled op σ ∧ op.Tends) ∧ AttachFree op σ) σ₀ l σ) : TaskLaw σ.kernel := by
  have hinv : TendOk σ :=
    Run.invariant (fun _ _ _ hi hp hx => hi.step hp.1.1 hp.1.2 hp.2 hx) hrun (boot_tendOk hf hboot)
  exact hinv.law

/-! ### A second thread for a task -/

instance : (op : Op) → Decidable op.Tends
  | .ecall regs _ => inferInstanceAs (Decidable (regs.a7 ≠ userSyscallAccelMemset))
  | .accelSubmit .. | .accelControl _ | .accelAck _ | .accelStep | .dispatchIrqs | .pageFree _ | .write _ => .isFalse id
  | .threadCreate .. | .threadCreateUser .. | .threadStart | .userTaskInit .. | .waitQueueInit .. | .wakeOne _
  | .wakeAll _ | .control .. | .timer .. | .resume _ | .mutexInit .. | .mutexLock .. | .mutexLockTimeout ..
  | .mutexTrylock _ | .mutexUnlock _ | .pageAlloc => .isTrue trivial

theorem attachFree_create {name : Option String} {task : U64} : AttachFree (.threadCreateUser name task) σ ↔
    (userTaskIsReady task σ.kernel →
      (∃ tid < threadMax, tidIsReal tid ∧ (σ.kernel.sched.threads tid).state.live = false) →
      ∀ t < threadMax, tidIsReal t → (σ.kernel.sched.threads t).state.live → (σ.kernel.sched.threads t).userTask ≠ task) := by
  constructor
  · rintro h hready ⟨tid, -, hreal, hdead⟩ t -
    exact h hready ⟨tid, hreal, hdead⟩ t
  · rintro h hready ⟨tid, hreal, hdead⟩ t ht
    exact h hready ⟨tid, (tidIsReal_iff.mp hreal).2, hreal, hdead⟩ t (tidIsReal_iff.mp ht).2 ht

instance (σ : System) : (op : Op) → Decidable (AttachFree op σ)
  | .threadCreateUser .. => decidable_of_iff _ attachFree_create.symm
  | .threadCreate .. | .threadStart | .userTaskInit .. | .waitQueueInit .. | .wakeOne _ | .wakeAll _ | .control ..
  | .ecall .. | .timer .. | .resume _ | .mutexInit .. | .mutexLock .. | .mutexLockTimeout .. | .mutexTrylock _
  | .mutexUnlock _ | .accelSubmit .. | .accelControl _ | .accelAck _ | .accelStep | .dispatchIrqs | .pageAlloc
  | .pageFree _ | .write _ => .isTrue trivial

theorem userThread_run : ∃ σ₀ σ, boot sampleKernel = .ok σ₀ ∧
    Run System.exec (fun op σ => (Enabled op σ ∧ op.Tends) ∧ AttachFree op σ) σ₀ sampleUserOps σ ∧
    decide ((σ.kernel.sched.threads 1).userTask = sampleTask ∧ (σ.kernel.sched.threads 1).state = .running) = true :=
  run_of_startCheck (by decide +kernel)

/-- A user thread runs, by the law. -/
theorem run_taskLaw_sample : ∃ σ₀ σ, boot sampleKernel = .ok σ₀ ∧
    Run System.exec (fun op σ => (Enabled op σ ∧ op.Tends) ∧ AttachFree op σ) σ₀ sampleUserOps σ ∧
    (σ.kernel.sched.threads 1).userTask = sampleTask ∧ (σ.kernel.sched.threads 1).state = .running ∧
    TaskLaw σ.kernel := by
  obtain ⟨σ₀, σ, hboot, hrun, hp⟩ := userThread_run
  obtain ⟨htask, hstate⟩ := of_decide_eq_true hp
  exact ⟨σ₀, σ, hboot, hrun, htask, hstate, run_taskLaw sampleKernel_fresh hboot hrun⟩

/-- Two threads are created for one task. -/
def twoThreadOps : List Op :=
  [.userTaskInit sampleTask (some [0]), .threadCreateUser (some "u") sampleTask, .threadCreateUser (some "v") sampleTask]

theorem twoThreads_run : ∃ σ₀ σ, boot sampleKernel = .ok σ₀ ∧
    Run System.exec (fun op σ => Enabled op σ ∧ op.Tends) σ₀ twoThreadOps σ ∧
    decide ((σ.kernel.sched.threads 1).userTask = sampleTask ∧ (σ.kernel.sched.threads 2).userTask = sampleTask ∧
      (σ.kernel.sched.threads 1).state = .ready ∧ (σ.kernel.sched.threads 2).state = .ready) = true :=
  run_of_startCheck (by decide +kernel)

/-- Both threads of the task are ready to run, though it is ready only until the first of them exits. -/
theorem taskLaw_secondThread : ¬∀ (k : Kernel) (σ₀ σ : System) (l : List Op), Fresh k → boot k = .ok σ₀ →
    Run System.exec (fun op σ => Enabled op σ ∧ op.Tends) σ₀ l σ → TaskLaw σ.kernel := by
  intro h
  obtain ⟨σ₀, σ, hboot, hrun, hp⟩ := twoThreads_run
  obtain ⟨htask₁, htask₂, hstate₁, hstate₂⟩ := of_decide_eq_true hp
  have he : 1 = 2 := (h sampleKernel σ₀ σ _ sampleKernel_fresh hboot hrun).unique 1 2 (by decide) (by decide)
    (by rw [hstate₁]; rfl) (by rw [hstate₂]; rfl) (by rw [htask₁]; decide) (htask₁.trans htask₂.symm)
  cases he

end System

end QemuRtos
