import QemuRtos.Safety.AccelRelease

/-!
# The pages of the accelerator calls, over every run

An accelerator call allocates its two pages before it waits and frees them before it returns. `exec_pages` goes through
the steps: each leaves the allocated pages as they are, begins or ends a call, or is other code that manages pages.
-/

namespace QemuRtos

open Lib

variable {k k' : Kernel} {u : UserMemset} {sub : Submission} {timedOut : Bool}

theorem Trapped.pages {Q : Set U64} {c : Nat} {frame : U64} {f : TrapFrame} {l : Leave}
    (h : Trapped Q c frame f l k k') : k'.machine.pages = k.machine.pages := by
  obtain ⟨next, s', -, hr⟩ := h
  exact hr.pages

theorem Trapped.tasks {Q : Set U64} {c : Nat} {frame : U64} {f : TrapFrame} {l : Leave}
    (h : Trapped Q c frame f l k k') : k'.tasks = k.tasks := by
  obtain ⟨next, s', -, hr⟩ := h
  cases hr with
  | supervisor => rfl
  | user => rfl

/-! ### The pages that a call allocates -/

theorem pageAlloc_ok {m m' : Machine} {a : U64} (h : PagesOk m.pages) (halloc : pageAlloc m = .ok (a, m')) :
    PagesOk m'.pages ∧ m' = { m with pages := m'.pages } ∧
      (a = 0 ∧ m' = m ∨ a ≠ 0 ∧ PageTaken a m.pages m'.pages) := by
  obtain ⟨a', p', heq, hok, hcase⟩ := pageAlloc_spec h
  obtain ⟨rfl, rfl⟩ := Prod.mk.inj (Except.ok.inj (halloc.symm.trans heq))
  refine ⟨hok, rfl, hcase.imp_left ?_⟩
  rintro ⟨hz, rfl, -⟩
  exact ⟨hz, rfl⟩

theorem pageFreeIfPresent_ok {m m' : Machine} {page : U64} (h : PagesOk m.pages)
    (hfree : pageFreeIfPresent page m = .ok m') :
    PagesOk m'.pages ∧ ∀ b, m'.pages.Allocated b ↔ m.pages.Allocated b ∧ b ≠ page := by
  rw [pageFreeIfPresent] at hfree
  by_cases hz : page = 0
  · rw [if_neg (not_not_intro hz)] at hfree
    obtain rfl := Except.ok.inj hfree
    refine ⟨h, fun b => (and_iff_left_of_imp fun hb => ?_).symm⟩
    rw [hz]
    exact hb.1.ne_zero h
  · rw [if_pos hz] at hfree
    obtain ⟨-, p', rfl, hok, hg⟩ := pageFree_ok h hfree
    exact ⟨hok, hg.allocated⟩

theorem allocated_of_taken {p p₁ p₂ : PageAllocator} {cmd bounce : U64} (hok : PagesOk p)
    (h₁ : cmd = 0 ∧ p₁ = p ∨ cmd ≠ 0 ∧ PageTaken cmd p p₁)
    (h₂ : bounce = 0 ∧ p₂ = p₁ ∨ bounce ≠ 0 ∧ PageTaken bounce p₁ p₂) (b : U64) :
    p.Allocated b ↔ p₂.Allocated b ∧ b ≠ cmd ∧ b ≠ bounce := by
  have hfirst : p.Allocated b ↔ p₁.Allocated b ∧ b ≠ cmd := by
    rcases h₁ with ⟨rfl, rfl⟩ | ⟨-, ht⟩
    · exact (and_iff_left_of_imp fun hb => hb.1.ne_zero hok).symm
    · rw [ht.allocated]
      refine ⟨fun hb => ⟨.inl hb, ?_⟩, fun hb => hb.1.resolve_right hb.2⟩
      rintro rfl
      exact ht.fresh hb
  have hsecond : p₁.Allocated b → (p₂.Allocated b ∧ b ≠ bounce ∨ bounce = 0) := by
    intro hb
    rcases h₂ with ⟨hz, -⟩ | ⟨-, ht⟩
    · exact .inr hz
    · refine .inl ⟨(ht.allocated b).mpr (.inl hb), ?_⟩
      rintro rfl
      exact ht.fresh hb
  rcases h₂ with ⟨rfl, rfl⟩ | ⟨hne, ht⟩
  · rw [hfirst]
    refine ⟨fun hb => ⟨hb.1, hb.2, ?_⟩, fun hb => ⟨hb.1, hb.2.1⟩⟩
    exact (hfirst.mpr hb).1.ne_zero hok
  · rw [hfirst, ht.allocated]
    refine ⟨fun hb => ⟨.inl hb.1, hb.2, ?_⟩, fun hb => ⟨hb.1.resolve_right hb.2.2, hb.2.1⟩⟩
    exact ((hsecond hb.1).resolve_right hne).2

theorem accelSubmitSyncTimeout_pages {cmd ticks : U64} {q : Progress Submission Int}
    (h : accelSubmitSyncTimeout cmd ticks k = .ok q) :
    (∃ r k', q = .ret r k' ∧ k'.machine.pages = k.machine.pages) ∨
      ∃ regs next, q = .trap regs next (accelClaim cmd k.irqSave.2) := by
  by_cases hclaim : Claims cmd ticks k
  · rw [accelSubmitSyncTimeout_claims hclaim] at h
    have hw := accelSubmitLoop_waited h
    cases q with
    | ret r k' => exact .inl ⟨r, k', rfl, hw.pages⟩
    | trap regs next k' =>
      obtain ⟨-, rfl⟩ := hw.trap
      exact .inr ⟨regs, next, rfl⟩
  · obtain ⟨r, f, heq, -⟩ := accelSubmitSyncTimeout_refused hclaim
    obtain rfl := Except.ok.inj (h.symm.trans heq)
    exact .inl ⟨r, _, rfl, rfl⟩

/-- A call that waits: its two pages, and the descriptor that it has submitted for what the user has asked for. -/
structure CallBegun (task : U64) (f : TrapFrame) (u : UserMemset) (k k' : Kernel) : Prop where
  task : u.task = task
  dst : u.userDst = f.a0
  len : u.len = f.a1
  small : u.len.toNat ≤ pageSize
  pages : Holding u k'.machine.pages k.machine.pages
  mem : k'.machine.mem = setCmdStatus u.cmd accelCmdStatusPending
    (writeMemsetCmd u.cmd u.bouncePage u.len (f.a2.setWidth 32) k.machine.mem)
  started : k'.accelMmio.control = accelControlStart
  open_ : k'.accelRequest.completed = false
  tasks : k'.tasks = k.tasks

/-- The accelerator system call returns with the pages allocated that were so before it, or waits with two more. -/
theorem userAccelSyscallMemset_pages {frame task : U64} {p : Progress (UserMemset × Submission) Int}
    (htask : threadCurrentUserTaskForFrame frame k = task) (hready : userTaskIsReady task k = true)
    (hok : PagesOk k.machine.pages) (h : userAccelSyscallMemset frame k = .ok p) :
    (∃ r k', p = .ret r k' ∧ ∀ b, k'.machine.pages.Allocated b ↔ k.machine.pages.Allocated b) ∨
      ∃ regs u sub k', p = .trap regs (u, sub) k' ∧ CallBegun task (k.sched.frames frame) u k k' := by
  rw [userAccelSyscallMemset] at h
  dsimp only at h
  split at h
  · cases h
  split at h
  · cases h
  rw [htask, userAccelMemsetImpl] at h
  split at h
  · obtain rfl := Except.ok.inj h
    exact .inl ⟨_, _, rfl, fun _ => Iff.rfl⟩
  rename_i hlen
  obtain ⟨r₁, heq, -, -⟩ := usercopyTaskValidate_eq hready (k.sched.frames frame).a0 (k.sched.frames frame).a1 true
  rw [heq, ok_bind] at h
  dsimp only at h
  split at h
  · obtain rfl := Except.ok.inj h
    exact .inl ⟨_, _, rfl, fun _ => Iff.rfl⟩
  obtain ⟨⟨cmd, m₁⟩, h₁, h⟩ := bind_eq_ok.mp h
  obtain ⟨⟨bounce, m₂⟩, h₂, h⟩ := bind_eq_ok.mp h
  obtain ⟨hok₁, hm₁, hcase₁⟩ := pageAlloc_ok hok h₁
  obtain ⟨hok₂, hm₂, hcase₂⟩ := pageAlloc_ok hok₁ h₂
  have hback := allocated_of_taken hok (hcase₁.imp_left fun h => ⟨h.1, by rw [h.2]⟩)
    (hcase₂.imp_left fun h => ⟨h.1, by rw [h.2]⟩)
  dsimp only at h
  split at h
  · -- one of the two pages is missing
    obtain ⟨m₃, h₃, h⟩ := bind_eq_ok.mp h
    obtain ⟨m₄, h₄, h⟩ := bind_eq_ok.mp h
    obtain rfl := Except.ok.inj h
    obtain ⟨hok₃, hfree₃⟩ := pageFreeIfPresent_ok hok₂ h₃
    obtain ⟨-, hfree₄⟩ := pageFreeIfPresent_ok hok₃ h₄
    refine .inl ⟨_, _, rfl, fun b => ?_⟩
    exact (hfree₄ b).trans ((and_congr_left' (hfree₃ b)).trans (and_assoc.trans (hback b).symm))
  · rename_i hboth
    obtain ⟨hc, hb⟩ := not_or.mp hboth
    have ht₁ := (hcase₁.resolve_left fun h => hc h.1).2
    have ht₂ := (hcase₂.resolve_left fun h => hb h.1).2
    obtain ⟨q, hq, h⟩ := bind_eq_ok.mp h
    have hin : m₁.pages.Allocated cmd := (ht₁.allocated cmd).mpr (.inr rfl)
    have hheld : ∀ u : UserMemset, u.cmd = cmd → u.bouncePage = bounce → Holding u m₂.pages k.machine.pages := by
      rintro u rfl rfl
      refine ⟨⟨(ht₂.allocated _).mpr (.inl hin), (ht₂.allocated _).mpr (.inr rfl), fun he => ?_⟩, hback, ?_⟩
      · exact ht₂.fresh (he ▸ hin)
      · have hfree₁ := ht₁.free
        have hfree₂ := ht₂.free
        omega
    have hmem : m₂.mem = k.machine.mem := by
      rw [hm₂]
      show m₁.mem = _
      rw [hm₁]
    rcases accelSubmitSyncTimeout_pages hq with ⟨r, k₁, rfl, hpages⟩ | ⟨regs, next, rfl⟩
    · obtain ⟨⟨r₂, k₂⟩, hfin, h⟩ := bind_eq_ok.mp h
      obtain rfl := Except.ok.inj h
      obtain ⟨hfreed, -⟩ := userAccelMemsetFinish_ok (hpages ▸ hok₂) hfin
      refine .inl ⟨_, _, rfl, fun b => ?_⟩
      rw [hfreed.allocated, hpages]
      exact (hback b).symm
    · obtain rfl := Except.ok.inj h
      refine .inr ⟨regs, _, next, _, rfl, rfl, rfl, rfl, ?_, hheld _ rfl rfl, ?_, rfl, rfl, rfl⟩
      · have hmax := (not_or.mp hlen).2
        show (k.sched.frames frame).a1.toNat ≤ pageSize
        rw [BitVec.not_lt, BitVec.le_def] at hmax
        exact hmax
      · show setCmdStatus cmd _ (writeMemsetCmd cmd bounce _ _ m₂.mem) = _
        rw [hmem]

theorem accelAckIrq_pages (mask : U32) (k : Kernel) : (accelAckIrq mask k).2.machine.pages = k.machine.pages := by
  simp only [accelAckIrq]
  split
  · rfl
  split
  · rfl
  split
  · rfl
  · rfl

namespace System

variable {σ σ' σ₀ : System} {op : Op} {l : List Op} {c : Nat} {site : TrapSite}

/-! ### The pages of the calls -/

/-- The pages that the accelerator calls in progress have allocated. -/
def CallPages (σ : System) : Set U64 :=
  {b | ∃ t u, (σ.calls t).memset = some u ∧ (b = u.cmd ∨ b = u.bouncePage)}

/-- The allocated pages that belong to no accelerator call. -/
def OtherPages (σ : System) : Set U64 := {b | σ.kernel.machine.pages.Allocated b ∧ b ∉ σ.CallPages}

/-- The step allocates or frees pages for other code than an accelerator call. -/
def Manages : Op → Prop
  | .pageAlloc | .pageFree _ | .userTaskInit .. => True
  | .ecall regs _ => regs.a7 = userSyscallExit
  | _ => False

/-- Other code frees no page of an accelerator call in progress. -/
def SparesCalls (op : Op) (σ : System) : Prop :=
  Manages op → ∀ σ', exec op σ = .ok σ' → ∀ b ∈ σ.CallPages, σ'.kernel.machine.pages.Allocated b

/-- After the step the same pages are allocated, and the accelerator calls have the same of them. -/
structure PagesKept (σ σ' : System) : Prop where
  pages : ∀ b, σ'.kernel.machine.pages.Allocated b ↔ σ.kernel.machine.pages.Allocated b
  calls : ∀ t, (σ'.calls t).memset = (σ.calls t).memset

/-- What a step does to the pages of the accelerator calls. -/
inductive PagesStepped (σ : System) (op : Op) (σ' : System) : Prop
  | kept (hk : PagesKept σ σ')
  /-- A call allocates its two pages and waits. -/
  | begins {c : Nat} {u : UserMemset} (hnone : (σ.calls c).memset = none)
    (hheld : Holding u σ'.kernel.machine.pages σ.kernel.machine.pages)
    (hcall : (σ'.calls c).memset = some u) (hothers : ∀ t ≠ c, σ'.calls t = σ.calls t)
  /-- A call frees its two pages and returns. -/
  | ends {c : Nat} {u : UserMemset} (hcall : (σ.calls c).memset = some u)
    (hf : Holding u σ.kernel.machine.pages σ'.kernel.machine.pages) (hnone : (σ'.calls c).memset = none)
    (hothers : ∀ t ≠ c, σ'.calls t = σ.calls t)
  /-- Other code allocates or frees pages. -/
  | others (hop : Manages op) (hcalls : ∀ t, (σ'.calls t).memset = (σ.calls t).memset)

theorem PagesKept.setKernel {k : Kernel} (hk : k.machine.pages = σ.kernel.machine.pages) :
    PagesKept σ (σ.setKernel k) :=
  ⟨fun b => by rw [← hk]; rfl, fun _ => rfl⟩

theorem PagesKept.setCall {k : Kernel} {call : Call}
    (hk : ∀ b, k.machine.pages.Allocated b ↔ σ.kernel.machine.pages.Allocated b)
    (hcall : call.memset = (σ.calls c).memset) : PagesKept σ ((σ.setKernel k).setCall c call) := by
  refine ⟨hk, fun t => ?_⟩
  by_cases ht : t = c
  · subst ht
    rw [setCall_calls_self]
    exact hcall
  · rw [setCall_calls_of_ne _ _ ht]
    rfl

theorem PagesKept.setCall_same {k : Kernel} {call : Call} (hk : k.machine.pages = σ.kernel.machine.pages)
    (hcall : call.memset = (σ.calls c).memset) : PagesKept σ ((σ.setKernel k).setCall c call) :=
  .setCall (fun b => by rw [hk]) hcall

theorem LockStep.pagesKept {call : LockCall} (hs : LockStep σ op c call σ') (hcall : (σ.calls c).memset = none) :
    PagesKept σ σ' := by
  cases hs with
  | @returned entry r k' hentry ho =>
    have hk : k'.machine.pages = σ.kernel.machine.pages := by cases ho <;> rfl
    have hkept : PagesKept σ ((σ.setKernel k').setCall c .idle) := .setCall_same hk hcall.symm
    rw [lockReturned]
    split
    · exact hkept
    · exact ⟨hkept.pages, hkept.calls⟩
  | waits hwhy ht => exact .setCall_same ht.pages hcall.symm

theorem control_pages {t : ControlTrap} (h : SysOk σ) (hen : Enabled (.control t site) σ)
    (hx : exec (.control t site) σ = .ok σ') : PagesKept σ σ' := by
  obtain ⟨c, hcur, -, htask, hallow, hon⟩ := hen
  obtain ⟨k₁, h₁, hx⟩ := bind_eq_ok.mp hx
  obtain rfl := Except.ok.inj hx
  have hlt := (h.sched.started hcur).2.lt
  obtain ⟨l, g, -, ht⟩ := controlTrap_ok h.sched hcur h.seen hon.ne_zero (hallow.controlOk hlt htask) h₁
  exact .setKernel ht.pages

theorem timer_pages {mtime : Nat} (h : SysOk σ) (hen : Enabled (.timer mtime site) σ)
    (hx : exec (.timer mtime site) σ = .ok σ') : PagesKept σ σ' := by
  obtain ⟨k₁, h₁, hx⟩ := bind_eq_ok.mp hx
  obtain rfl := Except.ok.inj hx
  refine .setKernel ?_
  cases hcur : σ.kernel.sched.currentThread with
  | none =>
    obtain ⟨timer, -, hr⟩ := takeTrap_timer_unstarted h.sched hcur rfl h₁
    exact hr.pages
  | some c =>
    rw [current_eq hcur] at h₁
    rw [Enabled, hcur] at hen
    dsimp only at hen h₁
    have hframe : (if (σ.kernel.sched.threads c).userTask = 0 then site.frame
        else (σ.kernel.tasks (σ.kernel.sched.threads c).userTask).trapContext) ≠ 0 := by
      by_cases htask : (σ.kernel.sched.threads c).userTask = 0
      · rw [if_pos htask] at hen ⊢
        exact hen.2.ne_zero
      · rw [if_neg htask]
        have hready := (h.threads.thread c (h.real_of_userTask hcur htask)).ready htask
        exact (userTaskIsReady_iff.mp hready).2.2.2.2
    obtain ⟨_, _, _, _, _, _, _, _, _, _, _, _, _, hr⟩ := takeTrap_timer_ok h.sched hcur hframe rfl h₁
    exact hr.pages

/-- The trap of a wait leaves the accelerator, the allocator and memory alone. -/
structure TrapKept (k k' : Kernel) : Prop where
  accel : AccelKept k k'
  pages : k'.machine.pages = k.machine.pages
  mem : k'.machine.mem = k.machine.mem
  tasks : k'.tasks = k.tasks

theorem submit_trap {Q : Set U64} {regs : ControlTrap} (h : SchedInv Q k.sched)
    (hcur : k.sched.threadsStarted = true → k.sched.currentThread = some c ∧ tidIsReal c ∧
      OnStack k.machine.image c site.frame)
    (hseen : k.trapSelftestSeen = true) (hq : accelWaiters k.machine.image ∈ Q) (hticks : sub.ticks ≠ 0)
    (hsie : k.machine.sie = false) (hp : SubmitProgress k sub (.trap regs sub k))
    (hx : controlTrap regs site k = .ok k') : TrapKept k k' := by
  obtain ⟨-, -, -, hst, rfl⟩ := hp
  obtain ⟨hcur, hc, hon⟩ := hcur hst
  have hne : (if sub.ticks = ticksForever then none else some sub.ticks) ≠ some 0 := by
    split
    · intro he
      cases he
    · exact fun he => hticks (Option.some.inj he)
  obtain ⟨g, ht, -⟩ := waitTrap_ok h hcur hseen hon hc hq hne hsie hx
  exact ⟨ht.accelKept, ht.pages, ht.mem, ht.tasks⟩

theorem submitProgress_pages {p : Progress Submission Int} {k₀ : Kernel}
    (hpages : k₀.machine.pages = σ.kernel.machine.pages) (hnone : (σ.calls c).memset = none)
    (hw : Waited sub timedOut k₀ p)
    (htrap : ∀ regs k', p = .trap regs sub k₀ → controlTrap regs site k₀ = .ok k' →
      k'.machine.pages = k₀.machine.pages)
    (hx : σ.submitProgress c site p = .ok σ') : PagesKept σ σ' := by
  cases p with
  | ret r k₁ =>
    obtain rfl := Except.ok.inj hx
    exact .setCall_same (hw.pages.trans hpages) hnone.symm
  | trap regs next k₁ =>
    obtain ⟨rfl, rfl⟩ := hw.trap
    obtain ⟨k', hk', hx⟩ := bind_eq_ok.mp hx
    obtain rfl := Except.ok.inj hx
    exact .setCall_same ((htrap regs k' rfl hk').trans hpages) hnone.symm

theorem accelSubmit_pages {cmd ticks : U64} (h : SysOk σ) (hen : Enabled (.accelSubmit cmd ticks site) σ)
    (hx : exec (.accelSubmit cmd ticks site) σ = .ok σ') : PagesKept σ σ' := by
  obtain ⟨p, hp, hx⟩ := bind_eq_ok.mp hx
  have hnone : (σ.calls σ.current).memset = none := by
    cases hcur : σ.kernel.sched.currentThread with
    | some d =>
      rw [current_eq hcur, (hen.1 d hcur).idle]
      rfl
    | none =>
      rw [current, hcur]
      by_cases hidle : σ.calls threadNullTid = .idle
      · exact hidle ▸ rfl
      · exact absurd rfl (tidIsReal_ne_null (h.threads.real _ (decide_eq_true hidle)))
  by_cases hclaim : Claims cmd ticks σ.kernel
  · rw [accelSubmitSyncTimeout_claims hclaim] at hp
    let sub : Submission := { cmd := cmd, ticks := ticks, irqState := σ.kernel.machine.sie }
    have hw : Waited sub false (accelClaim cmd σ.kernel.irqSave.2) p := accelSubmitLoop_waited hp
    refine submitProgress_pages (by rfl) hnone hw (fun regs k' he hwait => ?_) hx
    subst he
    refine (submit_trap (c := σ.current) (Q := σ.queueSet) (k := accelClaim cmd σ.kernel.irqSave.2) h.sched
      (fun hst => ?_) h.seen (h.accelQueue hclaim.bound) hclaim.ticks rfl (accelSubmitLoop_progress rfl hp) hwait).pages
    rcases h.sched.phase with ⟨hf, -⟩ | ⟨-, d, hrun⟩
    · exact absurd (hf.symm.trans hst) Bool.false_ne_true
    · rw [current_eq hrun.current]
      exact ⟨hrun.current, (hen.1 d hrun.current).real_tid h, hen.2 d hrun.current⟩
  · obtain ⟨r, g, heq, -⟩ := accelSubmitSyncTimeout_refused hclaim
    obtain rfl := Except.ok.inj (hp.symm.trans heq)
    obtain rfl := Except.ok.inj hx
    exact .setCall_same rfl hnone.symm

theorem resume_pages (h : DriverOk σ) (hen : Enabled (.resume site) σ) (hx : exec (.resume site) σ = .ok σ') :
    PagesStepped σ (.resume site) σ' := by
  obtain ⟨c, hcur, hbusy, hon⟩ := id hen
  have hc : tidIsReal c := h.sys.threads.real c (decide_eq_true hbusy)
  have hsie : σ.kernel.machine.sie = false := h.sys.threads.masked c hcur (decide_eq_true hbusy)
  have hok := h.sys.call c
  have hrun : σ.resume σ.current site = .ok σ' := hx
  rw [current_eq hcur, resume] at hrun
  have htrap : ∀ {sub : Submission} {p : Progress Submission Int}, σ.kernel.accelBound = true → sub.ticks ≠ 0 →
      SubmitProgress σ.kernel sub p → ∀ regs k', p = .trap regs sub σ.kernel →
      controlTrap regs site σ.kernel = .ok k' → k'.machine.pages = σ.kernel.machine.pages := by
    rintro sub p hbound hticks hp regs k' rfl hx
    exact (submit_trap h.sys.sched (fun _ => ⟨hcur, hc, hon⟩) h.sys.seen (h.sys.accelQueue hbound) hticks hsie hp
      hx).pages
  cases hcall : σ.calls c with
  | idle => exact absurd hcall hbusy
  | lock call => exact .kept ((exec_resume_lock h.sys hen hcur hcall hx).pagesKept (by rw [hcall]; rfl))
  | submit sub =>
    rw [hcall] at hok hrun
    obtain ⟨p, hp, hrun⟩ := bind_eq_ok.mp hrun
    exact .kept (submitProgress_pages rfl (by rw [hcall]; rfl) (submissionResume_waited hp)
      (htrap hok.1 hok.2.1 (submissionResume_progress hsie hp)) hrun)
  | userMemset u sub =>
    rw [hcall] at hok hrun
    obtain ⟨p, hp, hrun⟩ := bind_eq_ok.mp hrun
    obtain ⟨p', hp', hrun⟩ := bind_eq_ok.mp hrun
    have hw := submissionResume_waited hp
    cases p with
    | trap regs next k₁ =>
      obtain ⟨rfl, rfl⟩ := hw.trap
      obtain rfl := Except.ok.inj hp'
      obtain ⟨k', hk', hrun⟩ := bind_eq_ok.mp hrun
      obtain rfl := Except.ok.inj hrun
      refine .kept (.setCall_same ?_ (by rw [hcall]))
      exact htrap hok.1 hok.2.1 (submissionResume_progress hsie hp) regs k' rfl hk'
    | ret r k₁ =>
      obtain ⟨⟨r₂, k₂⟩, -, hp'⟩ := bind_eq_ok.mp hp'
      obtain rfl := Except.ok.inj hp'
      obtain ⟨⟨ret, k₃⟩, -, hrun⟩ := bind_eq_ok.mp hrun
      obtain rfl := Except.ok.inj hrun
      have hdone := memset_returns h hcur hcall hx (setCall_calls_self ..)
      exact .ends (by rw [hcall]; rfl) hdone.pages (by rw [setCall_calls_self]; rfl)
        fun t ht => setCall_calls_of_ne _ _ ht

/-- The kernel as the system call of thread `c` finds it. -/
structure CallEntered (σ : System) (regs : TrapFrame) (c : Nat) (frame : U64) (k : Kernel) : Prop where
  current : σ.kernel.sched.currentThread = some c
  idle : σ.calls c = .idle
  kernel : k = trapEnter frame (ecallFrame σ.kernel.machine.sie regs) σ.kernel
  regs : k.sched.frames frame = ecallFrame σ.kernel.machine.sie regs
  task : threadCurrentUserTaskForFrame frame k = (σ.kernel.sched.threads c).userTask
  ready : userTaskIsReady (σ.kernel.sched.threads c).userTask k = true

theorem ecall_memset {regs : TrapFrame} (h : SysOk σ) (hen : Enabled (.ecall regs site) σ)
    (haccel : regs.a7 = userSyscallAccelMemset) (hx : exec (.ecall regs site) σ = .ok σ') :
    ∃ c frame k, CallEntered σ regs c frame k ∧
      ((∃ r k₁ k₂, userAccelSyscallMemset frame k = .ok (.ret r k₁) ∧ k₂.machine.pages = k₁.machine.pages ∧
          σ' = (σ.setKernel k₂).setCall c .idle) ∨
        ∃ t u sub k₁ k₂, userAccelSyscallMemset frame k = .ok (.trap t (u, sub) k₁) ∧ TrapKept k₁ k₂ ∧
          σ' = (σ.setKernel k₂).setCall c (.userMemset u sub)) := by
  obtain ⟨c, frame, k₀, action, k₁, hcur, hidle, hreal, hon, hframe, hk₀, hs, hready, hf, hspp, hdispatch, hx⟩ :=
    ecall_dispatch h hen hx
  have hcur₀ : k₀.sched.currentThread = some c := by rw [hk₀]; exact hcur
  have hframe₀ : frame = (k₀.tasks (k₀.sched.threads c).userTask).trapContext := by rw [hk₀]; exact hframe
  have hz : frame ≠ 0 := by
    rw [hframe₀]
    exact (userTaskIsReady_iff.mp hready).2.2.2.2
  obtain ⟨rfl, rfl⟩ := Prod.mk.inj (Except.ok.inj
    (hdispatch.symm.trans (userSyscallDispatch_memset hz (by rw [hf]; exact haccel))))
  have htask := threadCurrentUserTaskForFrame_eq hcur₀ hready hframe₀ hspp
  have hthreads : (k₁.sched.threads c).userTask = (σ.kernel.sched.threads c).userTask := by rw [hk₀]; rfl
  rw [hthreads] at htask hready
  refine ⟨c, frame, k₁, ⟨hcur, hidle, hk₀, hf, htask, hready⟩, ?_⟩
  obtain ⟨p, hp, hx⟩ := bind_eq_ok.mp hx
  cases p with
  | ret r k₂ =>
    obtain ⟨⟨ret, k₃⟩, hret, hx⟩ := bind_eq_ok.mp hx
    exact .inl ⟨r, k₂, k₃, hp, (trapReturnFromHandler_ok hret).pages, (Except.ok.inj hx).symm⟩
  | trap t call k₂ =>
    obtain ⟨u, sub⟩ := call
    obtain ⟨k', hwait, hx⟩ := bind_eq_ok.mp hx
    refine .inr ⟨t, u, sub, k₂, k', hp, ?_, (Except.ok.inj hx).symm⟩
    rcases userAccelSyscallMemset_submits hp with
      ⟨_, _, he, -⟩ | ⟨u', k₄, q, hk₄, hsie, hsched, himage, hseen, hq, hp⟩
    · cases he
    cases q with
    | ret r k₅ =>
      obtain ⟨⟨r₂, k₆⟩, -, hp⟩ := bind_eq_ok.mp hp
      cases hp
    | trap regs₅ sub₅ k₅ =>
      obtain ⟨⟩ := Except.ok.inj hp
      by_cases hclaim : Claims u.cmd u.timeoutTicks k₄
      · rw [accelSubmitSyncTimeout_claims hclaim] at hq
        obtain ⟨rfl, rfl⟩ := (accelSubmitLoop_waited hq).trap
        have hbound : σ.kernel.accelBound = true := by
          rw [← hclaim.bound, hk₄.bound, hk₀]
          rfl
        have himage₂ : (accelClaim u.cmd k₄.irqSave.2).machine.image = σ.kernel.machine.image := by
          show k₄.machine.image = _
          rw [himage, hk₀]
          rfl
        have hs₂ : SchedInv σ.queueSet (accelClaim u.cmd k₄.irqSave.2).sched := by
          show SchedInv σ.queueSet k₄.sched
          rw [hsched]
          exact hs
        have hcur₂ : (accelClaim u.cmd k₄.irqSave.2).sched.currentThread = some c := by
          show k₄.sched.currentThread = some c
          rw [hsched]
          exact hcur₀
        have hseen₂ : (accelClaim u.cmd k₄.irqSave.2).trapSelftestSeen = true := by
          show k₄.trapSelftestSeen = true
          rw [hseen, hk₀]
          exact h.seen
        exact submit_trap hs₂ (fun _ => ⟨hcur₂, hreal, by rw [himage₂]; exact hon⟩) hseen₂
          (by rw [himage₂]; exact h.accelQueue hbound) hclaim.ticks rfl (accelSubmitLoop_progress rfl hq) hwait
      · obtain ⟨r, g, heq, -⟩ := accelSubmitSyncTimeout_refused hclaim
        cases hq.symm.trans heq

theorem ecall_pages {regs : TrapFrame} (h : SysOk σ) (hen : Enabled (.ecall regs site) σ)
    (hx : exec (.ecall regs site) σ = .ok σ') : PagesStepped σ (.ecall regs site) σ' := by
  by_cases haccel : regs.a7 = userSyscallAccelMemset
  · obtain ⟨c, frame, k, he, hcase⟩ := ecall_memset h hen haccel hx
    have hnone : (σ.calls c).memset = none := by rw [he.idle]; rfl
    have hpages : k.machine.pages = σ.kernel.machine.pages := by rw [he.kernel]; rfl
    have hok : PagesOk k.machine.pages := hpages ▸ h.pages
    rcases hcase with ⟨r, k₁, k₂, hp, hk, rfl⟩ | ⟨t, u, sub, k₁, k₂, hp, hk, rfl⟩
    · rcases userAccelSyscallMemset_pages he.task he.ready hok hp with ⟨_, _, heq, hback⟩ | ⟨_, _, _, _, heq, -⟩
      · obtain ⟨rfl, rfl⟩ := Progress.ret.inj heq
        refine .kept (.setCall (fun b => ?_) hnone.symm)
        rw [hk]
        exact (hback b).trans (by rw [hpages])
      · cases heq
    · rcases userAccelSyscallMemset_pages he.task he.ready hok hp with ⟨_, _, heq, -⟩ | ⟨_, u', sub', _, heq, hbegun⟩
      · cases heq
      · cases heq
        refine .begins hnone ?_ (by rw [setCall_calls_self]; rfl) fun t ht => setCall_calls_of_ne _ _ ht
        show Holding u k₂.machine.pages σ.kernel.machine.pages
        rw [hk.pages, ← hpages]
        exact hbegun.pages
  obtain ⟨c, frame, k₀, action, k₁, hcur, hidle, hreal, hon, hframe, hk₀, hs, hready, hf, hspp, hdispatch, hx⟩ :=
    ecall_dispatch h hen hx
  have hcur₀ : k₀.sched.currentThread = some c := by rw [hk₀]; exact hcur
  have hframe₀ : frame = (k₀.tasks (k₀.sched.threads c).userTask).trapContext := by rw [hk₀]; exact hframe
  by_cases hexit : regs.a7 = userSyscallExit
  · have hnr : (k₀.sched.frames frame).a7 ≠ userSyscallAccelMemset := by rw [hf]; exact haccel
    obtain ⟨-, next, rfl⟩ := userSyscallDispatch_accelKept hs hcur₀ hready hframe₀ hspp hnr hdispatch
    obtain ⟨⟨r, k₂⟩, -, hx⟩ := bind_eq_ok.mp hx
    obtain rfl := Except.ok.inj hx
    exact .others hexit fun _ => rfl
  · obtain ⟨l, g, next, s', heq, -⟩ := userSyscallDispatch_spec hs hcur₀ hready hframe₀ hspp
      (by rw [hf]; exact hexit) (by rw [hf]; exact haccel)
    obtain ⟨rfl, rfl⟩ := Prod.mk.inj (Except.ok.inj (hdispatch.symm.trans heq))
    obtain ⟨⟨r, k₂⟩, hret, hx⟩ := bind_eq_ok.mp hx
    obtain rfl := Except.ok.inj hx
    exact .kept (.setKernel ((trapReturnFromHandler_ok hret).pages.trans (by rw [hk₀]; rfl)))

theorem exec_pages (h : DriverOk σ) (hen : Enabled op σ) (hx : exec op σ = .ok σ') : PagesStepped σ op σ' := by
  have hsys := h.sys
  cases op with
  | threadCreate name entry arg =>
    obtain ⟨⟨r, k₁⟩, h₁, hx⟩ := bind_eq_ok.mp hx
    obtain rfl := Except.ok.inj hx
    obtain ⟨r', k', heq, hcase⟩ := threadCreate_spec hsys.sched name entry arg
    obtain ⟨-, rfl⟩ := Prod.mk.inj (Except.ok.inj (h₁.symm.trans heq))
    refine .kept (.setKernel ?_)
    rcases hcase with ⟨-, rfl⟩ | ⟨tid, s', -, rfl, -⟩
    · rfl
    · rfl
  | threadCreateUser name task =>
    obtain ⟨⟨r, k₁⟩, h₁, hx⟩ := bind_eq_ok.mp hx
    obtain rfl := Except.ok.inj hx
    obtain ⟨r', k', heq, hcase⟩ := threadCreateUser_spec hsys.sched name task
    obtain ⟨-, rfl⟩ := Prod.mk.inj (Except.ok.inj (h₁.symm.trans heq))
    refine .kept (.setKernel ?_)
    rcases hcase with ⟨-, rfl⟩ | ⟨tid, s', -, -, hk, -⟩
    · rfl
    · rw [hk]
  | threadStart =>
    obtain ⟨⟨frame, k₁⟩, h₁, hx⟩ := bind_eq_ok.mp hx
    obtain ⟨⟨r, k₂⟩, hret, hx⟩ := bind_eq_ok.mp hx
    obtain rfl := Except.ok.inj hx
    obtain ⟨s₁, heq, -⟩ := threadStart_spec hsys.sched hen
    obtain ⟨-, rfl⟩ := Prod.mk.inj (Except.ok.inj (h₁.symm.trans heq))
    exact .kept (.setKernel (trapReturnFromHandler_ok hret).pages)
  | userTaskInit task program =>
    obtain ⟨⟨r, k₁⟩, -, hx⟩ := bind_eq_ok.mp hx
    obtain rfl := Except.ok.inj hx
    exact .others trivial fun _ => rfl
  | waitQueueInit queue name =>
    obtain ⟨k₁, h₁, hx⟩ := bind_eq_ok.mp hx
    obtain rfl := Except.ok.inj hx
    obtain ⟨-, s', rfl, -⟩ := waitQueueInit_ok h₁
    exact .kept ⟨fun _ => Iff.rfl, fun _ => rfl⟩
  | wakeOne queue =>
    obtain ⟨⟨tid, k₁⟩, h₁, hx⟩ := bind_eq_ok.mp hx
    obtain rfl := Except.ok.inj hx
    obtain ⟨tid', s', heq, -⟩ := waitQueueWakeOne_spec hsys.sched hen.2
    obtain ⟨-, rfl⟩ := Prod.mk.inj (Except.ok.inj (h₁.symm.trans heq))
    exact .kept (.setKernel rfl)
  | wakeAll queue =>
    obtain ⟨k₁, h₁, hx⟩ := bind_eq_ok.mp hx
    obtain rfl := Except.ok.inj hx
    obtain ⟨s', heq, -⟩ := waitQueueWakeAll_spec hsys.sched hen.2
    obtain rfl := Except.ok.inj (h₁.symm.trans heq)
    exact .kept (.setKernel rfl)
  | control t site => exact .kept (control_pages hsys hen hx)
  | ecall regs site => exact ecall_pages hsys hen hx
  | timer mtime site => exact .kept (timer_pages hsys hen hx)
  | resume site => exact resume_pages h hen hx
  | mutexInit mutex name =>
    obtain ⟨k₁, h₁, hx⟩ := bind_eq_ok.mp hx
    obtain rfl := Except.ok.inj hx
    obtain ⟨-, s', rfl, -⟩ := mutexInit_ok hsys.sched hen.2.2 h₁
    exact .kept ⟨fun _ => Iff.rfl, fun _ => rfl⟩
  | mutexLock mutex site =>
    obtain ⟨c, hc, -⟩ := id hen
    obtain ⟨d, call, hcur, -, hs⟩ := mutexLock_lockStep hsys hen hx
    obtain rfl : c = d := Option.some.inj (hc.current.symm.trans hcur)
    exact .kept (hs.pagesKept (by rw [hc.idle]; rfl))
  | mutexLockTimeout mutex ticks site =>
    obtain ⟨c, hc, -⟩ := id hen
    obtain ⟨d, call, hcur, -, hs⟩ := mutexLockTimeout_lockStep hsys hen hx
    obtain rfl : c = d := Option.some.inj (hc.current.symm.trans hcur)
    exact .kept (hs.pagesKept (by rw [hc.idle]; rfl))
  | mutexTrylock mutex =>
    obtain ⟨⟨r, k₁⟩, h₁, hx⟩ := bind_eq_ok.mp hx
    obtain rfl := Except.ok.inj hx
    obtain ⟨-, -, hcase⟩ := mutexTrylock_ok h₁
    have hk : PagesKept σ (σ.setKernel k₁) := by
      rcases hcase with ⟨-, rfl, -⟩ | ⟨-, rfl, -⟩
      · exact .setKernel rfl
      · exact .setKernel rfl
    refine .kept ?_
    split
    · exact ⟨hk.pages, hk.calls⟩
    · exact hk
  | mutexUnlock mutex =>
    obtain ⟨c, hc, hm, -⟩ := hen
    obtain ⟨k₁, h₁, hx⟩ := bind_eq_ok.mp hx
    obtain rfl := Except.ok.inj hx
    obtain ⟨-, next, s', rfl, -⟩ := mutexUnlock_ok hsys.sched (hsys.mutexQueue _ hm).2 h₁
    exact .kept ⟨fun _ => Iff.rfl, fun _ => rfl⟩
  | accelSubmit cmd ticks site => exact .kept (accelSubmit_pages hsys hen hx)
  | accelControl control =>
    obtain rfl := Except.ok.inj hx
    refine .kept (.setKernel ?_)
    rcases accelWriteControlRaw_cases control σ.kernel with ⟨hk, -⟩ | ⟨-, -, ⟨-, hk⟩ | ⟨-, -, -, hk⟩⟩
    · rw [hk]
    · rw [hk]
    · rw [hk]
      rfl
  | accelAck mask =>
    obtain rfl := Except.ok.inj hx
    exact .kept (.setKernel (accelAckIrq_pages mask σ.kernel))
  | accelStep =>
    obtain rfl := Except.ok.inj hx
    exact .kept (.setKernel rfl)
  | dispatchIrqs =>
    obtain ⟨k₁, h₁, hx⟩ := bind_eq_ok.mp hx
    obtain rfl := Except.ok.inj hx
    refine .kept (.setKernel ?_)
    cases platformDispatchPendingIrqs_outcome hsys.sched hsys.accelQueue h₁ with
    | none => rfl
    | spurious => rfl
    | completed => rfl
  | pageAlloc =>
    obtain ⟨⟨a, m⟩, -, hx⟩ := bind_eq_ok.mp hx
    obtain rfl := Except.ok.inj hx
    exact .others trivial fun _ => rfl
  | pageFree page =>
    obtain ⟨m, -, hx⟩ := bind_eq_ok.mp hx
    obtain rfl := Except.ok.inj hx
    exact .others trivial fun _ => rfl
  | write mem =>
    obtain rfl := Except.ok.inj hx
    exact .kept (.setKernel rfl)

/-! ### Every run -/

/-- What a run keeps in which other code spares the pages of the calls. -/
structure PagesInv (σ : System) : Prop where
  driver : DriverOk σ
  held : ∀ t u, (σ.calls t).memset = some u → PagesHeld u σ.kernel.machine.pages

theorem DriverOk.memset_unique (h : DriverOk σ) {t₁ t₂ : Nat} {u₁ u₂ : UserMemset}
    (h₁ : (σ.calls t₁).memset = some u₁) (h₂ : (σ.calls t₂).memset = some u₂) : t₁ = t₂ := by
  have hslot : ∀ t u, (σ.calls t).memset = some u → σ.kernel.accelRequest.submitterTid = t := by
    intro t u ht
    cases hcall : σ.calls t with
    | userMemset u' sub => exact (h.accel.calls t sub (by rw [hcall]; rfl)).2.2
    | idle =>
      rw [hcall] at ht
      cases ht
    | lock call =>
      rw [hcall] at ht
      cases ht
    | submit sub =>
      rw [hcall] at ht
      cases ht
  exact (hslot t₁ u₁ h₁).symm.trans (hslot t₂ u₂ h₂)

theorem PagesInv.step (h : PagesInv σ) (hs : Steps op σ σ') (hspare : SparesCalls op σ) : PagesInv σ' := by
  have hdriver := hs.driverOk h.driver
  refine ⟨hdriver, fun t u ht => ?_⟩
  cases exec_pages h.driver hs.enabled hs.exec with
  | kept hk =>
    rw [hk.calls] at ht
    have hheld := h.held t u ht
    exact ⟨(hk.pages _).mpr hheld.cmd, (hk.pages _).mpr hheld.bounce, hheld.ne⟩
  | @begins c u' hnone hheld hcall hothers =>
    obtain rfl := hdriver.memset_unique ht hcall
    obtain rfl := Option.some.inj (ht.symm.trans hcall)
    exact hheld.held
  | @ends c u' hcall hheld hnone hothers =>
    by_cases htc : t = c
    · rw [htc, hnone] at ht
      cases ht
    · rw [hothers t htc] at ht
      exact absurd (h.driver.memset_unique ht hcall) htc
  | others hop hcalls =>
    rw [hcalls] at ht
    have hheld := h.held t u ht
    exact ⟨hspare hop σ' hs.exec _ ⟨t, u, ht, .inl rfl⟩, hspare hop σ' hs.exec _ ⟨t, u, ht, .inr rfl⟩, hheld.ne⟩

theorem DriverOk.callPages (h : DriverOk σ) {u : UserMemset} (hcall : (σ.calls c).memset = some u) :
    σ.CallPages = {u.cmd, u.bouncePage} := by
  ext b
  constructor
  · rintro ⟨t, u', ht, hb⟩
    obtain rfl := h.memset_unique ht hcall
    obtain rfl := Option.some.inj (ht.symm.trans hcall)
    exact hb
  · intro hb
    exact ⟨c, u, hcall, hb⟩

theorem callPages_empty (h : ∀ t, (σ.calls t).memset = none) : σ.CallPages = ∅ := by
  refine Set.eq_empty_of_forall_notMem ?_
  rintro b ⟨t, u, ht, -⟩
  rw [h t] at ht
  cases ht

theorem otherPages_of_holding {u : UserMemset} (hpages : σ.CallPages = {u.cmd, u.bouncePage})
    (hempty : σ'.CallPages = ∅) (hh : Holding u σ.kernel.machine.pages σ'.kernel.machine.pages) :
    σ.OtherPages = σ'.OtherPages := by
  ext b
  have hnot : b ∉ σ.CallPages ↔ b ≠ u.cmd ∧ b ≠ u.bouncePage := by
    rw [hpages]
    exact not_or
  calc b ∈ σ.OtherPages ↔ σ.kernel.machine.pages.Allocated b ∧ b ≠ u.cmd ∧ b ≠ u.bouncePage := and_congr_right' hnot
    _ ↔ σ'.kernel.machine.pages.Allocated b := (hh.allocated b).symm
    _ ↔ b ∈ σ'.OtherPages := by
      rw [OtherPages, hempty]
      exact (and_iff_left (Set.notMem_empty b)).symm

theorem memset_none {t : Nat} {u : UserMemset} (h : DriverOk σ) (hcall : (σ.calls c).memset = some u)
    (ht : t ≠ c) : (σ.calls t).memset = none := by
  cases hu : (σ.calls t).memset with
  | none => rfl
  | some u' => exact absurd (h.memset_unique hu hcall) ht

theorem PagesInv.otherPages (h : PagesInv σ) (hs : Steps op σ σ') (hop : ¬Manages op) :
    σ'.OtherPages = σ.OtherPages := by
  cases exec_pages h.driver hs.enabled hs.exec with
  | kept hk =>
    have hcalls : σ'.CallPages = σ.CallPages := by
      ext b
      simp only [CallPages, hk.calls]
    ext b
    exact and_congr (hk.pages b) (by rw [hcalls])
  | @begins c u hnone hheld hcall hothers =>
    have hdriver := hs.driverOk h.driver
    refine otherPages_of_holding (hdriver.callPages hcall) (callPages_empty fun t => ?_) hheld
    by_cases htc : t = c
    · exact htc ▸ hnone
    · rw [← hothers t htc]
      exact memset_none hdriver hcall htc
  | @ends c u hcall hheld hnone hothers =>
    refine (otherPages_of_holding (h.driver.callPages hcall) (callPages_empty fun t => ?_) hheld).symm
    by_cases htc : t = c
    · exact htc ▸ hnone
    · rw [hothers t htc]
      exact memset_none h.driver hcall htc
  | others hop' => exact absurd hop' hop

/-- A run in which other code frees no page of an accelerator call in progress. -/
def SparingRuns : System → List Op → System → Prop :=
  Run exec fun op σ => (Enabled op σ ∧ AttachOnce op σ) ∧ SparesCalls op σ

/-- A run in which other code neither allocates nor frees pages. -/
def UnmanagedRuns : System → List Op → System → Prop :=
  Run exec fun op σ => (Enabled op σ ∧ AttachOnce op σ) ∧ ¬Manages op

theorem SparingRuns.inv {k : Kernel} (hf : Fresh k) (hboot : boot k = .ok σ₀) (hrun : SparingRuns σ₀ l σ) :
    PagesInv σ := by
  refine Run.invariant (fun _ _ _ hi hp hx => hi.step ⟨hp.1.1, hp.1.2, hx⟩ hp.2) hrun
    ⟨⟨(boot_ok hf hboot).ok, boot_accelOk hf hboot⟩, fun t u ht => ?_⟩
  rw [(boot_ok hf hboot).calls t] at ht
  cases ht

theorem PagesInv.run (h : PagesInv σ) (hrun : UnmanagedRuns σ l σ') : σ'.OtherPages = σ.OtherPages := by
  induction hrun with
  | nil => rfl
  | cons hp hx _ ih =>
    have hs : Steps _ _ _ := ⟨hp.1.1, hp.1.2, hx⟩
    exact (ih (h.step hs fun hop => absurd hop hp.2)).trans (h.otherPages hs hp.2)

/-- In every run in which other code spares the pages of the calls, a call in progress holds its two pages, one of them
for the device. Over every continuation in which other code manages no pages, however many calls begin, wait, time out
and end in it, other code has the same pages at the end. -/
theorem memset_leaks_nothing {k : Kernel} (hf : Fresh k) (hboot : boot k = .ok σ₀) (hrun : SparingRuns σ₀ l σ) :
    (∀ t u sub, σ.calls t = .userMemset u sub →
      PagesHeld u σ.kernel.machine.pages ∧ σ.kernel.accelMmio.cmdBase = u.cmd) ∧
      ∀ l₂ σ₂, UnmanagedRuns σ l₂ σ₂ → σ₂.OtherPages = σ.OtherPages ∧
        ((∀ t, (σ.calls t).memset = none) → (∀ t, (σ₂.calls t).memset = none) →
          ∀ b, σ₂.kernel.machine.pages.Allocated b ↔ σ.kernel.machine.pages.Allocated b) := by
  have h := hrun.inv hf hboot
  refine ⟨fun t u sub hcall => ⟨h.held t u (by rw [hcall]; rfl), ?_⟩, fun l₂ σ₂ hrun₂ => ?_⟩
  · obtain ⟨huse, hcmd, -⟩ := h.driver.accel.calls t sub (by rw [hcall]; rfl)
    have hok := h.driver.sys.call t
    rw [hcall] at hok
    exact (h.driver.accel.protocol.used huse).2.1.trans (hcmd.trans hok.2.2.2.2.2.1)
  · have hothers := h.run hrun₂
    refine ⟨hothers, fun hnone hnone₂ b => ?_⟩
    have hb := Set.ext_iff.mp hothers b
    rw [OtherPages, OtherPages, callPages_empty hnone, callPages_empty hnone₂] at hb
    exact (and_iff_left (Set.notMem_empty b)).symm.trans (hb.trans (and_iff_left (Set.notMem_empty b)))

theorem Runs.unmanaged (h : Runs σ l σ') (hl : ∀ op ∈ l, ¬Manages op) : UnmanagedRuns σ l σ' := by
  induction h with
  | nil => exact .nil _
  | cons hp hx _ ih =>
    exact .cons ⟨hp, hl _ List.mem_cons_self⟩ hx (ih fun op hm => hl op (List.mem_cons_of_mem _ hm))

theorem DriverOk.memset_idle (h : DriverOk σ) (hfree : σ.kernel.accelRequest.inUse = false) (t : Nat) :
    (σ.calls t).memset = none := by
  cases hcall : σ.calls t with
  | userMemset u sub =>
    have huse := (h.accel.calls t sub (by rw [hcall]; rfl)).1
    rw [hfree] at huse
    cases huse
  | idle => rfl
  | lock call => rfl
  | submit sub => rfl

/-- Before the user thread starts there is no call whose pages could be freed. -/
theorem sampleUser_sparing (hboot : boot sampleKernel = .ok σ₀) (hrun : Runs σ₀ sampleUserOps σ) :
    SparingRuns σ₀ sampleUserOps σ := by
  have hnone : ∀ t, (σ₀.calls t).memset = none := fun t => by
    rw [(boot_ok sampleKernel_fresh hboot).calls t]
    rfl
  obtain ⟨σ₁, hp₁, hx₁, hrun⟩ := hrun.uncons
  obtain ⟨σ₂, hp₂, hx₂, hrun⟩ := hrun.uncons
  obtain ⟨σ₃, hp₃, hx₃, hrun⟩ := hrun.uncons
  obtain rfl := hrun.eq_of_nil
  refine .cons ⟨hp₁, fun _ _ _ b hb => ?_⟩ hx₁ (.cons ⟨hp₂, ?_⟩ hx₂ (.single ⟨hp₃, ?_⟩ hx₃))
  · rw [callPages_empty hnone] at hb
    exact hb.elim
  · exact fun hop => hop.elim
  · exact fun hop => hop.elim

/-- A run with a call of the user thread from its begin to its end. -/
theorem memset_leaks_nothing_sample : ∃ (σ σ' : System) (l : List Op), UnmanagedRuns σ l σ' ∧
    (∃ regs site, .ecall regs site ∈ l ∧ regs.a7 = userSyscallAccelMemset) ∧
    ∀ b, σ'.kernel.machine.pages.Allocated b ↔ σ.kernel.machine.pages.Allocated b := by
  obtain ⟨σ₀, σ, hboot, hrun, hp⟩ := runs_of_bootCheck
    (p := fun σ => decide (σ.kernel.accelRequest.inUse = false) &&
      runCheck (fun σ => decide (σ.kernel.accelRequest.inUse = false))
        (sampleMemsetOps ++ sampleMemsetDone ++ [.resume (sampleSite 1)]) σ)
    (l := sampleUserOps) (k := sampleKernel) (by decide +kernel)
  obtain ⟨hfree, hp⟩ := Bool.and_eq_true_iff.mp hp
  obtain ⟨σ', hrun', hfree'⟩ := runs_of_runCheck hp
  have hdriver := hrun.driverOk sampleKernel_fresh hboot
  have hdriver' : DriverOk σ' := Run.invariant (fun _ _ _ hi hp hx => hi.step hp.1 hp.2 hx) hrun' hdriver
  have hsparing := sampleUser_sparing hboot hrun
  have hun := hrun'.unmanaged fun op hm => by
    simp only [sampleMemsetOps, sampleMemsetDone, List.cons_append, List.nil_append, List.mem_cons, List.not_mem_nil,
      or_false] at hm
    rcases hm with rfl | rfl | rfl | rfl | rfl
    · exact (by decide : ¬userSyscallAccelMemset = userSyscallExit)
    · exact id
    · exact id
    · exact id
    · exact id
  refine ⟨σ, σ', _, hun, ⟨_, _, List.mem_cons_self, rfl⟩, ?_⟩
  exact ((memset_leaks_nothing sampleKernel_fresh hboot hsparing).2 _ _ hun).2
    (hdriver.memset_idle (of_decide_eq_true hfree)) (hdriver'.memset_idle (of_decide_eq_true hfree'))

end System

end QemuRtos
