import QemuRtos.SystemExec
import QemuRtos.SystemOk

/-!
# Runs of the system

The boot code establishes the invariant and each step keeps it, so it holds in every state of every run.
`Runs σ l σ'` is a run in which callers keep their promises; `runCheck` runs the system on given steps.
-/

namespace QemuRtos

open Lib

namespace System

variable {σ σ' : System} {k : Kernel} {l : List Op}

/-! ### Boot -/

theorem waitQueueInit_ok {queue : U64} {name : Option String} {k' : Kernel} (h : waitQueueInit queue name k = .ok k') :
    queue ≠ 0 ∧ ∃ s', k' = { k with sched := s' } ∧ (s'.waitQueues queue).ring.WF queueCap ∧ s'.waits queue = [] := by
  by_cases hz : queue = 0
  · simp only [waitQueueInit, hz, ↓reduceIte] at h
    cases h
  simp only [waitQueueInit, hz, ↓reduceIte] at h
  cases h
  refine ⟨hz, _, rfl, ?_, ?_⟩
  · show (Function.update k.sched.waitQueues queue _ queue).ring.WF queueCap
    rw [Function.update_self]
    exact RingBuffer.WF.empty _ (by decide)
  · show (Function.update k.sched.waitQueues queue _ queue).ring.toList queueCap = []
    rw [Function.update_self]
    rfl

theorem driverProbeAll_ok {k' : Kernel} (hf : Fresh k) (h : driverProbeAll k = .ok k') :
    k'.machine = k.machine ∧ k'.trapSelftestSeen = true ∧ k'.accelBound = true ∧ k'.tasks = k.tasks ∧
      accelWaiters k.machine.image ≠ 0 ∧
      (k'.sched.waitQueues (accelWaiters k.machine.image)).ring.WF queueCap ∧
      k'.sched.waits (accelWaiters k.machine.image) = [] ∧
      k'.accelMmio = accelMmioInit ∧ k'.accelRequest.inUse = false ∧
      k'.accelRequest.resetRequiredAfterTimeout = false := by
  rw [driverProbeAll, if_neg (by rw [hf.unbound]; decide)] at h
  obtain ⟨⟨r, k₁⟩, h₁, h⟩ := bind_eq_ok.mp h
  rw [accelProbe, if_neg (by rw [hf.mmio]; decide)] at h₁
  obtain ⟨k₂, h₂, h₁⟩ := bind_eq_ok.mp h₁
  obtain ⟨hz, s', rfl, hwf, hnil⟩ := waitQueueInit_ok h₂
  obtain ⟨rfl, rfl⟩ := Prod.mk.inj (Except.ok.inj h₁)
  rw [← Except.ok.inj h, if_pos rfl]
  exact ⟨rfl, hf.selftest, rfl, rfl, hz, hwf, hnil, hf.mmio, rfl, rfl⟩

/-- A system as the boot code leaves it. -/
structure Booted (σ : System) : Prop where
  ok : SysOk σ
  unstarted : σ.kernel.sched.threadsStarted = false
  calls : ∀ t, σ.calls t = .idle
  queues : σ.queues = [accelWaiters σ.kernel.machine.image]
  mutexes : σ.mutexes = []
  holds : ∀ t m, σ.holds t m = false
  threads : ∀ t, tidIsReal t → σ.kernel.sched.threads t = unusedThread t
  bound : σ.kernel.accelBound = true
  mmio : σ.kernel.accelMmio = accelMmioInit
  free : σ.kernel.accelRequest.inUse = false ∧ σ.kernel.accelRequest.resetRequiredAfterTimeout = false
  tasks : ∀ task, (σ.kernel.tasks task).state = .unused
  request : σ.kernel.sched.rescheduleRequested = false

/-- The boot code establishes the invariant. -/
theorem boot_ok (hf : Fresh k) (h : boot k = .ok σ) : Booted σ := by
  obtain ⟨m, hm, h⟩ := bind_eq_ok.mp h
  obtain ⟨k₁, h₁, h⟩ := bind_eq_ok.mp h
  obtain ⟨k₂, h₂, h⟩ := bind_eq_ok.mp h
  cases h
  obtain ⟨hle, hpos⟩ := kernelEnd_alignUp k.machine.image
  obtain ⟨p, rfl, hp, -, -, hstart, -⟩ := pageInit_ok hm hpos
  have hf' : Fresh { k with machine := { k.machine with pages := p } } := ⟨hf.selftest, hf.unbound, hf.tasks, hf.mmio⟩
  obtain ⟨hmach, hseen, hbound, htasks, hz, hwf, hnil, hmmio, huse⟩ := driverProbeAll_ok hf' h₁
  have himage : k₁.machine.image = k.machine.image := by rw [hmach]
  let Q : Set U64 := {q | q ∈ [accelWaiters k.machine.image]}
  obtain ⟨s', heq, hs, hst, hreq, hunused, hnull⟩ := threadInit_spec k₁ (Q := Q) fun q hq => by
    obtain rfl : q = accelWaiters k.machine.image := List.mem_singleton.mp hq
    exact ⟨hz, hwf, hnil⟩
  obtain rfl := Except.ok.inj (h₂.symm.trans heq)
  have hunready : ∀ task, (k₁.tasks task).state = .unused := by rw [htasks]; exact hf.tasks
  have hnready : ∀ task, ¬userTaskIsReady task { k₁ with sched := s' } := fun task hr => by
    have := (userTaskIsReady_iff.mp hr).2.1
    rw [show ({ k₁ with sched := s' } : Kernel).tasks task = k₁.tasks task from rfl, hunready] at this
    cases this
  have hcur : s'.currentThread = none := by
    rcases hs.phase with ⟨-, hcur, -⟩ | ⟨ht, -⟩
    · exact hcur
    · rw [hst] at ht; cases ht
  rw [if_pos hbound, himage]
  refine ⟨⟨hs, hseen, by rw [hmach]; exact hp, ?_, fun _ => List.mem_singleton.mpr (by rw [himage]),
    fun _ hm => absurd hm (List.not_mem_nil), ?_, fun _ => trivial⟩, hst, fun _ => rfl, by rw [himage], rfl, fun _ _ => rfl, hunused, hbound, hmmio, huse, hunready, hreq⟩
  · show k₁.machine.image.kernelEnd.toNat ≤ k₁.machine.pages.managedStart.toNat
    rw [hmach]; exact hstart ▸ hle
  · refine ⟨fun t ht => ?_, fun t hb => ?_, fun t u ht hu hne => ?_, fun task hr => absurd hr (hnready task), ?_⟩
    · have hth : s'.threads t = unusedThread t := hunused t ht
      refine ⟨fun hb => ?_, fun hb => ?_, fun hne => ?_, fun _ => ?_, fun hne => ?_, fun hne => ?_⟩
      · simp [busy] at hb
      · simp [busy] at hb
      · exact absurd (by rw [show ({ k₁ with sched := s' } : Kernel).sched = s' from rfl, hth]; rfl) hne
      · show (s'.threads t).userTask = 0
        rw [hth]; rfl
      · exact absurd (by rw [show ({ k₁ with sched := s' } : Kernel).sched = s' from rfl, hth]; rfl) hne
      · exact absurd (by rw [show ({ k₁ with sched := s' } : Kernel).sched = s' from rfl, hth]; rfl) hne
    · simp [busy] at hb
    · exact absurd (by rw [show ({ k₁ with sched := s' } : Kernel).sched = s' from rfl, hunused t ht]; rfl) hne
    · intro c hc
      rw [hcur] at hc; cases hc

/-! ### Runs -/

/-- A run in which every caller keeps its promises, and a user task is attached to one thread. -/
abbrev Runs (σ : System) (l : List Op) (σ' : System) : Prop :=
  Run System.exec (fun op σ => Enabled op σ ∧ AttachOnce op σ) σ l σ'

theorem Runs.sysOk (h : Runs σ l σ') (hok : SysOk σ) : SysOk σ' :=
  Run.invariant (fun _ _ _ hi hp hx => (exec_stepped hi hp.1 hp.2 hx).sysOk hi) h hok

/-! ### Checking runs -/

instance {α : Type} {p : α → Prop} [DecidablePred p] (o : Option α) : Decidable (∀ a, o = some a → p a) :=
  match o with
  | none => .isTrue nofun
  | some a => decidable_of_iff (p a) (by simp)

instance {α : Type} {p : α → Prop} [DecidablePred p] (o : Option α) : Decidable (∃ a, o = some a ∧ p a) :=
  match o with
  | none => .isFalse (by simp)
  | some a => decidable_of_iff (p a) (by simp)

instance (image : Image) (tid : Nat) (frame : U64) : Decidable (OnStack image tid frame) :=
  inferInstanceAs (Decidable (_ ∧ _))

instance (image : Image) (frame : U64) : Decidable (OnBootStack image frame) :=
  inferInstanceAs (Decidable (_ ∧ _ ∧ ∀ tid < threadMax, ¬OnStack image tid frame))

instance (σ : System) (c : Nat) : Decidable (InKernel σ c) :=
  decidable_of_iff (σ.kernel.sched.currentThread = some c ∧ σ.calls c = .idle ∧ c ≠ threadNullTid ∧
    (σ.kernel.sched.threads c).userTask = 0) ⟨fun ⟨a, b, c, d⟩ => ⟨a, b, c, d⟩, fun ⟨a, b, c, d⟩ => ⟨a, b, c, d⟩⟩

instance (σ : System) : Decidable (InSetup σ) :=
  inferInstanceAs (Decidable (∀ c, σ.kernel.sched.currentThread = some c → InKernel σ c))

instance (σ : System) : Decidable (Quiet σ) :=
  inferInstanceAs (Decidable (∀ c, σ.kernel.sched.currentThread = some c → σ.calls c = .idle))

instance (σ : System) (c : Nat) (t : ControlTrap) : Decidable (ControlAllowed σ c t) :=
  inferInstanceAs (Decidable (_ ∨ _ ∧ _))

instance {p : Nat → Prop} [DecidablePred p] (σ : System) : Decidable (∃ c, InKernel σ c ∧ p c) :=
  decidable_of_iff (∃ c, σ.kernel.sched.currentThread = some c ∧ InKernel σ c ∧ p c)
    ⟨fun ⟨c, _, h⟩ => ⟨c, h⟩, fun ⟨c, h⟩ => ⟨c, h.1.current, h⟩⟩

instance (op : Op) (σ : System) : Decidable (Enabled op σ) := by
  cases op <;> simp only [Enabled]
  case timer => split <;> infer_instance
  all_goals infer_instance

instance (op : Op) (σ : System) : Decidable (AttachOnce op σ) := by
  cases op
  case threadCreateUser name task =>
    exact decidable_of_iff (∀ t < threadMax, tidIsReal t → (σ.kernel.sched.threads t).userTask ≠ task)
      ⟨fun h t ht => h t (tidIsReal_iff.mp ht).2 ht, fun h t _ ht => h t ht⟩
  all_goals exact .isTrue trivial

/-- Run the steps while they are enabled, and test the last state. -/
def runCheck (p : System → Bool) (l : List Op) (σ : System) : Bool :=
  checkRun exec (fun op σ => Enabled op σ ∧ AttachOnce op σ) p l σ

/-- Boot, and run the steps. -/
def bootCheck (p : System → Bool) (l : List Op) (k : Kernel) : Bool := succeeds (runCheck p l) (boot k)

theorem runs_of_runCheck {p : System → Bool} (h : runCheck p l σ = true) : ∃ σ', Runs σ l σ' ∧ p σ' = true :=
  run_of_checkRun h

theorem runs_of_bootCheck {p : System → Bool} (h : bootCheck p l k = true) :
    ∃ σ σ', boot k = .ok σ ∧ Runs σ l σ' ∧ p σ' = true :=
  run_of_startCheck h

end System

/-! ### A small system, for examples -/

theorem sampleKernel_fresh : System.Fresh sampleKernel := ⟨rfl, rfl, fun _ => rfl, rfl⟩

/-- A trap site on the stack of a thread. -/
def sampleSite (tid : Nat) : TrapSite := { frame := initialFrame tid sampleImage, regs := {} }

theorem sampleSite_onStack {tid : Nat} (h : tid < threadMax) : OnStack sampleImage tid (sampleSite tid).frame :=
  initialFrame_onStack sampleImage h

def sampleTask : U64 := 0x80038000

/-- One user thread, started. -/
def sampleUserOps : List Op := [.userTaskInit sampleTask (some [0]), .threadCreateUser (some "u") sampleTask, .threadStart]

end QemuRtos
