import Mathlib.Order.CompletePartialOrder
import QemuRtos.Safety.Spaces

/-!
# User tasks among other clients

A task that has been built keeps its memory until it is destroyed, whatever the other clients do: its address space
maps four pages, its frames are nobody else's, and its end gives back what its start took.
-/

namespace QemuRtos

open Lib

namespace Clients

variable {c c' c₀ c₁ c₂ : Clients} {place place' : TablePlaces} {k : Kernel} {l l' : List ClientOp} {task : U64} {op : ClientOp}
  {out : ClientOut}

/-- All frames of an owner: its page tables, and what its calls have handed to it. -/
def memory (c : Clients) (o : Owner) : Set U64 := {a | a ∈ c.frames o ∨ c.root o ≠ 0 ∧ a ∈ c.tableFrames o}

theorem Ok.root_ne_zero (h : c.Ok place) {o : Owner} {a : U64} {p : List Nat} (hp : place a = some (c.root o, p)) : c.root o ≠ 0 := by
  obtain ⟨r, hr⟩ := h.tables.forest.ancestor (p := []) hp
  rw [← h.tables.forest.root hr]
  exact h.tables.ne_zero hr

theorem Ok.memory_eq (h : c.Ok place) (o : Owner) : c.memory o = c.owned place o := by
  ext a
  show (a ∈ c.frames o ∨ c.root o ≠ 0 ∧ a ∈ c.tableFrames o) ↔ (∃ p, place a = some (c.root o, p)) ∨ a ∈ c.frames o
  rw [or_comm]
  refine or_congr_left ⟨fun ⟨hz, ha⟩ => (h.mem_tableFrames hz a).mp ha, fun ⟨p, hp⟩ => ?_⟩
  have hz := h.root_ne_zero hp
  exact ⟨hz, (h.mem_tableFrames hz a).mpr ⟨p, hp⟩⟩

theorem Ok.memory_disjoint (h : c.Ok place) {o o' : Owner} (ho : o ≠ o') : Disjoint (c.memory o) (c.memory o') := by
  rw [h.memory_eq, h.memory_eq, Set.disjoint_left]
  rintro a (⟨p, hp⟩ | ha) (⟨p', hp'⟩ | ha')
  · have hroot := congrArg Prod.fst (Option.some.inj (hp.symm.trans hp'))
    exact ho (h.roots o o' (h.root_ne_zero hp) hroot)
  · rw [(h.held o' a ha').2] at hp
    cases hp
  · rw [(h.held o a ha).2] at hp'
    cases hp'
  · exact ho (h.disjoint o o' a ha ha')

theorem Ok.memory_allocated (h : c.Ok place) {o : Owner} {a : U64} (ha : a ∈ c.memory o) :
    c.kernel.machine.pages.Allocated a := by
  rw [h.memory_eq] at ha
  obtain ⟨p, hp⟩ | ha := ha
  · exact h.tables.allocated hp
  · exact (h.held o a ha).1

/-- What others may do between the start and the end of a task. -/
def NotDestroyed (task : U64) (op : ClientOp) (c : Clients) : Prop :=
  c.Permitted op ∧ ∀ c', op = .taskDestroy task → exec op c ≠ .ok (.status 0, c')

/-- A task lives on: its memory stays the same, and once it has exited, so does its record. -/
structure Lasts (task : U64) (c c' : Clients) : Prop where
  alive : c'.Alive task
  memory : c'.memory (.task task) = c.memory (.task task)
  exited : (c.kernel.tasks task).state = .exited → c'.kernel.tasks task = c.kernel.tasks task

theorem Lasts.refl (h : c.Alive task) : Lasts task c c := ⟨h, rfl, fun _ => rfl⟩

theorem Lasts.trans (h : Lasts task c c₁) (h' : Lasts task c₁ c₂) : Lasts task c c₂ where
  alive := h'.alive
  memory := h'.memory.trans h.memory
  exited hs := by
    have he := h.exited hs
    rw [← he] at hs
    exact (h'.exited hs).trans he

theorem Stepped.lasts {o : Option Owner} (h : c.Ok place) (hs : Stepped o c place c' place') (ho : some (.task task) ≠ o)
    (halive : c.Alive task) : Lasts task c c' where
  alive := (alive_congr (hs.tasks task ho)).mpr halive
  memory := by
    have hz : c.root (.task task) ≠ 0 := by
      rw [root_task halive]
      exact h.tables.root_ne_zero (h.tasks task halive).live
    rw [h.memory_eq, hs.ok.memory_eq]
    ext a
    show (∃ p, place' a = some (c'.root (.task task), p)) ∨ a ∈ c'.frames (.task task) ↔
      (∃ p, place a = some (c.root (.task task), p)) ∨ a ∈ c.frames (.task task)
    rw [hs.root ho, hs.frames ho]
    exact or_congr_left (exists_congr fun p => hs.tables _ ho hz a p)
  exited _ := hs.tasks task ho

theorem Lasts.step (h : c.Ok place) (halive : c.Alive task) (hp : NotDestroyed task op c) (hrun : exec op c = .ok (out, c')) :
    Lasts task c c' := by
  obtain ⟨out', c₁, place', hrun', hs⟩ := exec_step h hp.1
  obtain ⟨-, rfl⟩ := Prod.mk.inj (Except.ok.inj (hrun.symm.trans hrun'))
  by_cases ho : some (.task task) = owner op
  · cases op with
    | taskInit t program =>
      obtain rfl := Owner.task.inj (Option.some.inj ho)
      obtain ⟨result, c₁, place₁, hrun₁, -, hout, -⟩ := taskInit_step h task program
      obtain ⟨-, rfl⟩ := Prod.mk.inj (Except.ok.inj (hrun.symm.trans hrun₁))
      cases hout with
      | refused => exact .refl halive
      | failed hcan => exact absurd halive (not_alive_of_canInit hcan)
      | built hcan => exact absurd halive (not_alive_of_canInit hcan)
    | taskMarkExited t exitCode =>
      obtain rfl := Owner.task.inj (Option.some.inj ho)
      obtain ⟨result, c₁, hrun₁, hs₁, hout⟩ := taskMarkExited_step h task exitCode
      obtain ⟨-, rfl⟩ := Prod.mk.inj (Except.ok.inj (hrun.symm.trans hrun₁))
      cases hout with
      | refused => exact .refl halive
      | exited hstate =>
        let k' := c.kernel.setTask task fun t => { t with state := .exited, exitCode := exitCode }
        have htask : k'.tasks task = { c.kernel.tasks task with state := .exited, exitCode := exitCode } := Kernel.setTask_self ..
        have halive' : ({ c with kernel := k' } : Clients).Alive task := .inr (by rw [show (k'.tasks task).state = .exited by rw [htask]])
        refine ⟨halive', ?_, fun hs => ?_⟩
        · rw [h.memory_eq, hs₁.ok.memory_eq]
          ext a
          show (∃ p, place a = some (({ c with kernel := k' } : Clients).root (.task task), p)) ∨
            a ∈ ({ c with kernel := k' } : Clients).frames (.task task) ↔
            (∃ p, place a = some (c.root (.task task), p)) ∨ a ∈ c.frames (.task task)
          rw [root_task halive', frames_task halive', root_task halive, frames_task halive, htask]
        · rw [hstate] at hs
          cases hs
    | taskDestroy t =>
      obtain rfl := Owner.task.inj (Option.some.inj ho)
      obtain ⟨result, c₁, place₁, hrun₁, -, hout⟩ := taskDestroy_step h task
      obtain ⟨rfl, rfl⟩ := Prod.mk.inj (Except.ok.inj (hrun.symm.trans hrun₁))
      cases hout with
      | refused => exact .refl halive
      | destroyed => exact absurd hrun (hp.2 _ rfl)
    | spaceInit space => cases space <;> cases ho
    | spaceDestroy space => cases space <;> cases ho
    | mapPage space => cases space <;> cases ho
    | unmapPage space => cases space <;> cases ho
    | translate => cases ho
    | getMapping => cases ho
    | pageAlloc => cases ho
    | pageFree => cases ho
    | write => cases ho
  · exact hs.lasts h ho halive

theorem Lasts.run (hreached : c.Reached) (halive : c.Alive task) (hrun : Run (next exec) (NotDestroyed task) c l c') :
    c'.Reached ∧ Lasts task c c' := by
  induction hrun with
  | nil c => exact ⟨hreached, .refl halive⟩
  | @cons c c₁ c₂ op l hp hs _ ih =>
    obtain ⟨out, hexec⟩ := next_ok hs
    obtain ⟨place, hok⟩ := hreached.ok
    have hlasts := Lasts.step hok halive hp hexec
    obtain ⟨hreached', hlasts'⟩ := ih (hreached.step hp.1 hexec) hlasts.alive
    exact ⟨hreached', hlasts.trans hlasts'⟩

/-! ### Isolation -/

theorem Ok.task_getMapping (h : c.Ok place) (halive : c.Alive task) (va : U64) :
    vmGetMapping (some (c.kernel.tasks task).addressSpace) va c.kernel.machine = .ok
      (match taskMapping c.kernel.machine.image (c.kernel.tasks task) va with
      | none => (vmErrNotMapped, none, c.kernel.machine)
      | some (pa, flags) => (vmOk, some (pa ||| pageOffset va, flags), c.kernel.machine)) := by
  have hok := h.tasks task halive
  rw [vmGetMapping_spec h.tables hok.live, hok.mapping va]
  cases hmap : taskMapping c.kernel.machine.image (c.kernel.tasks task) va with
  | none => rfl
  | some x =>
    obtain ⟨pa, flags⟩ := x
    have haligned : ∀ {a}, a ∈ (c.kernel.tasks task).frames → a.toNat % pageSize = 0 := fun ha =>
      (hok.frames.held _ ha.1 ha.2).1.1.aligned
    have hargs : pa.toNat % pageSize = 0 ∧ flags.toNat < 1024 := by
      rw [taskMapping] at hmap
      split at hmap
      · cases hmap
        exact ⟨haligned ⟨.inr (.inr rfl), hok.present.2.2⟩, by decide⟩
      split at hmap
      · cases hmap
        exact ⟨hok.trampoline, by decide⟩
      split at hmap
      · cases hmap
        exact ⟨haligned ⟨.inr (.inl rfl), hok.present.2.1⟩, by decide⟩
      split at hmap
      · cases hmap
        exact ⟨haligned ⟨.inl rfl, hok.present.1⟩, by decide⟩
      · cases hmap
    dsimp only [Option.map, entryOf]
    rw [pteToPa_paToPte hargs.1 hargs.2, paToPte_flags hargs.2]

theorem Ok.taskMapping_of_getMapping (h : c.Ok place) (halive : c.Alive task) {va pa flags : U64}
    (hget : vmGetMapping (some (c.kernel.tasks task).addressSpace) va c.kernel.machine =
      .ok (vmOk, some (pa, flags), c.kernel.machine)) :
    ∃ frame, taskMapping c.kernel.machine.image (c.kernel.tasks task) va = some (frame, flags) ∧ pa = frame ||| pageOffset va := by
  rw [h.task_getMapping halive va] at hget
  cases hmap : taskMapping c.kernel.machine.image (c.kernel.tasks task) va with
  | none =>
    rw [hmap] at hget
    have : vmErrNotMapped = vmOk := congrArg Prod.fst (Except.ok.inj hget)
    exact absurd this (by decide)
  | some x =>
    rw [hmap] at hget
    obtain ⟨rfl, rfl⟩ := Prod.mk.inj (Option.some.inj (congrArg (fun y => y.2.1) (Except.ok.inj hget)))
    exact ⟨_, rfl, rfl⟩

/-- The pages of a task, and the frames behind those that user mode can reach. -/
theorem taskMapping_pages (image : Image) (t : UserTask) (va : U64) :
    (taskMapping image t va ≠ none ↔ TaskVa va) ∧ ∀ pa flags, taskMapping image t va = some (pa, flags) →
      (flags &&& vmPteU ≠ 0 ↔ SamePage va userSpaceCodeBase ∨ SamePage va userSpaceStackBase) ∧
      (SamePage va userSpaceCodeBase → pa = t.codePage ∧ flags &&& vmPteR ≠ 0 ∧ flags &&& vmPteX ≠ 0 ∧ flags &&& vmPteW = 0) ∧
      (SamePage va userSpaceStackBase → pa = t.stackPage ∧ flags &&& vmPteR ≠ 0 ∧ flags &&& vmPteW ≠ 0 ∧ flags &&& vmPteX = 0) := by
  have apart : ∀ {a b : U64}, ¬SamePage a b → SamePage va a → ¬SamePage va b := fun hab ha hb => hab (ha.symm.trans hb)
  have hcs : ¬SamePage userSpaceCodeBase userSpaceStackBase := by decide
  have hct : ¬SamePage userSpaceCodeBase userTrampolineVa := by decide
  have hcc : ¬SamePage userSpaceCodeBase userTrapContextVa := by decide
  have hst : ¬SamePage userSpaceStackBase userTrampolineVa := by decide
  have hsc : ¬SamePage userSpaceStackBase userTrapContextVa := by decide
  by_cases hcode : SamePage va userSpaceCodeBase
  · rw [taskMapping, if_neg (apart hcc hcode), if_neg (apart hct hcode), if_neg (apart hcs hcode), if_pos hcode]
    refine ⟨iff_of_true (by simp) (.inl hcode), ?_⟩
    rintro pa flags he
    obtain ⟨rfl, rfl⟩ := Prod.mk.inj (Option.some.inj he)
    exact ⟨iff_of_true (by decide) (.inl hcode), fun _ => ⟨rfl, by decide⟩, fun hs => absurd hs (apart hcs hcode)⟩
  by_cases hstack : SamePage va userSpaceStackBase
  · rw [taskMapping, if_neg (apart hsc hstack), if_neg (apart hst hstack), if_pos hstack]
    refine ⟨iff_of_true (by simp) (.inr (.inl hstack)), ?_⟩
    rintro pa flags he
    obtain ⟨rfl, rfl⟩ := Prod.mk.inj (Option.some.inj he)
    exact ⟨iff_of_true (by decide) (.inr hstack), fun hs => absurd hs hcode, fun _ => ⟨rfl, by decide⟩⟩
  rw [taskMapping, if_neg hstack, if_neg hcode]
  refine ⟨?_, fun pa flags he => ⟨iff_of_false ?_ (not_or.mpr ⟨hcode, hstack⟩), fun hs => absurd hs hcode, fun hs => absurd hs hstack⟩⟩
  · by_cases hcontext : SamePage va userTrapContextVa
    · rw [if_pos hcontext]
      exact iff_of_true (by simp) (.inr (.inr (.inr hcontext)))
    by_cases htrampoline : SamePage va userTrampolineVa
    · rw [if_neg hcontext, if_pos htrampoline]
      exact iff_of_true (by simp) (.inr (.inr (.inl htrampoline)))
    rw [if_neg hcontext, if_neg htrampoline]
    exact iff_of_false (by simp) (by simp only [TaskVa, not_or]; exact ⟨hcode, hstack, htrampoline, hcontext⟩)
  · split at he
    · cases he
      decide
    split at he
    · cases he
      decide
    · cases he

def sampleTaskInit : ClientOp := .taskInit 0x80038000 (some [0])

theorem sampleTask_built : ∃ c₀ c₁, boot sampleKernel = .ok c₀ ∧ exec sampleTaskInit c₀ = .ok (.status 0, c₁) := by
  have h : succeeds (fun c₀ => succeeds (fun x => decide (x.1 = .status 0)) (exec sampleTaskInit c₀))
      (boot sampleKernel) = true := by
    decide +kernel
  obtain ⟨c₀, hboot, h⟩ := of_succeeds h
  obtain ⟨⟨out, c₁⟩, hexec, h⟩ := of_succeeds h
  obtain rfl := of_decide_eq_true h
  exact ⟨c₀, c₁, hboot, hexec⟩

/-- While a task lives it has four pages, of which user mode reaches two, and its frames are nobody else's. -/
theorem userTask_isolated (hk : ∀ task, (k.tasks task).state = .unused) (hboot : boot k = .ok c₀)
    (hrun : Run (next exec) (fun op c => c.Permitted op) c₀ l c) {program : Option (List Byte)}
    (hinit : exec (.taskInit task program) c = .ok (.status 0, c₁)) (hrun' : Run (next exec) (NotDestroyed task) c₁ l' c₂) :
    let t := c₂.kernel.tasks task
    let m := c₂.kernel.machine
    (∀ va, (∃ pa flags, vmGetMapping (some t.addressSpace) va m = .ok (vmOk, some (pa, flags), m)) ↔ TaskVa va) ∧
    (∀ va pa flags, vmGetMapping (some t.addressSpace) va m = .ok (vmOk, some (pa, flags), m) →
      (flags &&& vmPteU ≠ 0 ↔ SamePage va userSpaceCodeBase ∨ SamePage va userSpaceStackBase) ∧
      (SamePage va userSpaceCodeBase →
        pa = t.codePage ||| pageOffset va ∧ flags &&& vmPteR ≠ 0 ∧ flags &&& vmPteX ≠ 0 ∧ flags &&& vmPteW = 0) ∧
      (SamePage va userSpaceStackBase →
        pa = t.stackPage ||| pageOffset va ∧ flags &&& vmPteR ≠ 0 ∧ flags &&& vmPteW ≠ 0 ∧ flags &&& vmPteX = 0)) ∧
    [t.codePage, t.stackPage, t.trapContext].Nodup ∧ (c₂.tableFrames (.task task)).Nodup ∧
    (∀ a, a ∈ c₂.memory (.task task) ↔ a ∈ [t.codePage, t.stackPage, t.trapContext] ∨ a ∈ c₂.tableFrames (.task task)) ∧
    (∀ a ∈ [t.codePage, t.stackPage, t.trapContext], a ∉ c₂.tableFrames (.task task)) ∧
    (∀ a ∈ c₂.memory (.task task), m.pages.Allocated a ∧ m.image.kernelEnd.toNat ≤ a.toNat) ∧
    ∀ o ≠ .task task, Disjoint (c₂.memory (.task task)) (c₂.memory o) := by
  have hreached := run_reached hk hboot hrun
  obtain ⟨place, hok⟩ := hreached.ok
  obtain ⟨result, c₁', place₁, hexec, -, hout, -⟩ := taskInit_step hok task program
  obtain ⟨hresult, rfl⟩ := Prod.mk.inj (Except.ok.inj (hinit.symm.trans hexec))
  obtain rfl := ClientOut.status.inj hresult
  obtain ⟨hreached', hlasts⟩ : c₂.Reached ∧ Lasts task c₁ c₂ := by
    cases hout with
    | built _ _ hstate => exact Lasts.run (hreached.step (show c.Permitted (.taskInit task program) from trivial) hexec) (.inl hstate) hrun'
  obtain ⟨place₂, hok₂⟩ := hreached'.ok
  have halive := hlasts.alive
  have htask := hok₂.tasks task halive
  have hget := hok₂.task_getMapping halive
  have hroot : c₂.root (.task task) ≠ 0 := by
    rw [root_task halive]
    exact hok₂.tables.root_ne_zero htask.live
  have hframes : ∀ a, a ∈ c₂.frames (.task task) ↔ a ∈ [(c₂.kernel.tasks task).codePage, (c₂.kernel.tasks task).stackPage,
      (c₂.kernel.tasks task).trapContext] := by
    intro a
    rw [frames_task halive]
    simp only [List.mem_cons, List.not_mem_nil, or_false]
    refine ⟨fun ha => ha.1, fun ha => ⟨ha, ?_⟩⟩
    obtain rfl | rfl | rfl := ha
    · exact htask.present.1
    · exact htask.present.2.1
    · exact htask.present.2.2
  refine ⟨fun va => ?_, fun va pa flags hva => ?_, ?_, hok₂.nodup_tableFrames hroot, fun a => ?_, fun a ha hta => ?_,
    fun a ha => ⟨hok₂.memory_allocated ha, hreached'.above.trans (hok₂.memory_allocated ha).1.start_le⟩, fun o ho =>
    hok₂.memory_disjoint (Ne.symm ho)⟩
  · rw [← (taskMapping_pages c₂.kernel.machine.image (c₂.kernel.tasks task) va).1]
    constructor
    · rintro ⟨pa, flags, hva⟩
      obtain ⟨frame, hmap, -⟩ := hok₂.taskMapping_of_getMapping halive hva
      rw [hmap]
      exact Option.some_ne_none _
    · intro hne
      obtain ⟨⟨pa, flags⟩, hmap⟩ := Option.ne_none_iff_exists'.mp hne
      refine ⟨pa ||| pageOffset va, flags, ?_⟩
      rw [hget va, hmap]
  · obtain ⟨frame, hmap, rfl⟩ := hok₂.taskMapping_of_getMapping halive hva
    obtain ⟨hu, hcode, hstack⟩ := (taskMapping_pages _ _ va).2 frame flags hmap
    exact ⟨hu, fun hc => ⟨by rw [(hcode hc).1], (hcode hc).2⟩, fun hc => ⟨by rw [(hstack hc).1], (hstack hc).2⟩⟩
  · have hf := htask.frames
    simp only [List.nodup_cons, List.mem_cons, List.not_mem_nil, or_false, not_or, not_false_eq_true, List.nodup_nil, and_true]
    exact ⟨⟨hf.code_stack htask.present.1, hf.code_context htask.present.1⟩, hf.stack_context htask.present.2.1⟩
  · rw [← hframes a]
    show (a ∈ c₂.frames (.task task) ∨ c₂.root (.task task) ≠ 0 ∧ a ∈ c₂.tableFrames (.task task)) ↔ _
    exact or_congr_right (and_iff_right hroot)
  · exact (hok₂.tableFrames_owned hroot hta).2.2 (.task task) ((hframes a).mpr ha)

/-- What others do while the task lives: a page is allocated, a space is set up with a mapping, and a second task is built. -/
def sampleOthers : List ClientOp :=
  [.pageAlloc, .spaceInit (some 0), .mapPage (some 0) 0x40000000 0x80000000 (vmPteV ||| vmPteR ||| vmPteA),
    .taskInit 0x80039000 (some [0])]

theorem sampleOthers_permitted : ∀ op ∈ sampleOthers, ∀ c, NotDestroyed 0x80038000 op c := by
  intro op hop c
  simp only [sampleOthers, List.mem_cons, List.not_mem_nil, or_false] at hop
  obtain rfl | rfl | rfl | rfl := hop <;> exact ⟨trivial, by rintro _ ⟨⟩⟩

theorem sampleOthers_run : ∃ c₀ c₁ c₂, boot sampleKernel = .ok c₀ ∧ exec sampleTaskInit c₀ = .ok (.status 0, c₁) ∧
    Run (next exec) (NotDestroyed 0x80038000) c₁ sampleOthers c₂ ∧ (c₂.kernel.tasks 0x80038000).state = .ready ∧
    (c₂.kernel.tasks 0x80039000).state = .ready ∧ (c₂.spaces 0).root ≠ 0 := by
  obtain ⟨x, c₂, hstart, hrun, hp⟩ := exists_run (next exec) (NotDestroyed 0x80038000)
    (boot sampleKernel >>= exec sampleTaskInit) Prod.snd sampleOthers
    (fun c => (c.kernel.tasks 0x80038000).state = .ready ∧ (c.kernel.tasks 0x80039000).state = .ready ∧ (c.spaces 0).root ≠ 0)
    (by decide +kernel) sampleOthers_permitted
  have hp := of_decide_eq_true hp
  obtain ⟨c₀, hboot, hinit⟩ := bind_eq_ok.mp hstart
  obtain ⟨c₀', c₁, hboot', hinit'⟩ := sampleTask_built
  obtain rfl := Except.ok.inj (hboot'.symm.trans hboot)
  obtain rfl := Except.ok.inj (hinit'.symm.trans hinit)
  exact ⟨c₀', c₁, c₂, hboot, hinit, hrun, hp⟩

/-- Two tasks, a space and a page of other code, apart from each other. -/
theorem userTask_isolated_sample : ∃ c : Clients, (c.kernel.tasks 0x80038000).state = .ready ∧
    (c.kernel.tasks 0x80039000).state = .ready ∧ (c.spaces 0).root ≠ 0 ∧
    (∀ va, (∃ pa flags, vmGetMapping (some (c.kernel.tasks 0x80038000).addressSpace) va c.kernel.machine =
      .ok (vmOk, some (pa, flags), c.kernel.machine)) ↔ TaskVa va) ∧
    ∀ o ≠ .task 0x80038000, Disjoint (c.memory (.task 0x80038000)) (c.memory o) := by
  obtain ⟨c₀, c₁, c₂, hboot, hinit, hrun, hready, hready', hroot⟩ := sampleOthers_run
  obtain ⟨hmap, -, -, -, -, -, -, hdisj⟩ := userTask_isolated (fun _ => rfl) hboot (.nil c₀) hinit hrun
  exact ⟨c₂, hready, hready', hroot, hmap, hdisj⟩

/-! ### Conservation of frames -/

theorem Ok.init_refused (h : c.Ok place) (halive : c.Alive task) (program : Option (List Byte)) :
    exec (.taskInit task program) c = .ok (.status (-1), c) := by
  obtain ⟨result, c₁, place₁, hrun, -, hout, -⟩ := taskInit_step h task program
  cases hout with
  | refused => exact hrun
  | failed hcan => exact absurd halive (not_alive_of_canInit hcan)
  | built hcan => exact absurd halive (not_alive_of_canInit hcan)

theorem Ok.destroy (h : c.Ok place) (hnull : task ≠ 0) (hstate : (c.kernel.tasks task).state = .exited) :
    ∃ c', exec (.taskDestroy task) c = .ok (.status 0, c') ∧
      (c'.kernel.tasks task).exitCode = (c.kernel.tasks task).exitCode ∧ userTaskCanInit task c'.kernel = true ∧
      ∀ a, c'.kernel.machine.pages.Allocated a ↔ c.kernel.machine.pages.Allocated a ∧ a ∉ c.memory (.task task) := by
  obtain ⟨result, c', place', hrun, -, hout⟩ := taskDestroy_step h task
  cases hout with
  | refused hno => exact absurd hstate (hno.resolve_left hnull)
  | destroyed _ hstate' hcode hinit halloc =>
    exact ⟨c', hrun, hcode, hinit, fun a => by rw [h.memory_eq]; exact halloc a⟩

/-- From a started task to the end of its life: the exit code is kept, and the end frees its memory. -/
theorem task_ends (hreached : c₁.Reached) (hnull : task ≠ 0) (halive : c₁.Alive task)
    (hrun : Run (next exec) (NotDestroyed task) c₁ l c₂) (hready : (c₂.kernel.tasks task).state = .ready) (exitCode : U64) :
    ∃ c₃, exec (.taskMarkExited task exitCode) c₂ = .ok (.status 0, c₃) ∧
      ∀ l' c₄, Run (next exec) (NotDestroyed task) c₃ l' c₄ → ∃ c₅, exec (.taskDestroy task) c₄ = .ok (.status 0, c₅) ∧
        (c₅.kernel.tasks task).exitCode = exitCode ∧ userTaskCanInit task c₅.kernel = true ∧
        (∀ a ∈ c₁.memory (.task task), c₄.kernel.machine.pages.Allocated a) ∧
        ∀ a, c₅.kernel.machine.pages.Allocated a ↔ c₄.kernel.machine.pages.Allocated a ∧ a ∉ c₁.memory (.task task) := by
  obtain ⟨hreached₂, hlasts₂⟩ := Lasts.run hreached halive hrun
  obtain ⟨place, hok⟩ := hreached₂.ok
  obtain ⟨result, c₃, hexec, -, hout⟩ := taskMarkExited_step hok task exitCode
  cases hout with
  | refused hstate =>
    rw [hok.isReady hnull hready] at hstate
    cases hstate
  | exited =>
    refine ⟨_, hexec, fun l' c₄ hrun' => ?_⟩
    let k' := c₂.kernel.setTask task fun t => { t with state := .exited, exitCode := exitCode }
    have htask : k'.tasks task = { c₂.kernel.tasks task with state := .exited, exitCode := exitCode } := Kernel.setTask_self ..
    have hstate₃ : (k'.tasks task).state = .exited := by rw [htask]
    have hmark : NotDestroyed task (.taskMarkExited task exitCode) c₂ := by
      refine ⟨trivial, ?_⟩
      rintro _ ⟨⟩
    have hlasts₃ := Lasts.step hok hlasts₂.alive hmark hexec
    obtain ⟨hreached₄, hlasts₄⟩ := Lasts.run (hreached₂.step hmark.1 hexec) hlasts₃.alive hrun'
    obtain ⟨place₄, hok₄⟩ := hreached₄.ok
    have hsame : c₄.kernel.tasks task = k'.tasks task := hlasts₄.exited hstate₃
    have hmemory : c₄.memory (.task task) = c₁.memory (.task task) :=
      hlasts₄.memory.trans (hlasts₃.memory.trans hlasts₂.memory)
    obtain ⟨c₅, hexec₅, hcode, hinit, halloc⟩ := hok₄.destroy hnull (by rw [hsame, hstate₃])
    rw [hmemory] at halloc
    refine ⟨c₅, hexec₅, ?_, hinit, fun a ha => hok₄.memory_allocated (hmemory ▸ ha), halloc⟩
    rw [hcode, hsame, htask]

/-- What a task takes when it starts it gives back at its end, and a failed start takes nothing. -/
theorem userTask_conserves_frames (hk : ∀ task, (k.tasks task).state = .unused) (hboot : boot k = .ok c₀)
    (hrun : Run (next exec) (fun op c => c.Permitted op) c₀ l c) (task : U64) :
    (∀ program, ∃ result c₁, exec (.taskInit task program) c = .ok (.status result, c₁) ∧ (result = 0 ∨ result = -1) ∧
      (result = -1 → (∀ a, c₁.kernel.machine.pages.Allocated a ↔ c.kernel.machine.pages.Allocated a) ∧
        (userTaskCanInit task c.kernel = true → userTaskCanInit task c₁.kernel = true)) ∧
      (result = 0 → (c₁.kernel.tasks task).state = .ready ∧
        (∀ a, c.kernel.machine.pages.Allocated a → c₁.kernel.machine.pages.Allocated a) ∧
        ∀ l₁ c₂, Run (next exec) (NotDestroyed task) c₁ l₁ c₂ → (c₂.kernel.tasks task).state = .ready → ∀ exitCode,
        ∃ c₃, exec (.taskMarkExited task exitCode) c₂ = .ok (.status 0, c₃) ∧
          ∀ l₂ c₄, Run (next exec) (NotDestroyed task) c₃ l₂ c₄ → ∃ c₅, exec (.taskDestroy task) c₄ = .ok (.status 0, c₅) ∧
            (c₅.kernel.tasks task).exitCode = exitCode ∧ userTaskCanInit task c₅.kernel = true ∧
            (∀ a, c₁.kernel.machine.pages.Allocated a → ¬c.kernel.machine.pages.Allocated a →
              c₄.kernel.machine.pages.Allocated a) ∧
            ∀ a, c₅.kernel.machine.pages.Allocated a ↔ c₄.kernel.machine.pages.Allocated a ∧
              ¬(c₁.kernel.machine.pages.Allocated a ∧ ¬c.kernel.machine.pages.Allocated a))) ∧
    ((c.kernel.tasks task).state = .ready ∨ (c.kernel.tasks task).state = .exited →
      ∀ program, exec (.taskInit task program) c = .ok (.status (-1), c)) ∧
    ((c.kernel.tasks task).state ≠ .ready → ∀ exitCode, exec (.taskMarkExited task exitCode) c = .ok (.status (-1), c)) ∧
    ((c.kernel.tasks task).state ≠ .exited → exec (.taskDestroy task) c = .ok (.status (-1), c)) := by
  have hreached := run_reached hk hboot hrun
  obtain ⟨place, hok⟩ := hreached.ok
  refine ⟨fun program => ?_, fun halive program => hok.init_refused halive program, fun hstate exitCode => ?_, fun hstate => ?_⟩
  · obtain ⟨result, c₁, place₁, hexec, hs, hout, -⟩ := taskInit_step hok task program
    have hreached₁ := hreached.step (show c.Permitted (.taskInit task program) from trivial) hexec
    refine ⟨result, c₁, hexec, ?_⟩
    cases hout with
    | refused => exact ⟨.inr rfl, fun _ => ⟨fun _ => Iff.rfl, id⟩, fun h => absurd h (by decide)⟩
    | failed _ hpre hinit => exact ⟨.inr rfl, fun _ => ⟨hpre.allocated, fun _ => hinit⟩, fun h => absurd h (by decide)⟩
    | built _ hnull hstate hfresh halloc =>
      have htaken : ∀ a, a ∈ c₁.memory (.task task) ↔
          c₁.kernel.machine.pages.Allocated a ∧ ¬c.kernel.machine.pages.Allocated a := by
        intro a
        rw [hs.ok.memory_eq]
        exact ⟨fun ha => ⟨(halloc a).mpr (.inr ha), hfresh a ha⟩, fun ⟨ha, hno⟩ => ((halloc a).mp ha).resolve_left hno⟩
      refine ⟨.inl rfl, fun h => absurd h (by decide), fun _ => ⟨hstate, fun a ha => (halloc a).mpr (.inl ha),
        fun l₁ c₂ hrun₁ hready exitCode => ?_⟩⟩
      obtain ⟨c₃, hexec₃, hend⟩ := task_ends hreached₁ hnull (.inl hstate) hrun₁ hready exitCode
      refine ⟨c₃, hexec₃, fun l₂ c₄ hrun₂ => ?_⟩
      obtain ⟨c₅, hexec₅, hcode, hinit, hheld, hfreed⟩ := hend l₂ c₄ hrun₂
      refine ⟨c₅, hexec₅, hcode, hinit, fun a ha hno => hheld a ((htaken a).mpr ⟨ha, hno⟩), fun a => ?_⟩
      rw [hfreed a, htaken a]
  · obtain ⟨result, c₁, hexec, -, hout⟩ := taskMarkExited_step hok task exitCode
    cases hout with
    | refused => exact hexec
    | exited hready => exact absurd hready hstate
  · obtain ⟨result, c₁, place₁, hexec, -, hout⟩ := taskDestroy_step hok task
    cases hout with
    | refused => exact hexec
    | destroyed hexited => exact absurd hexited hstate

/-- The task exits and is destroyed after the others have taken memory of their own. -/
theorem userTask_conserves_frames_sample : ∃ c₀ c₁ c₂ c₃ c₅ : Clients,
    Run (next exec) (NotDestroyed 0x80038000) c₁ sampleOthers c₂ ∧
    exec (.taskMarkExited 0x80038000 7) c₂ = .ok (.status 0, c₃) ∧
    exec (.taskDestroy 0x80038000) c₃ = .ok (.status 0, c₅) ∧
    (c₅.kernel.tasks 0x80038000).exitCode = 7 ∧
    ∀ a, c₅.kernel.machine.pages.Allocated a ↔ c₃.kernel.machine.pages.Allocated a ∧
      ¬(c₁.kernel.machine.pages.Allocated a ∧ ¬c₀.kernel.machine.pages.Allocated a) := by
  obtain ⟨c₀, c₁, c₂, hboot, hinit, hrun, hready, -⟩ := sampleOthers_run
  obtain ⟨result, c₁', hexec, -, -, hok⟩ :=
    (userTask_conserves_frames (fun _ => rfl) hboot (.nil c₀) 0x80038000).1 (some [0])
  obtain ⟨hresult, rfl⟩ := Prod.mk.inj (Except.ok.inj (hinit.symm.trans hexec))
  obtain ⟨-, -, hend⟩ := hok (ClientOut.status.inj hresult).symm
  obtain ⟨c₃, hexec₃, hdestroy⟩ := hend sampleOthers c₂ hrun hready 7
  obtain ⟨c₅, hexec₅, hcode, -, -, hfreed⟩ := hdestroy [] c₃ (.nil c₃)
  exact ⟨c₀, c₁, c₂, c₃, c₅, hrun, hexec₃, hexec₅, hcode, hfreed⟩

end Clients

end QemuRtos
