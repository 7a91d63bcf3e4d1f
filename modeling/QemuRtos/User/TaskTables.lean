import QemuRtos.Memory.SpaceSpec
import QemuRtos.User.TaskSpec

/-!
# The tables and frames of a user task

`user_task_init` builds an address space of four pages from the allocator's frames, or gives back everything it
has taken. `user_task_destroy` gives back exactly what was built. Each part works within the task's own space
and its own three frames (`Within`), so the parts compose.
-/

namespace QemuRtos

open Lib

variable {m m' : Machine} {place place' : TablePlaces} {sp : VmSpace} {own : Set U64} {r : U64}

/-! ### Releasing a space -/

/-- The addresses that a task maps. -/
def TaskVa (va : U64) : Prop :=
  SamePage va userSpaceCodeBase ∨ SamePage va userSpaceStackBase ∨ SamePage va userTrampolineVa ∨
    SamePage va userTrapContextVa

theorem userSpaceCodeBase_page : vaIsCanonical userSpaceCodeBase = true ∧ pageAligned userSpaceCodeBase = true := by decide

theorem userSpaceStackBase_page : vaIsCanonical userSpaceStackBase = true ∧ pageAligned userSpaceStackBase = true := by decide

theorem userTrampolineVa_page : vaIsCanonical userTrampolineVa = true ∧ pageAligned userTrampolineVa = true := by decide

theorem userTrapContextVa_page : vaIsCanonical userTrapContextVa = true ∧ pageAligned userTrapContextVa = true := by decide

theorem userTaskReleaseSpace_within (own : Set U64) (h : TablesOk m place) (hl : Live place sp)
    (hpages : ∀ va, mapped m sp.root va ≠ none → TaskVa va) :
    ∃ m' place', userTaskReleaseSpace sp m = .ok m' ∧ Within sp.root own m place m' place' ∧
      ∀ s p, place' s ≠ some (sp.root, p) := by
  obtain ⟨r₁, m₁, h₁, hw₁, hm₁⟩ := vmUnmapPage_within own h hl userSpaceCodeBase_page
  obtain ⟨r₂, m₂, h₂, hw₂, hm₂⟩ := vmUnmapPage_within own hw₁.ok hl userSpaceStackBase_page
  obtain ⟨r₃, m₃, h₃, hw₃, hm₃⟩ := vmUnmapPage_within own hw₂.ok hl userTrampolineVa_page
  obtain ⟨r₄, m₄, h₄, hw₄, hm₄⟩ := vmUnmapPage_within own hw₃.ok hl userTrapContextVa_page
  have hnone : ∀ va, mapped m₄ sp.root va = none := by
    intro va
    rw [hm₄, hm₃, hm₂, hm₁]
    by_cases hva : mapped m sp.root va = none
    · simp only [hva, ite_self]
    · rcases hpages va hva with hs | hs | hs | hs
      · simp only [hs, if_true, ite_self]
      · simp only [hs, if_true, ite_self]
      · simp only [hs, if_true, ite_self]
      · simp only [hs, if_true]
  obtain ⟨m₅, place₅, h₅, hw₅, hgone⟩ := vmSpaceDestroy_within own hw₄.ok hl hnone
  refine ⟨m₅, place₅, ?_, (((hw₁.trans hw₂).trans hw₃).trans hw₄).trans hw₅, hgone⟩
  unfold userTaskReleaseSpace
  rw [if_pos (h.root_ne_zero hl), h₁, ok_bind]
  dsimp only
  rw [h₂, ok_bind]
  dsimp only
  rw [h₃, ok_bind]
  dsimp only
  rw [h₄, ok_bind]
  dsimp only
  rw [h₅]
  rfl

/-! ### The three frames -/

theorem pageFreeIfPresent_within {page : U64} (r : U64) (h : TablesOk m place)
    (hpage : page ≠ 0 → m.pages.Allocated page ∧ place page = none ∧ page ∈ own) :
    ∃ m', pageFreeIfPresent page m = .ok m' ∧ Within r own m place m' place ∧
      ∀ a, m'.pages.Allocated a ↔ m.pages.Allocated a ∧ a ≠ page := by
  unfold pageFreeIfPresent
  by_cases hz : page ≠ 0
  · obtain ⟨ha, hnone, hown⟩ := hpage hz
    obtain ⟨p', hfree, hp', hg⟩ := pageFree_spec h.pages ha
    rw [if_pos hz]
    exact ⟨_, hfree, .of_given r h hp' hg hown hnone, hg.allocated⟩
  · rw [if_neg hz]
    refine ⟨m, rfl, .refl r own h, fun a => (and_iff_left_of_imp fun ha => ?_).symm⟩
    rw [not_not.mp hz]
    exact ha.1.ne_zero h.pages

/-- The frames of a task: distinct, allocated and no tables, as far as they are there. -/
structure FramesOk (m : Machine) (place : TablePlaces) (code stack context : U64) : Prop where
  held : ∀ a, a = code ∨ a = stack ∨ a = context → a ≠ 0 → m.pages.Allocated a ∧ place a = none
  code_stack : code ≠ 0 → code ≠ stack
  code_context : code ≠ 0 → code ≠ context
  stack_context : stack ≠ 0 → stack ≠ context

/-- The frames as a set. -/
def taskFrames (code stack context : U64) : Set U64 := {a | (a = code ∨ a = stack ∨ a = context) ∧ a ≠ 0}

theorem FramesOk.within {code stack context : U64} (h : FramesOk m place code stack context)
    (hw : Within r ∅ m place m' place') : FramesOk m' place' code stack context where
  held a ha hz := by
    obtain ⟨halloc, hp⟩ := h.held a ha hz
    exact hw.not_table (Set.notMem_empty a) halloc hp
  code_stack := h.code_stack
  code_context := h.code_context
  stack_context := h.stack_context

theorem freeFrames_within {code stack context : U64} (r : U64) (h : TablesOk m place)
    (hf : FramesOk m place code stack context) :
    ∃ m₁ m₂ m₃, pageFreeIfPresent code m = .ok m₁ ∧ pageFreeIfPresent stack m₁ = .ok m₂ ∧
      pageFreeIfPresent context m₂ = .ok m₃ ∧ Within r (taskFrames code stack context) m place m₃ place ∧
      ∀ a ∈ taskFrames code stack context, ¬m₃.pages.Allocated a := by
  have hmem : ∀ a, a = code ∨ a = stack ∨ a = context → a ≠ 0 → a ∈ taskFrames code stack context :=
    fun a ha hz => ⟨ha, hz⟩
  obtain ⟨m₁, h₁, hw₁, ha₁⟩ := pageFreeIfPresent_within r h fun hz => by
    obtain ⟨halloc, hp⟩ := hf.held code (.inl rfl) hz
    exact ⟨halloc, hp, hmem code (.inl rfl) hz⟩
  obtain ⟨m₂, h₂, hw₂, ha₂⟩ := pageFreeIfPresent_within r hw₁.ok fun hz => by
    obtain ⟨halloc, hp⟩ := hf.held stack (.inr (.inl rfl)) hz
    refine ⟨(ha₁ _).mpr ⟨halloc, fun he => ?_⟩, hp, hmem stack (.inr (.inl rfl)) hz⟩
    exact hf.code_stack (he ▸ hz) he.symm
  obtain ⟨m₃, h₃, hw₃, ha₃⟩ := pageFreeIfPresent_within r hw₂.ok fun hz => by
    obtain ⟨halloc, hp⟩ := hf.held context (.inr (.inr rfl)) hz
    refine ⟨(ha₂ _).mpr ⟨(ha₁ _).mpr ⟨halloc, fun he => ?_⟩, fun he => ?_⟩, hp, hmem context (.inr (.inr rfl)) hz⟩
    · exact hf.code_context (he ▸ hz) he.symm
    · exact hf.stack_context (he ▸ hz) he.symm
  refine ⟨m₁, m₂, m₃, h₁, h₂, h₃, (hw₁.trans hw₂).trans hw₃, fun a ⟨ha, _⟩ => ?_⟩
  rw [ha₃, ha₂, ha₁]
  rintro ⟨⟨⟨-, h1⟩, h2⟩, h3⟩
  rcases ha with ha | ha | ha
  · exact h1 ha
  · exact h2 ha
  · exact h3 ha

/-- The record of a task whose resources are released. -/
def UserTask.released (t : UserTask) : UserTask :=
  { t with addressSpace := { root := 0 }, userSatp := 0, codePage := 0, stackPage := 0, trapContext := 0 }

theorem userTaskReleaseResources_within {k : Kernel} {task : U64} (h : TablesOk k.machine place)
    (hl : Live place (k.tasks task).addressSpace)
    (hpages : ∀ va, mapped k.machine (k.tasks task).addressSpace.root va ≠ none → TaskVa va)
    (hf : FramesOk k.machine place (k.tasks task).codePage (k.tasks task).stackPage (k.tasks task).trapContext) :
    ∃ m' place', userTaskReleaseResources task k = .ok ({ k with machine := m' }.setTask task UserTask.released) ∧
      Within (k.tasks task).addressSpace.root
        (taskFrames (k.tasks task).codePage (k.tasks task).stackPage (k.tasks task).trapContext) k.machine place m' place' ∧
      (∀ s p, place' s ≠ some ((k.tasks task).addressSpace.root, p)) ∧
      ∀ a ∈ taskFrames (k.tasks task).codePage (k.tasks task).stackPage (k.tasks task).trapContext,
        ¬m'.pages.Allocated a := by
  obtain ⟨m₀, place', h₀, hw₀, hgone⟩ := userTaskReleaseSpace_within ∅ h hl hpages
  obtain ⟨m₁, m₂, m₃, h₁, h₂, h₃, hw, hfree⟩ := freeFrames_within (k.tasks task).addressSpace.root hw₀.ok (hf.within hw₀)
  refine ⟨m₃, place', ?_, (hw₀.mono (Set.empty_subset _)).trans hw, hgone, hfree⟩
  unfold userTaskReleaseResources
  dsimp only
  rw [h₀, ok_bind, h₁, ok_bind, h₂, ok_bind, h₃]
  rfl

/-! ### Building a space -/

theorem pageAlloc_within (h : TablesOk m place) :
    ∃ a p', pageAlloc m = .ok (a, { m with pages := p' }) ∧ TablesOk { m with pages := p' } place ∧
      (∀ r own, (a ≠ 0 → a ∈ own) → Within r own m place { m with pages := p' } place) ∧
      (a ≠ 0 → ¬m.pages.Allocated a ∧ place a = none) ∧
      ∀ b, p'.Allocated b ↔ m.pages.Allocated b ∨ b = a ∧ a ≠ 0 := by
  obtain ⟨a, p', heq, hp', hcase⟩ := pageAlloc_spec h.pages
  refine ⟨a, p', heq, ?_⟩
  rcases hcase with ⟨rfl, rfl, -⟩ | ⟨hne, ht⟩
  · exact ⟨h, fun r own _ => .refl r own h, fun hz => absurd rfl hz, fun b => (or_iff_left fun hb => hb.2 rfl).symm⟩
  · have hnone : place a = none := by
      by_contra hp
      obtain ⟨x, hx⟩ := Option.ne_none_iff_exists'.mp hp
      exact ht.fresh (h.allocated hx)
    refine ⟨(Within.of_taken 0 h hp' ht (Set.mem_singleton a)).ok, fun r own hown => .of_taken r h hp' ht (hown hne),
      fun _ => ⟨ht.fresh, hnone⟩, fun b => ?_⟩
    rw [ht.allocated, and_iff_left hne]

theorem userTaskAllocPages_within {k : Kernel} (task r : U64) (h : TablesOk k.machine place) :
    ∃ code stack context p', userTaskAllocPages task k =
        .ok ({ k with machine := { k.machine with pages := p' } }.setTask task fun t =>
          { t with codePage := code, stackPage := stack, trapContext := context }) ∧
      Within r (taskFrames code stack context) k.machine place { k.machine with pages := p' } place ∧
      FramesOk { k.machine with pages := p' } place code stack context ∧
      ∀ a ∈ taskFrames code stack context, ¬k.machine.pages.Allocated a := by
  obtain ⟨code, p₁, h₁, hok₁, hw₁, hf₁, ha₁⟩ := pageAlloc_within h
  obtain ⟨stack, p₂, h₂, hok₂, hw₂, hf₂, ha₂⟩ := pageAlloc_within hok₁
  obtain ⟨context, p₃, h₃, hok₃, hw₃, hf₃, ha₃⟩ := pageAlloc_within hok₂
  refine ⟨code, stack, context, p₃, ?_, ((hw₁ r _ fun hz => ?_).trans (hw₂ r _ fun hz => ?_)).trans (hw₃ r _ fun hz => ?_),
    ⟨fun a ha hz => ?_, fun hz he => ?_, fun hz he => ?_, fun hz he => ?_⟩, fun a ⟨ha, hz⟩ halloc => ?_⟩
  · unfold userTaskAllocPages
    rw [h₁, ok_bind]
    dsimp only
    rw [h₂, ok_bind]
    dsimp only
    rw [h₃]
    rfl
  · exact ⟨.inl rfl, hz⟩
  · exact ⟨.inr (.inl rfl), hz⟩
  · exact ⟨.inr (.inr rfl), hz⟩
  · rcases ha with rfl | rfl | rfl
    · exact ⟨(ha₃ _).mpr (.inl ((ha₂ _).mpr (.inl ((ha₁ _).mpr (.inr ⟨rfl, hz⟩))))), (hf₁ hz).2⟩
    · exact ⟨(ha₃ _).mpr (.inl ((ha₂ _).mpr (.inr ⟨rfl, hz⟩))), (hf₂ hz).2⟩
    · exact ⟨(ha₃ _).mpr (.inr ⟨rfl, hz⟩), (hf₃ hz).2⟩
  · exact (hf₂ (he ▸ hz)).1 ((ha₁ _).mpr (.inr ⟨he.symm, hz⟩))
  · exact (hf₃ (he ▸ hz)).1 ((ha₂ _).mpr (.inl ((ha₁ _).mpr (.inr ⟨he.symm, hz⟩))))
  · exact (hf₃ (he ▸ hz)).1 ((ha₂ _).mpr (.inr ⟨he.symm, hz⟩))
  · rcases ha with rfl | rfl | rfl
    · exact (hf₁ hz).1 halloc
    · exact (hf₂ hz).1 ((ha₁ _).mpr (.inl halloc))
    · exact (hf₃ hz).1 ((ha₂ _).mpr (.inl ((ha₁ _).mpr (.inl halloc))))

theorem Within.image (h : Within r own m place m' place') : m'.image = m.image := by rw [h.eq]

theorem userSpaceMapPage_within (va pa flags : U64) (own : Set U64) (h : TablesOk m place) (hl : Live place sp) :
    ∃ result m' place', userSpaceMapPage (some sp) va pa flags m = .ok (result, m') ∧
      Within sp.root own m place m' place' ∧ Live place' sp ∧
      (result = vmOk ∧ (∀ va', mapped m' sp.root va' =
          if SamePage va' va then some (paToPte pa flags) else mapped m sp.root va') ∨
        result ≠ vmOk ∧ ∀ va', mapped m' sp.root va' = mapped m sp.root va') := by
  unfold userSpaceMapPage
  split
  · exact ⟨vmErrInvalid, m, place, rfl, .refl _ own h, hl, .inr ⟨by decide, fun _ => rfl⟩⟩
  · obtain ⟨result, m', place', hmap, hw, hl', hcase⟩ := vmMapPage_within va pa flags own h hl
    exact ⟨result, m', place', hmap, hw, hl', hcase.imp_left fun ⟨hr, _, _, hm⟩ => ⟨hr, hm⟩⟩

def taskCodeFlags : U64 := vmPteV ||| vmPteR ||| vmPteX ||| vmPteU ||| vmPteA

def taskStackFlags : U64 := vmPteV ||| vmPteR ||| vmPteW ||| vmPteU ||| vmPteA ||| vmPteD

def taskTrampolineFlags : U64 := vmPteV ||| vmPteR ||| vmPteX ||| vmPteA

def taskContextFlags : U64 := vmPteV ||| vmPteR ||| vmPteW ||| vmPteA ||| vmPteD

/-- The mapping of a task's space: the frame and the flags of the page of an address. -/
def taskMapping (image : Image) (t : UserTask) (va : U64) : Option (U64 × U64) :=
  if SamePage va userTrapContextVa then some (t.trapContext, taskContextFlags)
  else if SamePage va userTrampolineVa then some (image.trampolineStart, taskTrampolineFlags)
  else if SamePage va userSpaceStackBase then some (t.stackPage, taskStackFlags)
  else if SamePage va userSpaceCodeBase then some (t.codePage, taskCodeFlags)
  else none

/-- The entry that a mapping stands for. -/
def entryOf (mapping : U64 × U64) : U64 := paToPte mapping.1 mapping.2

theorem userSpaceMapTrapSupport_within (context : U64) (own : Set U64) (h : TablesOk m place) (hl : Live place sp)
    (hempty : ∀ va, SamePage va userTrampolineVa → mapped m sp.root va = none) :
    ∃ result m' place', userSpaceMapTrapSupport (some sp) context m = .ok (result, m') ∧
      Within sp.root own m place m' place' ∧ Live place' sp ∧
      (result = vmOk ∧ m.image.trampolineStart.toNat % pageSize = 0 ∧ (∀ va, mapped m' sp.root va =
          if SamePage va userTrapContextVa then some (paToPte context taskContextFlags)
          else if SamePage va userTrampolineVa then some (paToPte m.image.trampolineStart taskTrampolineFlags)
          else mapped m sp.root va) ∨
        result ≠ vmOk ∧ ∀ va, mapped m' sp.root va = mapped m sp.root va) := by
  unfold userSpaceMapTrapSupport
  dsimp only
  split
  · exact ⟨vmErrInvalid, m, place, rfl, .refl _ own h, hl, .inr ⟨by decide, fun _ => rfl⟩⟩
  obtain ⟨r₁, m₁, place₁, h₁, hw₁, hl₁, hcase₁⟩ :=
    vmMapPage_within userTrampolineVa m.image.trampolineStart taskTrampolineFlags own h hl
  have h₁' : vmMapPage (some sp) userTrampolineVa m.image.trampolineStart (vmPteV ||| vmPteR ||| vmPteX ||| vmPteA) m =
      .ok (r₁, m₁) := h₁
  rw [h₁', ok_bind]
  dsimp only
  rcases hcase₁ with ⟨rfl, hargs₁, -, hm₁⟩ | ⟨hne, hm₁⟩
  · rw [if_neg (not_not_intro rfl)]
    obtain ⟨r₂, m₂, place₂, h₂, hw₂, hl₂, hcase₂⟩ :=
      vmMapPage_within userTrapContextVa context taskContextFlags own hw₁.ok hl₁
    have h₂' : vmMapPage (some sp) userTrapContextVa context (vmPteV ||| vmPteR ||| vmPteW ||| vmPteA ||| vmPteD) m₁ =
        .ok (r₂, m₂) := h₂
    rw [h₂', ok_bind]
    dsimp only
    rcases hcase₂ with ⟨rfl, -, -, hm₂⟩ | ⟨hne, hm₂⟩
    · rw [if_neg (not_not_intro rfl)]
      refine ⟨vmOk, m₂, place₂, rfl, hw₁.trans hw₂, hl₂, .inl ⟨rfl, pageAligned_iff.mp hargs₁.2.2.1, fun va => ?_⟩⟩
      rw [hm₂, hm₁]
    · rw [if_pos hne]
      obtain ⟨r₃, m₃, h₃, hw₃, hm₃⟩ := vmUnmapPage_within own hw₂.ok hl₂ userTrampolineVa_page
      rw [h₃, ok_bind]
      refine ⟨r₂, m₃, place₂, rfl, (hw₁.trans hw₂).trans hw₃, hl₂, .inr ⟨hne, fun va => ?_⟩⟩
      rw [hm₃]
      by_cases hs : SamePage va userTrampolineVa
      · rw [if_pos hs, hempty va hs]
      · rw [if_neg hs, hm₂, hm₁, if_neg hs]
  · rw [if_pos hne]
    exact ⟨r₁, m₁, place₁, rfl, hw₁, hl₁, .inr ⟨hne, hm₁⟩⟩

theorem userTaskMapPages_within (t : UserTask) (own : Set U64) (h : TablesOk m place) (hl : Live place t.addressSpace)
    (hempty : ∀ va, mapped m t.addressSpace.root va = none) :
    ∃ b m' place', userTaskMapPages t m = .ok (b, m') ∧ Within t.addressSpace.root own m place m' place' ∧
      Live place' t.addressSpace ∧
      (b = true ∧ m.image.trampolineStart.toNat % pageSize = 0 ∧
          (∀ va, mapped m' t.addressSpace.root va = (taskMapping m.image t va).map entryOf) ∨
        b = false ∧ ∀ va, mapped m' t.addressSpace.root va ≠ none → TaskVa va) := by
  unfold userTaskMapPages
  obtain ⟨r₁, m₁, place₁, h₁, hw₁, hl₁, hcase₁⟩ :=
    userSpaceMapPage_within userSpaceCodeBase t.codePage taskCodeFlags own h hl
  have h₁' : userSpaceMapCodePage (some t.addressSpace) t.codePage m = .ok (r₁, m₁) := h₁
  rw [h₁', ok_bind]
  dsimp only
  rcases hcase₁ with ⟨rfl, hm₁⟩ | ⟨hne, hm₁⟩
  · rw [if_neg (not_not_intro rfl)]
    obtain ⟨r₂, m₂, place₂, h₂, hw₂, hl₂, hcase₂⟩ :=
      userSpaceMapPage_within userSpaceStackBase t.stackPage taskStackFlags own hw₁.ok hl₁
    have h₂' : userSpaceMapStackPage (some t.addressSpace) t.stackPage m₁ = .ok (r₂, m₂) := h₂
    rw [h₂', ok_bind]
    dsimp only
    rcases hcase₂ with ⟨rfl, hm₂⟩ | ⟨hne, hm₂⟩
    · rw [if_neg (not_not_intro rfl)]
      have hm : ∀ va, mapped m₂ t.addressSpace.root va =
          if SamePage va userSpaceStackBase then some (paToPte t.stackPage taskStackFlags)
          else if SamePage va userSpaceCodeBase then some (paToPte t.codePage taskCodeFlags) else none := by
        intro va
        rw [hm₂, hm₁, hempty]
      obtain ⟨r₃, m₃, place₃, h₃, hw₃, hl₃, hcase₃⟩ :=
        userSpaceMapTrapSupport_within t.trapContext own hw₂.ok hl₂ fun va hs => by
          have hne : ¬SamePage va userSpaceStackBase ∧ ¬SamePage va userSpaceCodeBase := by
            unfold SamePage at *
            rw [hs]
            decide
          rw [hm, if_neg hne.1, if_neg hne.2]
      rw [h₃, ok_bind]
      have himage : m₂.image = m.image := (hw₁.trans hw₂).image
      rcases hcase₃ with ⟨rfl, halign, hm₃⟩ | ⟨hne, hm₃⟩
      · refine ⟨true, m₃, place₃, rfl, (hw₁.trans hw₂).trans hw₃, hl₃, .inl ⟨rfl, by rw [← himage]; exact halign, fun va => ?_⟩⟩
        rw [hm₃, hm, himage]
        unfold taskMapping
        split
        · rfl
        · split
          · rfl
          · split
            · rfl
            · split
              · rfl
              · rfl
      · refine ⟨false, m₃, place₃, ?_, (hw₁.trans hw₂).trans hw₃, hl₃, .inr ⟨rfl, fun va hva => ?_⟩⟩
        · rw [decide_eq_false hne]
        · rw [hm₃, hm] at hva
          by_cases hs : SamePage va userSpaceStackBase
          · exact .inr (.inl hs)
          · by_cases hc : SamePage va userSpaceCodeBase
            · exact .inl hc
            · rw [if_neg hs, if_neg hc] at hva
              exact absurd rfl hva
    · rw [if_pos hne]
      refine ⟨false, m₂, place₂, rfl, hw₁.trans hw₂, hl₂, .inr ⟨rfl, fun va hva => ?_⟩⟩
      rw [hm₂, hm₁, hempty] at hva
      by_cases hc : SamePage va userSpaceCodeBase
      · exact .inl hc
      · rw [if_neg hc] at hva
        exact absurd rfl hva
  · rw [if_pos hne]
    refine ⟨false, m₁, place₁, rfl, hw₁, hl₁, .inr ⟨rfl, fun va hva => ?_⟩⟩
    rw [hm₁, hempty] at hva
    exact absurd rfl hva

/-! ### The whole of `user_task_init` -/

/-- The tables, the mappings and the allocated frames are as before. -/
structure Preserved (m : Machine) (place : TablePlaces) (m' : Machine) : Prop where
  ok : TablesOk m' place
  allocated : ∀ a, m'.pages.Allocated a ↔ m.pages.Allocated a
  eq : m' = { m with mem := m'.mem, pages := m'.pages }
  range : m'.pages.range = m.pages.range
  lookup : ∀ r va, place r = some (r, []) → mapped m' r va = mapped m r va

theorem Preserved.refl (h : TablesOk m place) : Preserved m place m :=
  ⟨h, fun _ => Iff.rfl, rfl, rfl, fun _ _ _ => rfl⟩

theorem Preserved.within (h : Preserved m place m') (r : U64) : Within r ∅ m place m' place where
  ok := h.ok
  others _ _ _ := Iff.rfl
  allocated a _ := by rw [h.allocated]
  eq := h.eq
  range := h.range
  lookup r' va hr _ := h.lookup r' va hr

/-- A space that is built and torn down again leaves nothing behind. -/
theorem Within.preserved (h : Within r own m place m' place') (hr : ∀ s p, place s ≠ some (r, p))
    (hr' : ∀ s p, place' s ≠ some (r, p)) (hown : ∀ a ∈ own, ¬m.pages.Allocated a)
    (hown' : ∀ a ∈ own, ¬m'.pages.Allocated a) : Preserved m place m' := by
  have hplace : place' = place := by
    funext s
    apply Option.ext
    intro x
    by_cases hx : x.1 = r
    · have hx' : x = (r, x.2) := Prod.ext hx rfl
      rw [hx']
      exact iff_of_false (hr' s x.2) (hr s x.2)
    · exact h.others s x hx
  subst hplace
  refine ⟨h.ok, fun a => ?_, h.eq, h.range, fun r' va hr₀ => h.lookup r' va hr₀ fun he => hr r' [] (he ▸ hr₀)⟩
  by_cases ha : a ∈ own
  · exact iff_of_false (hown' a ha) (hown a ha)
  · have := h.allocated a ha
    rwa [and_iff_left (hr a), and_iff_left (hr a)] at this

/-- What a built task holds: its space, with its four mappings, and its three frames. -/
structure TaskOk (m : Machine) (place : TablePlaces) (t : UserTask) : Prop where
  live : Live place t.addressSpace
  satp : t.userSatp ≠ 0
  frames : FramesOk m place t.codePage t.stackPage t.trapContext
  present : t.codePage ≠ 0 ∧ t.stackPage ≠ 0 ∧ t.trapContext ≠ 0
  trampoline : m.image.trampolineStart.toNat % pageSize = 0
  mapping : ∀ va, mapped m t.addressSpace.root va = (taskMapping m.image t va).map entryOf

/-- The frames of a task besides its tables. -/
abbrev UserTask.frames (t : UserTask) : Set U64 := taskFrames t.codePage t.stackPage t.trapContext

theorem memoryCopy_of_not_inPage {page : U64} {bytes : List Byte} {mem : Mem} {x : Nat} (hlen : bytes.length ≤ pageSize)
    (h : ¬InPage page x) : memoryCopy page bytes mem x = mem x := by
  unfold memoryCopy Mem.writeBytes
  split
  · have : bytes.length ≤ x - page.toNat := by
      unfold InPage at h
      omega
    rw [List.getElem?_eq_none this]
    rfl
  · rfl

/-- Writing the contents of the task's frames leaves the tables alone. -/
theorem FramesOk.write {code stack context : U64} {bytes : List Byte} (h : TablesOk m place)
    (hf : FramesOk m place code stack context) (hz : code ≠ 0 ∧ stack ≠ 0 ∧ context ≠ 0) (hlen : bytes.length ≤ pageSize)
    {t : U64} (ht : place t ≠ none) {x : Nat} (hx : InPage t x) :
    memoryCopy code bytes (memoryZero context pageSize (memoryZero stack pageSize (memoryZero code pageSize m.mem))) x =
      m.mem x := by
  obtain ⟨y, hy⟩ := Option.ne_none_iff_exists'.mp ht
  have hnot : ∀ a, a = code ∨ a = stack ∨ a = context → a ≠ 0 → ¬InPage a x := by
    intro a ha hza hin
    obtain ⟨halloc, hp⟩ := hf.held a ha hza
    rw [hx.unique (h.aligned hy) halloc.1.aligned hin, hp] at ht
    exact ht rfl
  have hcode := hnot code (.inl rfl) hz.1
  rw [memoryCopy_of_not_inPage hlen hcode, memoryZero_of_not_inPage (hnot context (.inr (.inr rfl)) hz.2.2),
    memoryZero_of_not_inPage (hnot stack (.inr (.inl rfl)) hz.2.1), memoryZero_of_not_inPage hcode]

theorem userTaskCanInit_reset {task : U64} (hz : task ≠ 0) (k : Kernel) : userTaskCanInit task (userTaskReset task k) = true := by
  unfold userTaskCanInit userTaskReset
  rw [if_neg hz]
  dsimp only
  rw [Kernel.setTask_self]
  rfl

/-- `user_task_cleanup_partial` undoes what a failed initialisation has built. -/
theorem userTaskCleanupPartial_within (k : Kernel) (task : U64) {m₀ : Machine} {place₀ : TablePlaces}
    (hw : Within (k.tasks task).addressSpace.root (k.tasks task).frames m₀ place₀ k.machine place)
    (hl : Live place (k.tasks task).addressSpace) (hr : ∀ s p, place₀ s ≠ some ((k.tasks task).addressSpace.root, p))
    (hown : ∀ a ∈ (k.tasks task).frames, ¬m₀.pages.Allocated a)
    (hpages : ∀ va, mapped k.machine (k.tasks task).addressSpace.root va ≠ none → TaskVa va)
    (hf : FramesOk k.machine place (k.tasks task).codePage (k.tasks task).stackPage (k.tasks task).trapContext) :
    ∃ k₁ : Kernel, userTaskCleanupPartial task k = .ok (userTaskReset task k₁) ∧ Preserved m₀ place₀ k₁.machine := by
  obtain ⟨m', place', hrel, hw', hgone, hfree⟩ := userTaskReleaseResources_within hw.ok hl hpages hf
  refine ⟨{ k with machine := m' }.setTask task UserTask.released, ?_, (hw.trans hw').preserved hr hgone hown hfree⟩
  unfold userTaskCleanupPartial
  rw [hrel]
  rfl

theorem userSatp_ne_zero (a : U64) : satpModeSv39 ||| a ≠ 0 := by
  intro h
  have := congrArg (fun x : U64 => x.getLsbD 63) h
  simp [satpModeSv39] at this

/-- What `user_task_init` does to a task that can be initialised. -/
inductive InitResult (k : Kernel) (place : TablePlaces) (task : U64) : Int → Kernel → Prop
  | failed {k' : Kernel} (h : Preserved k.machine place k'.machine) (hinit : userTaskCanInit task k' = true) :
    InitResult k place task (-1) k'
  | built {k' : Kernel} {place' : TablePlaces}
    (hw : Within (k'.tasks task).addressSpace.root (k'.tasks task).frames k.machine place k'.machine place')
    (hok : TaskOk k'.machine place' (k'.tasks task)) (hstate : (k'.tasks task).state = .ready)
    (hroot : ∀ s p, place s ≠ some ((k'.tasks task).addressSpace.root, p))
    (hfresh : ∀ a ∈ (k'.tasks task).frames, ¬k.machine.pages.Allocated a) : InitResult k place task 0 k'

theorem userTaskInit_result {k : Kernel} {task : U64} {bytes : List Byte} (h : TablesOk k.machine place)
    (hlen : bytes.length ≠ 0 ∧ bytes.length ≤ pageSize) (hinit : userTaskCanInit task k = true) :
    ∃ result k', userTaskInit task (some bytes) k = .ok (result, k') ∧ InitResult k place task result k' := by
  have hz : task ≠ 0 := by
    rintro rfl
    cases hinit
  unfold userTaskInit
  dsimp only
  rw [if_neg (not_or.mpr ⟨hz, not_or.mpr ⟨hlen.1, not_or.mpr ⟨Nat.not_lt.mpr hlen.2, by simp [hinit]⟩⟩⟩)]
  have hmach : (userTaskReset task k).machine = k.machine := rfl
  obtain ⟨r₁, space, m₁, h₁, hcase₁⟩ := vmSpaceInit_within ∅ h ((userTaskReset task k).tasks task).addressSpace
  rw [hmach, h₁, ok_bind]
  dsimp only
  rcases hcase₁ with ⟨rfl, -, rfl, rfl⟩ | ⟨root, rfl, -, rfl, hnone, hroot, hw₁, hempty⟩
  · rw [if_pos (by decide)]
    exact ⟨-1, _, rfl, .failed (.refl h) (userTaskCanInit_reset hz _)⟩
  rw [if_neg (not_not_intro rfl)]
  -- the three frames
  let k₁ : Kernel := Kernel.setTask { userTaskReset task k with machine := m₁ } task fun t =>
    { t with addressSpace := (some (⟨root⟩ : VmSpace)).getD t.addressSpace }
  have hl₁ : Live (Function.update place root (some (root, []))) ⟨root⟩ := Function.update_self ..
  obtain ⟨code, stack, context, p, h₂, hw₂, hf₂, hfresh₂⟩ := userTaskAllocPages_within (k := k₁) task root hw₁.ok
  have hroot' : ∀ s p, place s ≠ some (root, p) := fun s p => hroot p s
  have hfresh : ∀ a ∈ taskFrames code stack context, ¬k.machine.pages.Allocated a := fun a ha halloc =>
    hfresh₂ a ha ((hw₁.allocated a (Set.notMem_empty a)).mpr ⟨halloc, fun q => hroot q a⟩).1
  have hw₁₂ := (hw₁.mono (Set.empty_subset (taskFrames code stack context))).trans hw₂
  let k₂ : Kernel := Kernel.setTask { k₁ with machine := { k₁.machine with pages := p } } task fun t =>
    { t with codePage := code, stackPage := stack, trapContext := context }
  have ht₂ : k₂.tasks task =
      { state := .unused, addressSpace := ⟨root⟩, userSatp := 0, exitCode := 0, codePage := code, stackPage := stack,
        trapContext := context } := by
    simp only [k₂, k₁, userTaskReset, Kernel.setTask, Function.update_self, Option.getD_some]
  rw [show userTaskAllocPages task k₁ = .ok k₂ from h₂, ok_bind]
  have hempty₂ : ∀ va, mapped k₂.machine root va = none := hempty
  by_cases hpages : (k₂.tasks task).codePage = 0 ∨ (k₂.tasks task).stackPage = 0 ∨ (k₂.tasks task).trapContext = 0
  · rw [if_pos hpages]
    obtain ⟨k₃, hclean, hp⟩ := userTaskCleanupPartial_within k₂ task (by rw [ht₂]; exact hw₁₂)
      (by rw [ht₂]; exact hl₁) (by rw [ht₂]; exact hroot') (by rw [ht₂]; exact hfresh)
      (by rw [ht₂]; exact fun va hva => absurd (hempty₂ va) hva) (by rw [ht₂]; exact hf₂)
    rw [hclean]
    exact ⟨-1, _, rfl, .failed hp (userTaskCanInit_reset hz _)⟩
  rw [if_neg hpages]
  rw [ht₂] at hpages ⊢
  simp only [not_or] at hpages
  dsimp only
  -- their contents
  let t₂ : UserTask :=
    { state := .unused, addressSpace := ⟨root⟩, userSatp := 0, exitCode := 0, codePage := code, stackPage := stack,
      trapContext := context }
  let m₃ : Machine := { k₂.machine with mem := memoryCopy code bytes (memoryZero context pageSize
    (memoryZero stack pageSize (memoryZero code pageSize k₂.machine.mem))) }
  have hok₂ : TablesOk k₂.machine (Function.update place root (some (root, []))) := hw₁₂.ok
  obtain ⟨hw₃, hm₃⟩ := Within.of_write m₃.mem root (taskFrames code stack context) hok₂
    fun t ht x hx => hf₂.write hok₂ hpages hlen.2 ht hx
  have hf₃ : FramesOk m₃ (Function.update place root (some (root, []))) code stack context :=
    ⟨hf₂.held, hf₂.code_stack, hf₂.code_context, hf₂.stack_context⟩
  have hok₃ : TablesOk m₃ (Function.update place root (some (root, []))) := hw₃.ok
  obtain ⟨b, m₄, place₄, h₄, hw₄, hl₄, hcase₄⟩ := userTaskMapPages_within t₂ ∅ hok₃ hl₁ fun va =>
    (hm₃ root va hl₁).trans (hempty₂ va)
  show ∃ result k', (userTaskMapPages t₂ m₃ >>= _) = .ok (result, k') ∧ _
  rw [h₄, ok_bind]
  dsimp only
  let k₄ : Kernel := { Kernel.setFrame { k₂ with machine := m₃ } context fun _ => {} with machine := m₄ }
  have ht₄ : k₄.tasks task = t₂ := ht₂
  have hw₁₄ : Within root (taskFrames code stack context) k.machine place k₄.machine place₄ :=
    (hw₁₂.trans hw₃).trans (hw₄.mono (Set.empty_subset _))
  have hf₄ : FramesOk k₄.machine place₄ code stack context := hf₃.within hw₄
  have himage : k₄.machine.image = m₃.image := hw₄.image
  rcases hcase₄ with ⟨rfl, halign, hm₄⟩ | ⟨rfl, hm₄⟩
  · rw [if_neg (by decide)]
    refine ⟨0, userTaskPublish task k₄, rfl, ?_⟩
    have htask : (userTaskPublish task k₄).tasks task =
        { k₄.tasks task with userSatp := satpModeSv39 ||| ((k₄.tasks task).addressSpace.root >>> 12), state := .ready } := by
      simp only [userTaskPublish, Kernel.setTask, Kernel.setFrame, Function.update_self]
    rw [ht₄] at htask
    refine @InitResult.built k place task (userTaskPublish task k₄) place₄ ?_ ?_ ?_ ?_ ?_
    · rw [htask]
      exact hw₁₄
    · rw [htask]
      refine ⟨hl₄, userSatp_ne_zero _, hf₄, ?_, ?_, ?_⟩
      · exact hpages
      · show k₄.machine.image.trampolineStart.toNat % pageSize = 0
        rw [himage]
        exact halign
      · intro va
        refine (hm₄ va).trans ?_
        rw [← himage]
        rfl
    · rw [htask]
    · rw [htask]
      exact hroot'
    · rw [htask]
      exact hfresh
  · rw [if_pos (by decide)]
    obtain ⟨k₅, hclean, hp⟩ := userTaskCleanupPartial_within k₄ task (by rw [ht₄]; exact hw₁₄)
      (by rw [ht₄]; exact hl₄) (by rw [ht₄]; exact hroot') (by rw [ht₄]; exact hfresh)
      (by rw [ht₄]; exact hm₄) (by rw [ht₄]; exact hf₄)
    show ∃ result k', (userTaskCleanupPartial task k₄ >>= _) = .ok (result, k') ∧ _
    rw [hclean]
    exact ⟨-1, _, rfl, .failed hp (userTaskCanInit_reset hz _)⟩

end QemuRtos
