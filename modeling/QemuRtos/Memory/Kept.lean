import QemuRtos.Memory.PageSpec
import QemuRtos.Memory.Usercopy

/-!
# What the memory functions leave alone

Every function of `memory/` and `task.c` changes memory contents and the bitmap only: the interrupt
state is restored, and the allocator keeps its range and its invariant.
-/

namespace QemuRtos

open Lib

variable {m m' m'' : Machine} {a page table task va pa : U64} {space : Option VmSpace} {sp : VmSpace}
  {result : Int} {k k' : Kernel}

structure Machine.Kept (m m' : Machine) : Prop where
  eq : m' = { m with mem := m'.mem, pages := m'.pages }
  range : m'.pages.range = m.pages.range
  ok : PagesOk m.pages → PagesOk m'.pages

namespace Machine.Kept

theorem refl (m : Machine) : m.Kept m := ⟨rfl, rfl, id⟩

theorem trans (h : m.Kept m') (h' : m'.Kept m'') : m.Kept m'' where
  eq := by rw [h'.eq, h.eq]
  range := h'.range.trans h.range
  ok hp := h'.ok (h.ok hp)

theorem setSie (h : ({ m with sie := m'.sie } : Machine).Kept m') (b : Bool) :
    ({ m with sie := b } : Machine).Kept { m' with sie := b } where
  eq := by rw [h.eq]
  range := h.range
  ok := h.ok

theorem mem (m : Machine) (mem : Mem) : m.Kept { m with mem := mem } := ⟨rfl, rfl, id⟩

/-- A function that masks interrupts and restores them at its end. -/
theorem irq (h : (irqSave m).2.Kept m') : m.Kept (irqRestore m.sie m') where
  eq := by rw [h.eq]; rfl
  range := h.range
  ok := h.ok

end Machine.Kept

/-! ### The allocator -/

theorem pageAlloc_kept (h : pageAlloc m = .ok (a, m')) : m.Kept m' := by
  have hk : m' = { m with pages := m'.pages } ∧ m'.pages.range = m.pages.range := by
    rw [pageAlloc] at h
    dsimp only [irqSave] at h
    by_cases hi : (!m.pages.initialized) = true
    · rw [if_pos hi] at h; cases h
    · rw [if_neg hi] at h
      cases hs : m.pages.scan with
      | none => rw [hs] at h; cases h; exact ⟨rfl, rfl⟩
      | some offset => rw [hs] at h; cases h; exact ⟨rfl, rfl⟩
  refine ⟨by rw [hk.1], hk.2, fun hp => ?_⟩
  obtain ⟨a', p', heq, hp', -⟩ := pageAlloc_spec hp
  rw [heq] at h
  cases h
  exact hp'

theorem pageFree_kept (h : pageFree page m = .ok m') : m.Kept m' := by
  have hk : m' = { m with pages := m'.pages } ∧ m'.pages.range = m.pages.range := by
    rw [pageFree] at h
    dsimp only [irqSave] at h
    by_cases hi : (!m.pages.initialized) = true
    · rw [if_pos hi] at h; cases h
    rw [if_neg hi] at h
    by_cases hguard : page &&& pageMask ≠ 0 ∨ page < m.pages.managedStart ∨ page ≥ m.pages.managedEnd
    · rw [if_pos hguard] at h; cases h
    rw [if_neg hguard] at h
    by_cases ht : (!m.pages.bitmapTest (m.pages.pageIndexFromAddr page)) = true
    · rw [if_pos ht] at h; cases h
    rw [if_neg ht] at h
    cases h
    exact ⟨rfl, rfl⟩
  refine ⟨by rw [hk.1], hk.2, fun hp => ?_⟩
  obtain ⟨-, p', rfl, hp', -⟩ := pageFree_ok hp h
  exact hp'

theorem pageFreeIfPresent_kept (h : pageFreeIfPresent page m = .ok m') : m.Kept m' := by
  rw [pageFreeIfPresent] at h
  split at h
  · exact pageFree_kept h
  · cases h; exact .refl _

/-! ### Page tables -/

theorem rollbackAllocatedTables_kept {l : List (U64 × U64)} (h : rollbackAllocatedTables l m = .ok m') :
    m.Kept m' := by
  induction l generalizing m with
  | nil => cases h; exact .refl _
  | cons e rest ih =>
    obtain ⟨m₁, h₁, h⟩ := bind_eq_ok.mp h
    exact ((Machine.Kept.mem m _).trans (pageFree_kept h₁)).trans (ih h)

theorem vmWalkFrom_kept {alloc : Bool} {level : Nat} {allocated : List (U64 × U64)}
    (h : vmWalkFrom va alloc level table allocated m = .ok (a, m')) : m.Kept m' := by
  induction level generalizing table allocated m with
  | zero => cases h; exact .refl _
  | succ level ih =>
    rw [vmWalkFrom] at h
    dsimp only at h
    split at h
    · split at h
      · cases h; exact .refl _
      · exact ih h
    · split at h
      · cases h; exact .refl _
      · obtain ⟨⟨next, m₁⟩, h₁, h⟩ := bind_eq_ok.mp h
        dsimp only at h
        split at h
        · obtain ⟨m₂, h₂, h⟩ := bind_eq_ok.mp h
          cases h
          exact (pageAlloc_kept h₁).trans (rollbackAllocatedTables_kept h₂)
        · exact ((pageAlloc_kept h₁).trans (.mem m₁ _)).trans (ih h)

theorem vmWalk_kept {alloc : Bool} (h : vmWalk space va alloc m = .ok (a, m')) : m.Kept m' := by
  cases space with
  | none => cases h; exact .refl _
  | some sp =>
    rw [vmWalk] at h
    split at h
    · cases h; exact .refl _
    · exact vmWalkFrom_kept h

theorem vmMapPage_kept {flags : U64} (h : vmMapPage space va pa flags m = .ok (result, m')) : m.Kept m' := by
  cases space with
  | none => cases h; exact .refl _
  | some sp =>
    rw [vmMapPage] at h
    split at h
    · cases h; exact .refl _
    · obtain ⟨⟨pte, m₁⟩, h₁, h⟩ := bind_eq_ok.mp h
      have hk := vmWalk_kept h₁
      dsimp only at h
      split at h
      · cases h; exact hk.irq
      · split at h
        · cases h; exact hk.irq
        · cases h; exact (hk.trans (.mem m₁ _)).irq

theorem vmUnmapPage_kept (h : vmUnmapPage space va m = .ok (result, m')) : m.Kept m' := by
  cases space with
  | none => cases h; exact .refl _
  | some sp =>
    rw [vmUnmapPage] at h
    split at h
    · cases h; exact .refl _
    · obtain ⟨⟨pte, m₁⟩, h₁, h⟩ := bind_eq_ok.mp h
      have hk := vmWalk_kept h₁
      dsimp only at h
      split at h
      · cases h; exact hk.irq
      · cases h; exact (hk.trans (.mem m₁ _)).irq

theorem vmGetMapping_kept {mapping : Option (U64 × U64)}
    (h : vmGetMapping space va m = .ok (result, mapping, m')) : m.Kept m' := by
  obtain ⟨⟨pte, m₁⟩, h₁, h⟩ := bind_eq_ok.mp h
  have hk := vmWalk_kept h₁
  dsimp only at h
  split at h
  · cases h; exact hk.irq
  · cases h; exact hk.irq

theorem vmSpaceInit_kept {space' : Option VmSpace} (h : vmSpaceInit space m = .ok (result, space', m')) :
    m.Kept m' := by
  cases space with
  | none => cases h; exact .refl _
  | some sp =>
    rw [vmSpaceInit] at h
    obtain ⟨⟨root, m₁⟩, h₁, h⟩ := bind_eq_ok.mp h
    have hk := pageAlloc_kept h₁
    dsimp only at h
    split at h
    · cases h; exact hk.irq
    · cases h; exact (hk.trans (.mem m₁ _)).irq

theorem foldlM_kept {ι : Type} {f : Machine → ι → Except Panic Machine} {l : List ι}
    (hf : ∀ m i m', f m i = .ok m' → m.Kept m') (h : l.foldlM f m = .ok m') : m.Kept m' := by
  induction l generalizing m with
  | nil => cases h; exact .refl _
  | cons i l ih =>
    rw [List.foldlM_cons] at h
    obtain ⟨m₁, h₁, h⟩ := bind_eq_ok.mp h
    exact (hf m i m₁ h₁).trans (ih h)

theorem freeEmptyTableChildren_kept {level : Nat} (h : freeEmptyTableChildren level table m = .ok m') :
    m.Kept m' := by
  induction level generalizing table m m' with
  | zero => cases h; exact .refl _
  | succ level ih =>
    refine foldlM_kept (fun m i m' hf => ?_) h
    dsimp only at hf
    split at hf
    · cases hf; exact .refl _
    · obtain ⟨m₁, h₁, hf⟩ := bind_eq_ok.mp hf
      obtain ⟨m₂, h₂, hf⟩ := bind_eq_ok.mp hf
      cases hf
      exact ((ih h₁).trans (pageFree_kept h₂)).trans (.mem m₂ _)

theorem vmSpaceDestroy_kept {space' : Option VmSpace}
    (h : vmSpaceDestroy space m = .ok (result, space', m')) : m.Kept m' := by
  cases space with
  | none => cases h; exact .refl _
  | some sp =>
    rw [vmSpaceDestroy] at h
    split at h
    · cases h; exact .refl _
    · dsimp only at h
      split at h
      · cases h; exact (Machine.Kept.refl _).irq
      · obtain ⟨m₁, h₁, h⟩ := bind_eq_ok.mp h
        obtain ⟨m₂, h₂, h⟩ := bind_eq_ok.mp h
        cases h
        exact ((freeEmptyTableChildren_kept h₁).trans (pageFree_kept h₂)).irq

/-! ### User address ranges -/

theorem userSpaceMapPage_kept {flags : U64} (h : userSpaceMapPage space va pa flags m = .ok (result, m')) :
    m.Kept m' := by
  rw [userSpaceMapPage] at h
  split at h
  · cases h; exact .refl _
  · exact vmMapPage_kept h

theorem userSpaceMapTrapSupport_kept (h : userSpaceMapTrapSupport space pa m = .ok (result, m')) :
    m.Kept m' := by
  rw [userSpaceMapTrapSupport] at h
  dsimp only at h
  split at h
  · cases h; exact .refl _
  · obtain ⟨⟨r₁, m₁⟩, h₁, h⟩ := bind_eq_ok.mp h
    dsimp only at h
    split at h
    · cases h; exact vmMapPage_kept h₁
    · obtain ⟨⟨r₂, m₂⟩, h₂, h⟩ := bind_eq_ok.mp h
      dsimp only at h
      split at h
      · obtain ⟨⟨r₃, m₃⟩, h₃, h⟩ := bind_eq_ok.mp h
        cases h
        exact ((vmMapPage_kept h₁).trans (vmMapPage_kept h₂)).trans (vmUnmapPage_kept h₃)
      · cases h
        exact (vmMapPage_kept h₁).trans (vmMapPage_kept h₂)

theorem usercopyValidatePages_kept {needed last : U64} {fuel : Nat}
    (h : usercopyValidatePages sp needed last fuel page m = .ok (result, m')) : m.Kept m' := by
  induction fuel generalizing page m with
  | zero => cases h
  | succ fuel ih =>
    rw [usercopyValidatePages] at h
    obtain ⟨⟨r, mapping, m₁⟩, h₁, h⟩ := bind_eq_ok.mp h
    have hk := vmGetMapping_kept h₁
    dsimp only at h
    split at h
    · cases h; exact hk
    · split at h
      · cases h; exact hk
      · split at h
        · cases h; exact hk
        · exact hk.trans (ih h)

theorem usercopyValidateRangeInSpace_kept {len : U64} {write : Bool}
    (h : usercopyValidateRangeInSpace sp va len write m = .ok (result, m')) : m.Kept m' := by
  rw [usercopyValidateRangeInSpace] at h
  split at h
  · cases h; exact .refl _
  · split at h
    · cases h; exact .refl _
    · split at h
      · cases h; exact .refl _
      · exact usercopyValidatePages_kept h

theorem copyUserTaskLoop_kept {kernelPtr : U64} {len : Nat} {writeUser : Bool} {copied : Nat}
    (h : copyUserTaskLoop sp kernelPtr va len writeUser copied m = .ok (result, m')) : m.Kept m' := by
  induction hn : len - copied using Nat.strong_induction_on generalizing copied m with
  | _ n ih =>
    rw [copyUserTaskLoop] at h
    by_cases hlt : copied < len
    · rw [if_pos hlt] at h
      obtain ⟨⟨r, mapping, m₁⟩, h₁, h⟩ := bind_eq_ok.mp h
      have hk := vmGetMapping_kept h₁
      dsimp only at h
      split at h
      · cases h; exact hk
      · have hoff := and_pageMask_lt (va + BitVec.ofNat 64 copied)
        exact (hk.trans (.mem m₁ _)).trans (ih _ (by omega) h rfl)
    · rw [if_neg hlt] at h
      cases h
      exact .refl _

/-! ### User tasks -/

theorem userTaskReleaseSpace_kept (h : userTaskReleaseSpace sp m = .ok m') : m.Kept m' := by
  rw [userTaskReleaseSpace] at h
  split at h
  · obtain ⟨⟨r₁, m₁⟩, h₁, h⟩ := bind_eq_ok.mp h
    obtain ⟨⟨r₂, m₂⟩, h₂, h⟩ := bind_eq_ok.mp h
    obtain ⟨⟨r₃, m₃⟩, h₃, h⟩ := bind_eq_ok.mp h
    obtain ⟨⟨r₄, m₄⟩, h₄, h⟩ := bind_eq_ok.mp h
    obtain ⟨⟨r₅, sp', m₅⟩, h₅, h⟩ := bind_eq_ok.mp h
    cases h
    exact ((((vmUnmapPage_kept h₁).trans (vmUnmapPage_kept h₂)).trans (vmUnmapPage_kept h₃)).trans
      (vmUnmapPage_kept h₄)).trans (vmSpaceDestroy_kept h₅)
  · cases h; exact .refl _

theorem userTaskMapPages_kept {t : UserTask} {b : Bool} (h : userTaskMapPages t m = .ok (b, m')) :
    m.Kept m' := by
  rw [userTaskMapPages] at h
  obtain ⟨⟨r₁, m₁⟩, h₁, h⟩ := bind_eq_ok.mp h
  have hk₁ := userSpaceMapPage_kept h₁
  dsimp only at h
  split at h
  · cases h; exact hk₁
  · obtain ⟨⟨r₂, m₂⟩, h₂, h⟩ := bind_eq_ok.mp h
    have hk₂ := hk₁.trans (userSpaceMapPage_kept h₂)
    dsimp only at h
    split at h
    · cases h; exact hk₂
    · obtain ⟨⟨r₃, m₃⟩, h₃, h⟩ := bind_eq_ok.mp h
      cases h
      exact hk₂.trans (userSpaceMapTrapSupport_kept h₃)

end QemuRtos
