import QemuRtos.Memory.Kept

/-!
# What the task functions touch

`user_task_init` and the release of a task change one task record, memory, and the trap context they
allocate. A task that is ready after `user_task_init` has its trap context in a managed page, with a
user frame in it.
-/

namespace QemuRtos

open Lib

variable {k k' k'' : Kernel} {task : U64} {m m' : Machine} {r : Int}

/-- `k'` is `k` but for the record of `task`, memory, and user frames in managed pages. -/
structure TaskChange (task : U64) (k k' : Kernel) : Prop where
  eq : k' = { k with
    machine := k'.machine
    sched := { k.sched with frames := k'.sched.frames }
    tasks := Function.update k.tasks task (k'.tasks task)
    contexts := k'.contexts }
  kept : k.machine.Kept k'.machine
  frames : ∀ a, k'.sched.frames a = k.sched.frames a ∨
    k.machine.pages.Managed a ∧ (k'.sched.frames a).mstatus &&& sstatusSpp = 0

theorem TaskChange.trans (h : TaskChange task k k') (h' : TaskChange task k' k'') : TaskChange task k k'' where
  eq := by
    have h₁ := h.eq
    have h₂ := h'.eq
    rw [h₁] at h₂
    simp only [Function.update_idem] at h₂
    exact h₂
  kept := h.kept.trans h'.kept
  frames a := by
    rcases h'.frames a with he | ⟨hman, hspp⟩
    · rw [he]; exact h.frames a
    · exact .inr ⟨(PageAllocator.Managed.congr h.kept.range).mp hman, hspp⟩

theorem TaskChange.tasks_eq (h : TaskChange task k k') :
    k'.tasks = Function.update k.tasks task (k'.tasks task) :=
  congrArg Kernel.tasks h.eq

@[simp] theorem Kernel.setTask_self (k : Kernel) (task : U64) (f : UserTask → UserTask) :
    (k.setTask task f).tasks task = f (k.tasks task) := Function.update_self ..

theorem TaskChange.setTask (task : U64) (k : Kernel) (f : UserTask → UserTask) :
    TaskChange task k (k.setTask task f) :=
  ⟨by simp [Kernel.setTask], .refl _, fun _ => .inl rfl⟩

theorem TaskChange.machine (h : k.machine.Kept m) : TaskChange task k { k with machine := m } :=
  ⟨by simp, h, fun _ => .inl rfl⟩

theorem TaskChange.setFrame {a : U64} (ha : k.machine.pages.Managed a) {f : TrapFrame → TrapFrame}
    (hf : (f (k.sched.frames a)).mstatus &&& sstatusSpp = 0) : TaskChange task k (k.setFrame a f) := by
  refine ⟨by simp [Kernel.setFrame, Sched.setFrame], .refl _, fun b => ?_⟩
  by_cases hab : b = a
  · subst hab
    refine .inr ⟨ha, ?_⟩
    show ((k.sched.setFrame b f).frames b).mstatus &&& sstatusSpp = 0
    rw [Sched.setFrame_self]; exact hf
  · exact .inl (Sched.setFrame_of_ne _ _ _ hab)

theorem userTaskReleaseResources_change (h : userTaskReleaseResources task k = .ok k') : TaskChange task k k' := by
  simp only [userTaskReleaseResources, bind_eq_ok] at h
  obtain ⟨m₁, h₁, m₂, h₂, m₃, h₃, m₄, h₄, h⟩ := h
  cases h
  exact (TaskChange.machine ((((userTaskReleaseSpace_kept h₁).trans (pageFreeIfPresent_kept h₂)).trans
    (pageFreeIfPresent_kept h₃)).trans (pageFreeIfPresent_kept h₄))).trans (TaskChange.setTask task _ _)

theorem userTaskCleanupPartial_change (h : userTaskCleanupPartial task k = .ok k') :
    TaskChange task k k' ∧ (k'.tasks task).state = .unused := by
  obtain ⟨k₁, h₁, h⟩ := bind_eq_ok.mp h
  cases h
  refine ⟨(userTaskReleaseResources_change h₁).trans (TaskChange.setTask task _ _), ?_⟩
  simp [userTaskReset, Kernel.setTask]

theorem pageAlloc_managed {a : U64} (hp : PagesOk m.pages) (h : pageAlloc m = .ok (a, m')) (ha : a ≠ 0) :
    m.pages.Managed a := by
  obtain ⟨a', p', heq, -, hcase⟩ := pageAlloc_spec hp
  rw [heq] at h
  cases h
  rcases hcase with ⟨hz, -, -⟩ | ⟨-, ht⟩
  · exact absurd hz ha
  · exact ht.managed

theorem userTaskAllocPages_change (hp : PagesOk k.machine.pages) (h : userTaskAllocPages task k = .ok k') :
    TaskChange task k k' ∧
      ((k'.tasks task).trapContext ≠ 0 → k.machine.pages.Managed (k'.tasks task).trapContext) := by
  obtain ⟨⟨a₁, m₁⟩, h₁, h⟩ := bind_eq_ok.mp h
  obtain ⟨⟨a₂, m₂⟩, h₂, h⟩ := bind_eq_ok.mp h
  obtain ⟨⟨a₃, m₃⟩, h₃, h⟩ := bind_eq_ok.mp h
  cases h
  have hk₂ := (pageAlloc_kept h₁).trans (pageAlloc_kept h₂)
  refine ⟨(TaskChange.machine (hk₂.trans (pageAlloc_kept h₃))).trans (TaskChange.setTask task _ _), fun hne => ?_⟩
  rw [Kernel.setTask_self] at hne ⊢
  exact (PageAllocator.Managed.congr hk₂.range).mp (pageAlloc_managed (hk₂.ok hp) h₃ hne)

theorem userTaskPublish_change (task : U64) (hman : k.machine.pages.Managed (k.tasks task).trapContext) :
    TaskChange task k (userTaskPublish task k) ∧
      ((userTaskPublish task k).tasks task).trapContext = (k.tasks task).trapContext ∧
      ((userTaskPublish task k).sched.frames (k.tasks task).trapContext).mstatus = sstatusSpie := by
  refine ⟨?_, ?_, ?_⟩
  · refine ⟨?_, .refl _, fun a => ?_⟩
    · simp [userTaskPublish, Kernel.setTask, Kernel.setFrame, Sched.setFrame]
    · by_cases hac : a = (k.tasks task).trapContext
      · subst hac
        refine .inr ⟨hman, ?_⟩
        simp only [userTaskPublish, Kernel.setTask, Kernel.setFrame, Sched.setFrame_self]
        rfl
      · refine .inl ?_
        simp [userTaskPublish, Kernel.setTask, Kernel.setFrame, Sched.setFrame_of_ne _ _ _ hac]
  · simp [userTaskPublish, Kernel.setTask, Kernel.setFrame]
  · simp [userTaskPublish, Kernel.setTask, Kernel.setFrame]

/-- A task that is ready after `user_task_init`, when it was not before, has a user frame in a managed
page. -/
structure TaskInitialized (task : U64) (k k' : Kernel) : Prop extends TaskChange task k k' where
  before : userTaskIsReady task k = false
  context : userTaskIsReady task k' → k.machine.pages.Managed (k'.tasks task).trapContext ∧
    (k'.sched.frames (k'.tasks task).trapContext).mstatus = sstatusSpie

theorem not_ready_of_state (h : (k.tasks task).state ≠ .ready) : userTaskIsReady task k = false := by
  simp [userTaskIsReady, h]

theorem userTaskCanInit_not_ready (h : userTaskCanInit task k = true) : userTaskIsReady task k = false := by
  refine not_ready_of_state fun hs => ?_
  rw [userTaskCanInit] at h
  split at h
  · cases h
  · simp [hs] at h

theorem userTaskInit_ok {program : Option (List Byte)} (hp : PagesOk k.machine.pages)
    (h : userTaskInit task program k = .ok (r, k')) : k' = k ∨ TaskInitialized task k k' := by
  cases program with
  | none => cases h; exact .inl rfl
  | some bytes =>
    rw [userTaskInit] at h
    by_cases hguard : task = 0 ∨ bytes.length = 0 ∨ bytes.length > pageSize ∨ (!userTaskCanInit task k) = true
    · rw [if_pos hguard] at h; cases h; exact .inl rfl
    rw [if_neg hguard] at h
    have hbefore : userTaskIsReady task k = false := by
      refine userTaskCanInit_not_ready ?_
      simp only [not_or, Bool.not_eq_true', Bool.not_eq_false] at hguard
      exact hguard.2.2.2
    refine .inr ?_
    have hunused : ∀ k₁ : Kernel, TaskChange task k k₁ → (k₁.tasks task).state = .unused → TaskInitialized task k k₁ :=
      fun k₁ hc hs => ⟨hc, hbefore, fun hr => by
        rw [not_ready_of_state (by rw [hs]; decide)] at hr; cases hr⟩
    have hc₀ : TaskChange task k (userTaskReset task k) := TaskChange.setTask task k _
    obtain ⟨⟨r₁, space, m₁⟩, h₁, h⟩ := bind_eq_ok.mp h
    have hk₁ := vmSpaceInit_kept h₁
    dsimp only at h
    split at h
    · cases h
      refine hunused _ ((hc₀.trans (TaskChange.machine hk₁)).trans (TaskChange.setTask task _ _)) ?_
      simp [userTaskReset, Kernel.setTask]
    · obtain ⟨k₂, h₂, h⟩ := bind_eq_ok.mp h
      have hc₁ := (hc₀.trans (TaskChange.machine hk₁)).trans (TaskChange.setTask task
        { userTaskReset task k with machine := m₁ } fun t => { t with addressSpace := space.getD t.addressSpace })
      obtain ⟨hc₂, hman⟩ := userTaskAllocPages_change (k := Kernel.setTask
        { userTaskReset task k with machine := m₁ } task
          fun t => { t with addressSpace := space.getD t.addressSpace }) (hc₁.kept.ok hp) h₂
      have hc₂ := hc₁.trans hc₂
      split at h
      · obtain ⟨k₃, h₃, h⟩ := bind_eq_ok.mp h
        cases h
        obtain ⟨hc₃, hs⟩ := userTaskCleanupPartial_change h₃
        exact hunused _ (hc₂.trans hc₃) hs
      · rename_i hpages
        simp only [not_or] at hpages
        have hman := hman hpages.2.2
        generalize hmem : memoryCopy (k₂.tasks task).codePage bytes _ = mem at h
        let k₃ : Kernel := { k₂ with machine := { k₂.machine with mem := mem } }
        have hman : k.machine.pages.Managed (k₂.tasks task).trapContext :=
          (PageAllocator.Managed.congr hc₁.kept.range).mp hman
        have hman₃ : k₃.machine.pages.Managed (k₂.tasks task).trapContext :=
          (PageAllocator.Managed.congr hc₂.kept.range).mpr hman
        have hc₃ : TaskChange task k₂ (k₃.setFrame (k₂.tasks task).trapContext fun _ => {}) :=
          (TaskChange.machine (.mem k₂.machine mem)).trans (TaskChange.setFrame hman₃ rfl)
        obtain ⟨⟨mapped, m₄⟩, h₄, h⟩ := bind_eq_ok.mp h
        have hk₄ := userTaskMapPages_kept h₄
        let k₄ : Kernel := { k₃.setFrame (k₂.tasks task).trapContext fun _ => {} with machine := m₄ }
        have hc₄ : TaskChange task k k₄ := (hc₂.trans hc₃).trans (TaskChange.machine hk₄)
        dsimp only at h
        split at h
        · obtain ⟨k₅, h₅, h⟩ := bind_eq_ok.mp h
          cases h
          obtain ⟨hc₅, hs⟩ := userTaskCleanupPartial_change h₅
          exact hunused _ (hc₄.trans hc₅) hs
        · cases h
          obtain ⟨hc₅, hctx, hst⟩ := userTaskPublish_change (k := k₄) task
            ((PageAllocator.Managed.congr hc₄.kept.range).mpr hman)
          have hman₅ : k.machine.pages.Managed ((userTaskPublish task k₄).tasks task).trapContext := by
            rw [hctx]; exact hman
          have hst₅ : ((userTaskPublish task k₄).sched.frames
              ((userTaskPublish task k₄).tasks task).trapContext).mstatus = sstatusSpie := by
            rw [hctx]; exact hst
          exact ⟨hc₄.trans hc₅, hbefore, fun _ => ⟨hman₅, hst₅⟩⟩

end QemuRtos
