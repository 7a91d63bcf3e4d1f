import QemuRtos.Clients
import QemuRtos.System

/-!
# Address spaces as finite maps

What the calls put into a space is recorded beside the run, as a partial map from page addresses to frames with
flags. In every reachable state the interface answers as this map says, and each space has page tables of its own.
-/

namespace QemuRtos

open Lib

namespace Clients

/-- For each space the pages that the calls have mapped, by their results: the physical page and the flags. -/
abbrev Maps := Nat → U64 → Option (U64 × U64)

def Maps.empty : Maps := fun _ _ => none

def Maps.record (M : Maps) : ClientOp → ClientOut → Maps
  | .spaceInit (some i), .status r | .spaceDestroy (some i), .status r =>
    if r = vmOk then Function.update M i fun _ => none else M
  | .mapPage (some i) va pa flags, .status r =>
    if r = vmOk then Function.update M i (Function.update (M i) va (some (pa, flags))) else M
  | .unmapPage (some i) va, .status r => if r = vmOk then Function.update M i (Function.update (M i) va none) else M
  | _, _ => M

/-- A step, with what it maps and unmaps. -/
def trackedStep (op : ClientOp) (x : Clients × Maps) : Except Panic (Clients × Maps) :=
  (exec op x.1).map fun r => (r.2, x.2.record op r.1)

abbrev TrackedRun (c₀ : Clients) (l : List ClientOp) (c : Clients) (M : Maps) : Prop :=
  Run trackedStep (fun op x => x.1.Permitted op) (c₀, Maps.empty) l (c, M)

/-- The page of an address. -/
def pageBase (va : U64) : U64 := alignDown va (BitVec.ofNat 64 pageSize)

theorem pageBase_eq_iff {va va' : U64} (h : pageAligned va' = true) : pageBase va = va' ↔ SamePage va va' := by
  have hal := pageAligned_iff.mp h
  rw [SamePage, ← BitVec.toNat_inj, pageBase, pageAlignDown_toNat]
  have := Nat.div_add_mod va'.toNat pageSize
  constructor
  · intro he
    rw [← he, Nat.mul_div_cancel _ (by decide)]
  · intro he
    rw [he, Nat.mul_comm]
    omega

/-- The tables hold what was recorded. -/
structure Agrees (c : Clients) (M : Maps) : Prop where
  args : ∀ {i va pa flags}, M i va = some (pa, flags) → MapArgs va pa flags
  lookup : ∀ {i} va, (c.spaces i).root ≠ 0 →
    mapped c.kernel.machine (c.spaces i).root va = (M i (pageBase va)).map entryOf
  empty : ∀ {i} va, (c.spaces i).root = 0 → M i va = none

variable {c c' c₀ : Clients} {M : Maps} {place place' : TablePlaces} {k : Kernel} {l : List ClientOp} {i : Nat} {va pa flags : U64}

theorem Agrees.other {o : Option Owner} (h : c.Agrees M) (hs : Stepped o c place c' place') {j : Nat}
    (hj : some (.space j) ≠ o) (hz : (c'.spaces j).root ≠ 0) (va : U64) :
    mapped c'.kernel.machine (c'.spaces j).root va = (M j (pageBase va)).map entryOf := by
  rw [hs.spaces j hj] at hz ⊢
  rw [show mapped c'.kernel.machine (c.spaces j).root va = mapped c.kernel.machine (c.spaces j).root va from
    hs.lookup (.space j) hj hz va]
  exact h.lookup va hz

theorem Agrees.same {o : Option Owner} (h : c.Agrees M) (hs : Stepped o c place c' place')
    (ho : ∀ i, some (.space i) ≠ o) : c'.Agrees M where
  args := h.args
  lookup va hz := h.other hs (ho _) hz va
  empty va hz := by
    rw [hs.spaces _ (ho _)] at hz
    exact h.empty va hz

theorem Agrees.update {f : U64 → Option (U64 × U64)} (h : c.Agrees M)
    (hs : Stepped (some (.space i)) c place c' place')
    (hargs : ∀ {va pa flags}, f va = some (pa, flags) → MapArgs va pa flags)
    (hlookup : (c'.spaces i).root ≠ 0 → ∀ va, mapped c'.kernel.machine (c'.spaces i).root va = (f (pageBase va)).map entryOf)
    (hempty : (c'.spaces i).root = 0 → ∀ va, f va = none) : c'.Agrees (Function.update M i f) where
  args {j va pa flags} hf := by
    by_cases hj : j = i
    · rw [hj, Function.update_self] at hf
      exact hargs hf
    · rw [Function.update_of_ne hj] at hf
      exact h.args hf
  lookup {j} va hz := by
    by_cases hj : j = i
    · subst hj
      rw [Function.update_self]
      exact hlookup hz va
    · rw [Function.update_of_ne hj]
      exact h.other hs (fun he => hj (Owner.space.inj (Option.some.inj he))) hz va
  empty {j} va hz := by
    by_cases hj : j = i
    · subst hj
      rw [Function.update_self]
      exact hempty hz va
    · rw [Function.update_of_ne hj]
      rw [hs.spaces _ fun he => hj (Owner.space.inj (Option.some.inj he))] at hz
      exact h.empty va hz

theorem Agrees.keep (h : c.Agrees M) (hs : Stepped (some (.space i)) c place c' place')
    (hsp : c'.spaces i = c.spaces i) (hlookup : (c.spaces i).root ≠ 0 → ∀ va,
      mapped c'.kernel.machine (c.spaces i).root va = mapped c.kernel.machine (c.spaces i).root va) : c'.Agrees M := by
  rw [← Function.update_eq_self i M]
  refine h.update hs h.args (fun hz va => ?_) fun hz va => ?_
  · rw [hsp] at hz ⊢
    rw [hlookup hz va]
    exact h.lookup va hz
  · rw [hsp] at hz
    exact h.empty va hz

theorem mapPage_agrees (h : c.Agrees M) (hok : c.Ok place) {out : ClientOut} (va pa flags : U64)
    (hrun : exec (.mapPage (some i) va pa flags) c = .ok (out, c')) :
    c'.Agrees (M.record (.mapPage (some i) va pa flags) out) := by
  by_cases hz : (c.spaces i).root = 0
  · have hnull : c.NullSpace (some i) := by
      rintro j hj
      rw [← Option.some.inj hj]
      exact hz
    rw [mapPage_null hnull] at hrun
    obtain ⟨rfl, rfl⟩ := Prod.mk.inj (Except.ok.inj hrun)
    rw [Maps.record, if_neg (by decide)]
    exact h
  obtain ⟨result, m', place', hrun', hs, hout⟩ := mapPage_step hok hz va pa flags
  obtain ⟨rfl, rfl⟩ := Prod.mk.inj (Except.ok.inj (hrun.symm.trans hrun'))
  rw [Maps.record]
  cases hout with
  | invalid =>
    rw [if_neg (by decide)]
    exact h
  | mapped _ _ hre =>
    rw [if_neg (by decide)]
    exact h.keep hs rfl fun hz va' => hre.mapped (hok.liveSpace hz)
  | noMemory _ _ _ hre =>
    rw [if_neg (by decide)]
    exact h.keep hs rfl fun hz va' => hre.mapped (hok.liveSpace hz)
  | ok hargs hmapped hfree hgrown hext hlookup =>
    rw [if_pos rfl]
    refine h.update hs (fun {va' pa' flags'} hf => ?_) (fun _ va' => ?_) fun hz' => absurd hz' hz
    · by_cases hva : va' = va
      · rw [hva, Function.update_self] at hf
        obtain ⟨rfl, rfl⟩ := Prod.mk.inj (Option.some.inj hf)
        exact hva ▸ hargs
      · rw [Function.update_of_ne hva] at hf
        exact h.args hf
    · show mapped m' (c.spaces i).root va' = _
      rw [hlookup _ va' (hok.liveSpace hz)]
      by_cases hsame : SamePage va' va
      · rw [if_pos ⟨rfl, hsame⟩, (pageBase_eq_iff hargs.2.1).mpr hsame, Function.update_self]
        rfl
      · rw [if_neg fun hc => hsame hc.2, Function.update_of_ne (mt (pageBase_eq_iff hargs.2.1).mp hsame)]
        exact h.lookup va' hz

theorem unmapPage_agrees (h : c.Agrees M) (hok : c.Ok place) {out : ClientOut} (va : U64)
    (hrun : exec (.unmapPage (some i) va) c = .ok (out, c')) : c'.Agrees (M.record (.unmapPage (some i) va) out) := by
  by_cases hz : (c.spaces i).root = 0
  · have hnull : c.NullSpace (some i) := by
      rintro j hj
      rw [← Option.some.inj hj]
      exact hz
    rw [unmapPage_null hnull] at hrun
    obtain ⟨rfl, rfl⟩ := Prod.mk.inj (Except.ok.inj hrun)
    rw [Maps.record, if_neg (by decide)]
    exact h
  obtain ⟨result, m', hrun', hs, hout⟩ := unmapPage_step hok hz va
  obtain ⟨rfl, rfl⟩ := Prod.mk.inj (Except.ok.inj (hrun.symm.trans hrun'))
  rw [Maps.record]
  cases hout with
  | invalid =>
    rw [if_neg (by decide)]
    exact h
  | notMapped =>
    rw [if_neg (by decide)]
    exact h
  | ok hargs hmapped hpages hgrown hlookup =>
    rw [if_pos rfl]
    refine h.update hs (fun {va' pa' flags'} hf => ?_) (fun _ va' => ?_) fun hz' => absurd hz' hz
    · by_cases hva : va' = va
      · rw [hva, Function.update_self] at hf
        cases hf
      · rw [Function.update_of_ne hva] at hf
        exact h.args hf
    · show mapped m' (c.spaces i).root va' = _
      rw [hlookup _ va' (hok.liveSpace hz)]
      by_cases hsame : SamePage va' va
      · rw [if_pos ⟨rfl, hsame⟩, (pageBase_eq_iff hargs.2).mpr hsame, Function.update_self]
        rfl
      · rw [if_neg fun hc => hsame hc.2, Function.update_of_ne (mt (pageBase_eq_iff hargs.2).mp hsame)]
        exact h.lookup va' hz

theorem spaceInit_agrees (h : c.Agrees M) (hok : c.Ok place) {out : ClientOut}
    (hrun : exec (.spaceInit (some i)) c = .ok (out, c')) : c'.Agrees (M.record (.spaceInit (some i)) out) := by
  obtain ⟨result, c₁, place', hrun', hs, hres⟩ := spaceInit_step hok i
  obtain ⟨rfl, rfl⟩ := Prod.mk.inj (Except.ok.inj (hrun.symm.trans hrun'))
  rw [Maps.record]
  obtain ⟨rfl, rfl⟩ | ⟨rfl, hz, hempty⟩ := hres
  · rw [if_neg (by decide)]
    exact h
  · rw [if_pos rfl]
    exact h.update hs (fun hf => nomatch hf) (fun _ va => hempty va) fun hz' => absurd hz' hz

theorem spaceDestroy_agrees (h : c.Agrees M) (hok : c.Ok place) {out : ClientOut}
    (hrun : exec (.spaceDestroy (some i)) c = .ok (out, c')) : c'.Agrees (M.record (.spaceDestroy (some i)) out) := by
  by_cases hz : (c.spaces i).root = 0
  · have hnull : c.NullSpace (some i) := by
      rintro j hj
      rw [← Option.some.inj hj]
      exact hz
    rw [spaceDestroy_null hnull] at hrun
    obtain ⟨rfl, rfl⟩ := Prod.mk.inj (Except.ok.inj hrun)
    rw [Maps.record, if_neg (by decide)]
    exact h
  obtain ⟨result, c₁, place', hrun', hs, hres⟩ := spaceDestroy_step hok hz
  obtain ⟨rfl, rfl⟩ := Prod.mk.inj (Except.ok.inj (hrun.symm.trans hrun'))
  rw [Maps.record]
  obtain ⟨rfl, -, rfl⟩ | ⟨rfl, -, hz', -⟩ := hres
  · rw [if_neg (by decide)]
    exact h
  · rw [if_pos rfl]
    exact h.update hs (fun hf => nomatch hf) (fun hn => absurd hz' hn) fun _ _ => rfl

theorem Agrees.step (h : c.Agrees M) (hok : c.Ok place) {op : ClientOp} {out : ClientOut} (hp : c.Permitted op)
    (hrun : exec op c = .ok (out, c')) : c'.Agrees (M.record op out) := by
  have other : (∀ i, some (.space i) ≠ owner op) → M.record op out = M → c'.Agrees (M.record op out) := by
    intro ho hM
    obtain ⟨_, c₁, place', hrun', hs⟩ := exec_step hok hp
    obtain ⟨-, rfl⟩ := Prod.mk.inj (Except.ok.inj (hrun.symm.trans hrun'))
    rw [hM]
    exact h.same hs ho
  cases op with
  | spaceInit space =>
    cases space with
    | none => exact other (fun i => by rintro ⟨⟩) rfl
    | some i => exact spaceInit_agrees h hok hrun
  | spaceDestroy space =>
    cases space with
    | none => exact other (fun i => by rintro ⟨⟩) rfl
    | some i => exact spaceDestroy_agrees h hok hrun
  | mapPage space va pa flags =>
    cases space with
    | none => exact other (fun i => by rintro ⟨⟩) rfl
    | some i => exact mapPage_agrees h hok va pa flags hrun
  | unmapPage space va =>
    cases space with
    | none => exact other (fun i => by rintro ⟨⟩) rfl
    | some i => exact unmapPage_agrees h hok va hrun
  | translate => exact other (fun i => by rintro ⟨⟩) rfl
  | getMapping => exact other (fun i => by rintro ⟨⟩) rfl
  | pageAlloc => exact other (fun i => by rintro ⟨⟩) rfl
  | pageFree => exact other (fun i => by rintro ⟨⟩) rfl
  | write => exact other (fun i => by rintro ⟨⟩) rfl
  | taskInit => exact other (fun i => by rintro ⟨⟩) rfl
  | taskMarkExited => exact other (fun i => by rintro ⟨⟩) rfl
  | taskDestroy => exact other (fun i => by rintro ⟨⟩) rfl

theorem trackedStep_ok {op : ClientOp} {x y : Clients × Maps} (h : trackedStep op x = .ok y) :
    ∃ r, exec op x.1 = .ok r ∧ (r.2, x.2.record op r.1) = y := by
  rw [trackedStep] at h
  cases hexec : exec op x.1 with
  | error e =>
    rw [hexec] at h
    cases h
  | ok r =>
    rw [hexec] at h
    exact ⟨r, rfl, Except.ok.inj h⟩

/-- The invariant of a tracked run. -/
def TrackedOk (x : Clients × Maps) : Prop := x.1.Reached ∧ x.1.Agrees x.2

theorem tracked_ok (hk : ∀ task, (k.tasks task).state = .unused) (hboot : boot k = .ok c₀)
    (hrun : TrackedRun c₀ l c M) : TrackedOk (c, M) := by
  refine hrun.invariant (fun op x x' h hp hs => ?_) ?_
  · obtain ⟨r, hexec, rfl⟩ := trackedStep_ok hs
    obtain ⟨place, hok⟩ := h.1.ok
    exact ⟨h.1.step hp hexec, h.2.step hok hp hexec⟩
  · obtain ⟨hreached, hroots, -, -⟩ := boot_reached hk hboot
    exact ⟨hreached, { args := by rintro _ _ _ _ ⟨⟩, lookup := fun va hz => absurd (hroots _) hz, empty := fun _ _ => rfl }⟩

theorem Agrees.mapped_iff (h : c.Agrees M) (hz : (c.spaces i).root ≠ 0) (hva : pageAligned va = true) :
    mapped c.kernel.machine (c.spaces i).root va = none ↔ M i va = none := by
  rw [h.lookup va hz, (pageBase_eq_iff hva).mpr rfl, Option.map_eq_none_iff]

theorem Agrees.unmapPage_iff (h : c.Agrees M) (hok : c.Ok place) (space : Option Nat) (va : U64) :
    ∃ r c', exec (.unmapPage space va) c = .ok (.status r, c') ∧ (r = vmOk ↔ ∃ i, space = some i ∧ M i va ≠ none) := by
  obtain hz | ⟨i, rfl, hz⟩ := c.nullSpace_or space
  · refine ⟨_, c, unmapPage_null hz va, iff_of_false (by decide) ?_⟩
    rintro ⟨i, rfl, hM⟩
    exact hM (h.empty va (hz i rfl))
  obtain ⟨r, m', hrun, -, hout⟩ := unmapPage_step hok hz va
  refine ⟨r, _, hrun, ?_⟩
  have hdom : (∃ j, some i = some j ∧ M j va ≠ none) ↔ M i va ≠ none :=
    ⟨fun ⟨j, hj, hM⟩ => Option.some.inj hj ▸ hM, fun hM => ⟨i, rfl, hM⟩⟩
  rw [hdom]
  cases hout with
  | invalid hargs =>
    refine iff_of_false (by decide) fun hM => ?_
    obtain ⟨⟨pa, flags⟩, hM⟩ := Option.ne_none_iff_exists'.mp hM
    exact hargs ⟨(h.args hM).1, (h.args hM).2.1⟩
  | notMapped hargs hmapped => exact iff_of_false (by decide) (not_not.mpr ((h.mapped_iff hz hargs.2).mp hmapped))
  | ok hargs hmapped => exact iff_of_true rfl (mt (h.mapped_iff hz hargs.2).mpr hmapped)

theorem Agrees.getMapping (h : c.Agrees M) (hok : c.Ok place) (i : Nat) (va : U64) :
    exec (.getMapping (some i) va) c = .ok (match M i (pageBase va) with
      | none => .mapping vmErrNotMapped none
      | some (pa, flags) => .mapping vmOk (some (pa ||| pageOffset va, flags)), c) := by
  by_cases hz : (c.spaces i).root = 0
  · rw [getMapping_null (.of_root hz), h.empty _ hz]
  rw [getMapping_exec hok hz, h.lookup va hz]
  cases hM : M i (pageBase va) with
  | none => rfl
  | some x =>
    obtain ⟨pa, flags⟩ := x
    obtain ⟨-, -, hpa, hflags⟩ := h.args hM
    have hf := (flagsAreValid_iff.mp hflags).1
    dsimp only [Option.map, entryOf]
    rw [pteToPa_paToPte (pageAligned_iff.mp hpa) (by omega), paToPte_flags (by omega)]

theorem Agrees.mapPage_iff (h : c.Agrees M) (hok : c.Ok place) (space : Option Nat) (va pa flags : U64) :
    ∃ r c', exec (.mapPage space va pa flags) c = .ok (.status r, c') ∧
      (r = vmErrInvalid ↔ c.NullSpace space ∨ ¬MapArgs va pa flags) ∧
      ∀ i, space = some i → (c.spaces i).root ≠ 0 → MapArgs va pa flags →
        (r = vmErrExists ↔ M i va ≠ none) ∧
        (r = vmErrNoMemory ↔ M i va = none ∧ c.kernel.machine.pages.freePages <
          missingTables (tableCells c.kernel.machine.mem) (tablePath va) (c.spaces i).root) ∧
        (r = vmOk ↔ M i va = none ∧ missingTables (tableCells c.kernel.machine.mem) (tablePath va) (c.spaces i).root ≤
          c.kernel.machine.pages.freePages) := by
  obtain hz | ⟨i, rfl, hz⟩ := c.nullSpace_or space
  · exact ⟨_, c, mapPage_null hz va pa flags, iff_of_true rfl (.inl hz), fun i hi hn => absurd (hz i hi) hn⟩
  obtain ⟨r, m', place', hrun, -, hout⟩ := mapPage_step hok hz va pa flags
  have hnull : ¬c.NullSpace (some i) := fun hn => hz (hn i rfl)
  refine ⟨r, _, hrun, ?_, ?_⟩
  · cases hout with
    | invalid hargs => exact iff_of_true rfl (.inr hargs)
    | mapped hargs => exact iff_of_false (by decide) fun hor => hor.elim hnull (absurd hargs)
    | noMemory hargs => exact iff_of_false (by decide) fun hor => hor.elim hnull (absurd hargs)
    | ok hargs => exact iff_of_false (by decide) fun hor => hor.elim hnull (absurd hargs)
  · rintro j hj - hargs
    obtain rfl := Option.some.inj hj
    have hiff := h.mapped_iff hz hargs.2.1
    cases hout with
    | invalid hno => exact absurd hargs hno
    | mapped _ hmapped =>
      have hM := mt hiff.mpr hmapped
      exact ⟨iff_of_true rfl hM, iff_of_false (by decide) fun hc => hM hc.1, iff_of_false (by decide) fun hc => hM hc.1⟩
    | noMemory _ hmapped hfree =>
      have hM := hiff.mp hmapped
      exact ⟨iff_of_false (by decide) (not_not.mpr hM), iff_of_true rfl ⟨hM, hfree⟩,
        iff_of_false (by decide) fun hc => absurd hc.2 (not_le.mpr hfree)⟩
    | ok _ hmapped hfree =>
      have hM := hiff.mp hmapped
      exact ⟨iff_of_false (by decide) (not_not.mpr hM), iff_of_false (by decide) fun hc => absurd hc.2 (not_lt.mpr hfree),
        iff_of_true rfl ⟨hM, hfree⟩⟩

/-- Sv39 tables implement a finite map from canonical page addresses to frames with flags. -/
theorem sv39_finite_map (hk : ∀ task, (k.tasks task).state = .unused) (hboot : boot k = .ok c₀) (hrun : TrackedRun c₀ l c M) :
    (∀ i va, M i va ≠ none → vaIsCanonical va = true ∧ pageAligned va = true) ∧
    (∀ space va pa flags, ∃ r c', exec (.mapPage space va pa flags) c = .ok (.status r, c') ∧
      (r = vmErrInvalid ↔ c.NullSpace space ∨ ¬MapArgs va pa flags) ∧
      ∀ i, space = some i → (c.spaces i).root ≠ 0 → MapArgs va pa flags →
        (r = vmErrExists ↔ M i va ≠ none) ∧
        (r = vmErrNoMemory ↔ M i va = none ∧ c.kernel.machine.pages.freePages <
          missingTables (tableCells c.kernel.machine.mem) (tablePath va) (c.spaces i).root) ∧
        (r = vmOk ↔ M i va = none ∧ missingTables (tableCells c.kernel.machine.mem) (tablePath va) (c.spaces i).root ≤
          c.kernel.machine.pages.freePages)) ∧
    (∀ space va, ∃ r c', exec (.unmapPage space va) c = .ok (.status r, c') ∧
      (r = vmOk ↔ ∃ i, space = some i ∧ M i va ≠ none)) ∧
    (∀ i va, exec (.getMapping (some i) va) c = .ok (match M i (pageBase va) with
      | none => .mapping vmErrNotMapped none
      | some (pa, flags) => .mapping vmOk (some (pa ||| pageOffset va, flags)), c)) ∧
    ∀ op out i, owner op ≠ some (.space i) → M.record op out i = M i := by
  obtain ⟨⟨⟨place, hok⟩, -, -⟩, h⟩ := tracked_ok hk hboot hrun
  refine ⟨fun i va hM => ?_, h.mapPage_iff hok, h.unmapPage_iff hok, h.getMapping hok, fun op out i hi => ?_⟩
  · obtain ⟨⟨pa, flags⟩, hM⟩ := Option.ne_none_iff_exists'.mp hM
    exact ⟨(h.args hM).1, (h.args hM).2.1⟩
  · have hne : ∀ {j f}, some (Owner.space j) ≠ some (.space i) → Function.update M j f i = M i :=
      fun hj => Function.update_of_ne (fun he => hj (by rw [he])) ..
    fun_cases Maps.record M op out
    all_goals first | exact hne hi | rfl

/-- A page mapped into a fresh space. -/
theorem sv39_finite_map_sample : ∃ c : Clients, exec (.getMapping (some 0) 0x40000123) c =
    .ok (.mapping vmOk (some (0x80003123, vmPteV ||| vmPteR)), c) := by
  have hrun : ∃ c₀ c M, boot sampleKernel = .ok c₀ ∧ TrackedRun c₀ [.spaceInit (some 0),
      .mapPage (some 0) 0x40000000 0x80003000 (vmPteV ||| vmPteR)] c M ∧
      M 0 (pageBase 0x40000123) = some (0x80003000, vmPteV ||| vmPteR) := by
    obtain ⟨c₀, x, hboot, hrun, hM⟩ := exists_run trackedStep (fun op x => x.1.Permitted op) (boot sampleKernel)
      (fun c => (c, Maps.empty)) [.spaceInit (some 0), .mapPage (some 0) 0x40000000 0x80003000 (vmPteV ||| vmPteR)]
      (fun x => x.2 0 (pageBase 0x40000123) = some (0x80003000, vmPteV ||| vmPteR)) (by decide +kernel) (by simp [Permitted])
    exact ⟨c₀, x.1, x.2, hboot, hrun, of_decide_eq_true hM⟩
  obtain ⟨c₀, c, M, hboot, hrun, hM⟩ := hrun
  refine ⟨c, ((sv39_finite_map (fun _ => rfl) hboot hrun).2.2.2.1 0 0x40000123).trans ?_⟩
  rw [hM]
  dsimp only
  rw [show (0x80003000 : U64) ||| pageOffset 0x40000123 = 0x80003123 by decide]

/-! ### Ownership of the page tables -/

/-- The root of an owner's space and the tables below it. -/
def tableFrames (c : Clients) (o : Owner) : List U64 :=
  listTables (tableCells c.kernel.machine.mem) (List.range sv39EntriesPerTable) (sv39Levels - 1) (c.root o)

/-- What `vm_get_mapping` says of an address in an owner's space. -/
def lookup (c : Clients) (o : Owner) (va : U64) : Option (Int × Option (U64 × U64)) :=
  match vmGetMapping (some ⟨c.root o⟩) va c.kernel.machine with
  | .ok (result, mapping, _) => some (result, mapping)
  | .error _ => none

variable {o : Owner}

theorem Ok.lookup_eq (h : c.Ok place) (hz : c.root o ≠ 0) (va : U64) :
    c.lookup o va = some (match mapped c.kernel.machine (c.root o) va with
      | none => (vmErrNotMapped, none)
      | some pte => (vmOk, some (pteToPa pte ||| pageOffset va, pte &&& sv39PteFlagMask))) := by
  have hl : Live place (⟨c.root o⟩ : VmSpace) := h.live o hz
  rw [lookup, vmGetMapping_spec h.tables hl]
  dsimp only
  cases mapped c.kernel.machine (c.root o) va <;> rfl

theorem Ok.lookup_ok_iff (h : c.Ok place) (hz : c.root o ≠ 0) (va : U64) :
    (∃ mapping, c.lookup o va = some (vmOk, mapping)) ↔ mapped c.kernel.machine (c.root o) va ≠ none := by
  rw [h.lookup_eq hz]
  cases mapped c.kernel.machine (c.root o) va with
  | none =>
    refine iff_of_false ?_ (not_not.mpr rfl)
    rintro ⟨mapping, he⟩
    have : vmErrNotMapped = vmOk := congrArg Prod.fst (Option.some.inj he)
    exact absurd this (by decide)
  | some pte => exact iff_of_true ⟨_, rfl⟩ (by simp)

theorem tableCells_mem_range {mem : Mem} (t : U64) (i : Nat) (u : U64) (h : tableCells mem t i = .table u) :
    i ∈ List.range sv39EntriesPerTable := by
  rw [tableCells] at h
  split at h
  next hi => exact List.mem_range.mpr hi
  next => cases h

theorem Ok.mem_tableFrames (h : c.Ok place) (hz : c.root o ≠ 0) (a : U64) :
    a ∈ c.tableFrames o ↔ ∃ p, place a = some (c.root o, p) :=
  Forest.mem_listTables tableCells_mem_range h.tables.forest (h.live o hz) (Nat.zero_add _)

theorem Ok.nodup_tableFrames (h : c.Ok place) (hz : c.root o ≠ 0) : (c.tableFrames o).Nodup :=
  Forest.nodup_listTables tableCells_mem_range h.tables.forest List.nodup_range (h.live o hz) (Nat.zero_add _)

/-- The tables of an owner are allocated frames, and nobody else's. -/
theorem Ok.tableFrames_owned (h : c.Ok place) (hz : c.root o ≠ 0) {a : U64} (ha : a ∈ c.tableFrames o) :
    c.kernel.machine.pages.Allocated a ∧ (∀ o' ≠ o, c.root o' ≠ 0 → a ∉ c.tableFrames o') ∧ ∀ o', a ∉ c.frames o' := by
  obtain ⟨p, hp⟩ := (h.mem_tableFrames hz a).mp ha
  refine ⟨h.tables.allocated hp, fun o' ho hz' ha' => ?_, fun o' ha' => ?_⟩
  · obtain ⟨p', hp'⟩ := (h.mem_tableFrames hz' a).mp ha'
    exact ho (h.roots o' o hz' (congrArg Prod.fst (Option.some.inj (hp'.symm.trans hp))))
  · rw [(h.held o' a ha').2] at hp
    cases hp

theorem mapPage_error (h : c.Ok place) {space : Option Nat} {va pa flags : U64} {r : Int} {c' : Clients}
    (hrun : exec (.mapPage space va pa flags) c = .ok (.status r, c')) (hr : r ≠ vmOk) :
    (∀ a, c'.kernel.machine.pages.Allocated a ↔ c.kernel.machine.pages.Allocated a) ∧ (∀ o, c'.root o = c.root o) ∧
      ∀ o, c.root o ≠ 0 → ∀ va', c'.lookup o va' = c.lookup o va' := by
  obtain hz | ⟨i, rfl, hz⟩ := c.nullSpace_or space
  · rw [mapPage_null hz] at hrun
    obtain ⟨-, rfl⟩ := Prod.mk.inj (Except.ok.inj hrun)
    exact ⟨fun _ => Iff.rfl, fun _ => rfl, fun _ _ _ => rfl⟩
  obtain ⟨result, m', place', hrun', hs, hout⟩ := mapPage_step h hz va pa flags
  obtain ⟨hresult, rfl⟩ := Prod.mk.inj (Except.ok.inj (hrun.symm.trans hrun'))
  obtain rfl := ClientOut.status.inj hresult
  have restored : Restored c.kernel.machine place m' → (∀ a, m'.pages.Allocated a ↔ c.kernel.machine.pages.Allocated a) ∧
      (∀ o, (c.setMachine m').root o = c.root o) ∧ ∀ o, c.root o ≠ 0 → ∀ va', (c.setMachine m').lookup o va' = c.lookup o va' := by
    intro hre
    refine ⟨hre.allocated, fun _ => rfl, fun o ho va' => ?_⟩
    rw [h.lookup_eq ho, hs.ok.lookup_eq ho]
    show some (match mapped m' (c.root o) va' with | none => _ | some pte => _) = _
    rw [hre.mapped (h.live o ho)]
  cases hout with
  | invalid => exact ⟨fun _ => Iff.rfl, fun _ => rfl, fun _ _ _ => rfl⟩
  | mapped _ _ hre => exact restored hre
  | noMemory _ _ _ hre => exact restored hre
  | ok => exact absurd rfl hr

theorem spaceDestroy_exact (h : c.Ok place) {i : Nat} (hz : (c.spaces i).root ≠ 0) :
    ∃ r c', exec (.spaceDestroy (some i)) c = .ok (.status r, c') ∧
      (r = vmErrBusy ↔ ∃ va mapping, c.lookup (.space i) va = some (vmOk, mapping)) ∧ (r = vmErrBusy → c' = c) ∧
      (r ≠ vmErrBusy → r = vmOk ∧ (c'.spaces i).root = 0 ∧
        (∀ a, c'.kernel.machine.pages.Allocated a ↔
          c.kernel.machine.pages.Allocated a ∧ a ∉ c.tableFrames (.space i)) ∧
        c'.kernel.machine.pages.freePages = c.kernel.machine.pages.freePages + (c.tableFrames (.space i)).length) := by
  obtain ⟨r, c', place', hrun, hs, hres⟩ := spaceDestroy_step h hz
  have hbusy : (∃ va mapping, c.lookup (.space i) va = some (vmOk, mapping)) ↔
      ∃ va, mapped c.kernel.machine (c.spaces i).root va ≠ none :=
    exists_congr fun va => h.lookup_ok_iff (o := .space i) hz va
  refine ⟨r, c', hrun, ?_⟩
  rw [hbusy]
  obtain ⟨rfl, hmapped, rfl⟩ | ⟨rfl, hnone, hroot, halloc⟩ := hres
  · exact ⟨iff_of_true rfl hmapped, fun _ => rfl, fun hn => absurd rfl hn⟩
  · have halloc' : ∀ a, c'.kernel.machine.pages.Allocated a ↔
        c.kernel.machine.pages.Allocated a ∧ a ∉ c.tableFrames (.space i) := fun a => by
      rw [halloc a, h.mem_tableFrames (o := .space i) hz a, not_exists]
      rfl
    refine ⟨iff_of_false (by decide) ?_, fun hn => absurd hn (by decide), fun _ => ⟨rfl, hroot, halloc', ?_⟩⟩
    · rintro ⟨va, hva⟩
      exact hva (hnone va)
    · exact h.tables.pages.free_length hs.ok.tables.pages hs.range (h.nodup_tableFrames (o := .space i) hz)
        (fun a ha => (h.tableFrames_owned (o := .space i) hz ha).1) halloc'

/-- In every reachable state each space has a tree of tables of its own, a failed mapping changes nothing, and a
destroyed space gives back exactly its tables. -/
theorem table_frames_owned (hk : ∀ task, (k.tasks task).state = .unused) (hboot : boot k = .ok c₀)
    (hrun : Run (next exec) (fun op c => c.Permitted op) c₀ l c) :
    (∀ o, c.root o ≠ 0 → (c.tableFrames o).Nodup ∧ ∀ a ∈ c.tableFrames o, c.kernel.machine.pages.Allocated a ∧
      (∀ o' ≠ o, c.root o' ≠ 0 → a ∉ c.tableFrames o') ∧ ∀ o', a ∉ c.frames o') ∧
    (∀ space va pa flags, ∃ r c', exec (.mapPage space va pa flags) c = .ok (.status r, c') ∧ (r ≠ vmOk →
      (∀ a, c'.kernel.machine.pages.Allocated a ↔ c.kernel.machine.pages.Allocated a) ∧ (∀ o, c'.root o = c.root o) ∧
        ∀ o, c.root o ≠ 0 → ∀ va', c'.lookup o va' = c.lookup o va')) ∧
    ∀ i, (c.spaces i).root ≠ 0 → ∃ r c', exec (.spaceDestroy (some i)) c = .ok (.status r, c') ∧
      (r = vmErrBusy ↔ ∃ va mapping, c.lookup (.space i) va = some (vmOk, mapping)) ∧ (r = vmErrBusy → c' = c) ∧
      (r ≠ vmErrBusy → r = vmOk ∧ (c'.spaces i).root = 0 ∧
        (∀ a, c'.kernel.machine.pages.Allocated a ↔
          c.kernel.machine.pages.Allocated a ∧ a ∉ c.tableFrames (.space i)) ∧
        c'.kernel.machine.pages.freePages = c.kernel.machine.pages.freePages + (c.tableFrames (.space i)).length) := by
  obtain ⟨⟨place, hok⟩, -, -⟩ := run_reached hk hboot hrun
  refine ⟨fun o hz => ⟨hok.nodup_tableFrames hz, fun a ha => hok.tableFrames_owned hz ha⟩, fun space va pa flags => ?_,
    fun i hz => spaceDestroy_exact hok hz⟩
  obtain hz | ⟨i, rfl, hz⟩ := c.nullSpace_or space
  · exact ⟨_, c, mapPage_null hz va pa flags, mapPage_error hok (mapPage_null hz va pa flags)⟩
  · obtain ⟨r, m', -, hrun', -, -⟩ := mapPage_step hok hz va pa flags
    exact ⟨r, _, hrun', mapPage_error hok hrun'⟩

/-- A space with one mapping. -/
theorem table_frames_owned_sample : ∃ c : Clients, (c.spaces 0).root ≠ 0 ∧
    ∃ r c', exec (.spaceDestroy (some 0)) c = .ok (.status r, c') ∧
      (r = vmErrBusy ↔ ∃ va mapping, c.lookup (.space 0) va = some (vmOk, mapping)) := by
  obtain ⟨c₀, c, hboot, hrun, hz⟩ := exists_run (next exec) (fun op c => c.Permitted op) (boot sampleKernel) id
    [.spaceInit (some 0), .mapPage (some 0) 0x40000000 0x80003000 (vmPteV ||| vmPteR)] (fun c => (c.spaces 0).root ≠ 0)
    (by decide +kernel) (by simp [Permitted])
  have hz : (c.spaces 0).root ≠ 0 := of_decide_eq_true hz
  obtain ⟨r, c', hrun', hbusy, -⟩ := (table_frames_owned (fun _ => rfl) hboot hrun).2.2 0 hz
  exact ⟨c, hz, r, c', hrun', hbusy⟩

end Clients

end QemuRtos
