import QemuRtos.Memory.TableSpec

/-!
# What the calls on address spaces do

An address space is the root of a tree of page tables. `mapped m root va` is the entry that maps the page of
`va`. Mapping a page sets it for that page only, unmapping clears it, and a call that fails changes nothing.
Destroying a space frees exactly its tables.
-/

namespace QemuRtos

open Lib

variable {m m' : Machine} {mem mem' : Mem} {t n r va va' pa flags pte : U64} {i j level : Nat} {p : List Nat}
  {place place' : TablePlaces} {sp : VmSpace}

/-! ### Addresses -/

theorem vaIsCanonical_iff : vaIsCanonical va = true ↔ va.toNat < 2 ^ 38 ∨ 2 ^ 64 - 2 ^ 38 ≤ va.toNat := by
  have hhigh := toNat_and_not_mask va (k := 39) (by decide)
  have hdef : vaIsCanonical va = if va &&& BitVec.twoPow 64 38 = 0 then
      decide (va &&& ~~~BitVec.ofNat 64 (2 ^ 39 - 1) = 0)
      else decide (va &&& ~~~BitVec.ofNat 64 (2 ^ 39 - 1) = ~~~BitVec.ofNat 64 (2 ^ 39 - 1)) := rfl
  have hsign : va &&& BitVec.twoPow 64 38 = 0 ↔ va.toNat / 2 ^ 38 % 2 = 0 := by
    rw [BitVec.and_twoPow, BitVec.getLsbD, Nat.testBit_eq_decide_div_mod_eq]
    have := Nat.mod_two_eq_zero_or_one (va.toNat / 2 ^ 38)
    by_cases h : va.toNat / 2 ^ 38 % 2 = 1
    · rw [if_pos (by rw [h]; rfl), h]
      exact iff_of_false (by decide) (by decide)
    · rw [if_neg (by simpa using h)]
      exact iff_of_true rfl (by omega)
  have hlt := va.isLt
  have hzero : va &&& ~~~BitVec.ofNat 64 (2 ^ 39 - 1) = 0 ↔ va.toNat < 2 ^ 39 := by
    refine ⟨fun hz => ?_, fun hz => BitVec.eq_of_toNat_eq ?_⟩
    · rw [hz] at hhigh
      have hzero : (0 : U64).toNat = 0 := rfl
      omega
    · rw [hhigh, Nat.div_eq_of_lt hz]
      rfl
  have hall : va &&& ~~~BitVec.ofNat 64 (2 ^ 39 - 1) = ~~~BitVec.ofNat 64 (2 ^ 39 - 1) ↔ 2 ^ 64 - 2 ^ 39 ≤ va.toNat := by
    have hconst : (~~~BitVec.ofNat 64 (2 ^ 39 - 1) : U64).toNat = 2 ^ 64 - 2 ^ 39 := by decide
    refine ⟨fun hz => ?_, fun hz => BitVec.eq_of_toNat_eq ?_⟩
    · rw [hz, hconst] at hhigh
      omega
    · rw [hhigh, hconst]
      omega
  rw [hdef]
  split
  · rename_i h
    rw [hsign] at h
    rw [decide_eq_true_eq, hzero]
    omega
  · rename_i h
    rw [hsign] at h
    rw [decide_eq_true_eq, hall]
    omega

theorem vpnIndex_toNat (va : U64) (level : Nat) : vpnIndex va level = va.toNat / 2 ^ (12 + level * 9) % 512 := by
  unfold vpnIndex
  rw [show (511 : U64) = BitVec.ofNat 64 (2 ^ 9 - 1) from rfl, toNat_and_mask _ (by decide), BitVec.toNat_ushiftRight,
    Nat.shiftRight_eq_div_pow]
  rfl

/-- The tables that a walk passes below the root. -/
abbrev tablePath (va : U64) : List Nat := vpnPath va (sv39Levels - 1)

theorem tablePath_eq (va : U64) : tablePath va = [vpnIndex va 2, vpnIndex va 1] := rfl

theorem pageAligned_iff : pageAligned va = true ↔ va.toNat % pageSize = 0 := by
  unfold pageAligned
  rw [decide_eq_true_eq, and_pageMask_eq_zero]

theorem path_inj (hva : vaIsCanonical va = true) (hva' : vaIsCanonical va' = true) (h : tablePath va = tablePath va')
    (h0 : vpnIndex va 0 = vpnIndex va' 0) : va.toNat / pageSize = va'.toNat / pageSize := by
  rw [vaIsCanonical_iff] at hva hva'
  rw [tablePath_eq, tablePath_eq] at h
  obtain ⟨h2, h⟩ := List.cons.inj h
  obtain ⟨h1, -⟩ := List.cons.inj h
  simp only [vpnIndex_toNat] at h0 h1 h2
  unfold pageSize
  have := va.isLt
  have := va'.isLt
  omega

/-! ### Lookups -/

/-- The entry that maps the page of `va`. -/
def mapped (m : Machine) (root va : U64) : Option U64 :=
  if vaIsCanonical va then getLeaf (tableCells m.mem) (tablePath va) (vpnIndex va 0) root else none

theorem TablesOk.setSie (h : TablesOk m place) (b : Bool) : TablesOk { m with sie := b } place :=
  ⟨h.pages, h.forest, h.allocated⟩

/-- The space is live: its root is a root of the tables. -/
def Live (place : TablePlaces) (sp : VmSpace) : Prop := place sp.root = some (sp.root, [])

theorem TablesOk.root_ne_zero (h : TablesOk m place) (hl : Live place sp) : sp.root ≠ 0 := h.ne_zero hl

theorem walkResult_entry (h : TablesOk m place) (hl : Live place sp)
    (hs : findTable (tableCells m.mem) (tablePath va) sp.root = some t) :
    pteAddr t (vpnIndex va 0) ≠ 0 ∧ place t = some (sp.root, tablePath va) ∧
      ((tableCells m.mem t (vpnIndex va 0) = .empty ∧ pteIsValid (m.mem.load64 (pteAddr t (vpnIndex va 0)).toNat) = false) ∨
        tableCells m.mem t (vpnIndex va 0) = .leaf (m.mem.load64 (pteAddr t (vpnIndex va 0)).toNat) ∧
          pteIsValid (m.mem.load64 (pteAddr t (vpnIndex va 0)).toNat) = true ∧
          pteIsLeaf (m.mem.load64 (pteAddr t (vpnIndex va 0)).toNat) = true) := by
  have ht := (h.forest.find_iff hl).mp hs
  rw [List.nil_append] at ht
  have hi := vpnIndex_lt va 0
  have hcell : tableCells m.mem t (vpnIndex va 0) = _ := tableCells_of_lt hi
  have hentry : tableEntry m.mem t (vpnIndex va 0) = m.mem.load64 (pteAddr t (vpnIndex va 0)).toNat := rfl
  rw [hentry] at hcell
  refine ⟨pteAddr_ne_zero (h.aligned ht) (h.ne_zero ht) hi, ht, ?_⟩
  cases hc : cellOf (m.mem.load64 (pteAddr t (vpnIndex va 0)).toNat) with
  | empty =>
    rw [hc] at hcell
    exact .inl ⟨hcell, cellOf_eq_empty.mp hc⟩
  | leaf v =>
    obtain ⟨hv, hleaf, rfl⟩ := cellOf_eq_leaf.mp hc
    rw [hc] at hcell
    exact .inr ⟨hcell, hv, hleaf⟩
  | table s =>
    -- no table hangs below the last level
    rw [hc] at hcell
    have := h.forest.table_depth ht hcell
    rw [show (tablePath va).length = sv39Levels - 1 from vpnPath_length va _] at this
    exact absurd this (Nat.lt_irrefl _)

theorem vmWalk_find (h : TablesOk m place) (hl : Live place sp) : vmWalk (some sp) va false m = .ok
    (if vaIsCanonical va then walkResult va (findTable (tableCells m.mem) (tablePath va) sp.root) else 0, m) := by
  have hz := h.root_ne_zero hl
  unfold vmWalk
  dsimp only
  by_cases hc : vaIsCanonical va = true
  · rw [if_neg (not_or.mpr ⟨hz, by simp [hc]⟩), if_pos hc]
    exact vmWalkFrom_find h hl rfl []
  · rw [if_pos (by simp [hc]), if_neg hc]

theorem walk_mapped (va : U64) (h : TablesOk m place) (hl : Live place sp) : ∃ a, vmWalk (some sp) va false m = .ok (a, m) ∧
    (mapped m sp.root va = none ∧ (a = 0 ∨ pteIsValid (m.mem.load64 a.toNat) = false) ∨
      ∃ t, mapped m sp.root va = some (m.mem.load64 a.toNat) ∧ a ≠ 0 ∧ pteIsValid (m.mem.load64 a.toNat) = true ∧
        pteIsLeaf (m.mem.load64 a.toNat) = true ∧ vaIsCanonical va = true ∧ place t = some (sp.root, tablePath va) ∧
        a = pteAddr t (vpnIndex va 0)) := by
  refine ⟨_, vmWalk_find h hl, ?_⟩
  unfold mapped
  by_cases hc : vaIsCanonical va = true
  · rw [if_pos hc, if_pos hc]
    unfold getLeaf
    cases hs : findTable (tableCells m.mem) (tablePath va) sp.root with
    | none => exact .inl ⟨rfl, .inl rfl⟩
    | some t =>
      obtain ⟨hne, ht, hcase⟩ := walkResult_entry h hl hs
      rcases hcase with ⟨hcell, hv⟩ | ⟨hcell, hv, hleaf⟩
      · refine .inl ⟨?_, .inr hv⟩
        rw [Option.bind_some, hcell]
        rfl
      · refine .inr ⟨t, ?_, hne, hv, hleaf, hc, ht, rfl⟩
        rw [Option.bind_some, hcell]
        rfl
  · rw [if_neg hc, if_neg hc]
    exact .inl ⟨rfl, .inl rfl⟩

/-- The offset of an address in its page. -/
abbrev pageOffset (va : U64) : U64 := va &&& vmPageOffsetMask

theorem vmGetMapping_spec (h : TablesOk m place) (hl : Live place sp) : vmGetMapping (some sp) va m = .ok
    (match mapped m sp.root va with
      | none => (vmErrNotMapped, none, m)
      | some pte => (vmOk, some (pteToPa pte ||| pageOffset va, pte &&& sv39PteFlagMask), m)) := by
  obtain ⟨a, hwalk, hcase⟩ := walk_mapped va (h.setSie false) hl
  unfold vmGetMapping
  show (vmWalk (some sp) va false { m with sie := false } >>= _) = _
  rw [hwalk, ok_bind]
  dsimp only
  have hm : mapped { m with sie := false } sp.root va = mapped m sp.root va := rfl
  rw [hm] at hcase
  rcases hcase with ⟨hnone, hz⟩ | ⟨t, hsome, hne, hv, hleaf, -⟩
  · rw [hnone, if_pos]
    · rfl
    · rcases hz with hz | hz
      · exact .inl hz
      · right; left
        show (!pteIsValid (m.mem.load64 a.toNat)) = true
        rw [show pteIsValid (m.mem.load64 a.toNat) = false from hz]
        rfl
  · have hv' : pteIsValid (m.mem.load64 a.toNat) = true := hv
    have hleaf' : pteIsLeaf (m.mem.load64 a.toNat) = true := hleaf
    rw [hsome, if_neg]
    · rfl
    · exact not_or.mpr ⟨hne, not_or.mpr ⟨by simp [hv'], by simp [hleaf']⟩⟩

theorem vmTranslate_spec (h : TablesOk m place) (hl : Live place sp) : vmTranslate (some sp) va m = .ok
    ((mapped m sp.root va).elim vmTranslateInvalid fun pte => pteToPa pte ||| pageOffset va, m) := by
  obtain ⟨a, hwalk, hcase⟩ := walk_mapped va (h.setSie false) hl
  unfold vmTranslate
  show (vmWalk (some sp) va false { m with sie := false } >>= _) = _
  rw [hwalk, ok_bind]
  dsimp only
  have hm : mapped { m with sie := false } sp.root va = mapped m sp.root va := rfl
  rw [hm] at hcase
  rcases hcase with ⟨hnone, hz⟩ | ⟨t, hsome, hne, hv, hleaf, -⟩
  · rw [hnone, if_pos]
    · rfl
    · rcases hz with hz | hz
      · exact .inl hz
      · right; left
        show (!pteIsValid (m.mem.load64 a.toNat)) = true
        rw [show pteIsValid (m.mem.load64 a.toNat) = false from hz]
        rfl
  · have hv' : pteIsValid (m.mem.load64 a.toNat) = true := hv
    have hleaf' : pteIsLeaf (m.mem.load64 a.toNat) = true := hleaf
    rw [hsome, if_neg]
    · rfl
    · exact not_or.mpr ⟨hne, not_or.mpr ⟨by simp [hv'], by simp [hleaf']⟩⟩

/-! ### Mapping a page -/

/-- Two addresses in one page. -/
def SamePage (va va' : U64) : Prop := va.toNat / pageSize = va'.toNat / pageSize

instance (va va' : U64) : Decidable (SamePage va va') := inferInstanceAs (Decidable (_ = _))

theorem SamePage.canonical (h : SamePage va va') : vaIsCanonical va = vaIsCanonical va' := by
  rw [Bool.eq_iff_iff, vaIsCanonical_iff, vaIsCanonical_iff]
  unfold SamePage pageSize at h
  omega

theorem SamePage.vpnIndex (h : SamePage va va') (level : Nat) : vpnIndex va level = vpnIndex va' level := by
  have hpow : 2 ^ (12 + level * 9) = 4096 * 2 ^ (level * 9) := by rw [pow_add]; rfl
  rw [vpnIndex_toNat, vpnIndex_toNat, hpow, ← Nat.div_div_eq_div_mul, ← Nat.div_div_eq_div_mul]
  unfold SamePage pageSize at h
  rw [h]

theorem SamePage.tablePath (h : SamePage va va') : tablePath va = tablePath va' := by
  rw [tablePath_eq, tablePath_eq, h.vpnIndex, h.vpnIndex]

theorem SamePage.mapped (h : SamePage va va') (m : Machine) (root : U64) : mapped m root va = mapped m root va' := by
  unfold QemuRtos.mapped
  rw [h.canonical, h.tablePath, h.vpnIndex]

/-- `m'` has the tables of `m`, and perhaps new ones in frames that were free. -/
structure TablesGrown (m : Machine) (place : TablePlaces) (m' : Machine) (place' : TablePlaces) : Prop where
  ok : TablesOk m' place'
  grown : ∀ {t x}, place t = some x → place' t = some x
  fresh : ∀ t, place t = none → place' t ≠ none → ¬m.pages.Allocated t
  allocated : ∀ a, m'.pages.Allocated a ↔ m.pages.Allocated a ∨ place' a ≠ none
  reallocated : Reallocated m place m'

theorem Walked.grownTables {l : List (U64 × U64)} (h : Walked m place l m' place') (h₀ : TablesOk m place) :
    TablesGrown m place m' place' where
  ok := h.ok
  grown := h.grown
  fresh t h₀ h₁ := h.fresh t ((h.placed t).mpr ⟨h₀, h₁⟩)
  allocated a := by
    rw [h.allocated, h.placed]
    constructor
    · rintro (ha | ⟨-, hne⟩)
      · exact .inl ha
      · exact .inr hne
    · rintro (ha | hne)
      · exact .inl ha
      · by_cases hnone : place a = none
        · exact .inr ⟨hnone, hne⟩
        · obtain ⟨x, hx⟩ := Option.ne_none_iff_exists'.mp hnone
          exact .inl (h₀.allocated hx)
  reallocated := h.reallocated

/-- The arguments that `vm_map_page` accepts. -/
def MapArgs (va pa flags : U64) : Prop :=
  vaIsCanonical va = true ∧ pageAligned va = true ∧ pageAligned pa = true ∧ flagsAreValid flags = true

/-- What `vm_map_page` does in a live space. -/
inductive MapOutcome (m : Machine) (place : TablePlaces) (sp : VmSpace) (va pa flags : U64) : Int → Machine → Prop
  | invalid (hargs : ¬MapArgs va pa flags) : MapOutcome m place sp va pa flags vmErrInvalid m
  | mapped {m' : Machine} (hargs : MapArgs va pa flags) (hmapped : mapped m sp.root va ≠ none) (h : Restored m place m') :
    MapOutcome m place sp va pa flags vmErrExists m'
  | noMemory {m' : Machine} (hargs : MapArgs va pa flags) (hmapped : QemuRtos.mapped m sp.root va = none)
    (hfree : m.pages.freePages < missingTables (tableCells m.mem) (tablePath va) sp.root) (h : Restored m place m') :
    MapOutcome m place sp va pa flags vmErrNoMemory m'
  | ok {m' : Machine} {place' : TablePlaces} (hargs : MapArgs va pa flags) (hmapped : QemuRtos.mapped m sp.root va = none)
    (hfree : missingTables (tableCells m.mem) (tablePath va) sp.root ≤ m.pages.freePages)
    (h : TablesGrown m place m' place') (hext : Extends sp.root place place')
    (hlookup : ∀ r va', place r = some (r, []) → QemuRtos.mapped m' r va' =
      if r = sp.root ∧ SamePage va' va then some (paToPte pa flags) else QemuRtos.mapped m r va') :
    MapOutcome m place sp va pa flags vmOk m'

theorem Restored.mapped (h : Restored m place m') (hr : place r = some (r, [])) : mapped m' r va = mapped m r va := by
  unfold QemuRtos.mapped
  rw [h.gets hr]

theorem Restored.irq (h : Restored { m with sie := false } place m') : Restored m place { m' with sie := m.sie } where
  ok := h.ok.setSie _
  reallocated := ⟨by rw [h.reallocated.eq], h.reallocated.range, h.reallocated.untouched⟩
  allocated := h.allocated
  free := h.free
  gets := h.gets

theorem TablesGrown.irq (h : TablesGrown { m with sie := false } place m' place') :
    TablesGrown m place { m' with sie := m.sie } place' where
  ok := h.ok.setSie _
  grown := h.grown
  fresh := h.fresh
  allocated := h.allocated
  reallocated := ⟨by rw [h.reallocated.eq], h.reallocated.range, h.reallocated.untouched⟩

theorem TablesGrown.setEntry (h : TablesGrown m place m' place') (hl : Live place sp)
    (hgets : ∀ {r q j}, place r = some (r, []) → getLeaf (tableCells m'.mem) q j r = getLeaf (tableCells m.mem) q j r)
    (ht : place' t = some (sp.root, tablePath va)) (hva : vaIsCanonical va = true) {v : U64}
    (hv : (cellOf v).table? = none) :
    let m'' : Machine := { m' with mem := m'.mem.store64 (pteAddr t (vpnIndex va 0)).toNat v }
    TablesGrown m place m'' place' ∧ ∀ r va', place r = some (r, []) → mapped m'' r va' =
      if r = sp.root ∧ SamePage va' va then (cellOf v).leaf? else mapped m r va' := by
  intro m''
  have hi := vpnIndex_lt va 0
  have hta := h.ok.aligned ht
  have hcells : ∀ s, place' s ≠ none → ∀ j, tableCells m''.mem s j =
      if s = t ∧ j = vpnIndex va 0 then cellOf v else tableCells m'.mem s j := by
    intro s hs j
    obtain ⟨x, hx⟩ := Option.ne_none_iff_exists'.mp hs
    exact tableCells_store hta (h.ok.aligned hx) hi v
  have hc : ∀ s, place' s ≠ none → ∀ j, (s = t → j ≠ vpnIndex va 0) → tableCells m''.mem s j = tableCells m'.mem s j := by
    intro s hs j hne
    rw [hcells s hs, if_neg fun ⟨h1, h2⟩ => hne h1 h2]
  have hself : tableCells m''.mem t (vpnIndex va 0) = cellOf v := by
    rw [hcells t (by rw [ht]; exact nofun), if_pos ⟨rfl, rfl⟩]
  have hforest : Forest (sv39Levels - 1) (tableCells m''.mem) place' :=
    h.ok.forest.setLeaf ht (vpnPath_length va _) (by rw [hself]; exact hv) hc
  refine ⟨⟨⟨h.ok.pages, hforest, h.ok.allocated⟩, h.grown, h.fresh, h.allocated,
    ⟨by rw [show m'' = { m' with mem := m''.mem } from rfl, h.reallocated.eq], h.reallocated.range, fun x hx => ?_⟩⟩,
    fun r va' hr => ?_⟩
  · rw [← h.reallocated.untouched x hx]
    refine store_of_not_inPage hta hi fun hin => ?_
    -- the table is an old one or in a frame that was free
    have hman := (PageAllocator.Managed.congr h.reallocated.range).mp (h.ok.allocated ht).1
    obtain ⟨ha, hnone⟩ := hx t hman hin
    exact h.fresh t hnone (by rw [ht]; exact nofun) ha
  · unfold mapped
    have hr' := h.grown hr
    have hl' := h.grown hl
    by_cases hcanon : vaIsCanonical va' = true
    · rw [if_pos hcanon, if_pos hcanon]
      by_cases he : r = sp.root ∧ SamePage va' va
      · obtain ⟨rfl, hpage⟩ := he
        rw [if_pos ⟨rfl, hpage⟩, hpage.tablePath, hpage.vpnIndex, Forest.setLeaf_get_self hforest hl' ht, hself]
      · rw [if_neg he, ← hgets hr]
        refine h.ok.forest.setLeaf_get_of_ne hforest hr' ht hc ?_
        intro hroot hpath hindex
        exact he ⟨hroot, path_inj hcanon hva hpath hindex⟩
    · rw [if_neg hcanon, if_neg hcanon, if_neg]
      rintro ⟨-, hpage⟩
      rw [hpage.canonical] at hcanon
      exact hcanon hva

theorem vmMapPage_spec (va pa flags : U64) (h : TablesOk m place) (hl : Live place sp) :
    ∃ result m', vmMapPage (some sp) va pa flags m = .ok (result, m') ∧ MapOutcome m place sp va pa flags result m' := by
  have hz := h.root_ne_zero hl
  unfold vmMapPage
  dsimp only
  by_cases hargs : MapArgs va pa flags
  · obtain ⟨hva, hal, hpa, hf⟩ := id hargs
    rw [if_neg (not_or.mpr ⟨hz, by simp [hva, hal, hpa, hf]⟩)]
    have hok : TablesOk { m with sie := false } place := h.setSie false
    obtain ⟨a, m₁, hwalk, hcase⟩ := vmWalkFrom_alloc va (sv39Levels - 1) (Walked.refl hok) hl rfl
    have hwalk' : vmWalk (some sp) va true { m with sie := false } = .ok (a, m₁) := by
      unfold vmWalk
      dsimp only
      rw [if_neg (not_or.mpr ⟨hz, by simp [hva]⟩)]
      exact hwalk
    show ∃ result m', (vmWalk (some sp) va true { m with sie := false } >>= _) = .ok (result, m') ∧ _
    rw [hwalk', ok_bind]
    dsimp only
    rcases hcase with ⟨hfree, rfl, hres⟩ | ⟨hfree, place', s, l', hw, hext, hs, rfl, hlen⟩
    · rw [if_pos rfl]
      refine ⟨_, _, rfl, .noMemory hargs ?_ hfree hres.irq⟩
      -- a mapped page has all its tables
      have hmiss : ¬missingTables (tableCells m.mem) (tablePath va) sp.root = 0 := by
        have : m.pages.freePages < missingTables (tableCells m.mem) (tablePath va) sp.root := hfree
        omega
      rw [h.forest.missing_eq_zero hl] at hmiss
      unfold mapped
      rw [if_pos hva]
      cases hg : getLeaf (tableCells m.mem) (tablePath va) (vpnIndex va 0) sp.root with
      | none => rfl
      | some v =>
        obtain ⟨u, hu, -⟩ := (h.forest.get_iff hl).mp hg
        exact absurd ⟨u, hu⟩ hmiss
    · have hs : place' s = some (sp.root, tablePath va) := hs
      have hl' := hw.grown hl
      have hfind : findTable (tableCells m₁.mem) (tablePath va) sp.root = some s := by
        rw [hw.ok.forest.find_iff hl']
        exact hs
      have hget : getLeaf (tableCells m₁.mem) (tablePath va) (vpnIndex va 0) sp.root = mapped m sp.root va := by
        rw [hw.gets hl]
        unfold mapped
        rw [if_pos hva]
      obtain ⟨hne, -, hentry⟩ := walkResult_entry hw.ok hl' hfind
      rw [if_neg hne]
      unfold getLeaf at hget
      rw [hfind, Option.bind_some] at hget
      rcases hentry with ⟨hcell, hv⟩ | ⟨hcell, hv, -⟩
      · rw [hcell] at hget
        rw [hv, if_neg Bool.false_ne_true]
        obtain ⟨hgrown, hlookup⟩ := (hw.grownTables hok).setEntry hl hw.gets hs hva (v := paToPte pa flags)
          (by rw [cellOf_map hf]; rfl)
        refine ⟨_, _, rfl, .ok hargs hget.symm hfree hgrown.irq hext fun r va' hr => ?_⟩
        refine (hlookup r va' hr).trans ?_
        rw [cellOf_map hf]
        rfl
      · rw [hcell] at hget
        rw [hv, if_pos rfl]
        refine ⟨_, _, rfl, .mapped hargs (by rw [← hget]; exact nofun) ?_⟩
        -- all tables were there, so the walk installed none
        have hg : getLeaf (tableCells m.mem) (tablePath va) (vpnIndex va 0) sp.root = some (m₁.mem.load64 (pteAddr s (vpnIndex va 0)).toNat) := by
          have : mapped m sp.root va = getLeaf (tableCells m.mem) (tablePath va) (vpnIndex va 0) sp.root := if_pos hva
          rw [← this, ← hget]
          rfl
        obtain ⟨u, hu, -⟩ := (h.forest.get_iff hl).mp hg
        have hmiss := (h.forest.missing_eq_zero (q := tablePath va) hl).mpr ⟨u, hu⟩
        have hnil : l' = [] := by
          apply List.eq_nil_of_length_eq_zero
          rw [hlen]
          exact (Nat.zero_add _).trans hmiss
        subst hnil
        obtain rfl : place' = place := hw.back
        refine Restored.irq ⟨hw.ok, hw.reallocated, fun a => ?_, ?_, hw.gets⟩
        · rw [hw.allocated]
          simp
        · exact hw.free
  · rw [if_pos]
    · exact ⟨_, m, rfl, .invalid hargs⟩
    · right
      unfold MapArgs at hargs
      cases h1 : vaIsCanonical va <;> cases h2 : pageAligned va <;> cases h3 : pageAligned pa <;>
        cases h4 : flagsAreValid flags <;> simp_all

/-! ### Unmapping a page -/

/-- What `vm_unmap_page` does in a live space. -/
inductive UnmapOutcome (m : Machine) (place : TablePlaces) (sp : VmSpace) (va : U64) : Int → Machine → Prop
  | invalid (hargs : ¬(vaIsCanonical va = true ∧ pageAligned va = true)) : UnmapOutcome m place sp va vmErrInvalid m
  | notMapped (hargs : vaIsCanonical va = true ∧ pageAligned va = true) (hmapped : mapped m sp.root va = none) :
    UnmapOutcome m place sp va vmErrNotMapped m
  | ok {m' : Machine} (hargs : vaIsCanonical va = true ∧ pageAligned va = true) (hmapped : mapped m sp.root va ≠ none)
    (hpages : m'.pages = m.pages) (h : TablesGrown m place m' place)
    (hlookup : ∀ r va', place r = some (r, []) → mapped m' r va' =
      if r = sp.root ∧ SamePage va' va then none else mapped m r va') : UnmapOutcome m place sp va vmOk m'

theorem TablesGrown.refl (h : TablesOk m place) : TablesGrown m place m place where
  ok := h
  grown := id
  fresh _ h₀ h₁ := absurd h₀ h₁
  allocated a := by
    constructor
    · exact .inl
    · rintro (ha | hne)
      · exact ha
      · obtain ⟨x, hx⟩ := Option.ne_none_iff_exists'.mp hne
        exact h.allocated hx
  reallocated := ⟨rfl, rfl, fun _ _ => rfl⟩

theorem vmUnmapPage_spec (va : U64) (h : TablesOk m place) (hl : Live place sp) :
    ∃ result m', vmUnmapPage (some sp) va m = .ok (result, m') ∧ UnmapOutcome m place sp va result m' := by
  have hz := h.root_ne_zero hl
  unfold vmUnmapPage
  dsimp only
  by_cases hargs : vaIsCanonical va = true ∧ pageAligned va = true
  · rw [if_neg (not_or.mpr ⟨hz, by simp [hargs.1, hargs.2]⟩)]
    have hok : TablesOk { m with sie := false } place := h.setSie false
    obtain ⟨a, hwalk, hcase⟩ := walk_mapped va hok hl
    show ∃ result m', (vmWalk (some sp) va false { m with sie := false } >>= _) = .ok (result, m') ∧ _
    rw [hwalk, ok_bind]
    dsimp only
    have hm : mapped { m with sie := false } sp.root va = mapped m sp.root va := rfl
    rw [hm] at hcase
    rcases hcase with ⟨hnone, hinvalid⟩ | ⟨t, hsome, hne, hv, hleaf, hva, ht, rfl⟩
    · rw [if_pos]
      · exact ⟨_, m, rfl, .notMapped hargs hnone⟩
      · rcases hinvalid with hzero | hinvalid
        · exact .inl hzero
        · right; left
          rw [hinvalid]
          rfl
    · rw [if_neg]
      · obtain ⟨hgrown, hlookup⟩ := (TablesGrown.refl hok).setEntry hl (fun _ => rfl) ht hva (v := 0) rfl
        exact ⟨_, _, rfl, .ok hargs (by rw [hsome]; exact nofun) rfl hgrown.irq hlookup⟩
      · exact not_or.mpr ⟨hne, not_or.mpr ⟨by rw [hv]; decide, by rw [hleaf]; decide⟩⟩
  · rw [if_pos]
    · exact ⟨_, m, rfl, .invalid hargs⟩
    · right
      cases h1 : vaIsCanonical va <;> cases h2 : pageAligned va <;> simp_all

/-! ### Creating a space -/

/-- What `vm_space_init` does: it makes an empty space in a free frame, if there is one. -/
inductive InitOutcome (m : Machine) (place : TablePlaces) (space : VmSpace) : Int → Option VmSpace → Machine → Prop
  | noMemory (hfree : m.pages.freePages = 0) : InitOutcome m place space vmErrNoMemory (some space) m
  | ok {m' : Machine} {root : U64} (hfree : m.pages.freePages ≠ 0) (hfresh : ¬m.pages.Allocated root)
    (h : TablesGrown m place m' (Function.update place root (some (root, []))))
    (hempty : ∀ va, mapped m' root va = none)
    (hlookup : ∀ r va, place r = some (r, []) → mapped m' r va = mapped m r va) :
    InitOutcome m place space vmOk (some ⟨root⟩) m'

theorem vmSpaceInit_spec (h : TablesOk m place) (space : VmSpace) :
    ∃ result space' m', vmSpaceInit (some space) m = .ok (result, space', m') ∧
      InitOutcome m place space result space' m' := by
  unfold vmSpaceInit
  dsimp only
  obtain ⟨n, p', halloc, hp', hcase⟩ := pageAlloc_spec (m := { m with sie := false }) h.pages
  show ∃ result space' m', (pageAlloc { m with sie := false } >>= _) = .ok (result, space', m') ∧ _
  rw [halloc, ok_bind]
  dsimp only
  rcases hcase with ⟨rfl, rfl, hfree⟩ | ⟨hne, hn⟩
  · rw [if_pos rfl]
    exact ⟨_, _, _, rfl, .noMemory hfree⟩
  · rw [if_neg hne]
    have hna := hn.managed.aligned
    have hnone : place n = none := by
      by_contra hsome
      obtain ⟨x, hx⟩ := Option.ne_none_iff_exists'.mp hsome
      exact hn.fresh (h.allocated hx)
    let mem' := memoryZero n pageSize m.mem
    have hnew : ∀ j, tableCells mem' n j = .empty := tableCells_zero hna
    have hc : ∀ s, place s ≠ none → ∀ j, tableCells mem' s j = tableCells m.mem s j := by
      intro s hs j
      obtain ⟨x, hx⟩ := Option.ne_none_iff_exists'.mp hs
      rw [tableCells_congr (h.aligned hx) fun a ha => memoryZero_of_not_inPage fun hin => ?_]
      obtain rfl := ha.unique (h.aligned hx) hna hin
      exact hs hnone
    have hforest := h.forest.addRoot hnone hnew hc
    refine ⟨_, _, _, rfl, @InitOutcome.ok m place space _ n (fun h0 => Nat.succ_ne_zero _ (hn.free.trans h0)) hn.fresh ⟨⟨hp', hforest, fun {s x} hs => ?_⟩,
      fun {s x} hs => ?_, fun s h₀ h₁ => ?_, fun a => ?_, ⟨rfl, hn.range, fun x hx => ?_⟩⟩ (fun va => ?_) fun r va hr => ?_⟩
    · refine (hn.allocated s).mpr ?_
      by_cases hsn : s = n
      · exact .inr hsn
      · rw [Function.update_of_ne hsn] at hs
        exact .inl (h.allocated hs)
    · rw [Function.update_of_ne]
      · exact hs
      · rintro rfl
        rw [hnone] at hs
        cases hs
    · by_cases hsn : s = n
      · subst hsn
        exact hn.fresh
      · rw [Function.update_of_ne hsn] at h₁
        exact absurd h₀ h₁
    · refine (hn.allocated a).trans (or_congr_right' fun hna => ?_)
      by_cases han : a = n
      · subst han
        rw [Function.update_self]
        exact iff_of_true rfl nofun
      · rw [Function.update_of_ne han]
        refine iff_of_false han (not_not.mpr ?_)
        by_contra hsome
        obtain ⟨x, hx⟩ := Option.ne_none_iff_exists'.mp hsome
        exact hna (h.allocated hx)
    · refine memoryZero_of_not_inPage fun hin => ?_
      exact hn.fresh (hx n hn.managed hin).1
    · unfold mapped
      split
      · exact Forest.getLeaf_of_empty hnew
      · rfl
    · unfold mapped
      have hget := h.forest.addRoot_get (q := tablePath va) (j := vpnIndex va 0) hforest hnone hnew hc hr
      split
      · exact hget
      · rfl

/-! ### Destroying a space -/

/-- There is no leaf in the tables from `p` on. -/
def NoLeaf (c : U64 → Nat → Cell U64 U64) (place : TablePlaces) (r : U64) (p : List Nat) : Prop :=
  ∀ s q j v, place s = some (r, p ++ q) → c s j ≠ .leaf v

theorem NoLeaf.child {c : U64 → Nat → Cell U64 U64} (h : NoLeaf c place r p) (i : Nat) : NoLeaf c place r (p ++ [i]) := by
  intro s q j v hs
  rw [List.append_assoc] at hs
  exact h s _ j v hs

variable (level) in
theorem tableContainsLeaf_iff (h : TablesOk m place) (ht : place t = some (r, p))
    (hlevel : p.length + level = sv39Levels - 1) :
    tableContainsLeaf m.mem level t = false ↔ NoLeaf (tableCells m.mem) place r p := by
  induction level generalizing t p with
  | zero =>
    have hlast : ∀ s q, place s = some (r, p ++ q) → q = [] := by
      intro s q hs
      have := h.forest.depth_le hs
      rw [List.length_append] at this
      exact List.eq_nil_of_length_eq_zero (by omega)
    rw [tableContainsLeaf, List.any_eq_false]
    constructor
    · intro hall s q j v hs hleaf
      obtain rfl := hlast s q hs
      rw [List.append_nil] at hs
      obtain rfl := h.forest.unique hs ht
      by_cases hj : j < sv39EntriesPerTable
      · rw [tableCells_of_lt hj] at hleaf
        exact hall j (List.mem_range.mpr hj) (cellOf_eq_leaf.mp hleaf).1
      · unfold tableCells at hleaf
        rw [if_neg hj] at hleaf
        cases hleaf
    · intro hno i hi hv
      have hi := List.mem_range.mp hi
      have hcell : tableCells m.mem t i = _ := tableCells_of_lt hi
      cases hc : cellOf (tableEntry m.mem t i) with
      | empty =>
        rw [cellOf_eq_empty.mp hc] at hv
        cases hv
      | leaf v => exact hno t [] i v (by rw [List.append_nil]; exact ht) (hcell.trans hc)
      | table s =>
        have := h.forest.table_depth ht (hcell.trans hc)
        omega
  | succ level ih =>
    rw [tableContainsLeaf, List.any_eq_false]
    constructor
    · intro hall s q j v hs hleaf
      cases q with
      | nil =>
        rw [List.append_nil] at hs
        have := h.forest.leaf_depth hs hleaf
        omega
      | cons i q =>
        have hsplit : p ++ i :: q = p ++ [i] ++ q := by rw [List.append_assoc]; rfl
        rw [hsplit] at hs
        obtain ⟨u, hu⟩ := h.forest.ancestor hs
        obtain ⟨t', ht', hcell⟩ := h.forest.parent hu
        obtain rfl := h.forest.unique ht' ht
        by_cases hi : i < sv39EntriesPerTable
        · rw [tableCells_of_lt hi] at hcell
          obtain ⟨hv, hl, hpa, -⟩ := (cellOf_eq_table (h.ne_zero hu)).mp hcell
          have := hall i (List.mem_range.mpr hi)
          dsimp only at this
          rw [hv, hl, hpa, Bool.true_and, Bool.false_or, Bool.not_eq_true] at this
          exact (ih hu (by rw [List.length_append, List.length_singleton]; omega)).mp this s q j v hs hleaf
        · unfold tableCells at hcell
          rw [if_neg hi] at hcell
          cases hcell
    · intro hno i hi
      have hi := List.mem_range.mp hi
      have hcell : tableCells m.mem t i = _ := tableCells_of_lt hi
      dsimp only
      cases hc : cellOf (tableEntry m.mem t i) with
      | empty =>
        rw [cellOf_eq_empty.mp hc]
        exact Bool.false_ne_true
      | leaf v => exact absurd (hcell.trans hc) (hno t [] i v (by rw [List.append_nil]; exact ht))
      | table s =>
        have hs := h.forest.child ht (hcell.trans hc)
        obtain ⟨hv, hl, hpa, -⟩ := (cellOf_eq_table (h.ne_zero hs)).mp hc
        rw [hv, hl, hpa, Bool.true_and, Bool.false_or, Bool.not_eq_true]
        exact (ih hs (by rw [List.length_append, List.length_singleton]; omega)).mpr (hno.child i)

/-- The tables below `p` through one of the cells `l` are gone, and these cells are empty. -/
structure Pruned (m : Machine) (place : TablePlaces) (t r : U64) (p : List Nat) (l : Nat → Prop) (m' : Machine)
    (place' : TablePlaces) : Prop where
  ok : TablesOk m' place'
  places : ∀ s x, place' s = some x ↔ place s = some x ∧ ∀ i q, l i → x ≠ (r, p ++ i :: q)
  allocated : ∀ a, m'.pages.Allocated a ↔ m.pages.Allocated a ∧ ∀ i q, l i → place a ≠ some (r, p ++ i :: q)
  reallocated : Reallocated m place m'
  empty : ∀ i, l i → tableCells m'.mem t i = .empty
  kept : ∀ s, place' s ≠ none → ∀ j, (s = t → ¬l j) → tableCells m'.mem s j = tableCells m.mem s j

theorem pageFree_mem (page : U64) (m : Machine) (mem : Mem) :
    pageFree page { m with mem := mem } = (pageFree page m).map fun m' => { m' with mem := mem } := by
  unfold pageFree
  dsimp only [irqSave, irqRestore]
  split
  · rfl
  · split
    · rfl
    · split <;> rfl

theorem Pruned.refl (h : TablesOk m place) (t r : U64) (p : List Nat) : Pruned m place t r p (fun _ => False) m place where
  ok := h
  places s x := by simp
  allocated a := by simp
  reallocated := ⟨rfl, rfl, fun _ _ => rfl⟩
  empty _ hf := hf.elim
  kept _ _ _ _ := rfl

theorem Pruned.self {l : Nat → Prop} (h : Pruned m place t r p l m' place') (ht : place t = some (r, p)) :
    place' t = some (r, p) := by
  rw [h.places]
  refine ⟨ht, fun i q _ he => ?_⟩
  have := congrArg (fun x : U64 × List Nat => x.2.length) he
  simp only [List.length_append, List.length_cons] at this
  omega

theorem Pruned.noLeaf {l : Nat → Prop} (h : Pruned m place t r p l m' place') (hno : NoLeaf (tableCells m.mem) place r p) :
    NoLeaf (tableCells m'.mem) place' r p := by
  intro s q j v hs hleaf
  by_cases he : s = t ∧ l j
  · obtain ⟨rfl, hj⟩ := he
    rw [h.empty j hj] at hleaf
    cases hleaf
  · rw [h.kept s (by rw [hs]; exact nofun) j fun h1 h2 => he ⟨h1, h2⟩] at hleaf
    exact hno s q j v ((h.places s _).mp hs).1 hleaf

theorem TablesOk.not_below (h : TablesOk m place) (ht : place t = some (r, p)) (hcell : tableCells m.mem t i = .empty)
    (s : U64) (q : List Nat) : place s ≠ some (r, p ++ i :: q) := by
  intro hs
  have hsplit : p ++ i :: q = p ++ [i] ++ q := by rw [List.append_assoc]; rfl
  rw [hsplit] at hs
  obtain ⟨u, hu⟩ := h.forest.ancestor hs
  obtain ⟨t', ht', hlink⟩ := h.forest.parent hu
  rw [h.forest.unique ht' ht, hcell] at hlink
  cases hlink

variable (level) in
theorem Pruned.entry {l : Nat → Prop} (h : Pruned m place t r p l m' place') (ht : place t = some (r, p))
    (hi : i < sv39EntriesPerTable) (hl : ¬l i)
    (hno : NoLeaf (tableCells m.mem) place r p)
    (hchild : ∀ {s m place}, TablesOk m place → place s = some (r, p ++ [i]) → NoLeaf (tableCells m.mem) place r (p ++ [i]) →
      ∃ m' place', freeEmptyTableChildren level s m = .ok m' ∧ Pruned m place s r (p ++ [i]) (fun _ => True) m' place') :
    ∃ m'' place'', (if !pteIsValid (tableEntry m'.mem t i) then .ok m' else do
        let child := pteToPa (tableEntry m'.mem t i)
        let m ← freeEmptyTableChildren level child m'
        let m ← pageFree child m
        .ok { m with mem := m.mem.store64 (pteAddr t i).toNat 0 } : Except Panic Machine) = .ok m'' ∧
      Pruned m place t r p (fun j => l j ∨ j = i) m'' place'' := by
  have ht' := h.self ht
  have hno' := h.noLeaf hno
  have hcell : tableCells m'.mem t i = _ := tableCells_of_lt hi
  cases hc : cellOf (tableEntry m'.mem t i) with
  | empty =>
    rw [cellOf_eq_empty.mp hc]
    rw [hc] at hcell
    -- no table hangs below an empty entry
    have hnone : ∀ s q, place' s ≠ some (r, p ++ i :: q) := h.ok.not_below ht' hcell
    have hnone' : ∀ s q, place s ≠ some (r, p ++ i :: q) := by
      intro s q hs
      refine hnone s q ((h.places s _).mpr ⟨hs, fun j q' hj he => hl ?_⟩)
      have hpath := List.append_cancel_left (Prod.mk.inj he).2
      rw [(List.cons.inj hpath).1]
      exact hj
    refine ⟨m', place', rfl, h.ok, fun s x => ?_, fun a => ?_, h.reallocated, fun j hj => ?_, fun s hs j hj => ?_⟩
    · rw [h.places]
      refine and_congr_right fun hs => ⟨fun hx j q hj => ?_, fun hx j q hj => hx j q (.inl hj)⟩
      rcases hj with hj | rfl
      · exact hx j q hj
      · rintro rfl
        exact hnone' s q hs
    · rw [h.allocated]
      refine and_congr_right fun _ => ⟨fun hx j q hj => ?_, fun hx j q hj => hx j q (.inl hj)⟩
      rcases hj with hj | rfl
      · exact hx j q hj
      · exact hnone' a q
    · rcases hj with hj | rfl
      · exact h.empty j hj
      · exact hcell
    · exact h.kept s hs j fun he hj' => hj he (.inl hj')
  | leaf v =>
    exact absurd (hcell.trans hc) (hno' t [] i v (by rw [List.append_nil]; exact ht'))
  | table n =>
    have hn := h.ok.forest.child ht' (hcell.trans hc)
    obtain ⟨hv, -, hpa, -⟩ := (cellOf_eq_table (h.ok.ne_zero hn)).mp hc
    rw [hc] at hcell
    obtain ⟨m₁, place₁, hfree, hpr⟩ := hchild h.ok hn (hno'.child i)
    have hn₁ := hpr.self hn
    have ht₁ : place₁ t = some (r, p) := by
      rw [hpr.places]
      refine ⟨ht', fun j q _ he => ?_⟩
      have := congrArg (fun x : U64 × List Nat => x.2.length) he
      simp only [List.length_append, List.length_cons] at this
      omega
    obtain ⟨m₂, hunlink, hok₂, hre₂, hmem₂, halloc₂, -, -⟩ := hpr.ok.unlink hi ht₁ hn₁ (fun j => hpr.empty j trivial)
    have hnt : n ≠ t := by
      rintro rfl
      rw [ht'] at hn
      simp at hn
    have hfreed : ∃ m₃, pageFree n m₁ = .ok m₃ ∧ m₂ = { m₃ with mem := m₁.mem.store64 (pteAddr t i).toNat 0 } := by
      rw [pageFree_mem] at hunlink
      cases hp : pageFree n m₁ with
      | error e => rw [hp] at hunlink; cases hunlink
      | ok m₃ =>
        rw [hp] at hunlink
        exact ⟨m₃, rfl, (Except.ok.inj hunlink).symm⟩
    obtain ⟨m₃, hp₃, hm₂⟩ := hfreed
    have hmem₃ : m₃.mem = m₁.mem := by
      obtain ⟨-, p', rfl, -⟩ := pageFree_ok hpr.ok.pages hp₃
      rfl
    refine ⟨m₂, Function.update place₁ n none, ?_, ?_⟩
    · rw [hv, hpa]
      show (freeEmptyTableChildren level n m' >>= fun m => pageFree n m >>= _) = _
      rw [hfree, ok_bind, hp₃, ok_bind, hm₂, hmem₃]
    · -- below `p` through `i` are the table `n` and what was below it
      have hbelow : ∀ s x, (Function.update place₁ n none s = some x) ↔ place' s = some x ∧ ∀ q, x ≠ (r, p ++ i :: q) := by
        intro s x
        by_cases hsn : s = n
        · subst hsn
          rw [Function.update_self, hn]
          refine iff_of_false nofun ?_
          rintro ⟨hx, hne⟩
          exact hne [] (Option.some.inj hx).symm
        · rw [Function.update_of_ne hsn, hpr.places]
          refine and_congr_right fun hs => ⟨fun hx q he => ?_, fun hx j q _ he => ?_⟩
          · cases q with
            | nil =>
              rw [he] at hs
              exact hsn (h.ok.forest.unique hs hn)
            | cons j q => exact hx j q trivial (by rw [he, List.append_assoc]; rfl)
          · exact hx (j :: q) (by rw [he, List.append_assoc]; rfl)
      refine ⟨hok₂, fun s x => ?_, fun a => ?_, ?_, fun j hj => ?_, fun s hs j hj => ?_⟩
      · rw [hbelow, h.places, and_assoc]
        refine and_congr_right fun _ => ⟨fun ⟨h1, h2⟩ j q hj => ?_, fun hx => ⟨fun j q hj => hx j q (.inl hj), fun q => hx i q (.inr rfl)⟩⟩
        rcases hj with hj | rfl
        · exact h1 j q hj
        · exact h2 q
      · rw [halloc₂, hpr.allocated, h.allocated, and_assoc, and_assoc]
        refine and_congr_right fun ha => ?_
        constructor
        · rintro ⟨h1, h2, han⟩ j q (hj | rfl) he
          · exact h1 j q hj he
          · have hplace : place' a = some (r, p ++ j :: q) := by
              refine (h.places a _).mpr ⟨he, fun j' q' hj' heq => hl ?_⟩
              have hpath := List.append_cancel_left (Prod.mk.inj heq).2
              rw [(List.cons.inj hpath).1]
              exact hj'
            cases q with
            | nil => exact han (h.ok.forest.unique hplace hn)
            | cons j' q => exact h2 j' q trivial (by rw [hplace, List.append_assoc]; rfl)
        · intro hx
          refine ⟨fun j q hj => hx j q (.inl hj), fun j q _ he => ?_, ?_⟩
          · rw [List.append_assoc] at he
            exact hx i (j :: q) (.inr rfl) ((h.places a _).mp he).1
          · rintro rfl
            exact hx i [] (.inr rfl) ((h.places a _).mp hn).1
      · refine h.reallocated.trans (hpr.reallocated.trans hre₂ fun s ha hs => ?_) fun s ha hs => ?_
        · have hsn : place₁ s = none := by
            by_contra hne
            obtain ⟨x, hx⟩ := Option.ne_none_iff_exists'.mp hne
            rw [((hpr.places s x).mp hx).1] at hs
            cases hs
          refine ⟨(hpr.allocated s).mpr ⟨ha, fun j q _ => ?_⟩, hsn⟩
          rw [hs]
          exact nofun
        · have hsn : place' s = none := by
            by_contra hne
            obtain ⟨x, hx⟩ := Option.ne_none_iff_exists'.mp hne
            rw [((h.places s x).mp hx).1] at hs
            cases hs
          refine ⟨(h.allocated s).mpr ⟨ha, fun j q _ => ?_⟩, hsn⟩
          rw [hs]
          exact nofun
      · rw [hmem₂, tableCells_store (h.ok.aligned ht') (h.ok.aligned ht') hi]
        rcases hj with hj | rfl
        · rw [if_neg]
          · rw [hpr.kept t (by rw [ht₁]; exact nofun) j fun he => absurd he.symm hnt]
            exact h.empty j hj
          · rintro ⟨-, rfl⟩
            exact hl hj
        · rw [if_pos ⟨rfl, rfl⟩, cellOf_zero]
      · obtain ⟨x, hx⟩ := Option.ne_none_iff_exists'.mp hs
        have hs' := ((hbelow s x).mp hx).1
        have hsn : s ≠ n := by
          rintro rfl
          rw [Function.update_self] at hx
          cases hx
        rw [Function.update_of_ne hsn] at hx
        rw [hmem₂, tableCells_store (h.ok.aligned ht') (h.ok.aligned hs') hi, if_neg,
          hpr.kept s (by rw [hx]; exact nofun) j fun he => absurd he hsn,
          h.kept s (by rw [hs']; exact nofun) j fun he hj' => hj he (.inl hj')]
        rintro ⟨rfl, rfl⟩
        exact hj rfl (.inr rfl)

variable (level) in
/-- The tables below a table without leaves are freed, each once. -/
theorem freeEmptyTableChildren_spec (h : TablesOk m place) (ht : place t = some (r, p))
    (hlevel : p.length + level = sv39Levels - 1) (hno : NoLeaf (tableCells m.mem) place r p) :
    ∃ m' place', freeEmptyTableChildren level t m = .ok m' ∧ Pruned m place t r p (fun _ => True) m' place' := by
  induction level generalizing m place t p with
  | zero =>
    have hempty : ∀ j, tableCells m.mem t j = .empty := by
      intro j
      cases hc : tableCells m.mem t j with
      | empty => rfl
      | leaf v => exact absurd hc (hno t [] j v (by rw [List.append_nil]; exact ht))
      | table s =>
        have := h.forest.table_depth ht hc
        omega
    refine ⟨m, place, rfl, h, fun s x => ?_, fun a => ?_, ⟨rfl, rfl, fun _ _ => rfl⟩, fun j _ => hempty j, fun _ _ _ _ => rfl⟩
    · refine (and_iff_left_of_imp fun hs j q _ he => ?_).symm
      rw [he] at hs
      exact h.not_below ht (hempty j) s q hs
    · exact (and_iff_left_of_imp fun _ j q _ => h.not_below ht (hempty j) a q).symm
  | succ level ih =>
    -- the loop over the entries: those of `l` are done
    have hloop : ∀ (L : List Nat) (l : Nat → Prop) (m' : Machine) (place' : TablePlaces), L.Nodup →
        (∀ i ∈ L, i < sv39EntriesPerTable ∧ ¬l i) → Pruned m place t r p l m' place' →
        ∃ m'' place'', L.foldlM (fun m i =>
          let pte := tableEntry m.mem t i
          if !pteIsValid pte then .ok m
          else do
            let child := pteToPa pte
            let m ← freeEmptyTableChildren level child m
            let m ← pageFree child m
            .ok { m with mem := m.mem.store64 (pteAddr t i).toNat 0 } : Machine → Nat → Except Panic Machine) m' = .ok m'' ∧
          Pruned m place t r p (fun j => l j ∨ j ∈ L) m'' place'' := by
      intro L
      induction L with
      | nil =>
        intro l m' place' _ _ hpr
        refine ⟨m', place', rfl, ?_⟩
        simpa only [List.not_mem_nil, or_false] using hpr
      | cons i L ihL =>
        intro l m' place' hnd hL hpr
        obtain ⟨hi, hli⟩ := hL i List.mem_cons_self
        obtain ⟨hnot, hnd⟩ := List.nodup_cons.mp hnd
        obtain ⟨m₁, place₁, hstep, hpr₁⟩ := hpr.entry level ht hi hli hno fun hok hs hno' =>
          ih hok hs (by rw [List.length_append, List.length_singleton]; omega) hno'
        obtain ⟨m₂, place₂, hfold, hpr₂⟩ := ihL (fun j => l j ∨ j = i) m₁ place₁ hnd (fun j hj => by
          obtain ⟨hlt, hnl⟩ := hL j (List.mem_cons_of_mem _ hj)
          refine ⟨hlt, not_or.mpr ⟨hnl, ?_⟩⟩
          rintro rfl
          exact hnot hj) hpr₁
        refine ⟨m₂, place₂, ?_, ?_⟩
        · rw [List.foldlM_cons]
          show (_ >>= _) = _
          rw [hstep]
          exact hfold
        · simpa only [List.mem_cons, or_assoc] using hpr₂
    obtain ⟨m', place', hfold, hpr⟩ := hloop (List.range sv39EntriesPerTable) (fun _ => False) m place List.nodup_range
      (fun i hi => ⟨List.mem_range.mp hi, not_false⟩) (Pruned.refl h t r p)
    refine ⟨m', place', hfold, ?_⟩
    -- there are no entries beyond the last
    have hbeyond : ∀ j, ¬j < sv39EntriesPerTable → ∀ mem : Mem, tableCells mem t j = .empty := fun j hj mem => if_neg hj
    have hbelow : ∀ s j q, ¬j < sv39EntriesPerTable → place s ≠ some (r, p ++ j :: q) := fun s j q hj =>
      h.not_below ht (hbeyond j hj _) s q
    refine ⟨hpr.ok, fun s x => ?_, fun a => ?_, hpr.reallocated, fun j _ => ?_, fun s hs j hj => ?_⟩
    · rw [hpr.places]
      refine and_congr_right fun hs => ⟨fun hx j q _ he => ?_, fun hx j q _ => hx j q trivial⟩
      by_cases hjlt : j < sv39EntriesPerTable
      · exact hx j q (.inr (List.mem_range.mpr hjlt)) he
      · rw [he] at hs
        exact hbelow s j q hjlt hs
    · rw [hpr.allocated]
      refine and_congr_right fun _ => ⟨fun hx j q _ => ?_, fun hx j q _ => hx j q trivial⟩
      by_cases hjlt : j < sv39EntriesPerTable
      · exact hx j q (.inr (List.mem_range.mpr hjlt))
      · exact hbelow a j q hjlt
    · by_cases hjlt : j < sv39EntriesPerTable
      · exact hpr.empty j (.inr (List.mem_range.mpr hjlt))
      · exact hbeyond j hjlt _
    · exact hpr.kept s hs j fun he _ => hj he trivial

theorem exists_va {i₂ i₁ i₀ : Nat} (h₂ : i₂ < 512) (h₁ : i₁ < 512) (h₀ : i₀ < 512) :
    ∃ va, vaIsCanonical va = true ∧ tablePath va = [i₂, i₁] ∧ vpnIndex va 0 = i₀ := by
  let n := i₂ * 2 ^ 30 + i₁ * 2 ^ 21 + i₀ * 2 ^ 12
  let a := if i₂ < 256 then n else 2 ^ 64 - 2 ^ 39 + n
  have ha : a < 2 ^ 64 := by
    show (if i₂ < 256 then n else 2 ^ 64 - 2 ^ 39 + n) < 2 ^ 64
    split <;> (simp only [n]; omega)
  have hva : (BitVec.ofNat 64 a).toNat = a := by rw [BitVec.toNat_ofNat, Nat.mod_eq_of_lt ha]
  have hval : a = n ∧ i₂ < 256 ∨ a = 2 ^ 64 - 2 ^ 39 + n ∧ 256 ≤ i₂ := by
    by_cases h : i₂ < 256
    · exact .inl ⟨if_pos h, h⟩
    · exact .inr ⟨if_neg h, by omega⟩
  have hn : n = i₂ * 2 ^ 30 + i₁ * 2 ^ 21 + i₀ * 2 ^ 12 := rfl
  refine ⟨BitVec.ofNat 64 a, ?_, ?_, ?_⟩
  · rw [vaIsCanonical_iff, hva]
    omega
  · have h2 : vpnIndex (BitVec.ofNat 64 a) 2 = i₂ := by rw [vpnIndex_toNat, hva]; omega
    have h1 : vpnIndex (BitVec.ofNat 64 a) 1 = i₁ := by rw [vpnIndex_toNat, hva]; omega
    rw [tablePath_eq, h2, h1]
  · rw [vpnIndex_toNat, hva]
    omega

theorem tableCells_leaf_lt {v : U64} (h : tableCells mem t i = .leaf v) : i < sv39EntriesPerTable := by
  by_contra hi
  unfold tableCells at h
  rw [if_neg hi] at h
  cases h

theorem TablesOk.path_lt (h : TablesOk m place) (ht : place t = some (r, p)) : ∀ i ∈ p, i < sv39EntriesPerTable := by
  induction p using List.reverseRecOn generalizing t with
  | nil => exact nofun
  | append_singleton p i ih =>
    intro j hj
    obtain ⟨s, hs, hlink⟩ := h.forest.parent ht
    rcases List.mem_append.mp hj with hj | hj
    · exact ih hs j hj
    · rw [List.mem_singleton.mp hj]
      by_contra hi
      unfold tableCells at hlink
      rw [if_neg hi] at hlink
      cases hlink

theorem noLeaf_iff (h : TablesOk m place) (hr : place r = some (r, [])) :
    NoLeaf (tableCells m.mem) place r [] ↔ ∀ va, mapped m r va = none := by
  constructor
  · intro hno va
    unfold mapped
    split
    · cases hg : getLeaf (tableCells m.mem) (tablePath va) (vpnIndex va 0) r with
      | none => rfl
      | some v =>
        obtain ⟨s, hs, hleaf⟩ := (h.forest.get_iff hr).mp hg
        exact absurd hleaf (hno s _ _ v hs)
    · rfl
  · intro hall s q j v hs hleaf
    rw [List.nil_append] at hs
    have hlen := h.forest.leaf_depth hs hleaf
    have hlt := h.path_lt hs
    obtain ⟨i₂, i₁, rfl⟩ := List.length_eq_two.mp hlen
    obtain ⟨va, hva, hpath, hindex⟩ := exists_va (hlt i₂ (by simp)) (hlt i₁ (by simp)) (tableCells_leaf_lt hleaf)
    have := hall va
    unfold mapped at this
    rw [if_pos hva, hpath, hindex] at this
    rw [(h.forest.get_iff hr).mpr ⟨s, hs, hleaf⟩] at this
    cases this

/-- What `vm_space_destroy` does to a live space. -/
inductive DestroyOutcome (m : Machine) (place : TablePlaces) (sp : VmSpace) : Int → Option VmSpace → Machine → Prop
  | busy (hmapped : ∃ va, mapped m sp.root va ≠ none) : DestroyOutcome m place sp vmErrBusy (some sp) m
  | ok {m' : Machine} {place' : TablePlaces} (hmapped : ∀ va, mapped m sp.root va = none) (hok : TablesOk m' place')
    (hplaces : ∀ s x, place' s = some x ↔ place s = some x ∧ x.1 ≠ sp.root)
    (hallocated : ∀ a, m'.pages.Allocated a ↔ m.pages.Allocated a ∧ ∀ p, place a ≠ some (sp.root, p))
    (hre : Reallocated m place m')
    (hlookup : ∀ r va, place r = some (r, []) → r ≠ sp.root → mapped m' r va = mapped m r va) :
    DestroyOutcome m place sp vmOk (some ⟨0⟩) m'

theorem vmSpaceDestroy_spec (h : TablesOk m place) (hl : Live place sp) :
    ∃ result space' m', vmSpaceDestroy (some sp) m = .ok (result, space', m') ∧
      DestroyOutcome m place sp result space' m' := by
  have hz := h.root_ne_zero hl
  have hok : TablesOk { m with sie := false } place := h.setSie false
  unfold vmSpaceDestroy
  dsimp only
  rw [if_neg hz]
  have hleaf := tableContainsLeaf_iff (sv39Levels - 1) h hl rfl
  rw [noLeaf_iff h hl] at hleaf
  by_cases hmapped : ∀ va, mapped m sp.root va = none
  · have hno : NoLeaf (tableCells m.mem) place sp.root [] := (noLeaf_iff h hl).mpr hmapped
    have hcontains : tableContainsLeaf (irqSave m).2.mem (sv39Levels - 1) sp.root = false := hleaf.mpr hmapped
    rw [hcontains, if_neg Bool.false_ne_true]
    obtain ⟨m₁, place₁, hfree, hpr⟩ := freeEmptyTableChildren_spec (sv39Levels - 1) hok hl rfl hno
    have hl₁ : Live place₁ sp := hpr.self hl
    obtain ⟨p', hp', hpok, hg⟩ := pageFree_spec hpr.ok.pages (hpr.ok.allocated hl₁)
    refine ⟨vmOk, some ⟨0⟩, irqRestore m.sie { m₁ with pages := p' }, ?_, ?_⟩
    · show (freeEmptyTableChildren (sv39Levels - 1) sp.root { m with sie := false } >>= _) = _
      rw [hfree, ok_bind, hp']
      rfl
    · have hforest := hpr.ok.forest.removeRoot hl₁ (fun j => hpr.empty j trivial) fun _ _ _ _ => rfl
      have hplaces : ∀ s x, Function.update place₁ sp.root none s = some x ↔ place s = some x ∧ x.1 ≠ sp.root := by
        intro s x
        by_cases hs : s = sp.root
        · subst hs
          rw [Function.update_self, hl]
          refine iff_of_false nofun ?_
          rintro ⟨hx, hne⟩
          obtain rfl := Option.some.inj hx
          exact hne rfl
        · rw [Function.update_of_ne hs, hpr.places]
          refine and_congr_right fun hx => ?_
          obtain ⟨r, q⟩ := x
          constructor
          · rintro hne (rfl : r = sp.root)
            cases q with
            | nil => exact hs (h.forest.root hx)
            | cons i q => exact hne i q trivial rfl
          · intro hne i q _ he
            exact hne (Prod.mk.inj he).1
      refine @DestroyOutcome.ok m place sp _ (Function.update place₁ sp.root none) hmapped ⟨hpok, hforest, fun {s x} hs => ?_⟩ hplaces
        (fun a => ?_) ⟨?_, ?_, fun x hx => hpr.reallocated.untouched x hx⟩ fun r va hr hne => ?_
      · refine (hg.allocated s).mpr ?_
        by_cases hsr : s = sp.root
        · subst hsr
          rw [Function.update_self] at hs
          cases hs
        · rw [Function.update_of_ne hsr] at hs
          exact ⟨hpr.ok.allocated hs, hsr⟩
      · refine (hg.allocated a).trans ?_
        rw [hpr.allocated, and_assoc]
        refine and_congr_right fun _ => ⟨fun ⟨hx, ha⟩ q hq => ?_, fun hx => ⟨fun i q _ => hx _, fun ha => ?_⟩⟩
        · cases q with
          | nil => exact ha (h.forest.root hq)
          | cons i q => exact hx i q trivial hq
        · rw [ha] at hx
          exact hx [] hl
      · rw [hpr.reallocated.eq]
        rfl
      · exact hg.range.trans hpr.reallocated.range
      · unfold mapped
        split
        · have hr₁ : place₁ r = some (r, []) := by
            rw [hpr.places]
            refine ⟨hr, fun i q _ he => hne (Prod.mk.inj he).1⟩
          have hsame : getLeaf (tableCells m₁.mem) (tablePath va) (vpnIndex va 0) r =
              getLeaf (tableCells m.mem) (tablePath va) (vpnIndex va 0) r := by
            refine h.forest.get_congr hpr.ok.forest hr hr₁ fun s v => ?_
            rw [hpr.places]
            constructor
            · rintro ⟨hs, hv⟩
              have hs₁ : place₁ s = some (r, tablePath va) := by
                rw [hpr.places]
                exact ⟨hs, fun i q _ he => hne (Prod.mk.inj he).1⟩
              refine ⟨⟨hs, fun i q _ he => hne (Prod.mk.inj he).1⟩, ?_⟩
              rw [hpr.kept s (by rw [hs₁]; exact nofun) _ fun he => ?_]
              · exact hv
              · rw [he, hl] at hs
                exact absurd (Prod.mk.inj (Option.some.inj hs)).1.symm hne
            · rintro ⟨⟨hs, hno'⟩, hv⟩
              have hs₁ : place₁ s = some (r, tablePath va) := by
                rw [hpr.places]
                exact ⟨hs, hno'⟩
              rw [hpr.kept s (by rw [hs₁]; exact nofun) _ fun he => ?_] at hv
              · exact ⟨hs, hv⟩
              · rw [he, hl] at hs
                exact absurd (Prod.mk.inj (Option.some.inj hs)).1.symm hne
          exact hsame
        · rfl
  · have hcontains : tableContainsLeaf (irqSave m).2.mem (sv39Levels - 1) sp.root = true := by
      cases hb : tableContainsLeaf m.mem (sv39Levels - 1) sp.root with
      | true => exact hb
      | false => exact absurd (hleaf.mp hb) hmapped
    rw [hcontains, if_pos rfl]
    exact ⟨_, _, _, rfl, .busy (not_forall.mp hmapped)⟩

end QemuRtos
