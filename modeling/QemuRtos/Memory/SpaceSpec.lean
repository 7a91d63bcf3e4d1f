import QemuRtos.Memory.VmSpec
import QemuRtos.User.Task

/-!
# What a call on one address space leaves alone

Each call of `vm.c` on one space keeps the tables and the mappings of the others, and takes or gives frames
for its own tables only. The relation `Within` says so and composes, so that a sequence of calls on one
space, such as those that build a user task or release it, keeps the rest too.
-/

namespace QemuRtos

open Lib

variable {m m' m'' : Machine} {place place' place'' : TablePlaces} {sp : VmSpace} {r va pa flags : U64}

/-- Of the spaces only that with root `r` has changed. Frames were taken or given for its tables, and perhaps
some of the frames `own`. -/
structure Within (r : U64) (own : Set U64) (m : Machine) (place : TablePlaces) (m' : Machine) (place' : TablePlaces) :
    Prop where
  ok : TablesOk m' place'
  others : ∀ s x, x.1 ≠ r → (place' s = some x ↔ place s = some x)
  allocated : ∀ a ∉ own, (m'.pages.Allocated a ∧ ∀ p, place' a ≠ some (r, p)) ↔
    m.pages.Allocated a ∧ ∀ p, place a ≠ some (r, p)
  eq : m' = { m with mem := m'.mem, pages := m'.pages }
  range : m'.pages.range = m.pages.range
  lookup : ∀ r' va, place r' = some (r', []) → r' ≠ r → mapped m' r' va = mapped m r' va

variable {own : Set U64}

namespace Within

theorem refl (r : U64) (own : Set U64) (h : TablesOk m place) : Within r own m place m place where
  ok := h
  others _ _ _ := Iff.rfl
  allocated _ _ := Iff.rfl
  eq := rfl
  range := rfl
  lookup _ _ _ _ := rfl

theorem not_table (h : Within r own m place m' place') {a : U64} (hown : a ∉ own) (ha : m.pages.Allocated a)
    (hp : place a = none) : m'.pages.Allocated a ∧ place' a = none := by
  obtain ⟨ha', hp'⟩ := (h.allocated a hown).mpr ⟨ha, fun p => by rw [hp]; exact nofun⟩
  refine ⟨ha', ?_⟩
  by_contra hne
  obtain ⟨x, hx⟩ := Option.ne_none_iff_exists'.mp hne
  have hxr : x.1 ≠ r := by
    intro he
    exact hp' x.2 (by rw [hx, ← he])
  rw [h.others a x hxr, hp] at hx
  cases hx

theorem live (h : Within r own m place m' place') (hl : Live place sp) (hne : sp.root ≠ r) : Live place' sp :=
  (h.others sp.root (sp.root, []) hne).mpr hl

theorem trans (h : Within r own m place m' place') (h' : Within r own m' place' m'' place'') :
    Within r own m place m'' place'' where
  ok := h'.ok
  others s x hx := (h'.others s x hx).trans (h.others s x hx)
  allocated a ha := (h'.allocated a ha).trans (h.allocated a ha)
  eq := by rw [h'.eq, h.eq]
  range := h'.range.trans h.range
  lookup r' va hr hne := by
    rw [h'.lookup r' va ((h.others r' _ hne).mpr hr) hne, h.lookup r' va hr hne]

theorem mono {own' : Set U64} (h : Within r own m place m' place') (hsub : own ⊆ own') : Within r own' m place m' place' where
  ok := h.ok
  others := h.others
  allocated a ha := h.allocated a fun hown => ha (hsub hown)
  eq := h.eq
  range := h.range
  lookup := h.lookup

theorem of_restored (r : U64) (own : Set U64) (h : Restored m place m') : Within r own m place m' place where
  ok := h.ok
  others _ _ _ := Iff.rfl
  allocated a _ := and_congr_left fun _ => h.allocated a
  eq := h.reallocated.eq
  range := h.reallocated.range
  lookup _ _ hr _ := h.mapped hr

theorem of_grown (own : Set U64) (h₀ : TablesOk m place) (h : TablesGrown m place m' place') (hext : Extends r place place')
    (hlookup : ∀ r' va, place r' = some (r', []) → r' ≠ r → mapped m' r' va = mapped m r' va) :
    Within r own m place m' place' where
  ok := h.ok
  others s x hx := by
    rcases hext s with hs | ⟨hs, p, hp⟩
    · rw [hs]
    · rw [hs, hp]
      refine iff_of_false (fun he => hx ?_) nofun
      rw [← Option.some.inj he]
  allocated a _ := by
    rw [h.allocated]
    rcases hext a with hs | ⟨hs, p, hp⟩
    · rw [hs]
      refine and_congr_left fun _ => or_iff_left_of_imp fun hne => ?_
      obtain ⟨x, hx⟩ := Option.ne_none_iff_exists'.mp hne
      exact h₀.allocated hx
    · exact iff_of_false (fun hx => hx.2 p hp) fun hx => h.fresh a hs (by rw [hp]; exact nofun) hx.1
  eq := h.reallocated.eq
  range := h.reallocated.range
  lookup := hlookup

theorem of_taken {p' : PageAllocator} {a : U64} (r : U64) (h : TablesOk m place) (hp' : PagesOk p')
    (ht : PageTaken a m.pages p') (hown : a ∈ own) : Within r own m place { m with pages := p' } place where
  ok := ⟨hp', h.forest, fun {t _} hx => (ht.allocated t).mpr (.inl (h.allocated hx))⟩
  others _ _ _ := Iff.rfl
  allocated b hb := by
    refine and_congr_left fun _ => (ht.allocated b).trans (or_iff_left_of_imp ?_)
    rintro rfl
    exact absurd hown hb
  eq := rfl
  range := ht.range
  lookup _ _ _ _ := rfl

theorem of_given {p' : PageAllocator} {a : U64} (r : U64) (h : TablesOk m place) (hp' : PagesOk p')
    (hg : PageGiven a m.pages p') (hown : a ∈ own) (hnone : place a = none) :
    Within r own m place { m with pages := p' } place where
  ok := ⟨hp', h.forest, fun {t _} hx => by
    refine (hg.allocated t).mpr ⟨h.allocated hx, ?_⟩
    rintro rfl
    rw [hnone] at hx
    cases hx⟩
  others _ _ _ := Iff.rfl
  allocated b hb := by
    refine and_congr_left fun _ => (hg.allocated b).trans (and_iff_left_of_imp fun _ => ?_)
    rintro rfl
    exact hb hown
  eq := rfl
  range := hg.range
  lookup _ _ _ _ := rfl

theorem of_write (mem : Mem) (r : U64) (own : Set U64) (h : TablesOk m place)
    (hw : ∀ t, place t ≠ none → ∀ x, InPage t x → mem x = m.mem x) :
    Within r own m place { m with mem := mem } place ∧
      ∀ r' va, place r' = some (r', []) → mapped { m with mem := mem } r' va = mapped m r' va := by
  have hcells : ∀ t, place t ≠ none → ∀ j, tableCells mem t j = tableCells m.mem t j := by
    intro t ht j
    obtain ⟨x, hx⟩ := Option.ne_none_iff_exists'.mp ht
    rw [tableCells_congr (h.aligned hx) (hw t ht)]
  have hforest := h.forest.congr hcells
  have hlookup : ∀ r' va, place r' = some (r', []) → mapped { m with mem := mem } r' va = mapped m r' va := by
    intro r' va hr
    unfold mapped
    split
    · refine h.forest.get_congr hforest hr hr fun s v => and_congr_right fun hs => ?_
      rw [hcells s (by rw [hs]; exact nofun)]
    · rfl
  exact ⟨⟨⟨h.pages, hforest, h.allocated⟩, fun _ _ _ => Iff.rfl, fun _ _ => Iff.rfl, rfl, rfl, fun r' va hr _ => hlookup r' va hr⟩,
    hlookup⟩

end Within

/-! ### The calls -/

/-- `vm_map_page` adds the page, or returns an error and changes no mapping. -/
theorem vmMapPage_within (va pa flags : U64) (own : Set U64) (h : TablesOk m place) (hl : Live place sp) :
    ∃ result m' place', vmMapPage (some sp) va pa flags m = .ok (result, m') ∧ Within sp.root own m place m' place' ∧
      Live place' sp ∧
      (result = vmOk ∧ MapArgs va pa flags ∧ mapped m sp.root va = none ∧ (∀ va', mapped m' sp.root va' =
          if SamePage va' va then some (paToPte pa flags) else mapped m sp.root va') ∨
        result ≠ vmOk ∧ ∀ va', mapped m' sp.root va' = mapped m sp.root va') := by
  obtain ⟨result, m', hmap, hout⟩ := vmMapPage_spec va pa flags h hl
  refine ⟨result, m', ?_⟩
  cases hout with
  | invalid hargs => exact ⟨place, hmap, .refl _ _ h, hl, .inr ⟨by decide, fun _ => rfl⟩⟩
  | mapped hargs hmapped hres => exact ⟨place, hmap, .of_restored _ _ hres, hl, .inr ⟨by decide, fun _ => hres.mapped hl⟩⟩
  | noMemory hargs hmapped hfree hres =>
    exact ⟨place, hmap, .of_restored _ _ hres, hl, .inr ⟨by decide, fun _ => hres.mapped hl⟩⟩
  | @ok _ place' hargs hmapped hfree hgrown hext hlookup =>
    refine ⟨place', hmap, .of_grown _ h hgrown hext fun r' va' hr hne => ?_, hgrown.grown hl,
      .inl ⟨rfl, hargs, hmapped, fun va' => ?_⟩⟩
    · rw [hlookup r' va' hr, if_neg fun he => hne he.1]
    · rw [hlookup sp.root va' hl]
      simp only [true_and]

theorem vmUnmapPage_within (own : Set U64) (h : TablesOk m place) (hl : Live place sp)
    (hva : vaIsCanonical va = true ∧ pageAligned va = true) :
    ∃ result m', vmUnmapPage (some sp) va m = .ok (result, m') ∧ Within sp.root own m place m' place ∧
      ∀ va', mapped m' sp.root va' = if SamePage va' va then none else mapped m sp.root va' := by
  obtain ⟨result, m', hunmap, hout⟩ := vmUnmapPage_spec va h hl
  refine ⟨result, m', hunmap, ?_⟩
  cases hout with
  | invalid hargs => exact absurd hva hargs
  | notMapped hargs hmapped =>
    refine ⟨.refl _ _ h, fun va' => ?_⟩
    by_cases hsame : SamePage va' va
    · rw [if_pos hsame, hsame.mapped, hmapped]
    · rw [if_neg hsame]
  | ok hargs hmapped hpages hgrown hlookup =>
    refine ⟨.of_grown _ h hgrown (fun _ => .inl rfl) fun r' va' hr hne => ?_, fun va' => ?_⟩
    · rw [hlookup r' va' hr, if_neg fun he => hne he.1]
    · rw [hlookup sp.root va' hl]
      simp only [true_and]

theorem vmSpaceInit_within (own : Set U64) (h : TablesOk m place) (space : VmSpace) :
    ∃ result space' m', vmSpaceInit (some space) m = .ok (result, space', m') ∧
      (result = vmErrNoMemory ∧ m.pages.freePages = 0 ∧ space' = some space ∧ m' = m ∨
        ∃ root, result = vmOk ∧ m.pages.freePages ≠ 0 ∧ space' = some ⟨root⟩ ∧ place root = none ∧ (∀ p t, place t ≠ some (root, p)) ∧
          Within root own m place m' (Function.update place root (some (root, []))) ∧ ∀ va, mapped m' root va = none) := by
  obtain ⟨result, space', m', hinit, hout⟩ := vmSpaceInit_spec h space
  refine ⟨result, space', m', hinit, ?_⟩
  cases hout with
  | noMemory hfree => exact .inl ⟨rfl, hfree, rfl, rfl⟩
  | @ok _ root hfree hfresh hgrown hempty hlookup =>
    have hnone : place root = none := by
      by_contra hne
      obtain ⟨x, hx⟩ := Option.ne_none_iff_exists'.mp hne
      exact hfresh (h.allocated hx)
    refine .inr ⟨root, rfl, hfree, rfl, hnone, fun p t ht => ?_, ?_, hempty⟩
    · obtain ⟨t', ht'⟩ := h.forest.ancestor (p := []) (q := p) ht
      rw [← h.forest.root ht', ht'] at hnone
      cases hnone
    · exact .of_grown _ h hgrown (.update hnone []) fun r' va' hr _ => hlookup r' va' hr

/-- `vm_space_destroy` of a space without mappings frees its tables. -/
theorem vmSpaceDestroy_within (own : Set U64) (h : TablesOk m place) (hl : Live place sp)
    (hnone : ∀ va, mapped m sp.root va = none) :
    ∃ m' place', vmSpaceDestroy (some sp) m = .ok (vmOk, some ⟨0⟩, m') ∧ Within sp.root own m place m' place' ∧
      ∀ s p, place' s ≠ some (sp.root, p) := by
  obtain ⟨result, space', m', hdestroy, hout⟩ := vmSpaceDestroy_spec h hl
  cases hout with
  | busy hmapped =>
    obtain ⟨va, hva⟩ := hmapped
    exact absurd (hnone va) hva
  | @ok _ place' hmapped hok hplaces hallocated hre hlookup =>
    have hgone : ∀ s p, place' s ≠ some (sp.root, p) := fun s p hs => ((hplaces s _).mp hs).2 rfl
    refine ⟨m', place', hdestroy, ⟨hok, fun s x hx => ?_, fun a _ => ?_, hre.eq, hre.range, hlookup⟩, hgone⟩
    · rw [hplaces]
      exact and_iff_left hx
    · rw [← hallocated]
      exact and_iff_left (hgone a)

end QemuRtos
