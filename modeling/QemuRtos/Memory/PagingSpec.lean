import QemuRtos.Memory.Paging
import QemuRtos.Memory.VmSpec

/-!
# What the kernel page table maps

The calls of `vm_map_page` in order, `kernelPages`, are of pages apart from each other, so none finds its page mapped;
and each table they need is taken once, so with as many free frames as there are tables (`pageTables`) none runs out.
-/

namespace QemuRtos

open Lib

variable {m m' : Machine} {place : TablePlaces} {sp : VmSpace} {va pa flags : U64}

/-! ### Frames -/

/-- A mapping takes the frames of the tables it lacks. -/
theorem vmMapPage_free (h : TablesOk m place) (hl : Live place sp)
    (hmap : vmMapPage (some sp) va pa flags m = .ok (vmOk, m')) :
    m'.pages.freePages + missingTables (tableCells m.mem) (tablePath va) sp.root = m.pages.freePages := by
  have hz := h.root_ne_zero hl
  unfold vmMapPage at hmap
  dsimp only at hmap
  by_cases hguard : sp.root = 0 ∨ !vaIsCanonical va ∨ !pageAligned va ∨ !pageAligned pa ∨ !flagsAreValid flags
  · rw [if_pos hguard] at hmap
    exact absurd (show vmErrInvalid = vmOk from congrArg Prod.fst (Except.ok.inj hmap)) (by decide)
  · rw [if_neg hguard] at hmap
    have hva : vaIsCanonical va = true := by
      cases hva : vaIsCanonical va
      · exact absurd (.inr (.inl (by rw [hva]; rfl))) hguard
      · rfl
    obtain ⟨a, m₁, hwalk, hcase⟩ :=
      vmWalkFrom_alloc va (sv39Levels - 1) (Walked.refl (h.setSie false)) hl rfl
    have hwalk' : vmWalk (some sp) va true { m with sie := false } = .ok (a, m₁) := by
      unfold vmWalk
      dsimp only
      rw [if_neg (not_or.mpr ⟨hz, by simp [hva]⟩)]
      exact hwalk
    obtain ⟨⟨a', m₂⟩, hwalk₂, hrest⟩ := bind_eq_ok.mp hmap
    obtain ⟨rfl, rfl⟩ := Prod.mk.inj (Except.ok.inj (hwalk'.symm.trans hwalk₂))
    dsimp only at hrest
    rcases hcase with ⟨-, rfl, -⟩ | ⟨-, place', s, l', hw, -, -, -, hlen⟩
    · rw [if_pos rfl] at hrest
      exact absurd (show vmErrNoMemory = vmOk from congrArg Prod.fst (Except.ok.inj hrest)) (by decide)
    · by_cases ha : a = 0
      · rw [if_pos ha] at hrest
        exact absurd (show vmErrNoMemory = vmOk from congrArg Prod.fst (Except.ok.inj hrest)) (by decide)
      · rw [if_neg ha] at hrest
        by_cases hv : pteIsValid (m₁.mem.load64 a.toNat)
        · rw [if_pos hv] at hrest
          exact absurd (show vmErrExists = vmOk from congrArg Prod.fst (Except.ok.inj hrest)) (by decide)
        · rw [if_neg hv] at hrest
          have hm' : m'.pages = m₁.pages := (congrArg (fun x => x.2.pages) (Except.ok.inj hrest)).symm
          have hfree : m₁.pages.freePages + l'.length = m.pages.freePages := hw.free
          rw [hlen, List.length_nil, Nat.zero_add] at hfree
          rw [hm']
          exact hfree

theorem vmSpaceInit_free {space : VmSpace} {space' : Option VmSpace} (h : PagesOk m.pages)
    (hinit : vmSpaceInit (some space) m = .ok (vmOk, space', m')) :
    m'.pages.freePages + 1 = m.pages.freePages := by
  unfold vmSpaceInit at hinit
  dsimp only at hinit
  obtain ⟨n, p', halloc, -, hcase⟩ := pageAlloc_spec (m := { m with sie := false }) h
  obtain ⟨⟨n', m₂⟩, halloc₂, hrest⟩ := bind_eq_ok.mp hinit
  obtain ⟨rfl, rfl⟩ := Prod.mk.inj (Except.ok.inj (halloc.symm.trans halloc₂))
  dsimp only at hrest
  rcases hcase with ⟨rfl, -, -⟩ | ⟨hne, hn⟩
  · rw [if_pos rfl] at hrest
    exact absurd (show vmErrNoMemory = vmOk from congrArg Prod.fst (Except.ok.inj hrest)) (by decide)
  · rw [if_neg hne] at hrest
    have hm' : p' = m'.pages := congrArg (fun x => x.2.2.pages) (Except.ok.inj hrest)
    rw [← hm']
    exact hn.free

/-! ### The tables a list of pages needs -/

/-- The paths of the tables: the root, one table for each gigabyte and one for each two megabytes. -/
def pageTables (l : List PageMapping) : Finset (List Nat) :=
  insert [] ((l.map fun x => [vpnIndex x.va 2]) ++ l.map fun x => tablePath x.va).toFinset

theorem mem_pageTables {l : List PageMapping} {p : List Nat} : p ∈ pageTables l ↔
    p = [] ∨ ∃ x ∈ l, p = [vpnIndex x.va 2] ∨ p = tablePath x.va := by
  simp only [pageTables, Finset.mem_insert, List.mem_toFinset, List.mem_append, List.mem_map, ← exists_or]
  constructor
  · rintro (h | ⟨x, h | h⟩)
    · exact .inl h
    · exact .inr ⟨x, h.1, .inl h.2.symm⟩
    · exact .inr ⟨x, h.1, .inr h.2.symm⟩
  · rintro (h | ⟨x, hx, h | h⟩)
    · exact .inl h
    · exact .inr ⟨x, .inl ⟨hx, h.symm⟩⟩
    · exact .inr ⟨x, .inr ⟨hx, h.symm⟩⟩

theorem pageTables_mono {l l' : List PageMapping} (h : ∀ x ∈ l, x ∈ l') : pageTables l ⊆ pageTables l' := by
  intro p
  simp only [mem_pageTables]
  rintro (hp | ⟨x, hx, hp⟩)
  · exact .inl hp
  · exact .inr ⟨x, h x hx, hp⟩

theorem missing_add_card (h : TablesOk m place) (hl : Live place sp) {l : List PageMapping} (x : PageMapping)
    (hplaced : ∀ p ∈ pageTables l, ∃ t, place t = some (sp.root, p)) :
    missingTables (tableCells m.mem) (tablePath x.va) sp.root + (pageTables l).card ≤
      (pageTables (l ++ [x])).card := by
  have hsub : pageTables l ⊆ pageTables (l ++ [x]) := pageTables_mono fun y hy => List.mem_append_left _ hy
  have hroot : [vpnIndex x.va 2] ∈ pageTables (l ++ [x]) := mem_pageTables.mpr (.inr ⟨x, by simp, .inl rfl⟩)
  have hpath : tablePath x.va ∈ pageTables (l ++ [x]) := mem_pageTables.mpr (.inr ⟨x, by simp, .inr rfl⟩)
  by_cases h2 : tablePath x.va ∈ pageTables l
  · rw [(h.forest.missing_eq_zero (q := tablePath x.va) hl).mpr (hplaced _ h2), Nat.zero_add]
    exact Finset.card_le_card hsub
  · have hcard := Finset.card_le_card (Finset.insert_subset hpath hsub)
    rw [Finset.card_insert_of_notMem h2] at hcard
    by_cases h1 : [vpnIndex x.va 2] ∈ pageTables l
    · -- the table of the gigabyte is there
      obtain ⟨s, hs⟩ := hplaced _ h1
      have hcell : tableCells m.mem sp.root (vpnIndex x.va 2) = .table s := by
        obtain ⟨t, ht, hts⟩ := h.forest.parent (p := []) hs
        rwa [h.forest.root ht] at hts
      have hmiss : missingTables (tableCells m.mem) (tablePath x.va) sp.root ≤ 1 := by
        rw [tablePath_eq, missingTables, hcell]
        show missingTables _ [vpnIndex x.va 1] s ≤ 1
        rw [missingTables]
        split
        · exact Nat.zero_le _
        · exact le_refl _
      omega
    · have hcard₂ := Finset.card_le_card (Finset.insert_subset hroot (Finset.insert_subset hpath hsub))
      rw [Finset.card_insert_of_notMem, Finset.card_insert_of_notMem h2] at hcard₂
      · have hmiss : missingTables (tableCells m.mem) (tablePath x.va) sp.root ≤ 2 := by
          rw [tablePath_eq, missingTables]
          split
          · rw [missingTables]
            split
            · exact Nat.zero_le _
            · exact Nat.le_succ _
          · exact le_refl _
        omega
      · rw [Finset.mem_insert, tablePath_eq]
        simpa using h1

/-! ### Mapping a list of pages -/

/-- The first mapping of the page of `va`. -/
def lookupPage (l : List PageMapping) (va : U64) : Option PageMapping := l.find? fun x => SamePage va x.va

/-- The pages `l` have been mapped in the space, whose machine was `m₀` before its root was taken. -/
structure PagesMapped (m₀ : Machine) (sp : VmSpace) (l : List PageMapping) (m : Machine) (place : TablePlaces) :
    Prop where
  ok : TablesOk m place
  live : Live place sp
  lookup : ∀ va, mapped m sp.root va = (lookupPage l va).map fun x => paToPte x.pa x.flags
  budget : m₀.pages.freePages ≤ m.pages.freePages + (pageTables l).card
  range : m.pages.range = m₀.pages.range

/-- The pages `l` can be mapped one after the other with `free` frames: they are apart, and each call is valid. -/
structure Mappable (free : Nat) (l : List PageMapping) : Prop where
  apart : l.Pairwise fun x y => ¬SamePage x.va y.va
  args : ∀ x ∈ l, MapArgs x.va x.pa x.flags
  frames : (pageTables l).card ≤ free

variable {m₀ : Machine} {free : Nat} {l r : List PageMapping} {x : PageMapping}

theorem lookupPage_congr {va' : U64} (l : List PageMapping) (h : SamePage va va') :
    lookupPage l va = lookupPage l va' := by
  unfold lookupPage
  congr 1
  funext x
  exact decide_eq_decide.mpr (Eq.congr_left h)

theorem lookupPage_snoc (l : List PageMapping) (x : PageMapping) (va : U64) :
    lookupPage (l ++ [x]) va = (lookupPage l va).or (if SamePage va x.va then some x else none) := by
  unfold lookupPage
  rw [List.find?_append, List.find?_cons, List.find?_nil]
  by_cases h : SamePage va x.va <;> simp [h]

theorem PagesMapped.tables (h : PagesMapped m₀ sp l m place) (hargs : ∀ x ∈ l, MapArgs x.va x.pa x.flags)
    {p : List Nat} (hp : p ∈ pageTables l) : ∃ t, place t = some (sp.root, p) := by
  obtain rfl | ⟨x, hx, hp⟩ := mem_pageTables.mp hp
  · exact ⟨sp.root, h.live⟩
  · -- a mapped page has all its tables
    have hsome : mapped m sp.root x.va ≠ none := by
      rw [h.lookup, ne_eq, Option.map_eq_none_iff]
      unfold lookupPage
      rw [List.find?_eq_none]
      exact fun hnone => hnone x hx (decide_eq_true rfl)
    unfold mapped at hsome
    rw [if_pos (hargs x hx).1] at hsome
    obtain ⟨v, hv⟩ := Option.ne_none_iff_exists'.mp hsome
    obtain ⟨s, hs, -⟩ := (h.ok.forest.get_iff h.live).mp hv
    obtain rfl | rfl := hp
    · rw [tablePath_eq] at hs
      exact h.ok.forest.ancestor (p := [vpnIndex x.va 2]) (q := [vpnIndex x.va 1]) hs
    · exact ⟨s, hs⟩

theorem Mappable.lookup_of_mem (h : Mappable free l) (hx : x ∈ l) (hsame : SamePage va x.va) :
    lookupPage l va = some x := by
  unfold lookupPage
  cases hfind : l.find? fun x => SamePage va x.va with
  | none => exact absurd (decide_eq_true hsame) (List.find?_eq_none.mp hfind x hx)
  | some y =>
    have hfound := List.find?_some hfind
    have hy : SamePage va y.va := of_decide_eq_true hfound
    by_contra hne
    have : Std.Symm fun x y : PageMapping => ¬SamePage x.va y.va := ⟨fun _ _ hxy hyx => hxy hyx.symm⟩
    exact h.apart.forall (List.mem_of_find?_eq_some hfind) hx
      (fun he => hne (congrArg some he)) (hy.symm.trans hsame)

theorem PagesMapped.step (h : PagesMapped m₀ sp l m place) (hm : Mappable m₀.pages.freePages (l ++ x :: r)) (panic : Panic) :
    ∃ m' place', mapPage sp panic x m = .ok m' ∧ PagesMapped m₀ sp (l ++ [x]) m' place' := by
  have hargs : ∀ y ∈ l, MapArgs y.va y.pa y.flags := fun y hy => hm.args y (List.mem_append_left _ hy)
  have hfresh : lookupPage l x.va = none := by
    unfold lookupPage
    rw [List.find?_eq_none]
    intro y hy hsame
    exact (List.pairwise_append.mp hm.apart).2.2 y hy x List.mem_cons_self (of_decide_eq_true hsame).symm
  have hcard := missing_add_card h.ok h.live x fun p hp => h.tables hargs hp
  have hframes : (pageTables (l ++ [x])).card ≤ m₀.pages.freePages :=
    (Finset.card_le_card (pageTables_mono fun y hy => by
      rw [List.mem_append, List.mem_singleton] at hy
      rw [List.mem_append, List.mem_cons]
      tauto)).trans hm.frames
  have hbudget := h.budget
  obtain ⟨result, m', hmap, hout⟩ := vmMapPage_spec x.va x.pa x.flags h.ok h.live
  cases hout with
  | invalid hinvalid => exact absurd (hm.args x (by simp)) hinvalid
  | mapped _ hmapped =>
    rw [h.lookup, hfresh] at hmapped
    exact absurd rfl hmapped
  | noMemory _ _ hfree => omega
  | @ok _ place' _ _ _ hgrown _ hlookup =>
    refine ⟨m', place', ?_, hgrown.ok, hgrown.grown h.live, fun va => ?_, ?_,
      hgrown.reallocated.range.trans h.range⟩
    · unfold mapPage
      rw [hmap, ok_bind]
      exact if_neg (not_not.mpr rfl)
    · rw [hlookup sp.root va h.live, lookupPage_snoc]
      by_cases hsame : SamePage va x.va
      · rw [if_pos ⟨rfl, hsame⟩, if_pos hsame, lookupPage_congr l hsame, hfresh]
        rfl
      · rw [if_neg fun h => hsame h.2, if_neg hsame, h.lookup, Option.or_none]
    · have := vmMapPage_free h.ok h.live hmap
      omega

theorem PagesMapped.run (h : PagesMapped m₀ sp l m place) (pages : List PageMapping)
    (hm : Mappable m₀.pages.freePages (l ++ (pages ++ r))) (panic : Panic) :
    ∃ m' place', pages.foldlM (fun m x => mapPage sp panic x m) m = .ok m' ∧
      PagesMapped m₀ sp (l ++ pages) m' place' := by
  induction pages generalizing l m place with
  | nil => exact ⟨m, place, rfl, by rwa [List.append_nil]⟩
  | cons x pages ih =>
    obtain ⟨m₁, place₁, hstep, h₁⟩ := h.step hm panic
    obtain ⟨m', place', hrun, h'⟩ := ih h₁ (by simpa using hm)
    refine ⟨m', place', ?_, by simpa using h'⟩
    rw [List.foldlM_cons, hstep, ok_bind]
    exact hrun

theorem PagesMapped.mapRange (h : PagesMapped m₀ sp l m place) {start stop : U64}
    (hm : Mappable m₀.pages.freePages (l ++ (rangePages start stop flags ++ r))) :
    ∃ m' place', mapRange sp start stop flags m = .ok m' ∧
      PagesMapped m₀ sp (l ++ rangePages start stop flags) m' place' :=
  h.run _ hm _

end QemuRtos
