import QemuRtos.Memory.PageSpec
import QemuRtos.Memory.Kept
import QemuRtos.Lib.Forest
import Mathlib.Tactic.Tauto

/-!
# Page tables as linked tables

The entries of page tables in memory are the cells of a forest. `TablesOk m place` is the invariant of the
tables in use: each is an allocated frame of its own. Writing an entry changes one cell, and the four calls
that walk the tables change what they find as `Forest` says.
-/

namespace QemuRtos

open Lib

variable {m m' : Machine} {mem mem' : Mem} {t n r va pa flags pte : U64} {i j level : Nat} {p : List Nat}

/-! ### Entries -/

theorem paToPte_toNat (hf : flags.toNat < 1024) : (paToPte pa flags).toNat = 1024 * (pa.toNat / 4096) + flags.toNat := by
  have hlt := pa.isLt
  unfold paToPte
  rw [BitVec.toNat_or, BitVec.toNat_shiftLeft, BitVec.toNat_ushiftRight, Nat.shiftLeft_eq, Nat.shiftRight_eq_div_pow,
    Nat.mod_eq_of_lt (by omega), Nat.mul_comm, ← Nat.two_pow_add_eq_or_of_lt (i := 10) hf]

theorem pteToPa_toNat (pte : U64) : (pteToPa pte).toNat = pte.toNat / 1024 * 4096 % 2 ^ 64 := by
  unfold pteToPa
  rw [BitVec.toNat_shiftLeft, BitVec.toNat_ushiftRight, Nat.shiftLeft_eq, Nat.shiftRight_eq_div_pow]

theorem pteToPa_paToPte (hpa : pa.toNat % pageSize = 0) (hf : flags.toNat < 1024) : pteToPa (paToPte pa flags) = pa := by
  apply BitVec.eq_of_toNat_eq
  have hlt := pa.isLt
  unfold pageSize at hpa
  rw [pteToPa_toNat, paToPte_toNat hf]
  omega

theorem paToPte_flags (hf : flags.toNat < 1024) : paToPte pa flags &&& sv39PteFlagMask = flags := by
  apply BitVec.eq_of_toNat_eq
  rw [show sv39PteFlagMask = BitVec.ofNat 64 (2 ^ 10 - 1) from rfl, toNat_and_mask _ (by decide), paToPte_toNat hf]
  omega

theorem pteIsValid_flags (pte : U64) : pteIsValid pte = pteIsValid (pte &&& sv39PteFlagMask) := by
  unfold pteIsValid
  rw [BitVec.and_assoc]
  rfl

theorem pteIsLeaf_flags (pte : U64) : pteIsLeaf pte = pteIsLeaf (pte &&& sv39PteFlagMask) := by
  unfold pteIsLeaf
  rw [BitVec.and_assoc]
  rfl

/-- What an entry is: invalid, a mapping, or a pointer to the next table. A pointer with other bits set than `V` is no
table's. -/
def cellOf (pte : U64) : Cell U64 U64 :=
  if !pteIsValid pte then .empty
  else if pteIsLeaf pte then .leaf pte
  else if pte = paToPte (pteToPa pte) vmPteV then .table (pteToPa pte)
  else .table 0

@[simp] theorem cellOf_zero : cellOf 0 = .empty := rfl

theorem cellOf_eq_empty : cellOf pte = .empty ↔ pteIsValid pte = false := by
  unfold cellOf
  cases pteIsValid pte <;> cases pteIsLeaf pte <;> simp
  split <;> simp

theorem cellOf_eq_table (hz : t ≠ 0) : cellOf pte = .table t ↔
    pteIsValid pte = true ∧ pteIsLeaf pte = false ∧ pteToPa pte = t ∧ pte = paToPte t vmPteV := by
  unfold cellOf
  cases pteIsValid pte <;> cases pteIsLeaf pte <;> simp
  split
  next he =>
    constructor
    · intro h
      obtain rfl := Cell.table.inj h
      exact ⟨rfl, he⟩
    · intro h
      rw [h.1]
  next hne =>
    refine iff_of_false (fun h => hz (Cell.table.inj h).symm) fun h => hne ?_
    rw [h.1]
    exact h.2

theorem cellOf_eq_leaf {v : U64} : cellOf pte = .leaf v ↔ pteIsValid pte = true ∧ pteIsLeaf pte = true ∧ pte = v := by
  unfold cellOf
  cases pteIsValid pte <;> cases pteIsLeaf pte <;> simp
  split <;> simp

theorem flagsAreValid_iff : flagsAreValid flags = true ↔ flags.toNat < 256 ∧ pteIsValid flags = true ∧
    flags &&& (vmPteR ||| vmPteX) ≠ 0 ∧ (flags &&& vmPteW ≠ 0 → flags &&& vmPteR ≠ 0) := by
  have hmask : flags &&& ~~~(vmPteV ||| vmPteR ||| vmPteW ||| vmPteX ||| vmPteU ||| vmPteG ||| vmPteA ||| vmPteD) = 0 ↔
      flags.toNat < 256 := by
    have h := toNat_and_not_mask flags (k := 8) (by decide)
    rw [show ~~~(vmPteV ||| vmPteR ||| vmPteW ||| vmPteX ||| vmPteU ||| vmPteG ||| vmPteA ||| vmPteD) =
      ~~~BitVec.ofNat 64 (2 ^ 8 - 1) from rfl]
    refine ⟨fun hz => ?_, fun hlt => BitVec.eq_of_toNat_eq (h.trans ?_)⟩
    · rw [hz] at h
      have hzero : (0 : U64).toNat = 0 := rfl
      omega
    · rw [Nat.div_eq_of_lt (b := 2 ^ 8) hlt]
      rfl
  unfold flagsAreValid pteIsValid
  dsimp only
  rw [← hmask]
  rw [decide_eq_true_eq]
  split_ifs <;> tauto

theorem cellOf_map (hf : flagsAreValid flags = true) : cellOf (paToPte pa flags) = .leaf (paToPte pa flags) := by
  obtain ⟨hlt, hv, hrx, -⟩ := flagsAreValid_iff.mp hf
  have hflags : paToPte pa flags &&& sv39PteFlagMask = flags := paToPte_flags (by omega)
  rw [cellOf_eq_leaf, pteIsValid_flags, pteIsLeaf_flags, hflags]
  refine ⟨hv, ?_, rfl⟩
  unfold pteIsLeaf
  rw [decide_eq_true_eq]
  intro hz
  apply hrx
  rw [show vmPteR ||| vmPteX = (vmPteR ||| vmPteW ||| vmPteX) &&& (vmPteR ||| vmPteX) from rfl, ← BitVec.and_assoc, hz]
  rfl

theorem cellOf_link (hn : n.toNat % pageSize = 0) : cellOf (paToPte n vmPteV) = .table n := by
  have hflags : paToPte n vmPteV &&& sv39PteFlagMask = vmPteV := paToPte_flags (by decide)
  have hpa : pteToPa (paToPte n vmPteV) = n := pteToPa_paToPte hn (by decide)
  rw [cellOf, pteIsValid_flags, pteIsLeaf_flags, hflags, hpa, if_pos rfl]
  rfl

/-! ### Cells in memory -/

/-- Address `x` is in the page of `t`. -/
def InPage (t : U64) (x : Nat) : Prop := t.toNat ≤ x ∧ x < t.toNat + pageSize

theorem InPage.unique {x : Nat} (ht : t.toNat % pageSize = 0) (hn : n.toNat % pageSize = 0) (hx : InPage t x)
    (hx' : InPage n x) : t = n := by
  obtain ⟨h1, h2⟩ := hx
  obtain ⟨h3, h4⟩ := hx'
  unfold pageSize at *
  apply BitVec.eq_of_toNat_eq
  omega

theorem pteAddr_toNat (ht : t.toNat % pageSize = 0) (hi : i < sv39EntriesPerTable) :
    (pteAddr t i).toNat = t.toNat + 8 * i := by
  have hlt := t.isLt
  unfold sv39EntriesPerTable at hi
  unfold pageSize at ht
  unfold pteAddr
  rw [BitVec.toNat_add, BitVec.toNat_ofNat, Nat.mod_eq_of_lt (a := 8 * i) (by omega), Nat.mod_eq_of_lt (by omega)]

theorem pteAddr_inPage (ht : t.toNat % pageSize = 0) (hi : i < sv39EntriesPerTable) {x : Nat}
    (h1 : (pteAddr t i).toNat ≤ x) (h2 : x < (pteAddr t i).toNat + 8) : InPage t x := by
  rw [pteAddr_toNat ht hi] at h1 h2
  unfold sv39EntriesPerTable at hi
  unfold InPage pageSize
  omega

/-- The cells of page tables. -/
def tableCells (mem : Mem) (t : U64) (i : Nat) : Cell U64 U64 :=
  if i < sv39EntriesPerTable then cellOf (tableEntry mem t i) else .empty

theorem tableCells_of_lt (hi : i < sv39EntriesPerTable) : tableCells mem t i = cellOf (tableEntry mem t i) := if_pos hi

theorem tableCells_congr (ht : t.toNat % pageSize = 0) (h : ∀ x, InPage t x → mem' x = mem x) :
    tableCells mem' t = tableCells mem t := by
  funext i
  unfold tableCells tableEntry
  split
  · rename_i hi
    rw [Mem.load64_congr fun x h1 h2 => h x (pteAddr_inPage ht hi h1 h2)]
  · rfl

theorem tableCells_store (ht : t.toNat % pageSize = 0) (hn : n.toNat % pageSize = 0) (hi : i < sv39EntriesPerTable)
    (v : U64) : tableCells (mem.store64 (pteAddr t i).toNat v) n j =
      if n = t ∧ j = i then cellOf v else tableCells mem n j := by
  have hat := pteAddr_toNat ht hi
  by_cases hj : j < sv39EntriesPerTable
  · rw [tableCells_of_lt hj, tableCells_of_lt hj]
    unfold tableEntry
    have han := pteAddr_toNat hn hj
    split
    · rename_i he
      obtain ⟨rfl, rfl⟩ := he
      rw [Mem.load64_store64]
    · rename_i hne
      rw [Mem.load64_store64_disjoint]
      rw [hat, han]
      unfold pageSize at ht hn
      unfold sv39EntriesPerTable at hi hj
      by_cases hnt : n = t
      · subst hnt
        have : j ≠ i := fun he => hne ⟨rfl, he⟩
        omega
      · have : n.toNat ≠ t.toNat := fun he => hnt (BitVec.eq_of_toNat_eq he)
        omega
  · have hji : ¬(n = t ∧ j = i) := by
      rintro ⟨-, rfl⟩
      exact hj hi
    rw [if_neg hji]
    unfold tableCells
    rw [if_neg hj, if_neg hj]

theorem tableCells_zero (hn : n.toNat % pageSize = 0) (j : Nat) : tableCells (memoryZero n pageSize mem) n j = .empty := by
  unfold tableCells tableEntry
  split
  · rename_i hj
    rw [Mem.load64_zero fun x h1 h2 => ?_]
    · rfl
    · obtain ⟨h3, h4⟩ := pteAddr_inPage hn hj h1 h2
      exact Mem.fill_of_mem _ _ h3 h4
  · rfl

theorem memoryZero_of_not_inPage {x : Nat} (h : ¬InPage n x) : memoryZero n pageSize mem x = mem x := by
  refine Mem.fill_of_disjoint _ _ ?_
  unfold InPage at h
  omega

theorem store_of_not_inPage {x : Nat} {v : U64} (ht : t.toNat % pageSize = 0) (hi : i < sv39EntriesPerTable)
    (h : ¬InPage t x) : mem.store64 (pteAddr t i).toNat v x = mem x := by
  refine Mem.store64_of_disjoint _ _ ?_
  have hat := pteAddr_toNat ht hi
  rw [hat]
  unfold InPage at h
  unfold pageSize at h
  unfold sv39EntriesPerTable at hi
  omega

theorem vpnIndex_lt (va : U64) (level : Nat) : vpnIndex va level < sv39EntriesPerTable := by
  unfold vpnIndex
  rw [show (511 : U64) = BitVec.ofNat 64 (2 ^ 9 - 1) from rfl, toNat_and_mask _ (by decide)]
  exact Nat.mod_lt _ (by decide)

/-! ### The invariant -/

/-- Which table hangs where, by its address. -/
abbrev TablePlaces := U64 → Option (U64 × List Nat)

/-- The tables in use are linked as `place` says, and each is an allocated frame. -/
structure TablesOk (m : Machine) (place : TablePlaces) : Prop where
  pages : PagesOk m.pages
  forest : Forest (sv39Levels - 1) (tableCells m.mem) place
  allocated : ∀ {t x}, place t = some x → m.pages.Allocated t

variable {place place' : TablePlaces}

theorem TablesOk.aligned (h : TablesOk m place) {x : U64 × List Nat} (ht : place t = some x) :
    t.toNat % pageSize = 0 :=
  (h.allocated ht).1.aligned

theorem TablesOk.ne_zero (h : TablesOk m place) {x : U64 × List Nat} (ht : place t = some x) : t ≠ 0 :=
  PageAllocator.Managed.ne_zero h.pages (h.allocated ht).1

/-- Neither free nor a table: memory that the calls on page tables leave alone. -/
def Untouched (m : Machine) (place : TablePlaces) (x : Nat) : Prop :=
  ∀ t, m.pages.Managed t → InPage t x → m.pages.Allocated t ∧ place t = none

theorem pteAddr_ne_zero (ht : t.toNat % pageSize = 0) (hz : t ≠ 0) (hi : i < sv39EntriesPerTable) : pteAddr t i ≠ 0 := by
  intro h
  have := congrArg BitVec.toNat h
  rw [pteAddr_toNat ht hi] at this
  apply hz
  apply BitVec.eq_of_toNat_eq
  have hzero : (0 : U64).toNat = 0 := rfl
  omega

/-! ### Walks that allocate nothing -/

/-- The indices of the upper levels, from `level` down. -/
def vpnPath (va : U64) : Nat → List Nat
  | 0 => []
  | level + 1 => vpnIndex va (level + 1) :: vpnPath va level

theorem vpnPath_length (va : U64) (level : Nat) : (vpnPath va level).length = level := by
  induction level with
  | zero => rfl
  | succ level ih => rw [vpnPath, List.length_cons, ih]

/-- The result of a walk: the entry of `va` in the table that the path leads to, or null. -/
def walkResult (va : U64) : Option U64 → U64
  | some s => pteAddr s (vpnIndex va 0)
  | none => 0

theorem vmWalkFrom_find (h : TablesOk m place) {x : U64 × List Nat} (ht : place t = some x)
    (hlevel : x.2.length + level = sv39Levels - 1) (allocated : List (U64 × U64)) :
    vmWalkFrom va false level t allocated m = .ok (walkResult va (findTable (tableCells m.mem) (vpnPath va level) t), m) := by
  induction level generalizing t x with
  | zero => rfl
  | succ level ih =>
    have hi := vpnIndex_lt va (level + 1)
    have hentry : m.mem.load64 (pteAddr t (vpnIndex va (level + 1))).toNat = tableEntry m.mem t (vpnIndex va (level + 1)) := rfl
    rw [vmWalkFrom, vpnPath, findTable, tableCells_of_lt hi]
    dsimp only
    rw [hentry]
    cases hc : cellOf (tableEntry m.mem t (vpnIndex va (level + 1))) with
    | empty =>
      rw [cellOf_eq_empty] at hc
      rw [hc]
      rfl
    | leaf v =>
      -- leaves are in tables of the last level only
      have := h.forest.leaf_depth ht ((tableCells_of_lt hi).trans hc)
      omega
    | table s =>
      have hs := h.forest.child ht ((tableCells_of_lt hi).trans hc)
      obtain ⟨hv, hl, hpa, -⟩ := (cellOf_eq_table (h.ne_zero hs)).mp hc
      rw [hv, hl, hpa, if_pos rfl, if_neg Bool.false_ne_true]
      refine ih hs ?_
      rw [List.length_append, List.length_singleton]
      omega

/-! ### Walks that build tables -/

/-- The tables that a walk has installed, the last one first: each is empty once the later ones are
unlinked. -/
def Pending (c : U64 → Nat → Cell U64 U64) (place : TablePlaces) : List (U64 × U64) → Prop
  | [] => True
  | (pte, n) :: rest => ∃ t r p i, i < sv39EntriesPerTable ∧ pte = pteAddr t i ∧ place t = some (r, p) ∧
      place n = some (r, p ++ [i]) ∧ (∀ j, c n j = .empty) ∧
      Pending (Function.update c t (Function.update (c t) i .empty)) (Function.update place n none) rest

/-- The places without the tables of the list. -/
def unplace (place : TablePlaces) : List (U64 × U64) → TablePlaces
  | [] => place
  | (_, n) :: rest => unplace (Function.update place n none) rest

theorem Pending.congr {c c' : U64 → Nat → Cell U64 U64} {l : List (U64 × U64)} (h : Pending c place l)
    (hc : ∀ s, place s ≠ none → c' s = c s) : Pending c' place l := by
  induction l generalizing c c' place with
  | nil => trivial
  | cons e rest ih =>
    obtain ⟨pte, n⟩ := e
    obtain ⟨t, r, p, i, hi, hpte, ht, hn, hnone, hrest⟩ := h
    have ht' : c' t = c t := hc t (by rw [ht]; exact nofun)
    refine ⟨t, r, p, i, hi, hpte, ht, hn, ?_, ih hrest fun s hs => ?_⟩
    · rw [hc n (by rw [hn]; exact nofun)]
      exact hnone
    · by_cases hst : s = t
      · subst hst
        rw [Function.update_self, Function.update_self, ht']
      · rw [Function.update_of_ne hst, Function.update_of_ne hst]
        apply hc
        by_cases hsn : s = n
        · subst hsn
          rw [Function.update_self] at hs
          exact absurd rfl hs
        · rwa [Function.update_of_ne hsn] at hs

/-- What the calls on page tables may change besides the tables: free frames. -/
structure Reallocated (m : Machine) (place : TablePlaces) (m' : Machine) : Prop where
  eq : m' = { m with mem := m'.mem, pages := m'.pages }
  range : m'.pages.range = m.pages.range
  untouched : ∀ x, Untouched m place x → m'.mem x = m.mem x

theorem TablesOk.unlink (h : TablesOk m place) (hi : i < sv39EntriesPerTable) (ht : place t = some (r, p))
    (hn : place n = some (r, p ++ [i])) (hnone : ∀ j, tableCells m.mem n j = .empty) :
    ∃ m', pageFree n { m with mem := m.mem.store64 (pteAddr t i).toNat 0 } = .ok m' ∧
      TablesOk m' (Function.update place n none) ∧ Reallocated m place m' ∧
      m'.mem = m.mem.store64 (pteAddr t i).toNat 0 ∧
      (∀ a, m'.pages.Allocated a ↔ m.pages.Allocated a ∧ a ≠ n) ∧ m'.pages.freePages = m.pages.freePages + 1 ∧
      ∀ r' q j, place r' = some (r', []) → getLeaf (tableCells m'.mem) q j r' = getLeaf (tableCells m.mem) q j r' := by
  have hta := h.aligned ht
  let mem' := m.mem.store64 (pteAddr t i).toNat 0
  obtain ⟨p', hfree, hp', hg⟩ := pageFree_spec (m := { m with mem := mem' }) h.pages (h.allocated hn)
  have hcells : ∀ s, place s ≠ none → ∀ j, tableCells mem' s j = if s = t ∧ j = i then .empty else tableCells m.mem s j := by
    intro s hs j
    obtain ⟨x, hx⟩ := Option.ne_none_iff_exists'.mp hs
    exact tableCells_store hta (h.aligned hx) hi 0
  have hcut : tableCells mem' t i = .empty := by rw [hcells t (by rw [ht]; exact nofun), if_pos ⟨rfl, rfl⟩]
  have hc : ∀ s, place s ≠ none → s ≠ n → ∀ j, (s = t → j ≠ i) → tableCells mem' s j = tableCells m.mem s j := by
    intro s hs _ j hne
    rw [hcells s hs, if_neg fun ⟨h1, h2⟩ => hne h1 h2]
  have hforest := h.forest.removeTable hn ht hnone hcut hc
  have hold : (tableCells m.mem t i).leaf? = none := by
    obtain ⟨s, hs, hlink⟩ := h.forest.parent hn
    rw [h.forest.unique ht hs, hlink]
    rfl
  refine ⟨_, hfree, ⟨hp', hforest, fun {s x} hs => ?_⟩, ⟨rfl, hg.range, fun x hx => ?_⟩, rfl, hg.allocated, hg.free, ?_⟩
  · by_cases hsn : s = n
    · subst hsn
      rw [Function.update_self] at hs
      cases hs
    · rw [Function.update_of_ne hsn] at hs
      exact (hg.allocated s).mpr ⟨h.allocated hs, hsn⟩
  · refine store_of_not_inPage hta hi fun hin => ?_
    have := (hx t (h.allocated ht).1 hin).2
    rw [ht] at this
    cases this
  · intro r' q j hr'
    exact h.forest.removeTable_get hforest hn hnone hold hcut hc hr'

theorem Reallocated.trans {m₁ m₂ : Machine} (h : Reallocated m place m₁) (h' : Reallocated m₁ place' m₂)
    (hsub : ∀ t, m.pages.Allocated t → place t = none → m₁.pages.Allocated t ∧ place' t = none) :
    Reallocated m place m₂ where
  eq := by rw [h'.eq, h.eq]
  range := h'.range.trans h.range
  untouched x hx := by
    rw [h'.untouched x fun t ht hin => ?_, h.untouched x hx]
    obtain ⟨ha, hp⟩ := hx t ((PageAllocator.Managed.congr h.range).mp ht) hin
    exact hsub t ha hp

/-- After `m` became `m'`, the tables find the same in the same frames. -/
structure Restored (m : Machine) (place : TablePlaces) (m' : Machine) : Prop where
  ok : TablesOk m' place
  reallocated : Reallocated m place m'
  allocated : ∀ a, m'.pages.Allocated a ↔ m.pages.Allocated a
  free : m'.pages.freePages = m.pages.freePages
  gets : ∀ {r q j}, place r = some (r, []) → getLeaf (tableCells m'.mem) q j r = getLeaf (tableCells m.mem) q j r

/-- The tables that a walk has installed are unlinked and freed, each once. -/
theorem rollbackAllocatedTables_spec {l : List (U64 × U64)} (h : TablesOk m place)
    (hl : Pending (tableCells m.mem) place l) :
    ∃ m', rollbackAllocatedTables l m = .ok m' ∧ TablesOk m' (unplace place l) ∧ Reallocated m place m' ∧
      (∀ a, m'.pages.Allocated a ↔ m.pages.Allocated a ∧ a ∉ l.map Prod.snd) ∧
      m'.pages.freePages = m.pages.freePages + l.length ∧
      ∀ {r q j}, place r = some (r, []) → getLeaf (tableCells m'.mem) q j r = getLeaf (tableCells m.mem) q j r := by
  induction l generalizing m place with
  | nil => exact ⟨m, rfl, h, ⟨rfl, rfl, fun _ _ => rfl⟩, fun a => by simp, rfl, fun _ => rfl⟩
  | cons e rest ih =>
    obtain ⟨pte, n⟩ := e
    obtain ⟨t, r, p, i, hi, rfl, ht, hn, hnone, hrest⟩ := hl
    obtain ⟨m₁, hfree, hok₁, hre₁, hmem, halloc₁, hcount₁, hgets₁⟩ := h.unlink hi ht hn hnone
    have hrest' : Pending (tableCells m₁.mem) (Function.update place n none) rest := by
      refine hrest.congr fun s hs => ?_
      have hsn : s ≠ n := by
        rintro rfl
        rw [Function.update_self] at hs
        exact hs rfl
      rw [Function.update_of_ne hsn] at hs
      obtain ⟨x, hx⟩ := Option.ne_none_iff_exists'.mp hs
      funext j
      rw [hmem, tableCells_store (h.aligned ht) (h.aligned hx) hi]
      by_cases hst : s = t
      · subst hst
        rw [Function.update_self]
        by_cases hji : j = i
        · subst hji
          rw [if_pos ⟨rfl, rfl⟩, Function.update_self, cellOf_zero]
        · rw [if_neg fun hh => hji hh.2, Function.update_of_ne hji]
      · rw [if_neg fun hh => hst hh.1, Function.update_of_ne hst]
    obtain ⟨m', hroll, hok', hre', halloc', hcount', hgets'⟩ := ih hok₁ hrest'
    refine ⟨m', ?_, hok', hre₁.trans hre' fun s ha hs => ?_, fun a => ?_, ?_, fun {r' q j} hr' => ?_⟩
    · rw [rollbackAllocatedTables, hfree]
      exact hroll
    · have hsn : s ≠ n := by
        rintro rfl
        rw [hn] at hs
        cases hs
      exact ⟨(halloc₁ s).mpr ⟨ha, hsn⟩, by rwa [Function.update_of_ne hsn]⟩
    · rw [halloc', halloc₁, List.map_cons, List.mem_cons, not_or, and_assoc]
    · rw [hcount', hcount₁, List.length_cons]
      omega
    · have hr'n : r' ≠ n := by
        rintro rfl
        rw [hn] at hr'
        simp at hr'
      rw [hgets' (by rwa [Function.update_of_ne hr'n]), hgets₁ _ _ _ hr']

theorem TablesOk.link {p' : PageAllocator} (h : TablesOk m place) (hi : i < sv39EntriesPerTable)
    (ht : place t = some (r, p)) (hp : p.length < sv39Levels - 1) (hempty : tableCells m.mem t i = .empty)
    (hp' : PagesOk p') (hn : PageTaken n m.pages p') :
    let m' : Machine := { m with
      pages := p'
      mem := (memoryZero n pageSize m.mem).store64 (pteAddr t i).toNat (paToPte n vmPteV) }
    TablesOk m' (Function.update place n (some (r, p ++ [i]))) ∧ place n = none ∧ Reallocated m place m' ∧
      (∀ j, tableCells m'.mem n j = .empty) ∧
      (∀ s, place s ≠ none → ∀ j, tableCells m'.mem s j = if s = t ∧ j = i then .table n else tableCells m.mem s j) ∧
      ∀ {r' q j}, place r' = some (r', []) → getLeaf (tableCells m'.mem) q j r' = getLeaf (tableCells m.mem) q j r' := by
  intro m'
  have hta := h.aligned ht
  have hna := hn.managed.aligned
  have hnone : place n = none := by
    by_contra hne
    obtain ⟨x, hx⟩ := Option.ne_none_iff_exists'.mp hne
    exact hn.fresh (h.allocated hx)
  have htn : t ≠ n := by
    rintro rfl
    rw [hnone] at ht
    cases ht
  have hnew : ∀ j, tableCells m'.mem n j = .empty := by
    intro j
    show tableCells ((memoryZero n pageSize m.mem).store64 _ _) n j = _
    rw [tableCells_store hta hna hi, if_neg fun hh => htn hh.1.symm, tableCells_zero hna]
  have hcells : ∀ s, place s ≠ none → ∀ j, tableCells m'.mem s j = if s = t ∧ j = i then .table n else tableCells m.mem s j := by
    intro s hs j
    obtain ⟨x, hx⟩ := Option.ne_none_iff_exists'.mp hs
    have hsa := h.aligned hx
    show tableCells ((memoryZero n pageSize m.mem).store64 _ _) s j = _
    have hzero : tableCells (memoryZero n pageSize m.mem) s = tableCells m.mem s := by
      refine tableCells_congr hsa fun a ha => memoryZero_of_not_inPage fun hin => ?_
      obtain rfl := ha.unique hsa hna hin
      exact hs hnone
    rw [tableCells_store hta hsa hi, cellOf_link hna, hzero]
  have hc : ∀ s, place s ≠ none → ∀ j, (s = t → j ≠ i) → tableCells m'.mem s j = tableCells m.mem s j := by
    intro s hs j hne
    rw [hcells s hs, if_neg fun ⟨h1, h2⟩ => hne h1 h2]
  have hlink : tableCells m'.mem t i = .table n := by rw [hcells t (by rw [ht]; exact nofun), if_pos ⟨rfl, rfl⟩]
  have hforest := h.forest.addTable ht hp hempty hnone hlink hnew hc
  refine ⟨⟨hp', hforest, fun {s x} hs => ?_⟩, hnone, ⟨rfl, hn.range, fun x hx => ?_⟩, hnew, hcells, fun {r' q j} hr' => ?_⟩
  · rw [hn.allocated]
    by_cases hsn : s = n
    · exact .inr hsn
    · rw [Function.update_of_ne hsn] at hs
      exact .inl (h.allocated hs)
  · show (memoryZero n pageSize m.mem).store64 _ _ x = _
    rw [store_of_not_inPage hta hi fun hin => ?_, memoryZero_of_not_inPage fun hin => ?_]
    · exact hn.fresh (hx n hn.managed hin).1
    · have := (hx t (h.allocated ht).1 hin).2
      rw [ht] at this
      cases this
  · exact h.forest.addTable_get hforest hempty hnone hlink hnew hc hr'

/-- A walk that started from `m₀` has installed the tables of `l`. -/
structure Walked (m₀ : Machine) (place₀ : TablePlaces) (l : List (U64 × U64)) (m : Machine) (place : TablePlaces) :
    Prop where
  ok : TablesOk m place
  pending : Pending (tableCells m.mem) place l
  back : unplace place l = place₀
  allocated : ∀ a, m.pages.Allocated a ↔ m₀.pages.Allocated a ∨ a ∈ l.map Prod.snd
  fresh : ∀ a ∈ l.map Prod.snd, ¬m₀.pages.Allocated a
  free : m.pages.freePages + l.length = m₀.pages.freePages
  grown : ∀ {t x}, place₀ t = some x → place t = some x
  placed : ∀ t, t ∈ l.map Prod.snd ↔ place₀ t = none ∧ place t ≠ none
  reallocated : Reallocated m₀ place₀ m
  gets : ∀ {r q j}, place₀ r = some (r, []) → getLeaf (tableCells m.mem) q j r = getLeaf (tableCells m₀.mem) q j r

theorem Walked.refl (h : TablesOk m place) : Walked m place [] m place where
  ok := h
  pending := trivial
  back := rfl
  allocated a := by simp
  fresh := nofun
  free := rfl
  grown := id
  placed t := iff_of_false List.not_mem_nil fun ⟨h₀, h₁⟩ => h₁ h₀
  reallocated := ⟨rfl, rfl, fun _ _ => rfl⟩
  gets _ := rfl

variable {m₀ : Machine} {place₀ : TablePlaces} {l : List (U64 × U64)}

/-- When memory runs out, the walk leaves everything as it was. -/
theorem Walked.rollback (h : Walked m₀ place₀ l m place) :
    ∃ m', rollbackAllocatedTables l m = .ok m' ∧ Restored m₀ place₀ m' := by
  obtain ⟨m', hroll, hok, hre, halloc, hcount, hgets⟩ := rollbackAllocatedTables_spec h.ok h.pending
  rw [h.back] at hok
  refine ⟨m', hroll, hok, h.reallocated.trans hre fun t ha ht => ?_, fun a => ?_, ?_, fun {r q j} hr => ?_⟩
  · refine ⟨(h.allocated t).mpr (.inl ha), ?_⟩
    by_contra hne
    exact h.fresh t ((h.placed t).mpr ⟨ht, hne⟩) ha
  · rw [halloc, h.allocated]
    constructor
    · rintro ⟨ha | hm, hnm⟩
      · exact ha
      · exact absurd hm hnm
    · intro ha
      exact ⟨.inl ha, fun hm => h.fresh a hm ha⟩
  · rw [hcount, h.free]
  · rw [hgets (h.grown hr), h.gets hr]

theorem Walked.install {p' : PageAllocator} (h : Walked m₀ place₀ l m place) (hi : i < sv39EntriesPerTable)
    (ht : place t = some (r, p)) (hp : p.length < sv39Levels - 1) (hempty : tableCells m.mem t i = .empty)
    (hp' : PagesOk p') (hn : PageTaken n m.pages p') :
    let m' : Machine := { m with
      pages := p'
      mem := (memoryZero n pageSize m.mem).store64 (pteAddr t i).toNat (paToPte n vmPteV) }
    Walked m₀ place₀ ((pteAddr t i, n) :: l) m' (Function.update place n (some (r, p ++ [i]))) ∧
      ∀ j, tableCells m'.mem n j = .empty := by
  intro m'
  obtain ⟨hok, hnone, hre, hnew, hcells, hgets⟩ := h.ok.link hi ht hp hempty hp' hn
  have hfresh : ¬m₀.pages.Allocated n := fun ha => hn.fresh ((h.allocated n).mpr (.inl ha))
  have htn : t ≠ n := by
    rintro rfl
    rw [hnone] at ht
    cases ht
  have hback : Function.update (Function.update place n (some (r, p ++ [i]))) n none = place := by
    rw [Function.update_idem, ← hnone, Function.update_eq_self]
  refine ⟨⟨hok, ⟨t, r, p, i, hi, rfl, by rw [Function.update_of_ne htn]; exact ht, Function.update_self .., hnew, ?_⟩, ?_,
    fun a => ?_, fun a ha => ?_, ?_, fun {s x} hs => ?_, fun s => ?_,
    h.reallocated.trans hre fun s ha hs => ?_, fun {r' q j} hr' => ?_⟩, hnew⟩
  · rw [hback]
    refine h.pending.congr fun s hs => ?_
    funext j
    by_cases hst : s = t
    · subst hst
      rw [Function.update_self]
      by_cases hji : j = i
      · subst hji
        rw [Function.update_self, hempty]
      · rw [Function.update_of_ne hji, hcells s hs, if_neg fun hh => hji hh.2]
    · rw [Function.update_of_ne hst, hcells s hs, if_neg fun hh => hst hh.1]
  · rw [unplace, hback]
    exact h.back
  · rw [show m'.pages = p' from rfl, hn.allocated, h.allocated, List.map_cons, List.mem_cons, or_assoc, or_comm (a := a = n)]
  · rw [List.map_cons, List.mem_cons] at ha
    rcases ha with rfl | ha
    · exact hfresh
    · exact h.fresh a ha
  · have := h.free
    have := hn.free
    show p'.freePages + (l.length + 1) = _
    omega
  · have hs' := h.grown hs
    rw [Function.update_of_ne]
    · exact hs'
    · rintro rfl
      rw [hnone] at hs'
      cases hs'
  · rw [List.map_cons, List.mem_cons]
    by_cases hsn : s = n
    · subst hsn
      refine iff_of_true (.inl rfl) ⟨?_, by rw [Function.update_self]; exact nofun⟩
      by_contra hne
      obtain ⟨x, hx⟩ := Option.ne_none_iff_exists'.mp hne
      rw [h.grown hx] at hnone
      cases hnone
    · rw [Function.update_of_ne hsn, ← h.placed]
      exact or_iff_right hsn
  · refine ⟨(h.allocated s).mpr (.inl ha), ?_⟩
    by_contra hne
    exact h.fresh s ((h.placed s).mpr ⟨hs, hne⟩) ha
  · rw [hgets (h.grown hr'), h.gets hr']

theorem Walked.new_none {p' : PageAllocator} (h : Walked m₀ place₀ l m place) (hn : PageTaken n m.pages p') :
    place n = none := by
  by_contra hne
  obtain ⟨x, hx⟩ := Option.ne_none_iff_exists'.mp hne
  exact hn.fresh (h.ok.allocated hx)

/-- The tables of the space `r` may have become more. -/
def Extends (r : U64) (place place' : TablePlaces) : Prop :=
  ∀ s, place' s = place s ∨ place s = none ∧ ∃ p, place' s = some (r, p)

theorem Extends.trans {place'' : TablePlaces} (h : Extends r place place') (h' : Extends r place' place'') :
    Extends r place place'' := by
  intro s
  rcases h s with hs | ⟨hs, p, hp⟩
  · rw [← hs]
    exact h' s
  · rcases h' s with hs' | ⟨hs', -⟩
    · exact .inr ⟨hs, p, hs'.trans hp⟩
    · rw [hp] at hs'
      cases hs'

theorem Extends.update {n : U64} (hn : place n = none) (p : List Nat) :
    Extends r place (Function.update place n (some (r, p))) := by
  intro s
  by_cases hs : s = n
  · subst hs
    exact .inr ⟨hn, p, Function.update_self ..⟩
  · exact .inl (Function.update_of_ne hs ..)

/-- A walk that builds tables reaches the table of `va`, or there are fewer free frames than tables missing and
nothing has changed. -/
theorem vmWalkFrom_alloc (va : U64) (level : Nat) (h : Walked m₀ place₀ l m place) (ht : place t = some (r, p))
    (hlevel : p.length + level = sv39Levels - 1) :
    ∃ a m', vmWalkFrom va true level t l m = .ok (a, m') ∧
      (m.pages.freePages < missingTables (tableCells m.mem) (vpnPath va level) t ∧ a = 0 ∧ Restored m₀ place₀ m' ∨
        missingTables (tableCells m.mem) (vpnPath va level) t ≤ m.pages.freePages ∧ ∃ place' s l',
          Walked m₀ place₀ l' m' place' ∧ Extends r place place' ∧ place' s = some (r, p ++ vpnPath va level) ∧
          a = pteAddr s (vpnIndex va 0) ∧
          l'.length = l.length + missingTables (tableCells m.mem) (vpnPath va level) t) := by
  induction level generalizing t p l m place with
  | zero =>
    refine ⟨_, m, rfl, .inr ⟨Nat.zero_le _, place, t, l, h, fun s => .inl rfl, ?_, rfl, rfl⟩⟩
    rw [vpnPath, List.append_nil]
    exact ht
  | succ level ih =>
    have hi := vpnIndex_lt va (level + 1)
    have hentry : m.mem.load64 (pteAddr t (vpnIndex va (level + 1))).toNat = tableEntry m.mem t (vpnIndex va (level + 1)) := rfl
    have hpath : p ++ vpnPath va (level + 1) = p ++ [vpnIndex va (level + 1)] ++ vpnPath va level := by
      rw [vpnPath, List.append_assoc]
      rfl
    rw [vmWalkFrom, hpath]
    dsimp only
    rw [hentry]
    cases hc : cellOf (tableEntry m.mem t (vpnIndex va (level + 1))) with
    | leaf v =>
      have := h.ok.forest.leaf_depth ht ((tableCells_of_lt hi).trans hc)
      omega
    | table s =>
      have hcell := (tableCells_of_lt hi).trans hc
      have hmissing : missingTables (tableCells m.mem) (vpnPath va (level + 1)) t =
          missingTables (tableCells m.mem) (vpnPath va level) s := by
        rw [vpnPath, missingTables, hcell]
        rfl
      have hs := h.ok.forest.child ht hcell
      obtain ⟨hv, hl, hpa, -⟩ := (cellOf_eq_table (h.ok.ne_zero hs)).mp hc
      rw [hv, hl, hpa, if_pos rfl, if_neg Bool.false_ne_true, hmissing]
      refine ih h hs ?_
      rw [List.length_append, List.length_singleton]
      omega
    | empty =>
      have hcell := (tableCells_of_lt hi).trans hc
      have hmissing : missingTables (tableCells m.mem) (vpnPath va (level + 1)) t = level + 1 := by
        rw [vpnPath, missingTables, hcell]
        exact congrArg (· + 1) (vpnPath_length va level)
      rw [cellOf_eq_empty] at hc
      rw [hc, hmissing, if_neg Bool.false_ne_true, if_neg (by decide)]
      obtain ⟨n, p', halloc, hp', hcase⟩ := pageAlloc_spec h.ok.pages
      rw [halloc, ok_bind]
      rcases hcase with ⟨rfl, rfl, hzero⟩ | ⟨hne, htaken⟩
      · obtain ⟨m', hroll, hres⟩ := h.rollback
        refine ⟨0, m', ?_, .inl ⟨by omega, rfl, hres⟩⟩
        rw [if_pos rfl]
        show (rollbackAllocatedTables l m >>= _) = _
        rw [hroll]
        rfl
      · rw [if_neg hne]
        obtain ⟨hw, hnew⟩ := h.install hi ht (by omega) hcell hp' htaken
        obtain ⟨a, m', hwalk, hcase⟩ := ih hw (Function.update_self ..) (by
          rw [List.length_append, List.length_singleton]
          omega)
        have hmissing' := Forest.missing_of_empty (q := vpnPath va level) hnew
        rw [vpnPath_length] at hmissing'
        have hfree := htaken.free
        rw [hmissing'] at hcase
        refine ⟨a, m', hwalk, ?_⟩
        rcases hcase with ⟨hlt, hzero, hres⟩ | ⟨hle, place', s, l', hw', hext, hs, hpte, hlen⟩
        · refine .inl ⟨?_, hzero, hres⟩
          have : p'.freePages < level := hlt
          omega
        · have : level ≤ p'.freePages := hle
          refine .inr ⟨by omega, place', s, l', hw', (Extends.update (h.new_none htaken) _).trans hext, hs, hpte, ?_⟩
          rw [hlen, List.length_cons]
          omega

end QemuRtos
