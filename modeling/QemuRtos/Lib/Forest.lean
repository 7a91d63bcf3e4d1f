import Mathlib.Data.List.Induction
import Mathlib.Data.List.Nodup
import Mathlib.Logic.Function.Basic
import Mathlib.Tactic.Common

/-!
# Forests of linked tables

Tables whose cells are empty, hold a leaf or point to another table, such as the page tables of several
address spaces in one memory. A placement says of each table in use which root it hangs under and by which
path; because it is a function, no table is shared. `Forest depth c place` says that the cells `c` link the
tables as `place` says, with leaves at one depth. `get` follows a path to a leaf: each update changes what
it finds at one path only.
-/

namespace Lib

inductive Cell (T L : Type*)
  | empty
  | leaf (value : L)
  | table (t : T)

namespace Cell

variable {T L : Type*}

def table? : Cell T L → Option T
  | table t => some t
  | _ => none

def leaf? : Cell T L → Option L
  | leaf value => some value
  | _ => none

theorem leaf?_eq_some {x : Cell T L} {v : L} : x.leaf? = some v ↔ x = leaf v := by
  cases x <;> simp [leaf?]

end Cell

variable {T I L : Type*}

/-- The table that the path `p` leads to from table `t`. -/
def findTable (c : T → I → Cell T L) : List I → T → Option T
  | [], t => some t
  | i :: p, t => (c t i).table?.bind (findTable c p)

/-- The leaf in cell `i` of the table that `p` leads to. -/
def getLeaf (c : T → I → Cell T L) (p : List I) (i : I) (t : T) : Option L :=
  (findTable c p t).bind fun s => (c s i).leaf?

/-- How many tables are missing on the path `p` from table `t`. -/
def missingTables (c : T → I → Cell T L) : List I → T → Nat
  | [], _ => 0
  | i :: p, t => match (c t i).table? with
    | some s => missingTables c p s
    | none => p.length + 1

/-- A table and those below it, for cells at the indices `is`. -/
def listTables (c : T → I → Cell T L) (is : List I) : Nat → T → List T
  | 0, t => [t]
  | n + 1, t => t :: is.flatMap fun i => ((c t i).table?.map (listTables c is n)).getD []

/-- The cells `c` link the tables as `place` says. -/
structure Forest (depth : Nat) (c : T → I → Cell T L) (place : T → Option (T × List I)) : Prop where
  root : ∀ {t r}, place t = some (r, []) → t = r
  parent : ∀ {t r p i}, place t = some (r, p ++ [i]) → ∃ s, place s = some (r, p) ∧ c s i = .table t
  child : ∀ {s r p i t}, place s = some (r, p) → c s i = .table t → place t = some (r, p ++ [i])
  depth_le : ∀ {t r p}, place t = some (r, p) → p.length ≤ depth
  leaf_depth : ∀ {t r p i v}, place t = some (r, p) → c t i = .leaf v → p.length = depth

namespace Forest

variable {depth : Nat} {c c' : T → I → Cell T L} {place : T → Option (T × List I)} {t s r n : T} {p q : List I}
  {i j : I} {v : L}

theorem table_depth (h : Forest depth c place) (hs : place s = some (r, p)) (hc : c s i = .table t) :
    p.length < depth := by
  have := h.depth_le (h.child hs hc)
  rw [List.length_append, List.length_singleton] at this
  omega

theorem unique (h : Forest depth c place) (ht : place t = some (r, p)) (hs : place s = some (r, p)) : t = s := by
  induction p using List.reverseRecOn generalizing t s with
  | nil => exact (h.root ht).trans (h.root hs).symm
  | append_singleton p i ih =>
    obtain ⟨t', ht', hct⟩ := h.parent ht
    obtain ⟨s', hs', hcs⟩ := h.parent hs
    rw [ih ht' hs', hcs] at hct
    exact (Cell.table.inj hct).symm

theorem ancestor (h : Forest depth c place) (hs : place s = some (r, p ++ q)) : ∃ t, place t = some (r, p) := by
  induction q using List.reverseRecOn generalizing s with
  | nil => exact ⟨s, by rwa [List.append_nil] at hs⟩
  | append_singleton q i ih =>
    rw [← List.append_assoc] at hs
    obtain ⟨s', hs', -⟩ := h.parent hs
    exact ih hs'

theorem find_iff (h : Forest depth c place) (ht : place t = some (r, p)) :
    findTable c q t = some s ↔ place s = some (r, p ++ q) := by
  induction q generalizing t p with
  | nil =>
    rw [findTable, List.append_nil]
    refine ⟨fun he => ?_, fun hs => congrArg some (h.unique ht hs)⟩
    rw [← Option.some.inj he]
    exact ht
  | cons i q ih =>
    have hsplit : p ++ i :: q = p ++ [i] ++ q := by rw [List.append_assoc]; rfl
    rw [findTable, hsplit]
    cases hc : c t i with
    | table t' => exact ih (h.child ht hc)
    | _ =>
      refine iff_of_false nofun fun hs => ?_
      obtain ⟨t', ht'⟩ := h.ancestor hs
      obtain ⟨s', hs', hcs⟩ := h.parent ht'
      rw [← h.unique ht hs', hc] at hcs
      cases hcs

theorem get_iff (h : Forest depth c place) (hr : place r = some (r, [])) :
    getLeaf c p i r = some v ↔ ∃ s, place s = some (r, p) ∧ c s i = .leaf v := by
  unfold getLeaf
  rw [Option.bind_eq_some_iff]
  simp only [h.find_iff hr, Cell.leaf?_eq_some, List.nil_append]

theorem get_congr {place' : T → Option (T × List I)} (h : Forest depth c place) (h' : Forest depth c' place')
    (hr : place r = some (r, [])) (hr' : place' r = some (r, []))
    (hleaf : ∀ s v, place s = some (r, p) ∧ c s i = .leaf v ↔ place' s = some (r, p) ∧ c' s i = .leaf v) :
    getLeaf c' p i r = getLeaf c p i r := by
  apply Option.ext
  intro v
  rw [h.get_iff hr, h'.get_iff hr']
  exact exists_congr fun s => (hleaf s v).symm

/-- A path on which no table is missing leads to a table. -/
theorem missing_eq_zero (h : Forest depth c place) (ht : place t = some (r, p)) :
    missingTables c q t = 0 ↔ ∃ s, place s = some (r, p ++ q) := by
  simp only [← h.find_iff ht]
  clear ht
  induction q generalizing t p with
  | nil => simp [missingTables, findTable]
  | cons i q ih =>
    rw [missingTables, findTable]
    cases hc : (c t i).table? with
    | none => simp
    | some s => exact ih (p := p)

theorem missing_of_empty (hempty : ∀ j, c t j = .empty) : missingTables c q t = q.length := by
  cases q with
  | nil => rfl
  | cons i q => rw [missingTables, hempty]; rfl

theorem congr (h : Forest depth c place) (hc : ∀ s, place s ≠ none → ∀ j, c' s j = c s j) :
    Forest depth c' place where
  root := h.root
  parent ht := by
    obtain ⟨s, hs, hcs⟩ := h.parent ht
    exact ⟨s, hs, by rwa [hc s (by rw [hs]; exact nofun)]⟩
  child hs hcs := h.child hs (by rwa [hc _ (by rw [hs]; exact nofun)] at hcs)
  depth_le := h.depth_le
  leaf_depth ht hct := h.leaf_depth ht (by rwa [hc _ (by rw [ht]; exact nofun)] at hct)

theorem setLeaf (h : Forest depth c place) (ht : place t = some (r, p)) (hp : p.length = depth)
    (hx : (c' t i).table? = none) (hc : ∀ s, place s ≠ none → ∀ j, (s = t → j ≠ i) → c' s j = c s j) :
    Forest depth c' place where
  root := h.root
  parent {u r' p' j} hu := by
    obtain ⟨s, hs, hcs⟩ := h.parent hu
    refine ⟨s, hs, ?_⟩
    rw [hc s (by rw [hs]; exact nofun) j]
    · exact hcs
    · rintro rfl
      have := h.table_depth hs hcs
      rw [ht] at hs
      cases hs
      omega
  child {s r' p' j u} hs hcs := by
    refine h.child hs ?_
    rw [← hc s (by rw [hs]; exact nofun) j]
    · exact hcs
    · rintro rfl rfl
      rw [hcs] at hx
      cases hx
  depth_le := h.depth_le
  leaf_depth {s r' p' j v} hs hcs := by
    by_cases he : s = t
    · subst he
      rw [ht] at hs
      cases hs
      exact hp
    · exact h.leaf_depth hs (by rwa [hc s (by rw [hs]; exact nofun) j fun hst => absurd hst he] at hcs)

theorem setLeaf_get_self (h' : Forest depth c' place) (hr : place r = some (r, [])) (ht : place t = some (r, p)) :
    getLeaf c' p i r = (c' t i).leaf? := by
  apply Option.ext
  intro v
  rw [h'.get_iff hr, Cell.leaf?_eq_some]
  refine ⟨?_, fun hv => ⟨t, ht, hv⟩⟩
  rintro ⟨s, hs, hv⟩
  rwa [h'.unique ht hs]

theorem setLeaf_get_of_ne {r' : T} (h : Forest depth c place) (h' : Forest depth c' place)
    (hr' : place r' = some (r', [])) (ht : place t = some (r, p))
    (hc : ∀ s, place s ≠ none → ∀ j, (s = t → j ≠ i) → c' s j = c s j) (hne : r' = r → q = p → j ≠ i) :
    getLeaf c' q j r' = getLeaf c q j r' := by
  refine h.get_congr h' hr' hr' fun s v => and_congr_right fun hs => ?_
  rw [hc s (by rw [hs]; exact nofun) j]
  rintro rfl
  rw [ht] at hs
  cases hs
  exact hne rfl rfl

variable [DecidableEq T]

theorem addTable (h : Forest depth c place) (ht : place t = some (r, p)) (hp : p.length < depth)
    (hempty : c t i = .empty) (hn : place n = none) (hlink : c' t i = .table n) (hnew : ∀ j, c' n j = .empty)
    (hc : ∀ s, place s ≠ none → ∀ j, (s = t → j ≠ i) → c' s j = c s j) :
    Forest depth c' (Function.update place n (some (r, p ++ [i]))) := by
  have hold : ∀ {s x}, place s = some x → s ≠ n := by
    rintro s x hs rfl
    rw [hn] at hs
    cases hs
  have hplace : ∀ {s x}, place s = some x → Function.update place n (some (r, p ++ [i])) s = some x := by
    intro s x hs
    rw [Function.update_of_ne (hold hs), hs]
  constructor
  · intro u r' hu
    by_cases he : u = n
    · subst he
      rw [Function.update_self] at hu
      simp at hu
    · rw [Function.update_of_ne he] at hu
      exact h.root hu
  · intro u r' p' j hu
    by_cases he : u = n
    · subst he
      rw [Function.update_self] at hu
      obtain ⟨rfl, hpp⟩ := Prod.mk.inj (Option.some.inj hu)
      obtain ⟨rfl, hj⟩ := List.append_inj' hpp rfl
      cases hj
      exact ⟨t, hplace ht, hlink⟩
    · rw [Function.update_of_ne he] at hu
      obtain ⟨s, hs, hcs⟩ := h.parent hu
      refine ⟨s, hplace hs, ?_⟩
      rw [hc s (by rw [hs]; exact nofun) j]
      · exact hcs
      · rintro rfl rfl
        rw [hempty] at hcs
        cases hcs
  · intro s r' p' j u hs hcs
    by_cases he : s = n
    · subst he
      rw [hnew] at hcs
      cases hcs
    · rw [Function.update_of_ne he] at hs
      by_cases hst : s = t ∧ j = i
      · obtain ⟨rfl, rfl⟩ := hst
        rw [hlink] at hcs
        cases hcs
        rw [ht] at hs
        cases hs
        rw [Function.update_self]
      · rw [hc s (by rw [hs]; exact nofun) j fun h1 h2 => hst ⟨h1, h2⟩] at hcs
        exact hplace (h.child hs hcs)
  · intro u r' p' hu
    by_cases he : u = n
    · subst he
      rw [Function.update_self] at hu
      cases hu
      rw [List.length_append, List.length_singleton]
      omega
    · rw [Function.update_of_ne he] at hu
      exact h.depth_le hu
  · intro u r' p' j v hu hcu
    by_cases he : u = n
    · subst he
      rw [hnew] at hcu
      cases hcu
    · rw [Function.update_of_ne he] at hu
      by_cases hst : u = t ∧ j = i
      · obtain ⟨rfl, rfl⟩ := hst
        rw [hlink] at hcu
        cases hcu
      · exact h.leaf_depth hu (by rwa [hc u (by rw [hu]; exact nofun) j fun h1 h2 => hst ⟨h1, h2⟩] at hcu)

theorem addTable_get {r' : T} (h : Forest depth c place)
    (h' : Forest depth c' (Function.update place n (some (r, p ++ [i])))) (hempty : c t i = .empty)
    (hn : place n = none) (hlink : c' t i = .table n) (hnew : ∀ j, c' n j = .empty)
    (hc : ∀ s, place s ≠ none → ∀ j, (s = t → j ≠ i) → c' s j = c s j) (hr' : place r' = some (r', [])) :
    getLeaf c' q j r' = getLeaf c q j r' := by
  have hne : r' ≠ n := by
    rintro rfl
    rw [hn] at hr'
    cases hr'
  refine h.get_congr h' hr' (by rw [Function.update_of_ne hne]; exact hr') fun s v => ?_
  by_cases he : s = n
  · subst he
    rw [hn, hnew]
    exact iff_of_false (fun hs => nomatch hs.1) (fun hs => nomatch hs.2)
  · rw [Function.update_of_ne he]
    refine and_congr_right fun hs => ?_
    by_cases hst : s = t ∧ j = i
    · obtain ⟨rfl, rfl⟩ := hst
      rw [hempty, hlink]
      exact iff_of_false nofun nofun
    · rw [hc s (by rw [hs]; exact nofun) j fun h1 h2 => hst ⟨h1, h2⟩]

/-- A table whose cells are empty is unlinked. -/
theorem removeTable (h : Forest depth c place) (hn : place n = some (r, p ++ [i])) (ht : place t = some (r, p))
    (hnone : ∀ j, c n j = .empty) (hcut : c' t i = .empty)
    (hc : ∀ s, place s ≠ none → s ≠ n → ∀ j, (s = t → j ≠ i) → c' s j = c s j) :
    Forest depth c' (Function.update place n none) := by
  have hplace : ∀ {s x}, Function.update place n none s = some x → s ≠ n ∧ place s = some x := by
    intro s x hs
    by_cases he : s = n
    · subst he
      rw [Function.update_self] at hs
      cases hs
    · rw [Function.update_of_ne he] at hs
      exact ⟨he, hs⟩
  -- the only link to the table is the one that is cut
  have hlink : ∀ {s r' p' j}, place s = some (r', p') → c s j = .table n → s = t ∧ j = i := by
    intro s r' p' j hs hcs
    have hn' := h.child hs hcs
    rw [hn] at hn'
    obtain ⟨rfl, hpp⟩ := Prod.mk.inj (Option.some.inj hn')
    obtain ⟨rfl, hj⟩ := List.append_inj' hpp rfl
    exact ⟨h.unique hs ht, (List.singleton_inj.mp hj).symm⟩
  constructor
  · intro u r' hu
    exact h.root (hplace hu).2
  · intro u r' p' j hu
    obtain ⟨hun, hu⟩ := hplace hu
    obtain ⟨s, hs, hcs⟩ := h.parent hu
    have hsn : s ≠ n := by
      rintro rfl
      rw [hnone] at hcs
      cases hcs
    refine ⟨s, by rw [Function.update_of_ne hsn]; exact hs, ?_⟩
    rw [hc s (by rw [hs]; exact nofun) hsn j]
    · exact hcs
    · rintro rfl rfl
      obtain ⟨t', ht', hct'⟩ := h.parent hn
      rw [h.unique ht' ht, hcs] at hct'
      exact hun (Cell.table.inj hct')
  · intro s r' p' j u hs₀ hcs
    obtain ⟨hsn, hs⟩ := hplace hs₀
    by_cases hst : s = t ∧ j = i
    · obtain ⟨rfl, rfl⟩ := hst
      rw [hcut] at hcs
      cases hcs
    · rw [hc s (by rw [hs]; exact nofun) hsn j fun h1 h2 => hst ⟨h1, h2⟩] at hcs
      rw [Function.update_of_ne]
      · exact h.child hs hcs
      · rintro rfl
        exact hst (hlink hs hcs)
  · intro u r' p' hu
    exact h.depth_le (hplace hu).2
  · intro u r' p' j v hu hcu
    obtain ⟨hun, hu⟩ := hplace hu
    by_cases hst : u = t ∧ j = i
    · obtain ⟨rfl, rfl⟩ := hst
      rw [hcut] at hcu
      cases hcu
    · exact h.leaf_depth hu (by rwa [hc u (by rw [hu]; exact nofun) hun j fun h1 h2 => hst ⟨h1, h2⟩] at hcu)

theorem removeTable_get {r' : T} (h : Forest depth c place) (h' : Forest depth c' (Function.update place n none))
    (hn : place n = some (r, p ++ [i])) (hnone : ∀ j, c n j = .empty) (hold : (c t i).leaf? = none)
    (hcut : c' t i = .empty) (hc : ∀ s, place s ≠ none → s ≠ n → ∀ j, (s = t → j ≠ i) → c' s j = c s j)
    (hr' : place r' = some (r', [])) : getLeaf c' q j r' = getLeaf c q j r' := by
  have hne : r' ≠ n := by
    rintro rfl
    rw [hn] at hr'
    simp at hr'
  refine h.get_congr h' hr' (by rw [Function.update_of_ne hne]; exact hr') fun s v => ?_
  by_cases he : s = n
  · subst he
    rw [hnone, Function.update_self]
    exact iff_of_false (fun hs => nomatch hs.2) (fun hs => nomatch hs.1)
  · rw [Function.update_of_ne he]
    refine and_congr_right fun hs => ?_
    by_cases hst : s = t ∧ j = i
    · obtain ⟨rfl, rfl⟩ := hst
      rw [hcut]
      refine iff_of_false (fun hl => ?_) nofun
      rw [hl] at hold
      cases hold
    · rw [hc s (by rw [hs]; exact nofun) he j fun h1 h2 => hst ⟨h1, h2⟩]

theorem addRoot (h : Forest depth c place) (hn : place n = none) (hnew : ∀ j, c' n j = .empty)
    (hc : ∀ s, place s ≠ none → ∀ j, c' s j = c s j) : Forest depth c' (Function.update place n (some (n, []))) := by
  have hold : ∀ {s x}, place s = some x → s ≠ n := by
    rintro s x hs rfl
    rw [hn] at hs
    cases hs
  constructor
  · intro u r' hu
    by_cases he : u = n
    · subst he
      rw [Function.update_self] at hu
      cases hu
      rfl
    · rw [Function.update_of_ne he] at hu
      exact h.root hu
  · intro u r' p' j hu
    by_cases he : u = n
    · subst he
      rw [Function.update_self] at hu
      simp at hu
    · rw [Function.update_of_ne he] at hu
      obtain ⟨s, hs, hcs⟩ := h.parent hu
      exact ⟨s, by rw [Function.update_of_ne (hold hs)]; exact hs, by rwa [hc s (by rw [hs]; exact nofun)]⟩
  · intro s r' p' j u hs hcs
    by_cases he : s = n
    · subst he
      rw [hnew] at hcs
      cases hcs
    · rw [Function.update_of_ne he] at hs
      rw [hc s (by rw [hs]; exact nofun)] at hcs
      have hu := h.child hs hcs
      rwa [Function.update_of_ne (hold hu)]
  · intro u r' p' hu
    by_cases he : u = n
    · subst he
      rw [Function.update_self] at hu
      cases hu
      exact Nat.zero_le _
    · rw [Function.update_of_ne he] at hu
      exact h.depth_le hu
  · intro u r' p' j v hu hcu
    by_cases he : u = n
    · subst he
      rw [hnew] at hcu
      cases hcu
    · rw [Function.update_of_ne he] at hu
      exact h.leaf_depth hu (by rwa [hc u (by rw [hu]; exact nofun)] at hcu)

theorem addRoot_get {r' : T} (h : Forest depth c place) (h' : Forest depth c' (Function.update place n (some (n, []))))
    (hn : place n = none) (hnew : ∀ j, c' n j = .empty)
    (hc : ∀ s, place s ≠ none → ∀ j, c' s j = c s j) (hr' : place r' = some (r', [])) :
    getLeaf c' q j r' = getLeaf c q j r' := by
  have hne : r' ≠ n := by
    rintro rfl
    rw [hn] at hr'
    cases hr'
  refine h.get_congr h' hr' (by rw [Function.update_of_ne hne]; exact hr') fun s v => ?_
  by_cases he : s = n
  · subst he
    rw [hn, hnew]
    exact iff_of_false (fun hs => nomatch hs.1) (fun hs => nomatch hs.2)
  · rw [Function.update_of_ne he]
    exact and_congr_right fun hs => by rw [hc s (by rw [hs]; exact nofun)]

omit [DecidableEq T] in
theorem getLeaf_of_empty (hempty : ∀ j, c r j = .empty) : getLeaf c q j r = none := by
  cases q with
  | nil => simp [getLeaf, findTable, hempty, Cell.leaf?]
  | cons i q => simp [getLeaf, findTable, hempty, Cell.table?]

theorem removeRoot (h : Forest depth c place) (hn : place n = some (n, [])) (hnone : ∀ j, c n j = .empty)
    (hc : ∀ s, place s ≠ none → s ≠ n → ∀ j, c' s j = c s j) : Forest depth c' (Function.update place n none) := by
  have hplace : ∀ {s x}, Function.update place n none s = some x → s ≠ n ∧ place s = some x := by
    intro s x hs
    by_cases he : s = n
    · subst he
      rw [Function.update_self] at hs
      cases hs
    · rw [Function.update_of_ne he] at hs
      exact ⟨he, hs⟩
  constructor
  · intro u r' hu
    exact h.root (hplace hu).2
  · intro u r' p' j hu
    obtain ⟨hun, hu⟩ := hplace hu
    obtain ⟨s, hs, hcs⟩ := h.parent hu
    have hsn : s ≠ n := by
      rintro rfl
      rw [hnone] at hcs
      cases hcs
    exact ⟨s, by rw [Function.update_of_ne hsn]; exact hs, by rwa [hc s (by rw [hs]; exact nofun) hsn]⟩
  · intro s r' p' j u hs hcs
    obtain ⟨hsn, hs⟩ := hplace hs
    rw [hc s (by rw [hs]; exact nofun) hsn] at hcs
    have hu := h.child hs hcs
    rw [Function.update_of_ne]
    · exact hu
    · rintro rfl
      rw [hn] at hu
      simp at hu
  · intro u r' p' hu
    exact h.depth_le (hplace hu).2
  · intro u r' p' j v hu hcu
    obtain ⟨hun, hu⟩ := hplace hu
    exact h.leaf_depth hu (by rwa [hc u (by rw [hu]; exact nofun) hun] at hcu)

section

variable {is : List I} {n : Nat} (his : ∀ s i u, c s i = .table u → i ∈ is)
include his

omit [DecidableEq T] in
theorem mem_listTables (h : Forest depth c place) (ht : place t = some (r, p)) (hn : p.length + n = depth) :
    s ∈ listTables c is n t ↔ ∃ q, place s = some (r, p ++ q) := by
  induction n generalizing t p with
  | zero =>
    rw [listTables, List.mem_singleton]
    constructor
    · rintro rfl
      exact ⟨[], by rw [List.append_nil]; exact ht⟩
    · rintro ⟨q, hq⟩
      have := h.depth_le hq
      rw [List.length_append] at this
      obtain rfl := List.eq_nil_of_length_eq_zero (l := q) (by omega)
      rw [List.append_nil] at hq
      exact h.unique hq ht
  | succ n ih =>
    have hlen : ∀ i : I, (p ++ [i]).length + n = depth := by
      intro i
      rw [List.length_append, List.length_singleton]
      omega
    rw [listTables, List.mem_cons, List.mem_flatMap]
    constructor
    · rintro (rfl | ⟨i, -, hi⟩)
      · exact ⟨[], by rw [List.append_nil]; exact ht⟩
      · cases hc : c t i with
        | table u =>
          rw [hc] at hi
          obtain ⟨q, hq⟩ := (ih (h.child ht hc) (hlen i)).mp hi
          exact ⟨i :: q, by rw [hq, List.append_assoc]; rfl⟩
        | _ =>
          rw [hc] at hi
          cases hi
    · rintro ⟨q, hq⟩
      cases q with
      | nil =>
        rw [List.append_nil] at hq
        exact .inl (h.unique hq ht)
      | cons i q =>
        have hsplit : p ++ i :: q = p ++ [i] ++ q := by rw [List.append_assoc]; rfl
        rw [hsplit] at hq
        obtain ⟨u, hu⟩ := h.ancestor hq
        obtain ⟨t', ht', hc⟩ := h.parent hu
        rw [h.unique ht' ht] at hc
        refine .inr ⟨i, his t i u hc, ?_⟩
        rw [hc]
        exact (ih hu (hlen i)).mpr ⟨q, hq⟩

omit [DecidableEq T] in
theorem nodup_listTables (h : Forest depth c place) (hnd : is.Nodup) (ht : place t = some (r, p))
    (hn : p.length + n = depth) : (listTables c is n t).Nodup := by
  induction n generalizing t p with
  | zero => exact List.nodup_singleton t
  | succ n ih =>
    have hlen : ∀ i : I, (p ++ [i]).length + n = depth := by
      intro i
      rw [List.length_append, List.length_singleton]
      omega
    -- what is listed through entry `i` has a place that goes on with `i`
    have hbelow : ∀ i s, s ∈ ((c t i).table?.map (listTables c is n)).getD [] → ∃ q, place s = some (r, p ++ i :: q) := by
      intro i s hs
      cases hc : c t i with
      | table u =>
        rw [hc] at hs
        obtain ⟨q, hq⟩ := (h.mem_listTables his (h.child ht hc) (hlen i)).mp hs
        exact ⟨q, by rw [hq, List.append_assoc]; rfl⟩
      | _ =>
        rw [hc] at hs
        cases hs
    rw [listTables, List.nodup_cons, List.mem_flatMap, List.nodup_flatMap]
    refine ⟨?_, fun i _ => ?_, hnd.imp fun {i j} hij s hi hj => ?_⟩
    · rintro ⟨i, -, hi⟩
      obtain ⟨q, hq⟩ := hbelow i t hi
      rw [ht] at hq
      simp at hq
    · cases hc : c t i with
      | table u => exact ih (h.child ht hc) (hlen i)
      | _ => exact List.nodup_nil
    · obtain ⟨q, hq⟩ := hbelow i s hi
      obtain ⟨q', hq'⟩ := hbelow j s hj
      rw [hq] at hq'
      have hpath := List.append_cancel_left (Prod.mk.inj (Option.some.inj hq')).2
      exact hij (List.cons.inj hpath).1

end

end Forest

end Lib
