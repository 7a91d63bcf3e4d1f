import Mathlib.Data.List.Nodup
import Mathlib.Data.List.TakeWhile
import Mathlib.Order.Lattice

/-!
# Queues sorted by a key, with ties in the order of arrival

`Stable key arrivals l` says that `l` holds the elements of `arrivals` in the order of their keys, and those
with equal keys in the order of `arrivals`. Inserting a new arrival before the first element with a greater
key keeps it, and so does removing an element anywhere.
-/

namespace Lib

variable {α κ : Type*} [LinearOrder κ]

/-- `x` goes before `y`. -/
def Precedes (key : α → κ) (arrivals : List α) (x y : α) : Prop :=
  key x < key y ∨ key x = key y ∧ [x, y].Sublist arrivals

/-- `l` is `arrivals` sorted by the keys. -/
structure Stable (key : α → κ) (arrivals l : List α) : Prop where
  nodup : arrivals.Nodup
  perm : arrivals.Perm l
  sorted : l.Pairwise (Precedes key arrivals)

variable {key key' : α → κ} {arrivals l a b : List α} {x y : α} {p : α → Bool} {now : κ}

theorem Precedes.le (h : Precedes key arrivals x y) : key x ≤ key y := by
  rcases h with h | ⟨h, -⟩
  · exact h.le
  · exact h.le

namespace Stable

theorem nil (key : α → κ) : Stable key [] [] := ⟨List.nodup_nil, .nil, .nil⟩

theorem nodup_list (h : Stable key arrivals l) : l.Nodup := h.perm.nodup_iff.mp h.nodup

theorem sorted_le (h : Stable key arrivals l) : l.Pairwise fun i j => key i ≤ key j := h.sorted.imp Precedes.le

theorem congr (h : Stable key arrivals l) (hk : ∀ i ∈ l, key' i = key i) : Stable key' arrivals l where
  nodup := h.nodup
  perm := h.perm
  sorted := by
    refine h.sorted.imp_of_mem fun hi hj hp => ?_
    unfold Precedes
    rw [hk _ hi, hk _ hj]
    exact hp

theorem erase [DecidableEq α] (h : Stable key arrivals l) (x : α) : Stable key (arrivals.erase x) (l.erase x) where
  nodup := h.nodup.erase x
  perm := h.perm.erase x
  sorted := by
    have hsub : (l.erase x).Pairwise (Precedes key arrivals) := h.sorted.sublist List.erase_sublist
    refine hsub.imp_of_mem fun {i j} hi hj hp => hp.imp_right fun ⟨heq, hs⟩ => ⟨heq, ?_⟩
    have hix : i ≠ x := (h.nodup_list.mem_erase_iff.mp hi).1
    have hjx : j ≠ x := (h.nodup_list.mem_erase_iff.mp hj).1
    have hxs : x ∉ [i, j] := by
      rw [List.mem_cons, List.mem_singleton, not_or]
      exact ⟨hix.symm, hjx.symm⟩
    rw [← List.erase_of_not_mem hxs]
    exact hs.erase x

theorem dropWhile_lt (hs : l.Pairwise fun i j => key i ≤ key j) (hp : ∀ i ∈ l, p i = true ↔ key i ≤ key x) :
    ∀ j ∈ l.dropWhile p, key x < key j := by
  induction l with
  | nil => exact nofun
  | cons i l ih =>
    obtain ⟨hi, hs⟩ := List.pairwise_cons.mp hs
    intro j hj
    rw [List.dropWhile_cons] at hj
    split at hj
    · exact ih hs (fun k hk => hp k (List.mem_cons_of_mem _ hk)) j hj
    · rename_i hpi
      rw [hp i List.mem_cons_self, not_le] at hpi
      rcases List.mem_cons.mp hj with rfl | hj
      · exact hpi
      · exact hpi.trans_le (hi j hj)

/-- A new arrival goes after the elements with keys up to its own. -/
theorem insert (h : Stable key arrivals l) (hx : x ∉ arrivals) (hp : ∀ i ∈ l, p i = true ↔ key i ≤ key x) :
    Stable key (arrivals ++ [x]) (l.takeWhile p ++ x :: l.dropWhile p) where
  nodup := by
    rw [List.nodup_append]
    refine ⟨h.nodup, List.nodup_singleton x, fun i hi j hj => ?_⟩
    rw [List.mem_singleton.mp hj]
    rintro rfl
    exact hx hi
  perm := by
    have hsplit : l.takeWhile p ++ l.dropWhile p = l := List.takeWhile_append_dropWhile
    have hmiddle : (l.takeWhile p ++ x :: l.dropWhile p).Perm (x :: (l.takeWhile p ++ l.dropWhile p)) := List.perm_middle
    rw [hsplit] at hmiddle
    exact ((h.perm.append_right [x]).trans (List.perm_append_singleton x l)).trans hmiddle.symm
  sorted := by
    have hmono : ∀ {i j}, Precedes key arrivals i j → Precedes key (arrivals ++ [x]) i j := fun hp =>
      hp.imp_right fun ⟨heq, hs⟩ => ⟨heq, hs.trans (List.sublist_append_left ..)⟩
    have hsplit : (l.takeWhile p ++ l.dropWhile p).Pairwise (Precedes key arrivals) := by
      rw [List.takeWhile_append_dropWhile]
      exact h.sorted
    obtain ⟨hbefore, hafter, hcross⟩ := List.pairwise_append.mp hsplit
    have hgt := dropWhile_lt h.sorted_le hp
    refine List.pairwise_append.mpr ⟨hbefore.imp hmono, List.pairwise_cons.mpr ⟨fun j hj => .inl (hgt j hj),
      hafter.imp hmono⟩, fun i hi j hj => ?_⟩
    rcases List.mem_cons.mp hj with rfl | hj
    · have hil : i ∈ l := (List.takeWhile_sublist p).subset hi
      rcases lt_or_eq_of_le ((hp i hil).mp (List.mem_takeWhile_imp hi)) with hlt | heq
      · exact .inl hlt
      · refine .inr ⟨heq, ?_⟩
        have : [i].Sublist arrivals := List.singleton_sublist.mpr (h.perm.mem_iff.mpr hil)
        exact this.append (.refl [j])
    · exact hmono (hcross i hi j hj)

end Stable

theorem filter_split [DecidableLE κ] (hs : (a ++ b).Pairwise fun i j => key i ≤ key j) (ha : ∀ i ∈ a, key i ≤ now)
    (hb : ∀ i ∈ b.head?, now < key i) :
    (a ++ b).filter (fun i => decide (key i ≤ now)) = a ∧ (a ++ b).filter (fun i => !decide (key i ≤ now)) = b := by
  have hb' : ∀ i ∈ b, now < key i := by
    cases b with
    | nil => exact nofun
    | cons j b =>
      have hj : now < key j := hb j rfl
      obtain ⟨-, hsb, -⟩ := List.pairwise_append.mp hs
      intro i hi
      rcases List.mem_cons.mp hi with rfl | hi
      · exact hj
      · exact hj.trans_le ((List.pairwise_cons.mp hsb).1 i hi)
  rw [List.filter_append, List.filter_append]
  constructor
  · rw [List.filter_eq_self.mpr fun i hi => decide_eq_true (ha i hi), List.filter_eq_nil_iff.mpr fun i hi => ?_,
      List.append_nil]
    rw [decide_eq_true_eq, not_le]
    exact hb' i hi
  · rw [List.filter_eq_nil_iff.mpr fun i hi => ?_, List.filter_eq_self.mpr fun i hi => ?_, List.nil_append]
    · rw [Bool.not_eq_true', decide_eq_false_iff_not, not_le]
      exact hb' i hi
    · rw [Bool.not_eq_true', decide_eq_false_iff_not, not_not]
      exact ha i hi

end Lib
