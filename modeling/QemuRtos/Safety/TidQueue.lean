import QemuRtos.Core.TidQueue
import QemuRtos.Core.QueueSpec
import QemuRtos.Lib.Transition

/-!
# The rings of thread identifiers refine lists

On 16-bit words every index and count stays below the capacity, so the calls compute what the ring buffers of the
library compute. A sequence of calls on an initialised ring is a sequence of calls on a list.
-/

namespace QemuRtos

open Lib

namespace TidQueue

variable {cap : Nat} {tid : U16} {queue : TidQueue}

/-- The ring of a queue, with unbounded indices. -/
def ring (queue : TidQueue) : RingBuffer U16 where
  slots := queue.tids
  head := queue.head.toNat
  tail := queue.tail.toNat
  count := queue.count.toNat

/-- The entries of a queue, oldest first. -/
def toList (cap : Nat) (queue : TidQueue) : List U16 := queue.ring.toList cap

/-! ### Words -/

theorem ringIndex_toNat (hpos : 0 < cap) (hfit : cap < threadInvalidTid) (n : Nat) : (ringIndex cap n).toNat = n % cap := by
  have hlt := Nat.mod_lt n hpos
  simp only [threadInvalidTid] at hfit
  rw [ringIndex, BitVec.toNat_ofNat]
  exact Nat.mod_eq_of_lt (by omega)

theorem full_iff : queue.full cap = true ↔ queue.ring.count = cap := by
  rw [full, decide_eq_true_iff]
  rfl

theorem empty_iff : queue.empty = true ↔ queue.ring.count = 0 := by
  rw [empty, decide_eq_true_iff]
  show queue.count = 0 ↔ queue.count.toNat = 0
  constructor
  · intro h
    rw [h]
    rfl
  · intro h
    exact BitVec.eq_of_toNat_eq h

/-! ### The calls on rings -/

section

variable (hpos : 0 < cap) (hfit : cap < threadInvalidTid)
include hpos hfit

theorem append_ring (hroom : queue.ring.count < cap) : queue.ring.push cap tid = some (queue.append cap tid).ring := by
  have hcount : (queue.count + 1).toNat = queue.count.toNat + 1 := by
    have hlt : queue.count.toNat < cap := hroom
    simp only [threadInvalidTid] at hfit
    bv_omega
  rw [RingBuffer.push, if_neg (by omega)]
  simp only [append, ring, ringIndex_toNat hpos hfit, hcount]

theorem pop_ring (hne : queue.ring.count ≠ 0) : queue.ring.pop cap = some ((queue.pop cap).1, (queue.pop cap).2.ring) := by
  have hcount : (queue.count - 1).toNat = queue.count.toNat - 1 := by
    have hz : queue.count.toNat ≠ 0 := hne
    bv_omega
  rw [RingBuffer.pop, if_neg hne, pop, if_neg (mt empty_iff.mp hne)]
  simp only [ring, ringIndex_toNat hpos hfit, hcount]

theorem findFrom_eq (i : U16) : queue.findFrom cap tid i =
    ((List.range' i.toNat (queue.count.toNat - i.toNat)).find? fun j =>
      queue.ring.slots (queue.ring.slotOf cap j) = tid).elim uint16Max (BitVec.ofNat 16) := by
  have hslot : ∀ j : U16, queue.ring.slotOf cap j.toNat = (ringIndex cap (queue.head.toNat + j.toNat)).toNat := fun j =>
    (ringIndex_toNat hpos hfit _).symm
  have hsplit : ∀ j : U16, j < queue.count → List.range' j.toNat (queue.count.toNat - j.toNat) =
      j.toNat :: List.range' (j + 1).toNat (queue.count.toNat - (j + 1).toNat) := by
    intro j hj
    have hn : queue.count.toNat - j.toNat = queue.count.toNat - (j + 1).toNat + 1 := by bv_omega
    have hj1 : (j + 1).toNat = j.toNat + 1 := by bv_omega
    rw [hn, List.range'_succ, hj1]
  fun_induction queue.findFrom cap tid i with
  | case1 i hlt index heq =>
    have htid : queue.ring.slots (queue.ring.slotOf cap i.toNat) = tid := by
      rw [hslot]
      exact heq
    rw [hsplit i hlt, List.find?_cons_of_pos (by rw [decide_eq_true_iff]; exact htid)]
    show i = BitVec.ofNat 16 i.toNat
    rw [BitVec.ofNat_toNat, BitVec.setWidth_eq]
  | case2 i hlt index hne ih =>
    have htid : ¬queue.ring.slots (queue.ring.slotOf cap i.toNat) = tid := by
      rw [hslot]
      exact hne
    rw [hsplit i hlt, List.find?_cons_of_neg (by rw [decide_eq_true_iff]; exact htid)]
    exact ih
  | case3 i hge =>
    have hz : queue.count.toNat - i.toNat = 0 := by bv_omega
    rw [hz]
    rfl

/-- The second loop shifts the entries as `closeGap` does. -/
theorem closeGapFrom_eq (i : U16) (tids : Nat → U16) : queue.closeGapFrom cap i tids =
    (List.range' i.toNat (queue.count.toNat - 1 - i.toNat)).foldl (fun slots j =>
      Function.update slots (queue.ring.slotOf cap j) (slots (queue.ring.slotOf cap (j + 1)))) tids := by
  fun_induction queue.closeGapFrom cap i tids with
  | case1 i tids hlt dst src ih =>
    have hn : queue.count.toNat - 1 - i.toNat = queue.count.toNat - 1 - (i + 1).toNat + 1 := by bv_omega
    have hi1 : (i + 1).toNat = i.toNat + 1 := by bv_omega
    have hdst : dst.toNat = queue.ring.slotOf cap i.toNat := ringIndex_toNat hpos hfit _
    have hsrc : src.toNat = queue.ring.slotOf cap (i.toNat + 1) := ringIndex_toNat hpos hfit _
    rw [ih, hn, List.range'_succ, List.foldl_cons, hi1, hdst, hsrc]
  | case2 i tids hge =>
    have hz : queue.count.toNat - 1 - i.toNat = 0 := by omega
    rw [hz]
    rfl

theorem waitQueueRemove_ring (tid : U16) (hle : queue.ring.count ≤ cap) :
    match queue.ring.remove cap tid with
    | none => queue.waitQueueRemove cap tid = (-1, queue)
    | some r => (queue.waitQueueRemove cap tid).1 = 0 ∧ (queue.waitQueueRemove cap tid).2.ring = r := by
  have hfind : queue.findFrom cap tid 0 = _ := findFrom_eq hpos hfit 0
  have hrange : List.range' (0 : U16).toNat (queue.count.toNat - (0 : U16).toNat) = List.range queue.ring.count :=
    List.range_eq_range'.symm
  rw [hrange] at hfind
  rw [RingBuffer.remove]
  split
  · rename_i hr
    split at hr
    · rename_i hnone
      rw [hnone] at hfind
      rw [waitQueueRemove, hfind]
      exact if_pos rfl
    · cases hr
  · rename_i r hr
    split at hr
    · cases hr
    · rename_i found hsome
      obtain rfl := Option.some.inj hr
      rw [hsome] at hfind
      have hlt : found < queue.count.toNat := List.mem_range.mp (List.mem_of_find?_eq_some hsome)
      have hlt' : queue.count.toNat ≤ cap := hle
      have hfit' : cap < 65535 := hfit
      have hto : (BitVec.ofNat 16 found).toNat = found := by
        rw [BitVec.toNat_ofNat]
        exact Nat.mod_eq_of_lt (by omega)
      have hne : ¬(BitVec.ofNat 16 found = uint16Max) := by
        intro he
        have hmax : found = 65535 := hto.symm.trans (congrArg BitVec.toNat he)
        omega
      have hcount : (queue.count - 1).toNat = queue.count.toNat - 1 := by bv_omega
      have hfound : queue.findFrom cap tid 0 = BitVec.ofNat 16 found := hfind
      simp only [waitQueueRemove, hfound, if_neg hne]
      refine ⟨trivial, ?_⟩
      simp only [ring, closeGapFrom_eq hpos hfit, ringIndex_toNat hpos hfit, hcount, hto, RingBuffer.closeGap]

end

/-! ### Lists -/

/-- What a call does to the list of the entries. -/
def listExec (cap : Nat) : QueueOp → List U16 → Except Panic (QueueOut × List U16)
  | .tidPush tid, l => if l.length = cap then .ok (.status (-1), l) else .ok (.status 0, l ++ [tid])
  | .waitPush tid, l => if l.length = cap then .error "wait queue full" else .ok (.done, l ++ [tid])
  | .tidPop, l | .waitPop, l => .ok (.tid (l.headD invalidTid), l.tail)
  | .waitRemove tid, l => if tid ∈ l then .ok (.status 0, l.erase tid) else .ok (.status (-1), l)

/-- Only an identifier that is not in the queue is pushed. -/
def Fresh : QueueOp → List U16 → Prop
  | .tidPush tid, l | .waitPush tid, l => tid ∉ l ∧ tid ≠ invalidTid
  | _, _ => True

/-- The ring holds the entries `l`, oldest first. -/
structure Represents (cap : Nat) (l : List U16) (queue : TidQueue) : Prop where
  wf : queue.ring.WF cap
  entries : queue.toList cap = l

namespace Represents

variable {l : List U16}

theorem count (h : Represents cap l queue) : queue.ring.count = l.length := by
  rw [← h.entries]
  exact (RingBuffer.length_toList queue.ring).symm

theorem length_le (h : Represents cap l queue) : l.length ≤ cap := h.count ▸ h.wf.count_le

theorem full_iff (h : Represents cap l queue) : queue.full cap = true ↔ l.length = cap := by
  rw [TidQueue.full_iff, h.count]

theorem init (hpos : 0 < cap) (queue : TidQueue) : Represents cap [] queue.init :=
  ⟨RingBuffer.WF.empty _ hpos, rfl⟩

variable (hpos : 0 < cap) (hfit : cap < threadInvalidTid) (h : Represents cap l queue)
include hpos hfit h

theorem append (hroom : l.length < cap) : Represents cap (l ++ [tid]) (queue.append cap tid) := by
  have hcount : queue.ring.count < cap := by rw [h.count]; exact hroom
  obtain ⟨r, hr, hwf, hl⟩ := RingBuffer.push_spec h.wf hcount tid
  obtain rfl := Option.some.inj ((TidQueue.append_ring hpos hfit hcount).symm.trans hr)
  refine ⟨hwf, hl.trans ?_⟩
  rw [← h.entries]
  rfl

theorem pop : (queue.pop cap).1 = l.headD invalidTid ∧ Represents cap l.tail (queue.pop cap).2 := by
  cases l with
  | nil =>
    have hempty : queue.empty = true := TidQueue.empty_iff.mpr h.count
    rw [TidQueue.pop, if_pos hempty]
    exact ⟨rfl, h⟩
  | cons tid l =>
    have hne : queue.ring.count ≠ 0 := by
      rw [h.count]
      exact Nat.succ_ne_zero _
    obtain ⟨r, hr, hwf, hl⟩ := RingBuffer.pop_spec h.wf h.entries
    obtain ⟨htid, hring⟩ := Prod.mk.inj (Option.some.inj ((TidQueue.pop_ring hpos hfit hne).symm.trans hr))
    refine ⟨htid, ?_, ?_⟩
    · rw [hring]
      exact hwf
    · rw [TidQueue.toList, hring]
      exact hl

theorem remove (hmem : tid ∈ l) : ∃ queue', queue.waitQueueRemove cap tid = (0, queue') ∧
    Represents cap (l.erase tid) queue' := by
  have hmem' : tid ∈ queue.ring.toList cap := by
    rw [← TidQueue.toList, h.entries]
    exact hmem
  obtain ⟨r, hr, hwf, hl⟩ := RingBuffer.remove_spec h.wf hmem'
  have hrem := TidQueue.waitQueueRemove_ring hpos hfit tid h.wf.count_le
  rw [hr] at hrem
  obtain ⟨hresult, hring⟩ := hrem
  refine ⟨_, Prod.ext hresult rfl, ?_, ?_⟩
  · rw [hring]
    exact hwf
  · rw [TidQueue.toList, hring, hl, ← TidQueue.toList, h.entries]

theorem remove_absent (hmem : tid ∉ l) : queue.waitQueueRemove cap tid = (-1, queue) := by
  have hmem' : tid ∉ queue.ring.toList cap := by
    rw [← TidQueue.toList, h.entries]
    exact hmem
  have hrem := TidQueue.waitQueueRemove_ring hpos hfit tid h.wf.count_le
  rw [RingBuffer.remove_none hmem'] at hrem
  exact hrem

/-- Every call shows what the call on the list shows, and keeps representing the list. -/
theorem exec (op : QueueOp) : Agree (Represents cap) (listExec cap op l) (queue.exec cap op) := by
  have hroom : l.length ≠ cap → l.length < cap := fun hne => lt_of_le_of_ne h.length_le hne
  cases op with
  | tidPush tid =>
    rw [listExec, TidQueue.exec, TidQueue.push]
    by_cases hfull : l.length = cap
    · rw [if_pos hfull, if_pos (h.full_iff.mpr hfull)]
      exact ⟨rfl, h⟩
    · rw [if_neg hfull, if_neg (mt h.full_iff.mp hfull)]
      exact ⟨rfl, h.append hpos hfit (hroom hfull)⟩
  | tidPop =>
    obtain ⟨htid, hq⟩ := h.pop hpos hfit
    exact ⟨congrArg QueueOut.tid htid.symm, hq⟩
  | waitPush tid =>
    rw [listExec, TidQueue.exec, TidQueue.waitQueuePush]
    by_cases hfull : l.length = cap
    · rw [if_pos hfull, if_pos (h.full_iff.mpr hfull)]
      trivial
    · rw [if_neg hfull, if_neg (mt h.full_iff.mp hfull)]
      exact ⟨rfl, h.append hpos hfit (hroom hfull)⟩
  | waitPop =>
    obtain ⟨htid, hq⟩ := h.pop hpos hfit
    exact ⟨congrArg QueueOut.tid htid.symm, hq⟩
  | waitRemove tid =>
    rw [listExec, TidQueue.exec]
    by_cases hmem : tid ∈ l
    · obtain ⟨queue', hrem, hq⟩ := h.remove hpos hfit hmem
      rw [if_pos hmem, hrem]
      exact ⟨rfl, hq⟩
    · rw [if_neg hmem, h.remove_absent hpos hfit hmem]
      exact ⟨rfl, h⟩

end Represents

/-! ### Runs -/

/-- `tid_is_real`: a thread of the table other than the null thread. -/
def RealTid (cap : Nat) (tid : U16) : Prop := threadNullTid < tid.toNat ∧ tid.toNat < cap + 1

theorem length_lt_of_real {l : List U16} (hnd : l.Nodup) (hmem : tid ∉ l)
    (htid : RealTid cap tid) (hl : ∀ t ∈ l, RealTid cap t) : l.length < cap := by
  have hinj : Function.Injective (BitVec.toNat : U16 → Nat) := fun a b => BitVec.eq_of_toNat_eq
  have hnd' : ((tid :: l).map BitVec.toNat).Nodup := (List.nodup_cons.mpr ⟨hmem, hnd⟩).map hinj
  have hsub : (tid :: l).map BitVec.toNat ⊆ List.range' 1 cap := by
    intro n hn
    obtain ⟨t, ht, rfl⟩ := List.mem_map.mp hn
    have hreal : RealTid cap t := by
      obtain rfl | ht := List.mem_cons.mp ht
      · exact htid
      · exact hl t ht
    obtain ⟨hlo, hhi⟩ := hreal
    simp only [threadNullTid] at hlo
    rw [List.mem_range'_1]
    omega
  have hle := (hnd'.subperm hsub).length_le
  simp only [List.length_map, List.length_cons, List.length_range'] at hle
  exact hle

/-- The list of distinct identifiers that a ring represents, and what each call does to it. -/
structure Refines (cap : Nat) (l : List U16) (queue : TidQueue) : Prop extends Represents cap l queue where
  tail : queue.tail.toNat = (queue.head.toNat + queue.count.toNat) % cap
  nodup : l.Nodup
  push : ∀ tid ∉ l, l.length < cap → ∃ queue', queue.push cap tid = (0, queue') ∧
    queue.waitQueuePush cap tid = .ok queue' ∧ Represents cap (l ++ [tid]) queue'
  /-- Only the threads of the table are in a queue, and they do not fill it. -/
  room : ∀ tid ∉ l, RealTid cap tid → (∀ t ∈ l, RealTid cap t) → l.length < cap
  pop : ∃ queue', queue.pop cap = (l.headD invalidTid, queue') ∧ queue.waitQueuePop cap = (l.headD invalidTid, queue') ∧
    Represents cap l.tail queue'
  empty : (queue.pop cap).1 = invalidTid ↔ l = []
  remove : ∀ tid ∈ l, ∃ queue', queue.waitQueueRemove cap tid = (0, queue') ∧ Represents cap (l.erase tid) queue'
  absent : ∀ tid ∉ l, queue.waitQueueRemove cap tid = (-1, queue)

theorem listExec_distinct {op : QueueOp} {l l' : List U16} (hl : l.Nodup ∧ invalidTid ∉ l)
    (hf : Fresh op l) (hx : next (listExec cap) op l = .ok l') : l'.Nodup ∧ invalidTid ∉ l' := by
  have happend : ∀ tid, tid ∉ l → tid ≠ invalidTid → (l ++ [tid]).Nodup ∧ invalidTid ∉ l ++ [tid] := by
    intro tid hmem hne
    refine ⟨List.concat_eq_append ▸ hl.1.concat hmem, ?_⟩
    rw [List.mem_append, List.mem_singleton, not_or]
    exact ⟨hl.2, hne.symm⟩
  have htail : l.tail.Nodup ∧ invalidTid ∉ l.tail := ⟨hl.1.tail, fun hmem => hl.2 (List.mem_of_mem_tail hmem)⟩
  rw [next] at hx
  cases op with
  | tidPush tid =>
    rw [listExec] at hx
    by_cases hfull : l.length = cap
    · rw [if_pos hfull] at hx
      obtain rfl := Except.ok.inj hx
      exact hl
    · rw [if_neg hfull] at hx
      obtain rfl := Except.ok.inj hx
      exact happend tid hf.1 hf.2
  | tidPop =>
    obtain rfl := Except.ok.inj hx
    exact htail
  | waitPush tid =>
    rw [listExec] at hx
    by_cases hfull : l.length = cap
    · rw [if_pos hfull] at hx
      cases hx
    · rw [if_neg hfull] at hx
      obtain rfl := Except.ok.inj hx
      exact happend tid hf.1 hf.2
  | waitPop =>
    obtain rfl := Except.ok.inj hx
    exact htail
  | waitRemove tid =>
    rw [listExec] at hx
    by_cases hmem : tid ∈ l
    · rw [if_pos hmem] at hx
      obtain rfl := Except.ok.inj hx
      exact ⟨hl.1.erase tid, fun h => hl.2 (List.mem_of_mem_erase h)⟩
    · rw [if_neg hmem] at hx
      obtain rfl := Except.ok.inj hx
      exact hl

theorem Represents.refines {l : List U16} (hpos : 0 < cap) (hfit : cap < threadInvalidTid)
    (h : Represents cap l queue) (hl : l.Nodup ∧ invalidTid ∉ l) : Refines cap l queue := by
  obtain ⟨htid, hq⟩ := h.pop hpos hfit
  refine ⟨h, h.wf.tail_eq, hl.1, fun tid hmem hlt => ?_, fun tid hmem htid hreal => length_lt_of_real hl.1 hmem htid hreal,
    ⟨_, Prod.ext htid rfl, Prod.ext htid rfl, hq⟩, ?_, fun tid hmem => h.remove hpos hfit hmem,
    fun tid hmem => h.remove_absent hpos hfit hmem⟩
  · have hroom : ¬queue.full cap = true := mt h.full_iff.mp hlt.ne
    exact ⟨_, if_neg hroom, if_neg hroom, h.append hpos hfit hlt⟩
  · rw [htid]
    cases l with
    | nil => exact ⟨fun _ => rfl, fun _ => rfl⟩
    | cons t l =>
      refine ⟨fun he => ?_, nofun⟩
      have he : t = invalidTid := he
      exact absurd (he ▸ List.mem_cons_self) hl.2

/-- For every capacity that the source's assertions allow, a sequence of pushes of absent identifiers, pops and
removals from an initialised ring runs as it does on a list, and the ring refines that list. -/
theorem queue_refines_list (hpos : 0 < cap) (hfit : cap < threadInvalidTid) (queue₀ : TidQueue)
    {ops : List QueueOp} {l : List U16} (hrun : Run (next (listExec cap)) Fresh [] ops l) :
    ∃ queue, Run (next (TidQueue.exec cap)) (fun _ _ => True) queue₀.init ops queue ∧ Refines cap l queue := by
  have hdistinct : l.Nodup ∧ invalidTid ∉ l :=
    Run.invariant (fun _ _ _ hi hf hx => listExec_distinct hi hf hx) hrun ⟨List.nodup_nil, List.not_mem_nil⟩
  obtain ⟨queue, hqueue, hrep⟩ := Run.agree (fun op l queue h => Represents.exec hpos hfit h op)
    (hrun.mono fun _ _ _ => trivial) (Represents.init hpos queue₀)
  exact ⟨queue, hqueue, hrep.refines hpos hfit hdistinct⟩

/-- Three slots: the entries `3`, `1`, `2` wrap around the end of the array, and the middle one is removed. -/
theorem queue_refines_list_sample : ∃ queue, Run (next (TidQueue.exec 3)) (fun _ _ => True)
    (TidQueue.init ⟨fun _ => 0, 5, 6, 7⟩)
    [.waitPush 1, .waitPush 2, .waitPush 3, .waitPop, .waitPop, .waitPush 1, .waitPush 2, .waitRemove 1] queue ∧
    Refines 3 [3, 2] queue := by
  have hrun : Run (next (listExec 3)) Fresh []
      [.waitPush 1, .waitPush 2, .waitPush 3, .waitPop, .waitPop, .waitPush 1, .waitPush 2, .waitRemove 1] [3, 2] :=
    .cons ⟨by decide, by decide⟩ rfl <| .cons ⟨by decide, by decide⟩ rfl <| .cons ⟨by decide, by decide⟩ rfl <|
      .cons trivial rfl <| .cons trivial rfl <| .cons ⟨by decide, by decide⟩ rfl <|
      .cons ⟨by decide, by decide⟩ rfl <| .cons trivial rfl <| .nil _
  exact queue_refines_list (by decide) (by decide) _ hrun

end TidQueue

end QemuRtos
