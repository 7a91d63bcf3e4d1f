import QemuRtos.Lib.RingBuffer
import QemuRtos.Memory.PageAlloc

/-!
# The trace buffer (`core/trace.c`)

A fixed array of events, written in a circle. Once it is full each new event overwrites the oldest one.
`traceDump` is the list of the records that `trace_dump` prints. An emitted event stores the tick count and
the cycle counter, which are arguments here.
-/

namespace QemuRtos

open Lib

def traceCapacity : Nat := 128

inductive TraceType
  | threadCreate | contextSwitch | threadExit | threadSleep | threadWake
  | waitBlock | waitWake | waitTimeout
  | mutexLock | mutexBlock | mutexTimeout | mutexUnlock
  | idle
  | userSyscallEnter | userSyscallReturn | userSyscallError
  | userAccelValidate | userAccelCopyback
  | accelSubmit | accelComplete | accelTimeout | accelReset
deriving DecidableEq

structure TraceEvent where
  seq : U64
  tick : U64
  cycle : U64
  type : TraceType
  tid : Nat
  otherTid : Nat
  arg0 : U64
  arg1 : U64
deriving DecidableEq

/-- The static variables of `trace.c`. -/
structure TraceBuffer where
  events : Nat → TraceEvent
  nextSeq : U64
  head : Nat
  count : Nat
  overwrites : U64

/-- What a call of `trace_emit` stores: its arguments and the two clocks. -/
structure TraceCall where
  type : TraceType
  tid : Nat
  otherTid : Nat
  arg0 : U64
  arg1 : U64
  tick : U64
  cycle : U64

/-- The event of a call with its sequence number. -/
def TraceCall.event (call : TraceCall) (seq : U64) : TraceEvent where
  seq := seq
  tick := call.tick
  cycle := call.cycle
  type := call.type
  tid := call.tid
  otherTid := call.otherTid
  arg0 := call.arg0
  arg1 := call.arg1

def traceInit (m : Machine) (t : TraceBuffer) : Machine × TraceBuffer :=
  let (irqState, m) := irqSave m
  (irqRestore irqState m, { t with nextSeq := 0, head := 0, count := 0, overwrites := 0 })

def traceEmit (call : TraceCall) (m : Machine) (t : TraceBuffer) : Machine × TraceBuffer :=
  let (irqState, m) := irqSave m
  let (index, t) :=
    if t.count < traceCapacity then
      ((t.head + t.count) % traceCapacity, { t with count := t.count + 1 })
    else
      (t.head, { t with head := (t.head + 1) % traceCapacity, overwrites := t.overwrites + 1 })
  let t := { t with
    events := Function.update t.events index (call.event t.nextSeq)
    nextSeq := t.nextSeq + 1 }
  (irqRestore irqState m, t)

/-- The records that `trace_dump` visits, in order. -/
def traceDump (t : TraceBuffer) : List TraceEvent :=
  (List.range t.count).map fun i => t.events ((t.head + i) % traceCapacity)

namespace TraceBuffer

/-- The buffer as a ring whose tail follows the last event. -/
def ring (t : TraceBuffer) : RingBuffer TraceEvent where
  slots := t.events
  head := t.head
  tail := (t.head + t.count) % traceCapacity
  count := t.count

theorem toList_ring (t : TraceBuffer) : t.ring.toList traceCapacity = traceDump t := rfl

end TraceBuffer

/-! ### The newest events -/

/-- The events of a list of calls that start at sequence number 0. -/
def traceEvents (calls : List TraceCall) : List TraceEvent :=
  calls.mapIdx fun i call => call.event (BitVec.ofNat 64 i)

theorem traceEvents_snoc (calls : List TraceCall) (call : TraceCall) :
    traceEvents (calls ++ [call]) = traceEvents calls ++ [call.event (BitVec.ofNat 64 calls.length)] := by
  unfold traceEvents
  rw [List.mapIdx_concat]

@[simp] theorem length_traceEvents (calls : List TraceCall) : (traceEvents calls).length = calls.length :=
  List.length_mapIdx

/-- After `calls` the buffer holds the last of their events. -/
structure TraceOk (calls : List TraceCall) (t : TraceBuffer) : Prop where
  wf : t.ring.WF traceCapacity
  nextSeq : t.nextSeq = BitVec.ofNat 64 calls.length
  count : t.count = min calls.length traceCapacity
  overwrites : t.overwrites = BitVec.ofNat 64 (calls.length - t.count)
  dump : traceDump t = (traceEvents calls).drop (calls.length - t.count)

theorem traceInit_ok (m : Machine) (t : TraceBuffer) : TraceOk [] (traceInit m t).2 where
  wf := .empty t.events (by decide)
  nextSeq := rfl
  count := rfl
  overwrites := rfl
  dump := rfl

variable {calls : List TraceCall} {t : TraceBuffer}

theorem TraceOk.append (h : TraceOk calls t) (hlt : t.count < traceCapacity) (call : TraceCall) (m : Machine) :
    TraceOk (calls ++ [call]) (traceEmit call m t).2 := by
  have hemit : (traceEmit call m t).2 = { t with
      events := Function.update t.events ((t.head + t.count) % traceCapacity) (call.event t.nextSeq)
      count := t.count + 1
      nextSeq := t.nextSeq + 1 } := by
    unfold traceEmit
    dsimp only
    rw [if_pos hlt]
  have hcount := h.count
  have hlen : t.count = calls.length := by omega
  obtain ⟨r, hpush, hwf, hlist⟩ := RingBuffer.push_spec h.wf hlt (call.event t.nextSeq)
  have hring : (traceEmit call m t).2.ring = r := by
    unfold RingBuffer.push at hpush
    rw [if_neg (show t.ring.count ≠ traceCapacity from Nat.ne_of_lt hlt)] at hpush
    rw [hemit, ← Option.some.inj hpush]
    unfold TraceBuffer.ring
    simp only [Nat.mod_add_mod, Nat.add_assoc]
  refine ⟨hring ▸ hwf, ?_, ?_, ?_, ?_⟩
  · rw [hemit, List.length_append]
    show t.nextSeq + 1 = _
    rw [h.nextSeq, BitVec.ofNat_add]
    rfl
  · rw [hemit, List.length_append, List.length_singleton]
    show t.count + 1 = _
    omega
  · rw [hemit, List.length_append, List.length_singleton]
    show t.overwrites = BitVec.ofNat 64 (calls.length + 1 - (t.count + 1))
    rw [h.overwrites, Nat.add_sub_add_right]
  · rw [← TraceBuffer.toList_ring, hring, hlist, TraceBuffer.toList_ring, h.dump, traceEvents_snoc, hemit, h.nextSeq,
      List.length_append, List.length_singleton]
    show _ = List.drop (calls.length + 1 - (t.count + 1)) _
    rw [Nat.add_sub_add_right, List.drop_append_of_le_length (by rw [length_traceEvents]; omega)]

theorem TraceOk.overwrite (h : TraceOk calls t) (hfull : ¬t.count < traceCapacity) (call : TraceCall) (m : Machine) :
    TraceOk (calls ++ [call]) (traceEmit call m t).2 := by
  have hemit : (traceEmit call m t).2 = { t with
      events := Function.update t.events t.head (call.event t.nextSeq)
      head := (t.head + 1) % traceCapacity
      overwrites := t.overwrites + 1
      nextSeq := t.nextSeq + 1 } := by
    unfold traceEmit
    dsimp only
    rw [if_neg hfull]
  have hcap : traceCapacity = 128 := rfl
  have hcount := h.count
  have hlen : t.count = traceCapacity := by omega
  have hhead : t.head < traceCapacity := h.wf.head_lt
  -- the ring without its oldest event, and then with the new one
  cases hl : t.ring.toList traceCapacity with
  | nil =>
    have := RingBuffer.toList_eq_nil.mp hl
    have : t.count = 0 := this
    omega
  | cons x l =>
    obtain ⟨r₁, hpop, hwf₁, hlist₁⟩ := RingBuffer.pop_spec h.wf hl
    unfold RingBuffer.pop at hpop
    rw [if_neg (show t.ring.count ≠ 0 by show t.count ≠ 0; omega)] at hpop
    have hr₁ := (Prod.mk.inj (Option.some.inj hpop)).2
    have hcount₁ : r₁.count = t.count - 1 := by rw [← hr₁]; rfl
    obtain ⟨r, hpush, hwf, hlist⟩ := RingBuffer.push_spec hwf₁ (by omega) (call.event t.nextSeq)
    have hring : (traceEmit call m t).2.ring = r := by
      unfold RingBuffer.push at hpush
      rw [if_neg (by omega)] at hpush
      rw [hemit, ← Option.some.inj hpush, ← hr₁]
      unfold TraceBuffer.ring
      have htail : (t.head + t.count) % traceCapacity = t.head := by
        rw [hlen, Nat.add_mod_right, Nat.mod_eq_of_lt hhead]
      have hnext : ((t.head + 1) % traceCapacity + t.count) % traceCapacity = (t.head + 1) % traceCapacity := by
        rw [hlen, Nat.add_mod_right, Nat.mod_mod]
      simp only [htail, hnext, Nat.sub_add_cancel (show 1 ≤ t.count by omega)]
    refine ⟨hring ▸ hwf, ?_, ?_, ?_, ?_⟩
    · rw [hemit, List.length_append]
      show t.nextSeq + 1 = _
      rw [h.nextSeq, BitVec.ofNat_add]
      rfl
    · rw [hemit, List.length_append, List.length_singleton]
      show t.count = _
      omega
    · rw [hemit, List.length_append, List.length_singleton]
      show t.overwrites + 1 = BitVec.ofNat 64 (calls.length + 1 - t.count)
      rw [h.overwrites, show calls.length + 1 - t.count = calls.length - t.count + 1 by omega, BitVec.ofNat_add]
      rfl
    · have hdump : l = (traceEvents calls).drop (calls.length - t.count + 1) := by
        rw [← List.tail_drop, ← h.dump, ← TraceBuffer.toList_ring, hl]
        rfl
      rw [← TraceBuffer.toList_ring, hring, hlist, hlist₁, hdump, traceEvents_snoc, hemit, h.nextSeq,
        List.length_append, List.length_singleton]
      show _ = List.drop (calls.length + 1 - t.count) _
      rw [show calls.length + 1 - t.count = calls.length - t.count + 1 by omega,
        List.drop_append_of_le_length (by rw [length_traceEvents]; omega)]

theorem TraceOk.emit (h : TraceOk calls t) (call : TraceCall) (m : Machine) :
    TraceOk (calls ++ [call]) (traceEmit call m t).2 := by
  by_cases hlt : t.count < traceCapacity
  · exact h.append hlt call m
  · exact h.overwrite hlt call m

/-- The calls of a run, from the first on. -/
def traceEmits (calls : List TraceCall) (m : Machine) (t : TraceBuffer) : Machine × TraceBuffer :=
  calls.foldl (fun s call => traceEmit call s.1 s.2) (m, t)

theorem traceEmits_ok (h : TraceOk calls t) (more : List TraceCall) (m : Machine) :
    TraceOk (calls ++ more) (traceEmits more m t).2 := by
  induction more generalizing calls t m with
  | nil =>
    rw [List.append_nil]
    exact h
  | cons call more ih =>
    rw [List.append_cons]
    exact ih (h.emit call m) (traceEmit call m t).1

/-- After `trace_init` and any calls of `trace_emit`, the buffer counts its events and those it has overwritten,
and `trace_dump` visits the newest ones in the order of the calls, each as it was emitted. The counters are
64-bit words. -/
theorem traceDump_newest (calls : List TraceCall) (m : Machine) (t₀ : TraceBuffer) :
    let t := (traceEmits calls (traceInit m t₀).1 (traceInit m t₀).2).2
    t.count = min calls.length traceCapacity ∧
      t.overwrites = BitVec.ofNat 64 (calls.length - t.count) ∧
      traceDump t = (traceEvents calls).drop (calls.length - t.count) ∧
      (traceDump t).length = t.count ∧
      ∀ i < t.count, ∃ call, calls[calls.length - t.count + i]? = some call ∧
        (traceDump t)[i]? = some (call.event (BitVec.ofNat 64 (calls.length - t.count + i))) := by
  have h : TraceOk calls (traceEmits calls (traceInit m t₀).1 (traceInit m t₀).2).2 :=
    traceEmits_ok (traceInit_ok m t₀) calls _
  intro t
  have hcount := h.count
  refine ⟨h.count, h.overwrites, h.dump, by rw [traceDump, List.length_map, List.length_range], fun i hi => ?_⟩
  have hlt : calls.length - t.count + i < calls.length := by
    have : t.count = min calls.length traceCapacity := hcount
    omega
  refine ⟨calls[calls.length - t.count + i], List.getElem?_eq_getElem hlt, ?_⟩
  rw [h.dump, List.getElem?_drop]
  show (traceEvents calls)[calls.length - t.count + i]? = _
  rw [traceEvents, List.getElem?_mapIdx, List.getElem?_eq_getElem hlt]
  rfl

end QemuRtos
