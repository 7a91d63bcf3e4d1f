import QemuRtos.Lib.Transition
import QemuRtos.Memory.HeapOps

/-!
# Runs of the kernel heap

Clients allocate, free what they hold, and write inside the blocks they hold, in any order with other users of the page
allocator, which take pages, write in them and give them back. Beside the heap a record says who holds what. `HeapInv`
holds in every state of every run.
-/

namespace QemuRtos

open Lib

/-- What the heap's clients and the other users of the page allocator hold. -/
structure Held where
  blocks : List LiveBlock
  pages : List U64
deriving DecidableEq

variable {σ σ' : HeapState} {s t : HeapState × Held} {held : Held} {size : U64}

inductive HeapOp
  | kmalloc (size : U64)
  | kzalloc (size : U64)
  | kfree (ptr : Nat)
  | pageAlloc
  | pageFree (page : U64)
  /-- Somebody writes bytes. -/
  | write (addr : Nat) (bytes : List Byte)

/-- A step, and the address it returns. -/
def heapExec : HeapOp → HeapState → Except Panic (Nat × HeapState)
  | .kmalloc size, σ => kmalloc size σ
  | .kzalloc size, σ => kzalloc size σ
  | .kfree ptr, σ => do
    let σ ← kfree ptr σ
    .ok (0, σ)
  | .pageAlloc, σ => do
    let (page, machine) ← pageAlloc σ.machine
    .ok (page.toNat, { σ with machine := machine })
  | .pageFree page, σ => do
    let machine ← pageFree page σ.machine
    .ok (0, { σ with machine := machine })
  | .write addr bytes, σ => .ok (0, σ.setMem (σ.machine.mem.writeBytes addr bytes))

/-- Who holds what after a step that has returned `addr`. -/
def Held.after (op : HeapOp) (addr : Nat) (held : Held) : Held :=
  match op with
  | .kmalloc size | .kzalloc size =>
    if addr = 0 then held else { held with blocks := ⟨addr, size⟩ :: held.blocks }
  | .kfree ptr => { held with blocks := dropBlock ptr held.blocks }
  | .pageAlloc => if addr = 0 then held else { held with pages := BitVec.ofNat 64 addr :: held.pages }
  | .pageFree page => { held with pages := held.pages.filter (· ≠ page) }
  | .write _ _ => held

/-- The bytes lie in a block or a page that somebody holds, or outside the pages that the allocator manages. -/
def WriteAllowed (addr len : Nat) (s : HeapState × Held) : Prop :=
  (∃ b ∈ s.2.blocks, b.addr ≤ addr ∧ addr + len ≤ b.addr + b.blockSize) ∨
    (∃ a ∈ s.2.pages, a.toNat ≤ addr ∧ addr + len ≤ a.toNat + pageSize) ∨
    addr + len ≤ s.1.machine.pages.managedStart.toNat ∨ s.1.machine.pages.managedEnd.toNat ≤ addr

instance (addr len : Nat) (s : HeapState × Held) : Decidable (WriteAllowed addr len s) :=
  inferInstanceAs (Decidable (_ ∨ _))

/-- Clients free what they hold, or null, and nobody writes in what is not theirs. -/
def HeapOp.Allowed (op : HeapOp) (s : HeapState × Held) : Prop :=
  match op with
  | .kmalloc _ | .kzalloc _ | .pageAlloc => True
  | .kfree ptr => ptr = 0 ∨ ∃ b ∈ s.2.blocks, b.addr = ptr
  | .pageFree page => page ∈ s.2.pages
  | .write addr bytes => WriteAllowed addr bytes.length s

instance : ∀ (op : HeapOp) (s : HeapState × Held), Decidable (op.Allowed s)
  | .kmalloc _, _ | .kzalloc _, _ | .pageAlloc, _ => .isTrue trivial
  | .kfree ptr, s => inferInstanceAs (Decidable (ptr = 0 ∨ ∃ b ∈ s.2.blocks, b.addr = ptr))
  | .pageFree page, s => inferInstanceAs (Decidable (page ∈ s.2.pages))
  | .write addr bytes, s => inferInstanceAs (Decidable (WriteAllowed addr bytes.length s))

def heapStep (op : HeapOp) (s : HeapState × Held) : Except Panic (HeapState × Held) := do
  let (addr, σ) ← heapExec op s.1
  .ok (σ, s.2.after op addr)

/-- Runs of the heap from `heap_init`, when the other users of the page allocator hold `pages`. -/
structure HeapRun (σ : HeapState) (pages : List U64) (l : List HeapOp) (t : HeapState × Held) : Prop where
  allocator : PagesOk σ.machine.pages
  frames : ∀ a : U64, σ.machine.pages.Allocated a ↔ a ∈ pages
  run : Run heapStep HeapOp.Allowed (heapInit σ, ⟨[], pages⟩) l t

/-- The heap is in order. -/
def HeapInv (s : HeapState × Held) : Prop := ∃ owned free, HeapOk s.2.pages s.1 owned free s.2.blocks

theorem heapInit_inv {pages : List U64} (h : PagesOk σ.machine.pages)
    (hframes : ∀ a : U64, σ.machine.pages.Allocated a ↔ a ∈ pages) : HeapInv (heapInit σ, ⟨[], pages⟩) := by
  refine ⟨[], fun _ => [], h, rfl, fun _ _ => rfl, ?_, fun a => ?_, ?_, List.nodup_nil, fun _ _ => rfl, ?_, rfl, rfl, rfl,
    rfl, ?_, ?_, List.nodup_nil⟩
  · intro x hx
    cases hx
  · constructor
    · exact fun ha => .inl ((hframes a).mp ha)
    · rintro (ha | ⟨x, hx, -⟩)
      · exact (hframes a).mpr ha
      · cases hx
  · intro x hx
    cases hx
  · intro x hx
    cases hx
  · intro b hb
    cases hb
  · intro x hx
    cases hx

theorem writeBytes_outside (m : Mem) {addr a : Nat} {bytes : List Byte} (h : a < addr ∨ addr + bytes.length ≤ a) :
    m.writeBytes addr bytes a = m a := by
  rw [Mem.writeBytes]
  split
  · rw [List.getElem?_eq_none (by omega), Option.getD_none]
  · rfl

theorem HeapOk.write_allowed {owned : List (Nat × Nat)} {free : Nat → List Nat}
    (h : HeapOk held.pages σ owned free held.blocks) {addr : Nat} {bytes : List Byte}
    (ha : WriteAllowed addr bytes.length (σ, held)) :
    HeapOk held.pages (σ.setMem (σ.machine.mem.writeBytes addr bytes)) owned free held.blocks := by
  rcases ha with ⟨b, hb, hge, hle⟩ | hout
  · exact h.write hb fun a ha => writeBytes_outside _ (by omega)
  · refine h.write_outside fun x hx a h1 h2 => writeBytes_outside _ ?_
    obtain ⟨d, hd, hm, hnot⟩ := h.held x hx
    rcases hout with ⟨q, hq, hge, hle⟩ | hout
    · -- a page that somebody else holds is not one of the heap
      have hqm : σ.machine.pages.Managed q := ((h.frames q).mpr (.inl hq)).1
      have hqp : PagePlace q.toNat :=
        ⟨hqm.aligned, Nat.pos_of_ne_zero fun hz => hqm.ne_zero h.allocator (BitVec.eq_of_toNat_eq hz),
          Managed.end_le h.allocator hqm⟩
      have hne : x.2 ≠ q.toNat := by
        intro he
        rw [BitVec.eq_of_toNat_eq (hd.symm.trans he)] at hnot
        exact hnot hq
      have hapart := hqp.apart (h.place hx) hne
      omega
    · have hstart := hm.start_le
      have hend := hm.lt_end
      have h3 := h.allocator.end_eq
      have h4 := h.allocator.start_align
      have h5 := hm.aligned
      dsimp only at hout
      simp only [pageSize] at *
      omega

/-- A step that keeps to the rules succeeds, and keeps the heap in order. -/
theorem heapExec_ok {op : HeapOp} (h : HeapInv (σ, held)) (ha : op.Allowed (σ, held)) :
    ∃ addr σ', heapExec op σ = .ok (addr, σ') ∧ HeapInv (σ', held.after op addr) := by
  obtain ⟨owned, free, hok⟩ := h
  cases op with
  | kmalloc size =>
    rcases kmalloc_cases hok size with ⟨heq, -⟩ | ⟨c, block, σ', -, -, heq, hserved⟩
    · exact ⟨0, σ, heq, owned, free, hok⟩
    · obtain ⟨owned', free', hok'⟩ := hserved.ok
      refine ⟨block, σ', heq, owned', free', ?_⟩
      rw [Held.after, if_neg hserved.ne_zero]
      exact hok'
  | kzalloc size =>
    rcases kmalloc_cases hok size with ⟨heq, -⟩ | ⟨c, block, σ', -, -, heq, hserved⟩
    · exact ⟨0, σ, kzalloc_null heq, owned, free, hok⟩
    · obtain ⟨owned', free', hok'⟩ := hserved.ok
      refine ⟨block, _, kzalloc_eq heq hserved, owned', free', ?_⟩
      rw [Held.after, if_neg hserved.ne_zero]
      exact hok'.write List.mem_cons_self fun a ha => Mem.fill_of_disjoint _ _ ha
  | kfree ptr =>
    rcases ha with rfl | ⟨b, hb, rfl⟩
    · refine ⟨0, σ, rfl, owned, free, ?_⟩
      have hsame : dropBlock 0 held.blocks = held.blocks := by
        refine List.filter_eq_self.mpr fun b hb => decide_eq_true fun hz => ?_
        obtain ⟨x, hx, i, -, -, hplace⟩ := hok.block hb
        have hge := hplace.ge
        omega
      rw [Held.after, hsame]
      exact hok
    · obtain ⟨x, -, i, -, heq, -, hok'⟩ := kfree_eq hok hb
      refine ⟨0, σ.give x i, ?_, owned, _, hok'⟩
      rw [heapExec, heq]
      rfl
  | pageAlloc =>
    obtain ⟨a, pages, heq, hpages, hcase⟩ := pageAlloc_spec hok.allocator
    refine ⟨a.toNat, _, by rw [heapExec, heq]; rfl, owned, free, ?_⟩
    rcases hcase with ⟨rfl, rfl, -⟩ | ⟨hne, ht⟩
    · exact hok
    · have hz : a.toNat ≠ 0 := fun hz => hne (BitVec.eq_of_toNat_eq hz)
      rw [Held.after, if_neg hz, BitVec.ofNat_toNat, BitVec.setWidth_eq]
      exact hok.lend hpages ht
  | pageFree page =>
    obtain ⟨pages, heq, hpages, hg⟩ := pageFree_spec hok.allocator ((hok.frames page).mpr (.inl ha))
    exact ⟨0, _, by rw [heapExec, heq]; rfl, owned, free, hok.unlend ha hpages hg⟩
  | write addr bytes => exact ⟨0, _, rfl, owned, free, hok.write_allowed ha⟩

theorem heapStep_ok {op : HeapOp} (h : HeapInv s) (ha : op.Allowed s) :
    ∃ t, heapStep op s = .ok t ∧ HeapInv t := by
  obtain ⟨addr, σ', heq, hinv⟩ := heapExec_ok h ha
  refine ⟨(σ', s.2.after op addr), ?_, hinv⟩
  rw [heapStep, heq]
  rfl

theorem HeapInv.step {op : HeapOp} (h : HeapInv s) (ha : op.Allowed s) (hx : heapStep op s = .ok t) : HeapInv t := by
  obtain ⟨t', heq, hinv⟩ := heapStep_ok h ha
  rw [heq] at hx
  obtain rfl := Except.ok.inj hx
  exact hinv

theorem HeapRun.inv {pages : List U64} {l : List HeapOp} (h : HeapRun σ pages l t) : HeapInv t :=
  Run.invariant (fun _ _ _ hi ha hx => hi.step ha hx) h.run (heapInit_inv h.allocator h.frames)

/-- The heap after `heap_init`, over two pages that nobody holds. -/
def heapSampleStart : Except Panic (HeapState × Held) := do
  let m ← pageInit 0x80040000 0x80042000 sampleMachine
  .ok (heapInit ⟨m, ⟨fun _ => ⟨0, 0⟩, 0, 0, 0, false⟩⟩, ⟨[], []⟩)

theorem heapRun_of_check {l : List HeapOp} {p : HeapState × Held → Bool}
    (h : succeeds (checkRun heapStep HeapOp.Allowed p l) heapSampleStart = true) :
    ∃ σ t, HeapRun σ [] l t ∧ p t = true := by
  obtain ⟨s, t, hs, hrun, hp⟩ := run_of_startCheck h
  obtain ⟨m, hm, hs⟩ := bind_eq_ok.mp hs
  obtain rfl := Except.ok.inj hs
  obtain ⟨p', rfl, hok, hfree, -⟩ := pageInit_ok hm (by decide)
  exact ⟨_, t, ⟨hok, fun a => iff_of_false (hfree a) List.not_mem_nil, hrun⟩, hp⟩

end QemuRtos
