import QemuRtos.Arch.Trap
import QemuRtos.Memory.UserSpace

/-!
# A trap leaves no trace

The three supported entries of the supervisor trap vector store the interrupted context in a frame and call the
handler with it; a frame the handler leaves alone brings the context back. The save and the restore sequences are run
symbolically, so what is checked is which word of the frame each register goes to and comes from.
-/

namespace QemuRtos

open Lib Lib.Riscv

/-- How a trap reaches the vector: from supervisor mode, from user mode with a kernel stack in `sscratch`, or from
user mode under the user page table, with the trap context in `sscratch`. -/
inductive TrapOrigin
  | supervisor
  | userStack
  | userTrampoline
  deriving DecidableEq

namespace TrapOrigin

/-- Where the hart starts. -/
def vector : TrapOrigin → TrapLabel
  | .supervisor | .userStack => .trapEntry
  | .userTrampoline => .userTrapEntry

def text : TrapOrigin → Program TrapLabel
  | .supervisor | .userStack => trapText
  | .userTrampoline => trampolineText

/-- What `sscratch` holds outside the handler. -/
def scratch (top : Word) : TrapOrigin → Word
  | .supervisor => 0
  | .userStack => top
  | .userTrampoline => userTrapContextVa

/-- The virtual address of the frame. -/
def frame (top sp : Word) : TrapOrigin → Word
  | .supervisor => sp + BitVec.ofInt 64 (-tfSize)
  | .userStack => top + BitVec.ofInt 64 (-tfSize)
  | .userTrampoline => userTrapContextVa

def user : TrapOrigin → Bool
  | .supervisor => false
  | .userStack | .userTrampoline => true

/-- The instruction that leaves the assembler text for the handler. -/
def handlerCall : TrapOrigin → Instr TrapLabel
  | .supervisor | .userStack => .call .trapHandle
  | .userTrampoline => .jr .t1

/-- Where the handler returns to. -/
def restore : TrapOrigin → TrapLabel
  | .supervisor | .userStack => .trapRestore
  | .userTrampoline => .userTrampolineUserret

/-- The bytes that hold the frame and, on the trampoline, the words behind it that the kernel left for the entry. -/
def size : TrapOrigin → Nat
  | .supervisor | .userStack => 280
  | .userTrampoline => 328

/-- The frame as the symbolic entry addresses it. -/
def entryFrame : TrapOrigin → Riscv.Frame TrapLabel
  | .supervisor => ⟨.reg .sp, BitVec.ofInt 64 (-tfSize), .sum (.csr .satp) 0, 280, 280⟩
  | .userStack => ⟨.csr .sscratch, BitVec.ofInt 64 (-tfSize), .sum (.csr .satp) 0, 280, 280⟩
  | .userTrampoline => ⟨.csr .sscratch, 0, .sum (.csr .satp) 0, 328, 280⟩

def entryFacts : TrapOrigin → List (Val TrapLabel × Bool)
  | .supervisor => [(.sum (.csr .sscratch) 0, false)]
  | .userStack => [(.sum (.csr .sscratch) 0, true)]
  | .userTrampoline => []

/-- The frame as the symbolic return addresses it: nothing of it is written. -/
def returnFrame : TrapOrigin → Riscv.Frame TrapLabel
  | .supervisor | .userStack => ⟨.reg .a0, 0, .sum (.csr .satp) 0, 280, 0⟩
  | .userTrampoline => ⟨.reg .a1, 0, .sum (.reg .a0) 0, 280, 0⟩

/-- The return path reads the mode it returns to from the saved status. -/
def returnFacts : TrapOrigin → List (Val TrapLabel × Bool)
  | .supervisor => [(.band (.word tfMstatus) 0x100, true)]
  | .userStack => [(.band (.word tfMstatus) 0x100, false)]
  | .userTrampoline => []

def entryRun (o : TrapOrigin) : List (Instr TrapLabel) × Sym TrapLabel :=
  Sym.run o.entryFrame o.entryFacts o.text 80 ([.j o.vector], Sym.init)

def returnRun (o : TrapOrigin) : List (Instr TrapLabel) × Sym TrapLabel :=
  Sym.run o.returnFrame o.returnFacts o.text 80 ([.j o.restore], Sym.init)

/-! ### The two symbolic runs -/

theorem entryRun_call (o : TrapOrigin) : o.entryRun.1.head? = some o.handlerCall := by
  cases o <;> decide +kernel

theorem entryRun_saves (o : TrapOrigin) :
    (∀ r, r ≠ .zero → o.entryRun.2.slots (TrapField.reg r).offset = .sum (.reg r) 0) ∧
      o.entryRun.2.slots TrapField.mepc.offset = .sum (.csr .sepc) 0 ∧
      o.entryRun.2.slots TrapField.mstatus.offset = .sum (.csr .sstatus) 0 := by
  cases o <;> decide +kernel

theorem entryRun_args (o : TrapOrigin) :
    (o = .userTrampoline → o.entryRun.2.get .t1 = .sum (.word utcKernelTrapHandler) 0 ∧
      o.entryRun.2.get .a0 = .sum (.word utcKernelTrapContext) 0 ∧
      o.entryRun.2.csrs .satp = .sum (.word utcKernelSatp) 0) ∧
    (o ≠ .userTrampoline →
      o.entryRun.2.get .a0 = .sum o.entryFrame.source o.entryFrame.offset) := by
  cases o <;> decide +kernel

theorem returnRun_sret (o : TrapOrigin) : o.returnRun.1.head? = some .sret := by
  cases o <;> decide +kernel

theorem returnRun_loads (o : TrapOrigin) :
    (∀ r, r ≠ .zero → o.returnRun.2.get r = .sum (.word (TrapField.reg r).offset) 0) ∧
      o.returnRun.2.csrs .sepc = .sum (.word TrapField.mepc.offset) 0 ∧
      o.returnRun.2.csrs .sstatus = .sum (.word TrapField.mstatus.offset) 0 := by
  cases o <;> decide +kernel

/-- What the return leaves in `sscratch`. -/
def returnScratch : TrapOrigin → Val TrapLabel
  | .supervisor => .sum .zero 0
  | .userStack => .sum (.reg .a0) (BitVec.ofInt 64 tfSize)
  | .userTrampoline => .sum (.reg .a1) 0

theorem returnRun_scratch (o : TrapOrigin) : o.returnRun.2.csrs .sscratch = o.returnScratch := by
  cases o <;> decide +kernel

/-! ### The entry -/

/-- The hart is about to enter the vector: `sscratch` is what the kernel left there, and the current page table maps
the frame to the physical bytes from `base` on. -/
structure Ready (o : TrapOrigin) (E : Env TrapLabel) (c : Cpu) (top : Word) (base : Nat) : Prop where
  scratch : c.csrs .sscratch = o.scratch top
  stack : o = .userStack → top ≠ 0
  mapped : Mapped E base (c.csrs .satp) (o.frame top (c.get .sp)) o.size

/-- The frame at `base` holds the context of `c`. -/
structure Saved (c : Cpu) (base : Nat) (m : Mem) : Prop where
  regs : ∀ r, r ≠ .zero → m.load64 (base + (TrapField.reg r).offset) = c.get r
  mepc : m.load64 (base + TrapField.mepc.offset) = c.csrs .sepc
  mstatus : m.load64 (base + TrapField.mstatus.offset) = c.csrs .sstatus

variable {E : Env TrapLabel} {o : TrapOrigin} {c c₂ : Cpu} {top : Word} {base : Nat}

theorem offset_aligned (f : TrapField) (hf : f ∈ trapFrame) : f.offset % 8 = 0 ∧ f.offset + 8 ≤ 280 := by
  have hlt : trapFrame.idxOf f < 35 := List.idxOf_lt_length_iff.mpr hf
  unfold TrapField.offset
  omega

theorem reg_mem_trapFrame {r : Reg} (hr : r ≠ .zero) : TrapField.reg r ∈ trapFrame := by
  revert r
  decide

theorem entryFrame_size (o : TrapOrigin) : o.entryFrame.size = o.size ∧ o.entryFrame.writable = 280 := by
  cases o <;> exact ⟨rfl, rfl⟩

theorem size_ge (o : TrapOrigin) : 280 ≤ o.size := by cases o <;> decide

theorem Ready.frame (h : o.Ready E c top base) :
    o.entryFrame.source.denote E c base + o.entryFrame.offset = o.frame top (c.get .sp) := by
  cases o with
  | supervisor => rfl
  | userStack => exact congrArg (· + BitVec.ofInt 64 (-tfSize)) h.scratch
  | userTrampoline =>
    show c.csrs .sscratch + 0 = _
    rw [h.scratch]
    exact BitVec.add_zero _

theorem Ready.facts (h : o.Ready E c top base) (v : Val TrapLabel) (b : Bool)
    (hv : o.entryFacts.lookup v = some b) : (v.denote E c base ≠ 0 ↔ b = true) := by
  have hscratch : (Val.sum (.csr .sscratch) 0 : Val TrapLabel).denote E c base = o.scratch top :=
    (BitVec.add_zero _).trans h.scratch
  cases o with
  | supervisor =>
    refine facts_single ?_ v b hv
    rw [hscratch]
    simp [TrapOrigin.scratch]
  | userStack =>
    refine facts_single ?_ v b hv
    rw [hscratch]
    simpa [TrapOrigin.scratch] using h.stack rfl
  | userTrampoline => exact facts_nil v b hv

/-- The entry reaches the handler with the context saved, and writes nothing but the frame. -/
theorem Ready.enters (h : o.Ready E c top base) :
    ∃ c₁ rest, Reaches E o.text ([.j o.vector], c) (o.handlerCall :: rest, c₁) ∧ Saved c base c₁.mem ∧
      (∀ a, a < base ∨ base + 280 ≤ a → c₁.mem a = c.mem a) ∧
      (o = .userTrampoline → c₁.get .t1 = c.mem.load64 (base + utcKernelTrapHandler) ∧
        c₁.get .a0 = c.mem.load64 (base + utcKernelTrapContext) ∧
        c₁.csrs .satp = c.mem.load64 (base + utcKernelSatp)) ∧
      (o ≠ .userTrampoline → c₁.get .a0 = o.frame top (c.get .sp)) := by
  obtain ⟨hsize, hwritable⟩ := o.entryFrame_size
  have hmap : Mapped E base (o.entryFrame.space.denote E c base)
      (o.entryFrame.source.denote E c base + o.entryFrame.offset) o.entryFrame.size := by
    rw [h.frame, hsize]
    have hspace : o.entryFrame.space.denote E c base = c.csrs .satp := by cases o <;> exact BitVec.add_zero _
    rw [hspace]
    exact h.mapped
  obtain ⟨c₁, hreach, hden⟩ := (Sym.Denotes.init (F := o.entryFrame)).run (p := o.text) hmap
    (by rw [hsize, hwritable]; exact o.size_ge) h.facts 80 [.j o.vector]
  obtain ⟨rest, hrest⟩ := List.head?_eq_some_iff.mp o.entryRun_call
  obtain ⟨hregs, hmepc, hmstatus⟩ := o.entryRun_saves
  -- A word of the frame holds what the symbolic run put there.
  have hword : ∀ f ∈ trapFrame, ∀ s, o.entryRun.2.slots f.offset = .sum s 0 →
      c₁.mem.load64 (base + f.offset) = s.denote E c base := by
    intro f hf s hs
    obtain ⟨h8, hlt⟩ := offset_aligned f hf
    rw [hden.slots _ h8 (by rw [hsize]; exact hlt.trans o.size_ge)]
    exact (congrArg (Val.denote E c base) hs).trans (BitVec.add_zero _)
  refine ⟨c₁, rest, ?_, ⟨fun r hr => ?_, ?_, ?_⟩, ?_, fun ho => ?_, fun ho => ?_⟩
  · rw [← hrest]
    exact hreach
  · exact hword _ (reg_mem_trapFrame hr) _ (hregs r hr)
  · exact hword _ (by decide) _ hmepc
  · exact hword _ (by decide) _ hmstatus
  · rw [← hwritable]
    exact hden.outside
  · obtain ⟨ht1, ha0, hsatp⟩ := o.entryRun_args.1 ho
    exact ⟨(hden.regs _).trans ((congrArg (Val.denote E c base) ht1).trans (BitVec.add_zero _)),
      (hden.regs _).trans ((congrArg (Val.denote E c base) ha0).trans (BitVec.add_zero _)),
      (hden.csrs _).trans ((congrArg (Val.denote E c base) hsatp).trans (BitVec.add_zero _))⟩
  · exact (hden.regs _).trans ((congrArg (Val.denote E c base) (o.entryRun_args.2 ho)).trans h.frame)

/-! ### The return -/

/-- The handler is done with the frame at `base`, whose words are those of `m`, and hands it to the return path: in
`a0`, or as the page table and the virtual address `trap_return_to_user` passes. -/
structure Returned (o : TrapOrigin) (E : Env TrapLabel) (c : Cpu) (top : Word) (base : Nat) (m : Mem) (c₂ : Cpu) :
    Prop where
  kept : ∀ a, base ≤ a → a < base + 280 → c₂.mem a = m a
  space : (if o = .userTrampoline then c₂.get .a0 else c₂.csrs .satp) = c.csrs .satp
  arg : c₂.get (if o = .userTrampoline then .a1 else .a0) = o.frame top (c.get .sp)

theorem Saved.congr {m m' : Mem} (h : Saved c base m) (hm : ∀ a, base ≤ a → a < base + 280 → m' a = m a) :
    Saved c base m' := by
  have hword : ∀ f ∈ trapFrame, m'.load64 (base + f.offset) = m.load64 (base + f.offset) := by
    intro f hf
    obtain ⟨-, hlt⟩ := offset_aligned f hf
    exact Mem.load64_congr fun a h1 h2 => hm a (by omega) (by omega)
  exact ⟨fun r hr => (hword _ (reg_mem_trapFrame hr)).trans (h.regs r hr), (hword _ (by decide)).trans h.mepc,
    (hword _ (by decide)).trans h.mstatus⟩

theorem Saved.facts (h : Saved c base c₂.mem) (hspp : c.csrs .sstatus &&& 0x100 = if o.user then 0 else 0x100)
    (v : Val TrapLabel) (b : Bool) (hv : o.returnFacts.lookup v = some b) : (v.denote E c₂ base ≠ 0 ↔ b = true) := by
  have hband : (Val.band (.word tfMstatus) 0x100 : Val TrapLabel).denote E c₂ base = c.csrs .sstatus &&& 0x100 :=
    congrArg (· &&& (0x100 : Word)) h.mstatus
  cases o with
  | supervisor =>
    refine facts_single ?_ v b hv
    rw [hband, hspp]
    decide
  | userStack =>
    refine facts_single ?_ v b hv
    rw [hband, hspp]
    decide
  | userTrampoline => exact facts_nil v b hv

/-- From a saved context the return path reaches `sret` with that context in the hart, and writes no memory. -/
theorem Returned.returns {m : Mem} (h : o.Returned E c top base m c₂) (hready : o.Ready E c top base)
    (hsaved : Saved c base m) (hspp : c.csrs .sstatus &&& 0x100 = if o.user then 0 else 0x100) :
    ∃ c₃ rest, Reaches E o.text ([.j o.restore], c₂) (.sret :: rest, c₃) ∧ (∀ r, c₃.get r = c.get r) ∧
      c₃.csrs .sepc = c.csrs .sepc ∧ c₃.csrs .sstatus = c.csrs .sstatus ∧
      c₃.csrs .sscratch = o.scratch top ∧ c₃.mem = c₂.mem := by
  have hsaved₂ := hsaved.congr h.kept
  have hframe : o.returnFrame.source.denote E c₂ base + o.returnFrame.offset = o.frame top (c.get .sp) := by
    refine Eq.trans ?_ h.arg
    cases o <;> exact BitVec.add_zero _
  have hmap : Mapped E base (o.returnFrame.space.denote E c₂ base)
      (o.returnFrame.source.denote E c₂ base + o.returnFrame.offset) o.returnFrame.size := by
    have hspace : o.returnFrame.space.denote E c₂ base = c.csrs .satp := by
      refine Eq.trans ?_ h.space
      cases o <;> exact BitVec.add_zero _
    rw [hframe, hspace, show o.returnFrame.size = 280 by cases o <;> rfl]
    exact fun k hk => hready.mapped k (hk.trans_le o.size_ge)
  obtain ⟨c₃, hreach, hden⟩ := (Sym.Denotes.init (F := o.returnFrame)).run (p := o.text) hmap
    (by cases o <;> decide) (hsaved₂.facts hspp) 80 [.j o.restore]
  obtain ⟨rest, hrest⟩ := List.head?_eq_some_iff.mp o.returnRun_sret
  obtain ⟨hregs, hsepc, hsstatus⟩ := o.returnRun_loads
  have hword : ∀ k, (Val.sum (.word k) 0 : Val TrapLabel).denote E c₂ base = c₂.mem.load64 (base + k) :=
    fun k => BitVec.add_zero _
  refine ⟨c₃, rest, ?_, fun r => ?_, ?_, ?_, ?_, ?_⟩
  · rw [← hrest]
    exact hreach
  · by_cases hr : r = .zero
    · rw [hr, Cpu.get_zero, Cpu.get_zero]
    · exact (hden.regs r).trans ((congrArg (Val.denote E c₂ base) (hregs r hr)).trans
        ((hword _).trans (hsaved₂.regs r hr)))
  · exact (hden.csrs _).trans ((congrArg (Val.denote E c₂ base) hsepc).trans ((hword _).trans hsaved₂.mepc))
  · exact (hden.csrs _).trans ((congrArg (Val.denote E c₂ base) hsstatus).trans ((hword _).trans hsaved₂.mstatus))
  · refine (hden.csrs _).trans ((congrArg (Val.denote E c₂ base) o.returnRun_scratch).trans ?_)
    have harg := h.arg
    cases o with
    | supervisor => exact BitVec.add_zero _
    | userStack =>
      -- The frame ends where the stack starts.
      show c₂.get .a0 + BitVec.ofInt 64 tfSize = top
      rw [show c₂.get .a0 = top + BitVec.ofInt 64 (-tfSize) from harg, BitVec.add_assoc,
        show BitVec.ofInt 64 (-tfSize) + BitVec.ofInt 64 tfSize = 0#64 by decide, BitVec.add_zero]
    | userTrampoline => exact (BitVec.add_zero _).trans harg
  · funext a
    exact hden.outside a (by rw [show o.returnFrame.writable = 0 by cases o <;> rfl]; omega)

end TrapOrigin

open TrapOrigin in
/-- A trap whose handler returns the frame as it got it: the hart is back where it was, with `sscratch` ready for
the next trap, and only the frame was written on the way in. -/
theorem trap_roundTrip (E : Env TrapLabel) (o : TrapOrigin) (hart : Cpu) (pc cause value top : Word) (base : Nat)
    (hready : o.Ready E (hart.takeTrap o.user pc cause value) top base) :
    ∃ c₁ rest, Reaches E o.text ([.j o.vector], hart.takeTrap o.user pc cause value) (o.handlerCall :: rest, c₁) ∧
      (∀ a, a < base ∨ base + 280 ≤ a → c₁.mem a = hart.mem a) ∧
      (o = .userTrampoline → c₁.get .t1 = hart.mem.load64 (base + utcKernelTrapHandler) ∧
        c₁.get .a0 = hart.mem.load64 (base + utcKernelTrapContext) ∧
        c₁.csrs .satp = hart.mem.load64 (base + utcKernelSatp)) ∧
      (o ≠ .userTrampoline → c₁.get .a0 = o.frame top (hart.get .sp)) ∧
      ∀ c₂, o.Returned E (hart.takeTrap o.user pc cause value) top base c₁.mem c₂ →
        ∃ c₃ rest, Reaches E o.text ([.j o.restore], c₂) (.sret :: rest, c₃) ∧ (∀ r, c₃.get r = hart.get r) ∧
          c₃.csrs .sepc = pc ∧ c₃.csrs .sstatus = trapStatus o.user (hart.csrs .sstatus) ∧
          c₃.csrs .sscratch = o.scratch top ∧ c₃.mem = c₂.mem := by
  obtain ⟨c₁, rest, hreach, hsaved, hout, hcontext, harg⟩ := hready.enters
  exact ⟨c₁, rest, hreach, hout, hcontext, harg, fun c₂ h =>
    h.returns hready hsaved (trapStatus_spp o.user (hart.csrs .sstatus))⟩

/-- A hart in supervisor mode under the identity map, with its stack pointer in RAM. -/
def sampleHart : Cpu := ⟨fun _ => 0x80100000, fun _ => 0, fun _ => 0⟩

def sampleEnv : Env TrapLabel := ⟨fun _ va => va.toNat, fun _ => 0⟩

theorem trap_roundTrip_sample :
    ∃ c₂ c₃ rest, Reaches sampleEnv trapText ([.j .trapRestore], c₂) (.sret :: rest, c₃) ∧
      c₃.get .sp = 0x80100000 ∧ c₃.csrs .sepc = 0x80000040 ∧ c₃.csrs .sstatus = 0x100 ∧ c₃.csrs .sscratch = 0 := by
  obtain ⟨c₁, -, -, -, -, harg, hreturn⟩ := trap_roundTrip sampleEnv .supervisor sampleHart 0x80000040 3 0 0 0x800ffee0
    ⟨rfl, by decide, by unfold Mapped; decide +kernel⟩
  obtain ⟨c₃, rest, hreach, hregs, hsepc, hsstatus, hscratch, -⟩ := hreturn (c₁.setCsr .satp 0)
    ⟨fun _ _ _ => rfl, rfl, harg (by decide)⟩
  exact ⟨_, c₃, rest, hreach, hregs .sp, hsepc, hsstatus.trans (by decide), hscratch⟩

end QemuRtos
