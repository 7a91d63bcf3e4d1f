import Mathlib.Logic.Relation
import Mathlib.Tactic.Ring
import Mathlib.Data.BitVec
import Mathlib.Data.Fintype.Defs
import Mathlib.Data.Fintype.Basic
import QemuRtos.Lib.ByteMem

/-!
# Straight-line RISC-V assembly

The instructions of 64-bit trap vectors: loads and stores of double words, moves between registers and control
registers, and forward branches. A program is a list of labelled blocks in text order; control is the code that is
left to run, so a branch to a label continues with the text from there on (`Program.codeAt`), and a run ends at an
instruction that leaves the text (`call`, `jr`, `sret`, `mret`).

Loads and stores go through the translation of the current `satp`. `sret` and `mret` end a run, so what a run says
about registers is what the interrupted code sees.
-/

namespace Lib.Riscv

abbrev Word := BitVec 64

inductive Reg
  | zero | ra | sp | gp | tp | t0 | t1 | t2 | s0 | s1 | a0 | a1 | a2 | a3 | a4 | a5 | a6 | a7
  | s2 | s3 | s4 | s5 | s6 | s7 | s8 | s9 | s10 | s11 | t3 | t4 | t5 | t6
  deriving DecidableEq, Repr

def Reg.all : List Reg :=
  [.zero, .ra, .sp, .gp, .tp, .t0, .t1, .t2, .s0, .s1, .a0, .a1, .a2, .a3, .a4, .a5, .a6, .a7,
    .s2, .s3, .s4, .s5, .s6, .s7, .s8, .s9, .s10, .s11, .t3, .t4, .t5, .t6]

instance : Fintype Reg where
  elems := ⟨Reg.all, by decide⟩
  complete r := by cases r <;> decide

inductive Csr
  | sstatus | stvec | sscratch | sepc | scause | stval | satp
  | mstatus | mscratch | mepc | mcause | mtval
  deriving DecidableEq, Repr

inductive Instr (L : Type)
  | sd (src : Reg) (off : Nat) (base : Reg)
  | ld (dst : Reg) (off : Nat) (base : Reg)
  | csrrw (dst : Reg) (csr : Csr) (src : Reg)
  | csrr (dst : Reg) (csr : Csr)
  | csrw (csr : Csr) (src : Reg)
  | addi (dst src : Reg) (imm : Int)
  | andi (dst src : Reg) (imm : Int)
  | mv (dst src : Reg)
  | la (dst : Reg) (l : L)
  | sfenceVma
  | bnez (src : Reg) (l : L)
  | j (l : L)
  | jr (src : Reg)
  | call (l : L)
  | sret
  | mret
  deriving DecidableEq, Repr

structure Cpu where
  regs : Reg → Word
  csrs : Csr → Word
  mem : Mem

/-- What an instruction depends on outside the registers: the translation of a virtual address under a value of
`satp`, and where the linker placed each label. -/
structure Env (L : Type) where
  translate : Word → Word → Nat
  address : L → Word

/-- Labelled blocks in text order. -/
abbrev Program (L : Type) := List (L × List (Instr L))

variable {L : Type} [DecidableEq L]

/-- The text from a label on, through the blocks that follow it. -/
def Program.codeAt (p : Program L) (l : L) : Option (List (Instr L)) :=
  match p with
  | [] => none
  | (l', block) :: rest =>
    if l = l' then some (block ++ rest.flatMap Prod.snd) else Program.codeAt rest l

/-- A function with one value replaced. -/
def upd {α β : Type} [DecidableEq α] (f : α → β) (a : α) (b : β) : α → β := fun x => if x = a then b else f x

@[simp] theorem upd_self {α β : Type} [DecidableEq α] (f : α → β) (a : α) (b : β) : upd f a b a = b :=
  if_pos rfl

theorem upd_of_ne {α β : Type} [DecidableEq α] (f : α → β) {a x : α} (b : β) (h : x ≠ a) : upd f a b x = f x :=
  if_neg h

namespace Cpu

/-- Register reads: `zero` is 0. -/
def get (c : Cpu) (r : Reg) : Word := if r = .zero then 0 else c.regs r

/-- Register writes: those to `zero` are dropped. -/
def set (c : Cpu) (r : Reg) (v : Word) : Cpu := if r = .zero then c else { c with regs := upd c.regs r v }

def setCsr (c : Cpu) (x : Csr) (v : Word) : Cpu := { c with csrs := upd c.csrs x v }

@[simp] theorem get_zero (c : Cpu) : c.get .zero = 0 := rfl

@[simp] theorem set_csrs (c : Cpu) (r : Reg) (v : Word) : (c.set r v).csrs = c.csrs := by
  unfold set
  split <;> rfl

@[simp] theorem set_mem (c : Cpu) (r : Reg) (v : Word) : (c.set r v).mem = c.mem := by
  unfold set
  split <;> rfl

theorem get_set (c : Cpu) (r x : Reg) (v : Word) :
    (c.set r v).get x = if x = r ∧ r ≠ .zero then v else c.get x := by
  by_cases hr : r = .zero
  · rw [set, if_pos hr, if_neg fun h => h.2 hr]
  · rw [set, if_neg hr]
    by_cases hx : x = r
    · rw [if_pos ⟨hx, hr⟩, hx, get, if_neg hr]
      exact upd_self _ _ _
    · rw [if_neg fun h => hx h.1, get, get]
      show (if x = .zero then 0 else upd c.regs r v x) = _
      rw [upd_of_ne _ _ hx]

@[simp] theorem setCsr_get (c : Cpu) (x : Csr) (v : Word) (r : Reg) : (c.setCsr x v).get r = c.get r := rfl

@[simp] theorem setCsr_mem (c : Cpu) (x : Csr) (v : Word) : (c.setCsr x v).mem = c.mem := rfl

@[simp] theorem setCsr_csrs (c : Cpu) (x : Csr) (v : Word) : (c.setCsr x v).csrs = upd c.csrs x v := rfl

/-- The physical address of `off(base)`. -/
def address (E : Env L) (c : Cpu) (base : Reg) (off : Nat) : Nat :=
  E.translate (c.csrs .satp) (c.get base + BitVec.ofNat 64 off)

end Cpu

/-- One instruction: the code left to run and the new state, `none` where the text is left. -/
def step (E : Env L) (p : Program L) : List (Instr L) × Cpu → Option (List (Instr L) × Cpu)
  | ([], _) => none
  | (i :: rest, c) =>
    match i with
    | .sd src off base => some (rest, { c with mem := c.mem.store64 (c.address E base off) (c.get src) })
    | .ld dst off base => some (rest, c.set dst (c.mem.load64 (c.address E base off)))
    | .csrrw dst x src => some (rest, (c.setCsr x (c.get src)).set dst (c.csrs x))
    | .csrr dst x => some (rest, c.set dst (c.csrs x))
    | .csrw x src => some (rest, c.setCsr x (c.get src))
    | .addi dst src imm => some (rest, c.set dst (c.get src + BitVec.ofInt 64 imm))
    | .andi dst src imm => some (rest, c.set dst (c.get src &&& BitVec.ofInt 64 imm))
    | .mv dst src => some (rest, c.set dst (c.get src))
    | .la dst l => some (rest, c.set dst (E.address l))
    | .sfenceVma => some (rest, c)
    | .bnez src l => if c.get src = 0 then some (rest, c) else (p.codeAt l).map (·, c)
    | .j l => (p.codeAt l).map (·, c)
    | .jr _ | .call _ | .sret | .mret => none

/-- From the first code and state the program reaches the second. -/
def Reaches (E : Env L) (p : Program L) : List (Instr L) × Cpu → List (Instr L) × Cpu → Prop :=
  Relation.ReflTransGen fun x y => step E p x = some y

/-! ### Traps -/

/-- `sstatus` after a trap: SIE moves to SPIE and is cleared, SPP tells whether the hart was in supervisor mode. -/
def trapStatus (user : Bool) (status : Word) : Word :=
  (status &&& ~~~(0x122 : Word)) ||| ((status &&& 2) <<< 4) ||| (if user then 0 else 0x100)

/-- What the hart does on a trap to supervisor mode, before the first instruction of the vector. -/
def Cpu.takeTrap (c : Cpu) (user : Bool) (pc cause value : Word) : Cpu :=
  (((c.setCsr .sepc pc).setCsr .sstatus (trapStatus user (c.csrs .sstatus))).setCsr .scause cause).setCsr .stval value

theorem trapStatus_spp (user : Bool) (status : Word) :
    trapStatus user status &&& 0x100 = if user then 0 else 0x100 := by
  have h1 : status &&& ~~~(0x122 : Word) &&& 0x100 = 0#64 := by
    rw [BitVec.and_assoc, show (~~~(0x122 : Word) &&& 0x100) = 0#64 by decide, BitVec.and_zero]
  have h2 : ((status &&& 2) <<< 4) &&& 0x100 = 0#64 := by
    rw [BitVec.shiftLeft_and_distrib, BitVec.and_assoc, show ((2 : Word) <<< 4 &&& 0x100) = 0#64 by decide,
      BitVec.and_zero]
  rw [trapStatus, BitVec.and_or_distrib_right, BitVec.and_or_distrib_right, h1, h2]
  cases user <;> decide

/-! ### Symbolic values

A symbolic run keeps every register, control register and double word of one frame as an expression in the values
they had at the start. -/

/-- What a value is computed from: a register, a control register or a frame word as it was at the start. -/
inductive Source (L : Type)
  | zero
  | reg (r : Reg)
  | csr (x : Csr)
  | word (k : Nat)
  | label (l : L)
  deriving DecidableEq

inductive Val (L : Type)
  | sum (s : Source L) (o : Word)
  | band (s : Source L) (mask : Word)
  deriving DecidableEq

/-- The frame a symbolic run may touch: its virtual address, the value of `satp` under which it is mapped, the bytes
that may be read and, at its start, the bytes that may be written. -/
structure Frame (L : Type) where
  source : Source L
  offset : Word
  space : Val L
  size : Nat
  writable : Nat

structure Sym (L : Type) where
  regs : Reg → Val L
  csrs : Csr → Val L
  slots : Nat → Val L

namespace Sym

def init : Sym L where
  regs r := .sum (.reg r) 0
  csrs x := .sum (.csr x) 0
  slots k := .sum (.word k) 0

def get (s : Sym L) (r : Reg) : Val L := if r = .zero then .sum .zero 0 else s.regs r

def set (s : Sym L) (r : Reg) (v : Val L) : Sym L := if r = .zero then s else { s with regs := upd s.regs r v }

def setCsr (s : Sym L) (x : Csr) (v : Val L) : Sym L := { s with csrs := upd s.csrs x v }

omit [DecidableEq L] in
theorem get_set (s : Sym L) (r x : Reg) (v : Val L) :
    (s.set r v).get x = if x = r ∧ r ≠ .zero then v else s.get x := by
  by_cases hr : r = .zero
  · rw [set, if_pos hr, if_neg fun h => h.2 hr]
  · rw [set, if_neg hr]
    by_cases hx : x = r
    · rw [if_pos ⟨hx, hr⟩, hx, get, if_neg hr]
      exact upd_self _ _ _
    · rw [if_neg fun h => hx h.1, get, get]
      show (if x = .zero then _ else upd s.regs r v x) = _
      rw [upd_of_ne _ _ hx]

omit [DecidableEq L] in
@[simp] theorem set_csrs (s : Sym L) (r : Reg) (v : Val L) : (s.set r v).csrs = s.csrs := by
  unfold set
  split <;> rfl

omit [DecidableEq L] in
@[simp] theorem set_slots (s : Sym L) (r : Reg) (v : Val L) : (s.set r v).slots = s.slots := by
  unfold set
  split <;> rfl

/-- The offset in the frame of the double word at `off(base)`, if it is one of the first `bound` bytes and the
frame is mapped. -/
def slot (F : Frame L) (s : Sym L) (bound : Nat) (base : Reg) (off : Nat) : Option Nat :=
  match s.get base with
  | .band _ _ => none
  | .sum src o =>
    let k := (o + BitVec.ofNat 64 off - F.offset).toNat
    if src = F.source ∧ s.csrs .satp = F.space ∧ k % 8 = 0 ∧ k + 8 ≤ bound then some k else none

/-- `step` on expressions. `facts` says of some expressions whether they are nonzero. -/
def step (F : Frame L) (facts : List (Val L × Bool)) (p : Program L) :
    List (Instr L) × Sym L → Option (List (Instr L) × Sym L)
  | ([], _) => none
  | (i :: rest, s) =>
    match i with
    | .sd src off base => (s.slot F F.writable base off).map fun k =>
        (rest, { s with slots := upd s.slots k (s.get src) })
    | .ld dst off base => (s.slot F F.size base off).map fun k => (rest, s.set dst (s.slots k))
    | .csrrw dst x src => some (rest, (s.setCsr x (s.get src)).set dst (s.csrs x))
    | .csrr dst x => some (rest, s.set dst (s.csrs x))
    | .csrw x src => some (rest, s.setCsr x (s.get src))
    | .addi dst src imm =>
      match s.get src with
      | .sum b o => some (rest, s.set dst (.sum b (o + BitVec.ofInt 64 imm)))
      | .band _ _ => none
    | .andi dst src imm =>
      match s.get src with
      | .sum b o => if o = 0 then some (rest, s.set dst (.band b (BitVec.ofInt 64 imm))) else none
      | .band _ _ => none
    | .mv dst src => some (rest, s.set dst (s.get src))
    | .la dst l => some (rest, s.set dst (.sum (.label l) 0))
    | .sfenceVma => some (rest, s)
    | .bnez src l =>
      match facts.lookup (s.get src) with
      | none => none
      | some false => some (rest, s)
      | some true => (p.codeAt l).map (·, s)
    | .j l => (p.codeAt l).map (·, s)
    | .jr _ | .call _ | .sret | .mret => none

/-- At most `fuel` symbolic steps, up to the first instruction that has none. -/
def run (F : Frame L) (facts : List (Val L × Bool)) (p : Program L) :
    Nat → List (Instr L) × Sym L → List (Instr L) × Sym L
  | 0, x => x
  | fuel + 1, x =>
    match step F facts p x with
    | none => x
    | some y => run F facts p fuel y

end Sym

/-! ### A symbolic run stands for every concrete one -/

section Sound

variable (E : Env L) (c₀ : Cpu) (base : Nat)

def Source.denote : Source L → Word
  | .zero => 0
  | .reg r => c₀.get r
  | .csr x => c₀.csrs x
  | .word k => c₀.mem.load64 (base + k)
  | .label l => E.address l

def Val.denote : Val L → Word
  | .sum s o => s.denote E c₀ base + o
  | .band s mask => s.denote E c₀ base &&& mask

/-- The bytes `va … va + size - 1` are mapped under `satp`, to the physical bytes from `base` on. -/
def Mapped (satp va : Word) (size : Nat) : Prop :=
  ∀ k < size, E.translate satp (va + BitVec.ofNat 64 k) = base + k

/-- The state `c` has the values `s` says, and memory outside the writable bytes is that of the start. -/
structure Sym.Denotes (F : Frame L) (s : Sym L) (c : Cpu) : Prop where
  regs : ∀ r, c.get r = (s.get r).denote E c₀ base
  csrs : ∀ x, c.csrs x = (s.csrs x).denote E c₀ base
  slots : ∀ k, k % 8 = 0 → k + 8 ≤ F.size → c.mem.load64 (base + k) = (s.slots k).denote E c₀ base
  outside : ∀ a, a < base ∨ base + F.writable ≤ a → c.mem a = c₀.mem a

variable {E c₀ base} {F : Frame L} {facts : List (Val L × Bool)} {p : Program L} {s s' : Sym L} {c : Cpu}

omit [DecidableEq L] in
theorem Sym.Denotes.init : (Sym.init : Sym L).Denotes E c₀ base F c₀ where
  regs r := by
    by_cases hr : r = .zero
    · rw [hr]
      show _ = (0 : Word) + 0
      simp
    · rw [Sym.get, if_neg hr]
      exact (BitVec.add_zero _).symm
  csrs _ := (BitVec.add_zero _).symm
  slots _ _ _ := (BitVec.add_zero _).symm
  outside _ _ := rfl

omit [DecidableEq L] in
theorem Sym.Denotes.set (h : s.Denotes E c₀ base F c) {v : Val L} {w : Word} (hw : w = v.denote E c₀ base)
    (r : Reg) : (s.set r v).Denotes E c₀ base F (c.set r w) where
  regs x := by
    rw [Cpu.get_set, Sym.get_set]
    split
    · exact hw
    · exact h.regs x
  csrs x := by simpa using h.csrs x
  slots k h8 hk := by simpa using h.slots k h8 hk
  outside a ha := by simpa using h.outside a ha

omit [DecidableEq L] in
theorem Sym.Denotes.setCsr (h : s.Denotes E c₀ base F c) {v : Val L} {w : Word} (hw : w = v.denote E c₀ base)
    (x : Csr) : (s.setCsr x v).Denotes E c₀ base F (c.setCsr x w) where
  regs := h.regs
  csrs y := by
    by_cases hy : y = x
    · simpa [Sym.setCsr, hy] using hw
    · simpa [Sym.setCsr, upd_of_ne _ _ hy] using h.csrs y
  slots := h.slots
  outside := h.outside

theorem facts_nil (v : Val L) (b : Bool) (h : ([] : List (Val L × Bool)).lookup v = some b) :
    (v.denote E c₀ base ≠ 0 ↔ b = true) :=
  nomatch h

theorem facts_single {v₀ : Val L} {b₀ : Bool} (h₀ : v₀.denote E c₀ base ≠ 0 ↔ b₀ = true) (v : Val L) (b : Bool)
    (h : [(v₀, b₀)].lookup v = some b) : (v.denote E c₀ base ≠ 0 ↔ b = true) := by
  by_cases hv : v = v₀
  · rw [hv, List.lookup_cons_self] at h
    obtain rfl := Option.some.inj h
    rw [hv]
    exact h₀
  · rw [List.lookup_cons, beq_false_of_ne hv] at h
    cases h

theorem Sym.Denotes.address (h : s.Denotes E c₀ base F c)
    (hmap : Mapped E base (F.space.denote E c₀ base) (F.source.denote E c₀ base + F.offset) F.size) {bound off k : Nat}
    {r : Reg} (hbound : bound ≤ F.size) (hslot : s.slot F bound r off = some k) :
    c.address E r off = base + k ∧ k % 8 = 0 ∧ k + 8 ≤ bound := by
  unfold Sym.slot at hslot
  split at hslot
  · cases hslot
  · rename_i src o hget
    dsimp only at hslot
    split at hslot
    · rename_i hcond
      obtain ⟨hsrc, hsatp, h8, hk⟩ := hcond
      obtain rfl := Option.some.inj hslot
      refine ⟨?_, h8, hk⟩
      have hva : c.get r + BitVec.ofNat 64 off = F.source.denote E c₀ base + F.offset +
          BitVec.ofNat 64 (o + BitVec.ofNat 64 off - F.offset).toNat := by
        rw [h.regs, hget, hsrc, BitVec.ofNat_toNat, BitVec.setWidth_eq]
        show F.source.denote E c₀ base + o + BitVec.ofNat 64 off = _
        ring
      rw [Cpu.address, h.csrs, hsatp, hva]
      exact hmap _ (by omega)
    · cases hslot

omit [DecidableEq L] in
theorem Sym.Denotes.store (h : s.Denotes E c₀ base F c) {k : Nat} (h8 : k % 8 = 0) (hk : k + 8 ≤ F.writable)
    (r : Reg) : ({ s with slots := upd s.slots k (s.get r) } : Sym L).Denotes E c₀ base F
      { c with mem := c.mem.store64 (base + k) (c.get r) } where
  regs := h.regs
  csrs := h.csrs
  slots j hj8 hj := by
    by_cases hjk : j = k
    · subst hjk
      dsimp only
      rw [Mem.load64_store64, upd_self]
      exact h.regs r
    · dsimp only
      rw [upd_of_ne _ _ hjk, Mem.load64_store64_disjoint _ _ (by omega)]
      exact h.slots j hj8 hj
  outside a ha := by
    dsimp only
    rw [Mem.store64_of_disjoint _ _ (by omega)]
    exact h.outside a ha

theorem Sym.Denotes.step (h : s.Denotes E c₀ base F c)
    (hmap : Mapped E base (F.space.denote E c₀ base) (F.source.denote E c₀ base + F.offset) F.size)
    (hwritable : F.writable ≤ F.size)
    (hfacts : ∀ v b, facts.lookup v = some b → (v.denote E c₀ base ≠ 0 ↔ b = true))
    {code code' : List (Instr L)} (hs : Sym.step F facts p (code, s) = some (code', s')) :
    ∃ c', Riscv.step E p (code, c) = some (code', c') ∧ s'.Denotes E c₀ base F c' := by
  cases code with
  | nil => cases hs
  | cons i rest =>
    cases i with
    | sd src off r =>
      obtain ⟨k, hslot, hk⟩ := Option.map_eq_some_iff.mp hs
      obtain ⟨rfl, rfl⟩ := Prod.mk.inj hk
      obtain ⟨haddr, h8, hk⟩ := h.address hmap hwritable hslot
      refine ⟨_, ?_, h.store h8 hk src⟩
      simp only [Riscv.step, haddr]
    | ld dst off r =>
      obtain ⟨k, hslot, hk⟩ := Option.map_eq_some_iff.mp hs
      obtain ⟨rfl, rfl⟩ := Prod.mk.inj hk
      obtain ⟨haddr, h8, hk⟩ := h.address hmap (le_refl _) hslot
      refine ⟨_, ?_, h.set (h.slots k h8 hk) dst⟩
      simp only [Riscv.step, haddr]
    | csrrw dst x src =>
      obtain ⟨rfl, rfl⟩ := Prod.mk.inj (Option.some.inj hs)
      exact ⟨_, rfl, (h.setCsr (h.regs src) x).set (h.csrs x) dst⟩
    | csrr dst x =>
      obtain ⟨rfl, rfl⟩ := Prod.mk.inj (Option.some.inj hs)
      exact ⟨_, rfl, h.set (h.csrs x) dst⟩
    | csrw x src =>
      obtain ⟨rfl, rfl⟩ := Prod.mk.inj (Option.some.inj hs)
      exact ⟨_, rfl, h.setCsr (h.regs src) x⟩
    | addi dst src imm =>
      simp only [Sym.step] at hs
      split at hs
      · rename_i b o hget
        obtain ⟨rfl, rfl⟩ := Prod.mk.inj (Option.some.inj hs)
        refine ⟨_, rfl, h.set ?_ dst⟩
        rw [h.regs, hget]
        exact BitVec.add_assoc _ _ _
      · cases hs
    | andi dst src imm =>
      simp only [Sym.step] at hs
      split at hs
      · rename_i b o hget
        split at hs
        · rename_i ho
          obtain ⟨rfl, rfl⟩ := Prod.mk.inj (Option.some.inj hs)
          refine ⟨_, rfl, h.set ?_ dst⟩
          rw [h.regs, hget, ho]
          exact congrArg (· &&& BitVec.ofInt 64 imm) (BitVec.add_zero (b.denote E c₀ base))
        · cases hs
      · cases hs
    | mv dst src =>
      obtain ⟨rfl, rfl⟩ := Prod.mk.inj (Option.some.inj hs)
      exact ⟨_, rfl, h.set (h.regs src) dst⟩
    | la dst l =>
      obtain ⟨rfl, rfl⟩ := Prod.mk.inj (Option.some.inj hs)
      exact ⟨_, rfl, h.set (BitVec.add_zero _).symm dst⟩
    | sfenceVma =>
      obtain ⟨rfl, rfl⟩ := Prod.mk.inj (Option.some.inj hs)
      exact ⟨_, rfl, h⟩
    | bnez src l =>
      simp only [Sym.step] at hs
      split at hs
      · cases hs
      · rename_i hlookup
        obtain ⟨rfl, rfl⟩ := Prod.mk.inj (Option.some.inj hs)
        have hzero : c.get src = 0 := by
          rw [h.regs]
          by_contra hne
          exact absurd ((hfacts _ _ hlookup).mp hne) (by decide)
        refine ⟨c, ?_, h⟩
        simp only [Riscv.step, hzero, if_true]
      · rename_i hlookup
        obtain ⟨code, hcode, heq⟩ := Option.map_eq_some_iff.mp hs
        obtain ⟨rfl, rfl⟩ := Prod.mk.inj heq
        have hne : c.get src ≠ 0 := by
          rw [h.regs]
          exact (hfacts _ _ hlookup).mpr rfl
        refine ⟨c, ?_, h⟩
        simp only [Riscv.step, if_neg hne, hcode, Option.map_some]
    | j l =>
      obtain ⟨code, hcode, heq⟩ := Option.map_eq_some_iff.mp hs
      obtain ⟨rfl, rfl⟩ := Prod.mk.inj heq
      refine ⟨c, ?_, h⟩
      simp only [Riscv.step, hcode, Option.map_some]
    | jr src => cases hs
    | call l => cases hs
    | sret => cases hs
    | mret => cases hs

/-- A symbolic run is a run: from every start that meets its assumptions the program reaches a state with the values
the symbolic run computed. -/
theorem Sym.Denotes.run (h : s.Denotes E c₀ base F c)
    (hmap : Mapped E base (F.space.denote E c₀ base) (F.source.denote E c₀ base + F.offset) F.size)
    (hwritable : F.writable ≤ F.size)
    (hfacts : ∀ v b, facts.lookup v = some b → (v.denote E c₀ base ≠ 0 ↔ b = true)) (fuel : Nat)
    (code : List (Instr L)) :
    ∃ c', Reaches E p (code, c) ((Sym.run F facts p fuel (code, s)).1, c') ∧
      (Sym.run F facts p fuel (code, s)).2.Denotes E c₀ base F c' := by
  induction fuel generalizing code s c with
  | zero => exact ⟨c, .refl, h⟩
  | succ fuel ih =>
    unfold Sym.run
    split
    · exact ⟨c, .refl, h⟩
    · rename_i y hy
      obtain ⟨code', s'⟩ := y
      obtain ⟨c₁, hstep, h₁⟩ := h.step hmap hwritable hfacts hy
      obtain ⟨c', hreach, h'⟩ := ih h₁ code'
      exact ⟨c', .head hstep hreach, h'⟩

end Sound

end Lib.Riscv
