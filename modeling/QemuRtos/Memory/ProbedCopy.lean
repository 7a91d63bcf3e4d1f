import QemuRtos.Core.Trap
import QemuRtos.Memory.Usercopy

/-!
# Probed copies (`memory/usercopy.c`, `arch/riscv64/usercopy.S`)

`copy_from_user` and `copy_to_user` copy through the user address itself, with `sstatus.SUM` set and a probe armed for
the current thread. A page fault in the copy loop enters the trap handler, which sends the thread to the fixup label.
The loop is run instruction by instruction, since the fault may hit any of its rounds.
-/

namespace QemuRtos

open Lib

/-- The kernel with the SUM bit of `sstatus`. -/
structure Hart where
  kernel : Kernel
  sum : Bool

/-! ## The copy routine -/

/-- The instructions of `riscv_usercopy_copy_bytes` and of its fixup. -/
inductive CopyInstr
  | beqz | lbu | sb | addiSrc | addiDst | addiLen | jump | liOk | retOk | liFault | retFault
  deriving DecidableEq

/-- In text order: the loop, the return behind it and the fixup. -/
def copyText : List CopyInstr :=
  [.beqz, .lbu, .sb, .addiSrc, .addiDst, .addiLen, .jump, .liOk, .retOk, .liFault, .retFault]

/-- Where the linker put the routine. -/
structure CopyText where
  addr : CopyInstr → U64
  ordered : (copyText.map addr).Pairwise (· < ·)

namespace CopyText

def copyStart (t : CopyText) : U64 := t.addr .beqz
def copyEnd (t : CopyText) : U64 := t.addr .liOk
def copyFixup (t : CopyText) : U64 := t.addr .liFault

/-- The instruction at an address. -/
def fetch (t : CopyText) (pc : U64) : Option CopyInstr := copyText.find? fun i => t.addr i = pc

end CopyText

inductive CopyDir
  | fromUser
  | toUser
  deriving DecidableEq

def CopyDir.faultCause : CopyDir → U64
  | .fromUser => mcauseLoadPageFault
  | .toUser => mcauseStorePageFault

/-- What a copy runs in: the routine, the translation of the kernel page table, the place of the trap frame on the
stack, the time, and the user byte, if any, whose access faults. -/
structure CopyEnv where
  text : CopyText
  translate : U64 → Nat
  frame : U64
  frame_ne : frame ≠ 0
  mtime : Nat
  fault : Option Nat

structure CopyRegs where
  pc : CopyInstr
  a0 : U64
  a1 : U64
  a2 : U64
  t0 : U64

/-- Whether the access to the user byte at `va` faults: the user's pages are out of reach while SUM is clear. -/
def userFaults (E : CopyEnv) (userStart va : U64) (h : Hart) : Bool :=
  !h.sum || E.fault = some (va - userStart).toNat

/-- A page fault in the routine: the registers go to the trap frame, `trap_handle` runs, and the frame it returns is
restored. -/
def copyTrap (E : CopyEnv) (cause va : U64) (r : CopyRegs) (h : Hart) : Except Panic (CopyRegs × Hart) := do
  let k := h.kernel.setFrame E.frame fun f =>
    { f with a0 := r.a0, a1 := r.a1, a2 := r.a2, t0 := r.t0, mepc := E.text.addr r.pc, mcause := cause, mtval := va }
  let (action, k) ← trapHandle E.mtime E.frame k
  match action with
  | .resume frame =>
    let f := k.sched.frames frame
    match E.text.fetch f.mepc with
    | some pc => .ok (⟨pc, f.a0, f.a1, f.a2, f.t0⟩, { h with kernel := k })
    | none => .error "usercopy: resumed outside the routine"
  | .accelMemset _ => .error "usercopy: not a page fault"

def Hart.mem (h : Hart) : Mem := h.kernel.machine.mem

def Hart.setMem (h : Hart) (mem : Mem) : Hart :=
  { h with kernel := { h.kernel with machine := { h.kernel.machine with mem := mem } } }

/-- One instruction. The user's byte is the source or the destination, by the direction of the copy. -/
def copyStep (E : CopyEnv) (dir : CopyDir) (userStart : U64) (r : CopyRegs) (h : Hart) :
    Except Panic (CopyRegs × Hart) :=
  match r.pc with
  | .beqz => .ok ({ r with pc := if r.a2 = 0 then .liOk else .lbu }, h)
  | .lbu =>
    if dir = .fromUser ∧ userFaults E userStart r.a1 h then copyTrap E mcauseLoadPageFault r.a1 r h
    else .ok ({ r with pc := .sb, t0 := (h.mem (E.translate r.a1)).setWidth 64 }, h)
  | .sb =>
    if dir = .toUser ∧ userFaults E userStart r.a0 h then copyTrap E mcauseStorePageFault r.a0 r h
    else .ok ({ r with pc := .addiSrc }, h.setMem (Function.update h.mem (E.translate r.a0) (r.t0.setWidth 8)))
  | .addiSrc => .ok ({ r with pc := .addiDst, a1 := r.a1 + 1 }, h)
  | .addiDst => .ok ({ r with pc := .addiLen, a0 := r.a0 + 1 }, h)
  | .addiLen => .ok ({ r with pc := .jump, a2 := r.a2 - 1 }, h)
  | .jump => .ok ({ r with pc := .beqz }, h)
  | .liOk => .ok ({ r with pc := .retOk, a0 := intReg usercopyOk }, h)
  | .liFault => .ok ({ r with pc := .retFault, a0 := intReg usercopyErrFault }, h)
  | .retOk | .retFault => .ok (r, h)

/-- The routine up to its return, with the value in `a0`; at most `fuel` instructions. -/
def copyRun (E : CopyEnv) (dir : CopyDir) (userStart : U64) : Nat → CopyRegs → Hart → Except Panic (Int × Hart)
  | 0, _, _ => .error "riscv_usercopy_copy_bytes out of fuel"
  | fuel + 1, r, h =>
    if r.pc = .retOk ∨ r.pc = .retFault then .ok (r.a0.toInt, h)
    else do
      let (r, h) ← copyStep E dir userStart r h
      copyRun E dir userStart fuel r h

/-- A round of the loop is seven instructions, and at most three more lead to the return. -/
def riscvUsercopyCopyBytes (E : CopyEnv) (dir : CopyDir) (dst src len userStart : U64) (h : Hart) :
    Except Panic (Int × Hart) :=
  copyRun E dir userStart (7 * len.toNat + 6) ⟨.beqz, dst, src, len, 0⟩ h

/-! ## The C callers -/

def usercopyRestoreSstatus (savedSum : Bool) (h : Hart) : Hart := { h with sum := savedSum }

def probedCopyBytes (E : CopyEnv) (dir : CopyDir) (dst src len userStart userEnd : U64) (h : Hart) :
    Except Panic (Int × Hart) :=
  let (irqState, k) := h.kernel.irqSave
  let savedSum := h.sum
  let probe : UsercopyProbe :=
    { active := true
      pcStart := E.text.copyStart
      pcEnd := E.text.copyEnd
      fixupPc := E.text.copyFixup
      userStart := userStart
      userEnd := userEnd
      faultCause := dir.faultCause }
  let (begun, k) := threadUsercopyProbeBegin probe k
  if begun < 0 then
    let h := usercopyRestoreSstatus savedSum { h with kernel := k }
    .ok (usercopyErrInvalid, { h with kernel := h.kernel.irqRestore irqState })
  else do
    let (result, h) ← riscvUsercopyCopyBytes E dir dst src len userStart { kernel := k, sum := true }
    let h := usercopyRestoreSstatus savedSum { h with kernel := threadUsercopyProbeEnd h.kernel }
    .ok (result, { h with kernel := h.kernel.irqRestore irqState })

/-- What `copy_from_user` and `copy_to_user` share. -/
def copyUser (E : CopyEnv) (dir : CopyDir) (dst src len : U64) (h : Hart) : Except Panic (Int × Hart) :=
  if len = 0 then .ok (usercopyOk, h)
  else if dst = 0 ∨ src = 0 then .ok (usercopyErrInvalid, h)
  else
    let userStart := if dir = .toUser then dst else src
    match usercopyRangeEnd userStart len with
    | none => .ok (usercopyErrInvalid, h)
    | some userEnd => do
      let (result, m) ← usercopyValidateRangeInSpace h.kernel.machine.kernelSpace userStart len (dir = .toUser)
        h.kernel.machine
      let h := { h with kernel := { h.kernel with machine := m } }
      if result ≠ usercopyOk then .ok (result, h)
      else probedCopyBytes E dir dst src len userStart userEnd h

def copyFromUser (E : CopyEnv) (dst userSrc len : U64) (h : Hart) : Except Panic (Int × Hart) :=
  copyUser E .fromUser dst userSrc len h

def copyToUser (E : CopyEnv) (userDst src len : U64) (h : Hart) : Except Panic (Int × Hart) :=
  copyUser E .toUser userDst src len h

end QemuRtos
