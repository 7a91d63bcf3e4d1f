import QemuRtos.Lib.Riscv

/-!
# The trap vectors: `arch/riscv64/trap.S`

The text of the supervisor trap vector, of the trampoline that user traps enter under their own page table, and of
the machine-mode vector of the timer shim, block by block as the assembler lays them out.
-/

namespace QemuRtos

open Lib.Riscv

inductive TrapLabel
  | userTrapEntry | userTrampolineUserret | trapEntry | trapEntryFromUser | trapEntrySaveCsrs
  | trapRestoreFrame | trapRestoreSupervisor | trapRestoreStatus | trapRestore
  | machineTrapEntry | machineTrapRestoreFrame | trapHandle | trapReturnFromHandler | machineTrapHandle
  deriving DecidableEq, Repr

/-! ### The frame -/

def tfRa : Nat := 0
def tfSp : Nat := 8
def tfGp : Nat := 16
def tfTp : Nat := 24
def tfT0 : Nat := 32
def tfT1 : Nat := 40
def tfT2 : Nat := 48
def tfS0 : Nat := 56
def tfS1 : Nat := 64
def tfA0 : Nat := 72
def tfA1 : Nat := 80
def tfA2 : Nat := 88
def tfA3 : Nat := 96
def tfA4 : Nat := 104
def tfA5 : Nat := 112
def tfA6 : Nat := 120
def tfA7 : Nat := 128
def tfS2 : Nat := 136
def tfS3 : Nat := 144
def tfS4 : Nat := 152
def tfS5 : Nat := 160
def tfS6 : Nat := 168
def tfS7 : Nat := 176
def tfS8 : Nat := 184
def tfS9 : Nat := 192
def tfS10 : Nat := 200
def tfS11 : Nat := 208
def tfT3 : Nat := 216
def tfT4 : Nat := 224
def tfT5 : Nat := 232
def tfT6 : Nat := 240
def tfMepc : Nat := 248
def tfMstatus : Nat := 256
def tfMcause : Nat := 264
def tfMtval : Nat := 272

def tfSize : Int := 288

/-- The words of `trap_frame_t`. -/
inductive TrapField
  | reg (r : Reg)
  | mepc | mstatus | mcause | mtval
  deriving DecidableEq

/-- `trap_frame_t` of `core/trap.h`: its fields in order, each a double word. -/
def trapFrame : List TrapField :=
  [.reg .ra, .reg .sp, .reg .gp, .reg .tp, .reg .t0, .reg .t1, .reg .t2, .reg .s0, .reg .s1, .reg .a0, .reg .a1,
    .reg .a2, .reg .a3, .reg .a4, .reg .a5, .reg .a6, .reg .a7, .reg .s2, .reg .s3, .reg .s4, .reg .s5, .reg .s6,
    .reg .s7, .reg .s8, .reg .s9, .reg .s10, .reg .s11, .reg .t3, .reg .t4, .reg .t5, .reg .t6,
    .mepc, .mstatus, .mcause, .mtval]

/-- The offset the compiler gives a field of the frame. -/
def TrapField.offset (f : TrapField) : Nat := 8 * trapFrame.idxOf f

/-- The assembler's offsets are those of the structure. -/
theorem trapFrame_offsets :
    trapFrame.map TrapField.offset =
      [tfRa, tfSp, tfGp, tfTp, tfT0, tfT1, tfT2, tfS0, tfS1, tfA0, tfA1, tfA2, tfA3, tfA4, tfA5, tfA6, tfA7, tfS2,
        tfS3, tfS4, tfS5, tfS6, tfS7, tfS8, tfS9, tfS10, tfS11, tfT3, tfT4, tfT5, tfT6, tfMepc, tfMstatus, tfMcause,
        tfMtval] := by
  decide

/-! The words of `user_trap_context_t` behind its frame. -/

def utcKernelSatp : Nat := 280
def utcUserSatp : Nat := 288
def utcKernelTrapHandler : Nat := 296
def utcKernelTrapContext : Nat := 304
def utcKernelStvec : Nat := 312
def utcKernelSp : Nat := 320

/-! ### The text -/

def userTrapEntry : List (Instr TrapLabel) :=
  [.csrrw .sp .sscratch .sp, .sd .ra tfRa .sp, .sd .t0 tfT0 .sp, .csrr .t0 .sscratch, .sd .t0 tfSp .sp,
    .sd .gp tfGp .sp, .sd .tp tfTp .sp, .sd .t1 tfT1 .sp, .sd .t2 tfT2 .sp, .sd .s0 tfS0 .sp,
    .sd .s1 tfS1 .sp, .sd .a0 tfA0 .sp, .sd .a1 tfA1 .sp, .sd .a2 tfA2 .sp, .sd .a3 tfA3 .sp,
    .sd .a4 tfA4 .sp, .sd .a5 tfA5 .sp, .sd .a6 tfA6 .sp, .sd .a7 tfA7 .sp, .sd .s2 tfS2 .sp,
    .sd .s3 tfS3 .sp, .sd .s4 tfS4 .sp, .sd .s5 tfS5 .sp, .sd .s6 tfS6 .sp, .sd .s7 tfS7 .sp,
    .sd .s8 tfS8 .sp, .sd .s9 tfS9 .sp, .sd .s10 tfS10 .sp, .sd .s11 tfS11 .sp, .sd .t3 tfT3 .sp,
    .sd .t4 tfT4 .sp, .sd .t5 tfT5 .sp, .sd .t6 tfT6 .sp, .csrr .t0 .sepc, .sd .t0 tfMepc .sp,
    .csrr .t0 .sstatus, .sd .t0 tfMstatus .sp, .csrr .t0 .scause, .sd .t0 tfMcause .sp, .csrr .t0 .stval,
    .sd .t0 tfMtval .sp, .ld .t0 utcKernelSatp .sp, .ld .t1 utcKernelTrapHandler .sp,
    .ld .t2 utcKernelTrapContext .sp, .ld .t3 utcKernelStvec .sp, .ld .t4 utcKernelSp .sp, .csrw .satp .t0,
    .sfenceVma, .csrw .stvec .t3, .csrw .sscratch .zero, .mv .a0 .t2, .mv .sp .t4, .jr .t1]

def userTrampolineUserret : List (Instr TrapLabel) :=
  [.la .t0 .userTrapEntry, .csrw .stvec .t0, .csrw .satp .a0, .sfenceVma, .mv .sp .a1, .ld .t0 tfMepc .sp,
    .csrw .sepc .t0, .ld .t0 tfMstatus .sp, .csrw .sstatus .t0, .csrw .sscratch .sp, .ld .ra tfRa .sp,
    .ld .gp tfGp .sp, .ld .tp tfTp .sp, .ld .t0 tfT0 .sp, .ld .t1 tfT1 .sp, .ld .t2 tfT2 .sp,
    .ld .s0 tfS0 .sp, .ld .s1 tfS1 .sp, .ld .a0 tfA0 .sp, .ld .a1 tfA1 .sp, .ld .a2 tfA2 .sp,
    .ld .a3 tfA3 .sp, .ld .a4 tfA4 .sp, .ld .a5 tfA5 .sp, .ld .a6 tfA6 .sp, .ld .a7 tfA7 .sp,
    .ld .s2 tfS2 .sp, .ld .s3 tfS3 .sp, .ld .s4 tfS4 .sp, .ld .s5 tfS5 .sp, .ld .s6 tfS6 .sp,
    .ld .s7 tfS7 .sp, .ld .s8 tfS8 .sp, .ld .s9 tfS9 .sp, .ld .s10 tfS10 .sp, .ld .s11 tfS11 .sp,
    .ld .t3 tfT3 .sp, .ld .t4 tfT4 .sp, .ld .t5 tfT5 .sp, .ld .t6 tfT6 .sp, .ld .sp tfSp .sp, .sret]

def trapEntry : List (Instr TrapLabel) :=
  [.csrrw .sp .sscratch .sp, .bnez .sp .trapEntryFromUser, .csrrw .sp .sscratch .sp,
    .addi .sp .sp (-tfSize), .sd .ra tfRa .sp, .sd .t0 tfT0 .sp, .addi .t0 .sp tfSize, .sd .t0 tfSp .sp,
    .sd .gp tfGp .sp, .sd .tp tfTp .sp, .sd .t1 tfT1 .sp, .sd .t2 tfT2 .sp, .sd .s0 tfS0 .sp,
    .sd .s1 tfS1 .sp, .sd .a0 tfA0 .sp, .sd .a1 tfA1 .sp, .sd .a2 tfA2 .sp, .sd .a3 tfA3 .sp,
    .sd .a4 tfA4 .sp, .sd .a5 tfA5 .sp, .sd .a6 tfA6 .sp, .sd .a7 tfA7 .sp, .sd .s2 tfS2 .sp,
    .sd .s3 tfS3 .sp, .sd .s4 tfS4 .sp, .sd .s5 tfS5 .sp, .sd .s6 tfS6 .sp, .sd .s7 tfS7 .sp,
    .sd .s8 tfS8 .sp, .sd .s9 tfS9 .sp, .sd .s10 tfS10 .sp, .sd .s11 tfS11 .sp, .sd .t3 tfT3 .sp,
    .sd .t4 tfT4 .sp, .sd .t5 tfT5 .sp, .sd .t6 tfT6 .sp, .j .trapEntrySaveCsrs]

def trapEntryFromUser : List (Instr TrapLabel) :=
  [.addi .sp .sp (-tfSize), .sd .ra tfRa .sp, .sd .t0 tfT0 .sp, .csrr .t0 .sscratch, .sd .t0 tfSp .sp,
    .csrw .sscratch .zero, .sd .gp tfGp .sp, .sd .tp tfTp .sp, .sd .t1 tfT1 .sp, .sd .t2 tfT2 .sp,
    .sd .s0 tfS0 .sp, .sd .s1 tfS1 .sp, .sd .a0 tfA0 .sp, .sd .a1 tfA1 .sp, .sd .a2 tfA2 .sp,
    .sd .a3 tfA3 .sp, .sd .a4 tfA4 .sp, .sd .a5 tfA5 .sp, .sd .a6 tfA6 .sp, .sd .a7 tfA7 .sp,
    .sd .s2 tfS2 .sp, .sd .s3 tfS3 .sp, .sd .s4 tfS4 .sp, .sd .s5 tfS5 .sp, .sd .s6 tfS6 .sp,
    .sd .s7 tfS7 .sp, .sd .s8 tfS8 .sp, .sd .s9 tfS9 .sp, .sd .s10 tfS10 .sp, .sd .s11 tfS11 .sp,
    .sd .t3 tfT3 .sp, .sd .t4 tfT4 .sp, .sd .t5 tfT5 .sp, .sd .t6 tfT6 .sp]

def trapEntrySaveCsrs : List (Instr TrapLabel) :=
  [.csrr .t0 .sepc, .sd .t0 tfMepc .sp, .csrr .t0 .sstatus, .sd .t0 tfMstatus .sp, .csrr .t0 .scause,
    .sd .t0 tfMcause .sp, .csrr .t0 .stval, .sd .t0 tfMtval .sp, .mv .a0 .sp, .call .trapHandle,
    .call .trapReturnFromHandler]

def trapRestoreFrame : List (Instr TrapLabel) :=
  [.ld .t0 tfMepc .sp, .csrw .sepc .t0, .ld .t0 tfMstatus .sp, .andi .t1 .t0 0x100,
    .bnez .t1 .trapRestoreSupervisor, .addi .t1 .sp tfSize, .csrw .sscratch .t1, .j .trapRestoreStatus]

def trapRestoreSupervisor : List (Instr TrapLabel) :=
  [.csrw .sscratch .zero]

def trapRestoreStatus : List (Instr TrapLabel) :=
  [.csrw .sstatus .t0, .ld .ra tfRa .sp, .ld .gp tfGp .sp, .ld .tp tfTp .sp, .ld .t0 tfT0 .sp,
    .ld .t1 tfT1 .sp, .ld .t2 tfT2 .sp, .ld .s0 tfS0 .sp, .ld .s1 tfS1 .sp, .ld .a0 tfA0 .sp,
    .ld .a1 tfA1 .sp, .ld .a2 tfA2 .sp, .ld .a3 tfA3 .sp, .ld .a4 tfA4 .sp, .ld .a5 tfA5 .sp,
    .ld .a6 tfA6 .sp, .ld .a7 tfA7 .sp, .ld .s2 tfS2 .sp, .ld .s3 tfS3 .sp, .ld .s4 tfS4 .sp,
    .ld .s5 tfS5 .sp, .ld .s6 tfS6 .sp, .ld .s7 tfS7 .sp, .ld .s8 tfS8 .sp, .ld .s9 tfS9 .sp,
    .ld .s10 tfS10 .sp, .ld .s11 tfS11 .sp, .ld .t3 tfT3 .sp, .ld .t4 tfT4 .sp, .ld .t5 tfT5 .sp,
    .ld .t6 tfT6 .sp, .ld .sp tfSp .sp, .sret]

def trapRestore : List (Instr TrapLabel) :=
  [.mv .sp .a0, .j .trapRestoreFrame]

def machineTrapEntry : List (Instr TrapLabel) :=
  [.csrrw .sp .mscratch .sp, .addi .sp .sp (-tfSize), .sd .ra tfRa .sp, .sd .t0 tfT0 .sp,
    .csrr .t0 .mscratch, .sd .t0 tfSp .sp, .sd .gp tfGp .sp, .sd .tp tfTp .sp, .sd .t1 tfT1 .sp,
    .sd .t2 tfT2 .sp, .sd .s0 tfS0 .sp, .sd .s1 tfS1 .sp, .sd .a0 tfA0 .sp, .sd .a1 tfA1 .sp,
    .sd .a2 tfA2 .sp, .sd .a3 tfA3 .sp, .sd .a4 tfA4 .sp, .sd .a5 tfA5 .sp, .sd .a6 tfA6 .sp,
    .sd .a7 tfA7 .sp, .sd .s2 tfS2 .sp, .sd .s3 tfS3 .sp, .sd .s4 tfS4 .sp, .sd .s5 tfS5 .sp,
    .sd .s6 tfS6 .sp, .sd .s7 tfS7 .sp, .sd .s8 tfS8 .sp, .sd .s9 tfS9 .sp, .sd .s10 tfS10 .sp,
    .sd .s11 tfS11 .sp, .sd .t3 tfT3 .sp, .sd .t4 tfT4 .sp, .sd .t5 tfT5 .sp, .sd .t6 tfT6 .sp,
    .csrr .t0 .mepc, .sd .t0 tfMepc .sp, .csrr .t0 .mstatus, .sd .t0 tfMstatus .sp, .csrr .t0 .mcause,
    .sd .t0 tfMcause .sp, .csrr .t0 .mtval, .sd .t0 tfMtval .sp, .mv .a0 .sp, .call .machineTrapHandle,
    .mv .sp .a0]

def machineTrapRestoreFrame : List (Instr TrapLabel) :=
  [.ld .t0 tfMepc .sp, .csrw .mepc .t0, .ld .t0 tfMstatus .sp, .csrw .mstatus .t0, .addi .t0 .sp tfSize,
    .csrw .mscratch .t0, .ld .ra tfRa .sp, .ld .gp tfGp .sp, .ld .tp tfTp .sp, .ld .t0 tfT0 .sp,
    .ld .t1 tfT1 .sp, .ld .t2 tfT2 .sp, .ld .s0 tfS0 .sp, .ld .s1 tfS1 .sp, .ld .a0 tfA0 .sp,
    .ld .a1 tfA1 .sp, .ld .a2 tfA2 .sp, .ld .a3 tfA3 .sp, .ld .a4 tfA4 .sp, .ld .a5 tfA5 .sp,
    .ld .a6 tfA6 .sp, .ld .a7 tfA7 .sp, .ld .s2 tfS2 .sp, .ld .s3 tfS3 .sp, .ld .s4 tfS4 .sp,
    .ld .s5 tfS5 .sp, .ld .s6 tfS6 .sp, .ld .s7 tfS7 .sp, .ld .s8 tfS8 .sp, .ld .s9 tfS9 .sp,
    .ld .s10 tfS10 .sp, .ld .s11 tfS11 .sp, .ld .t3 tfT3 .sp, .ld .t4 tfT4 .sp, .ld .t5 tfT5 .sp,
    .ld .t6 tfT6 .sp, .ld .sp tfSp .sp, .mret]

/-- The section `.text.trampoline`. -/
def trampolineText : Program TrapLabel :=
  [(.userTrapEntry, userTrapEntry), (.userTrampolineUserret, userTrampolineUserret)]

/-- The section `.text` of the file. -/
def trapText : Program TrapLabel :=
  [(.trapEntry, trapEntry),
    (.trapEntryFromUser, trapEntryFromUser),
    (.trapEntrySaveCsrs, trapEntrySaveCsrs),
    (.trapRestoreFrame, trapRestoreFrame),
    (.trapRestoreSupervisor, trapRestoreSupervisor),
    (.trapRestoreStatus, trapRestoreStatus),
    (.trapRestore, trapRestore),
    (.machineTrapEntry, machineTrapEntry),
    (.machineTrapRestoreFrame, machineTrapRestoreFrame)]

end QemuRtos
