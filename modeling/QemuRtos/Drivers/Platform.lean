import QemuRtos.Memory.PageAlloc

/-!
# The simulated accelerator (`arch/riscv64/accel_platform.c`)

One step of the device reads and clears `CONTROL` and `IRQ_ACK`. A reset returns it to idle; a start
executes the descriptor at `CMD_BASE`, whose fields it reads from physical memory.
-/

namespace QemuRtos

open Lib

def accelStatusIdle : U32 := 1
def accelStatusBusy : U32 := 2
def accelStatusDone : U32 := 4
def accelStatusError : U32 := 8

def accelControlStart : U32 := 1
def accelControlReset : U32 := 2

def accelIrqDone : U32 := 1
def accelIrqError : U32 := 2

def accelDeviceIdValue : U32 := 0xacc35001

/-- The static initialiser of the registers. -/
def accelMmioInit : AccelMmio :=
  { id := accelDeviceIdValue
    status := accelStatusIdle
    control := 0
    irqStatus := 0
    irqAck := 0
    cmdBase := 0 }

def accelCmdOpMemset : U32 := 1

def accelCmdStatusPending : U32 := 0
def accelCmdStatusOk : U32 := 1
def accelCmdStatusInvalid : U32 := 2
def accelCmdStatusError : U32 := 3
def accelCmdStatusRejected : U32 := 4
def accelCmdStatusTimeout : U32 := 5

def accelCmdAlignment : U64 := 8

/-- `sizeof(accel_cmd_t)`. -/
def accelCmdSize : U64 := 32

/-! The fields of an `accel_cmd_t` in memory. -/

def cmdOp (mem : Mem) (cmd : U64) : U32 := mem.load32 cmd.toNat
def cmdFlags (mem : Mem) (cmd : U64) : U32 := mem.load32 (cmd.toNat + 4)
def cmdDstPa (mem : Mem) (cmd : U64) : U64 := mem.load64 (cmd.toNat + 8)
def cmdLen (mem : Mem) (cmd : U64) : U32 := mem.load32 (cmd.toNat + 16)
def cmdValue (mem : Mem) (cmd : U64) : U32 := mem.load32 (cmd.toNat + 20)
def cmdStatus (mem : Mem) (cmd : U64) : U32 := mem.load32 (cmd.toNat + 24)
def cmdReserved (mem : Mem) (cmd : U64) : U32 := mem.load32 (cmd.toNat + 28)

def setCmdStatus (cmd : U64) (status : U32) (mem : Mem) : Mem := mem.store32 (cmd.toNat + 24) status

namespace AccelMmio

def enterError (r : AccelMmio) : AccelMmio :=
  { r with status := accelStatusError, irqStatus := accelIrqError }

def resetState (r : AccelMmio) : AccelMmio :=
  { r with status := accelStatusIdle, irqStatus := 0, irqAck := 0, cmdBase := 0 }

end AccelMmio

def accelDescriptorLocationIsValid (p : PageAllocator) (addr : U64) : Bool :=
  addr ≠ 0 && addr &&& (accelCmdAlignment - 1) = 0 && pageRangeIsManagedPageContained p addr accelCmdSize

def accelDescriptorPayloadIsValid (p : PageAllocator) (mem : Mem) (cmd : U64) : Bool :=
  if cmdOp mem cmd ≠ accelCmdOpMemset ∨ cmdFlags mem cmd ≠ 0 ∨ cmdReserved mem cmd ≠ 0 ∨
      cmdStatus mem cmd ≠ accelCmdStatusPending ∨ cmdLen mem cmd = 0 then false
  else pageRangeIsManagedPageContained p (cmdDstPa mem cmd) ((cmdLen mem cmd).setWidth 64)

/-- The loop of `accel_execute_memset` from index `i`; it reads the length again in every round. -/
def accelMemsetLoop (cmd dst : U64) (value : Byte) (i : Nat) (mem : Mem) : Mem :=
  if i < (cmdLen mem cmd).toNat then
    accelMemsetLoop cmd dst value (i + 1) (Function.update mem (dst.toNat + i) value)
  else mem
termination_by 2 ^ 32 - i
decreasing_by
  have := (cmdLen mem cmd).isLt
  omega

def accelExecuteMemset (cmd : U64) (r : AccelMmio) (mem : Mem) : AccelMmio × Mem :=
  let mem := accelMemsetLoop cmd (cmdDstPa mem cmd) ((cmdValue mem cmd).setWidth 8) 0 mem
  ({ r with status := accelStatusDone, irqStatus := accelIrqDone }, setCmdStatus cmd accelCmdStatusOk mem)

def accelStartDescriptor (p : PageAllocator) (cmd : U64) (r : AccelMmio) (mem : Mem) : AccelMmio × Mem :=
  if !accelDescriptorLocationIsValid p cmd then (r.enterError, mem)
  else if cmdStatus mem cmd = accelCmdStatusTimeout then (r.enterError, mem)
  else if !accelDescriptorPayloadIsValid p mem cmd then
    (r.enterError, setCmdStatus cmd accelCmdStatusInvalid mem)
  else accelExecuteMemset cmd r mem

def accelStart (p : PageAllocator) (r : AccelMmio) (mem : Mem) : AccelMmio × Mem :=
  if r.status ≠ accelStatusIdle then (r.enterError, mem)
  else
    let r := { r with status := accelStatusBusy }
    if r.cmdBase = 0 then ({ r with status := accelStatusDone, irqStatus := accelIrqDone }, mem)
    else accelStartDescriptor p r.cmdBase r mem

def platformAccelIrqPending (r : AccelMmio) : Bool := r.irqStatus ≠ 0

/-- `platform_accel_step` on the registers and memory. -/
def accelStep (p : PageAllocator) (r : AccelMmio) (mem : Mem) : AccelMmio × Mem :=
  let control := r.control
  let irqAck := r.irqAck
  let r := { r with control := 0, irqAck := 0 }
  if control &&& accelControlReset ≠ 0 then (r.resetState, mem)
  else
    let (r, mem) := if control &&& accelControlStart ≠ 0 then accelStart p r mem else (r, mem)
    ({ r with irqStatus := r.irqStatus &&& ~~~irqAck }, mem)

def platformAccelStep (k : Kernel) : Kernel :=
  let (r, mem) := accelStep k.machine.pages k.accelMmio k.machine.mem
  { k with accelMmio := r, machine := { k.machine with mem := mem } }

end QemuRtos
