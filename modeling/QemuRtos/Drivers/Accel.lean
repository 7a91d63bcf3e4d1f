import QemuRtos.Core.Blocking
import QemuRtos.Drivers.Platform

/-!
# The accelerator driver (`drivers/accel.c`, `drivers/device.c`)

One request slot. A submission claims it, starts the device and waits until the interrupt handler
completes the request or the wait times out; after a timeout the device must be reset before the
slot can be used again. `Submission` is the rest of a submission that waits.
-/

namespace QemuRtos

open Lib

def accelOk : Int := 0
def accelErrNoDevice : Int := -1
def accelErrInvalid : Int := -2
def accelErrBusy : Int := -3
def accelErrIo : Int := -4
def accelErrTimeout : Int := -5

/-- `UINT64_MAX`, the tick count that means no timeout. -/
def ticksForever : U64 := 0xffffffffffffffff

/-- `&accel_request.waiters`. -/
def accelWaiters (image : Image) : U64 := image.accelRequest + 8

/-- A submission that has claimed the slot, with its locals. -/
structure Submission where
  cmd : U64
  ticks : U64
  irqState : Bool
deriving DecidableEq

namespace Kernel

def setMem (k : Kernel) (f : Mem → Mem) : Kernel :=
  { k with machine := { k.machine with mem := f k.machine.mem } }

def setMmio (k : Kernel) (f : AccelMmio → AccelMmio) : Kernel := { k with accelMmio := f k.accelMmio }

def setRequest (k : Kernel) (f : AccelRequest → AccelRequest) : Kernel :=
  { k with accelRequest := f k.accelRequest }

end Kernel

def accelProbe (k : Kernel) : Except Panic (Int × Kernel) :=
  if k.accelMmio.id ≠ accelDeviceIdValue then .ok (-1, k)
  else do
    let k ← waitQueueInit (accelWaiters k.machine.image) (some "accel-request") k
    .ok (0, k.setRequest fun _ =>
      { cmd := 0
        inUse := false
        completed := false
        result := accelErrIo
        resetRequiredAfterTimeout := false
        submitterTid := threadInvalidTid })

/-- `driver_probe_all` with the one driver and the one device there are. -/
def driverProbeAll (k : Kernel) : Except Panic Kernel :=
  if k.accelBound then .ok k
  else do
    let (result, k) ← accelProbe k
    .ok (if result = 0 then { k with accelBound := true } else k)

/-- Acknowledge interrupts and let the device see it. -/
def ackAndStep (mask : U32) (k : Kernel) : Kernel :=
  platformAccelStep (k.setMmio fun r => { r with irqAck := mask })

/-- The completion that `accel_irq_handler` records for the request in flight. -/
def accelRecordCompletion (irqStatus : U32) (k : Kernel) : Kernel :=
  let ok := irqStatus &&& accelIrqDone ≠ 0 ∧ k.accelMmio.status = accelStatusDone ∧
    cmdStatus k.machine.mem k.accelRequest.cmd = accelCmdStatusOk
  k.setRequest fun q => { q with result := if ok then accelOk else accelErrIo, completed := true }

def accelIrqHandler (k : Kernel) : Except Panic Kernel :=
  let irqStatus := k.accelMmio.irqStatus
  let knownIrq := irqStatus &&& (accelIrqDone ||| accelIrqError)
  if knownIrq = 0 then .ok k
  else
    let (irqState, k) := k.irqSave
    if !k.accelRequest.inUse ∨ k.accelRequest.cmd = 0 then
      .ok ((ackAndStep knownIrq k).irqRestore irqState)
    else do
      let k := ackAndStep knownIrq (accelRecordCompletion irqStatus k)
      let k ← waitQueueWakeAll (accelWaiters k.machine.image) k
      .ok (k.irqRestore irqState)

def platformDispatchPendingIrqs (k : Kernel) : Except Panic Kernel :=
  if !platformAccelIrqPending k.accelMmio then .ok k
  else if !k.accelBound then .error "unhandled simulated platform irq"
  else accelIrqHandler k

def accelCmdPointerIsSafe (p : PageAllocator) (cmd : U64) : Bool :=
  cmd ≠ 0 && cmd &&& (accelCmdAlignment - 1) = 0 && pageRangeIsManagedPageContained p cmd accelCmdSize

def accelCmdPayloadIsValid (p : PageAllocator) (mem : Mem) (cmd : U64) : Bool :=
  if cmdOp mem cmd ≠ accelCmdOpMemset ∨ cmdFlags mem cmd ≠ 0 ∨ cmdReserved mem cmd ≠ 0 ∨
      cmdLen mem cmd = 0 then false
  else pageRangeIsManagedPageContained p (cmdDstPa mem cmd) ((cmdLen mem cmd).setWidth 64)

def accelDeviceIsReady (r : AccelMmio) : Bool := r.status = accelStatusIdle && r.irqStatus = 0

def accelAckIrq (mask : U32) (k : Kernel) : Int × Kernel :=
  if mask &&& ~~~(accelIrqDone ||| accelIrqError) ≠ 0 then (accelErrInvalid, k)
  else if !k.accelBound then (accelErrNoDevice, k)
  else
    let (irqState, k) := k.irqSave
    if k.accelRequest.inUse ∨ k.accelRequest.resetRequiredAfterTimeout then
      (accelErrBusy, k.irqRestore irqState)
    else (accelOk, (ackAndStep mask k).irqRestore irqState)

def accelWriteControlRaw (control : U32) (k : Kernel) : Int × Kernel :=
  if control &&& ~~~(accelControlStart ||| accelControlReset) ≠ 0 then (accelErrInvalid, k)
  else if !k.accelBound then (accelErrNoDevice, k)
  else
    let (irqState, k) := k.irqSave
    if k.accelRequest.inUse then (accelErrBusy, k.irqRestore irqState)
    else if k.accelRequest.resetRequiredAfterTimeout ∧ control &&& accelControlReset = 0 then
      (accelErrBusy, k.irqRestore irqState)
    else
      let k := platformAccelStep (k.setMmio fun r => { r with control := control })
      let k := if control &&& accelControlReset ≠ 0 then
          k.setRequest fun q => { q with resetRequiredAfterTimeout := false }
        else k
      (accelOk, k.irqRestore irqState)

def accelReset : Kernel → Int × Kernel := accelWriteControlRaw accelControlReset

def accelStartSelftest : Kernel → Int × Kernel := accelWriteControlRaw accelControlStart

/-! ## Submission -/

/-- The end of `accel_submit_sync_timeout`: release the slot. -/
def accelSubmitFinish (sub : Submission) (result : Int) (k : Kernel) : Progress Submission Int :=
  let result := if k.accelRequest.completed then k.accelRequest.result else result
  let k := k.setRequest fun q =>
    { q with
      cmd := 0
      inUse := false
      completed := false
      result := accelErrIo
      submitterTid := threadInvalidTid }
  .ret result (k.irqRestore sub.irqState)

/-- The branch of the wait loop taken on a timeout. -/
def accelSubmitTimedOut (sub : Submission) (k : Kernel) : Progress Submission Int :=
  let k := k.setMem (setCmdStatus sub.cmd accelCmdStatusTimeout)
  let k := k.setRequest fun q => { q with resetRequiredAfterTimeout := true }
  accelSubmitFinish sub accelErrTimeout k

/-- The wait loop, from its test. -/
def accelSubmitLoop (sub : Submission) (k : Kernel) : Except Panic (Progress Submission Int) :=
  if k.accelRequest.completed then .ok (accelSubmitFinish sub accelErrIo k)
  else if sub.ticks = ticksForever then do
    let regs ← waitQueueSleep (accelWaiters k.machine.image) k
    .ok (.trap regs sub k)
  else match waitQueueSleepTimeout (accelWaiters k.machine.image) sub.ticks k with
    | .error e => .error e
    | .ok (.inl _) => .ok (accelSubmitTimedOut sub k)
    | .ok (.inr regs) => .ok (.trap regs sub k)

/-- The wait loop, from the return of its wait with this `a0`. -/
def Submission.resume (sub : Submission) (a0 : U64) (k : Kernel) : Except Panic (Progress Submission Int) :=
  if sub.ticks = ticksForever then accelSubmitLoop sub k
  else if regInt a0 = waitTimeout then .ok (accelSubmitTimedOut sub k)
  else accelSubmitLoop sub k

/-- The slot is claimed and the device started. -/
def accelClaim (cmd : U64) (k : Kernel) : Kernel :=
  let tid := threadCurrentTid k
  let k := k.setRequest fun q =>
    { q with cmd := cmd, inUse := true, completed := false, result := accelErrIo, submitterTid := tid }
  let k := k.setMem (setCmdStatus cmd accelCmdStatusPending)
  k.setMmio fun r => { r with cmdBase := cmd, control := accelControlStart }

def accelSubmitSyncTimeout (cmd ticks : U64) (k : Kernel) : Except Panic (Progress Submission Int) :=
  if !accelCmdPointerIsSafe k.machine.pages cmd then .ok (.ret accelErrInvalid k)
  else if ticks = 0 then .ok (.ret accelErrTimeout (k.setMem (setCmdStatus cmd accelCmdStatusTimeout)))
  else if !k.accelBound then .ok (.ret accelErrNoDevice k)
  else if !accelCmdPayloadIsValid k.machine.pages k.machine.mem cmd then
    .ok (.ret accelErrInvalid (k.setMem (setCmdStatus cmd accelCmdStatusInvalid)))
  else
    let (irqState, k) := k.irqSave
    if k.accelRequest.inUse then
      .ok (.ret accelErrBusy ((k.setMem (setCmdStatus cmd accelCmdStatusRejected)).irqRestore irqState))
    else if k.accelRequest.resetRequiredAfterTimeout ∨ !accelDeviceIsReady k.accelMmio then
      .ok (.ret accelErrBusy ((k.setMem (setCmdStatus cmd accelCmdStatusRejected)).irqRestore irqState))
    else accelSubmitLoop { cmd := cmd, ticks := ticks, irqState := irqState } (accelClaim cmd k)

def accelSubmitSync (cmd : U64) : Kernel → Except Panic (Progress Submission Int) :=
  accelSubmitSyncTimeout cmd ticksForever

end QemuRtos
