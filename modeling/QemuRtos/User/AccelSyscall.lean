import QemuRtos.Drivers.Accel
import QemuRtos.Memory.Usercopy

/-!
# The accelerator system call (`user/accel_syscall.c`)

The call fills a bounce page through the accelerator and copies it back to the user. It may block in
the submission; `UserMemset` is the rest of the call after it.
-/

namespace QemuRtos

open Lib

def userAccelOk : Int := 0
def userAccelErrNoDevice : Int := -1
def userAccelErrInvalid : Int := -2
def userAccelErrBusy : Int := -3
def userAccelErrIo : Int := -4
def userAccelErrTimeout : Int := -5
def userAccelErrNoMemory : Int := -6

def userAccelMemsetMaxLen : U64 := 4096

/-- `user_accel_memset_impl` while its submission is under way, with its locals and the frame of the
system call. -/
structure UserMemset where
  frame : U64
  task : U64
  userDst : U64
  len : U64
  timeoutTicks : U64
  cmd : U64
  bouncePage : U64
deriving DecidableEq

/-- `user_accel_reset_after_timeout`, called when the submission timed out. -/
def userAccelResetAfterTimeout (u : UserMemset) (result : Int) (k : Kernel) : Except Panic Kernel :=
  if result = userAccelErrTimeout ∧ u.timeoutTicks ≠ 0 then
    let (reset, k) := accelReset k
    if reset ≠ accelOk then .error "accelerator timeout reset failed" else .ok k
  else .ok k

/-- The copy of the bounce page to the user when the submission succeeded. -/
def userAccelCopyback (u : UserMemset) (result : Int) (k : Kernel) : Except Panic (Int × Kernel) :=
  if result = userAccelOk then do
    let (copyResult, k) ← copyToUserTask u.task u.userDst u.bouncePage u.len k
    .ok (if copyResult ≠ usercopyOk then userAccelErrInvalid else result, k)
  else .ok (result, k)

/-- The code of `user_accel_memset_impl` after the submission has returned `result`. -/
def userAccelMemsetFinish (u : UserMemset) (result : Int) (k : Kernel) : Except Panic (Int × Kernel) := do
  let k ← userAccelResetAfterTimeout u result k
  let (result, k) ← userAccelCopyback u result k
  let m ← pageFree u.bouncePage k.machine
  let m ← pageFree u.cmd m
  .ok (result, { k with machine := m })

/-- The descriptor that `user_accel_memset_impl` writes in the command page. -/
def writeMemsetCmd (cmd bouncePage len : U64) (value : U32) (mem : Mem) : Mem :=
  let mem := memoryZero cmd 32 mem
  let mem := mem.store32 cmd.toNat accelCmdOpMemset
  let mem := mem.store64 (cmd.toNat + 8) bouncePage
  let mem := mem.store32 (cmd.toNat + 16) (len.setWidth 32)
  mem.store32 (cmd.toNat + 20) value

/-- How a system call that may block proceeds: it has a result, or its submission waits. -/
def userAccelAfterSubmit (u : UserMemset) (p : Progress Submission Int) :
    Except Panic (Progress (UserMemset × Submission) Int) :=
  match p with
  | .ret result k => do
    let (result, k) ← userAccelMemsetFinish u result k
    .ok (.ret result k)
  | .trap regs sub k => .ok (.trap regs (u, sub) k)

def userAccelMemsetImpl (frame task userDst lenArg : U64) (value : U32) (timeoutTicks : U64) (k : Kernel) :
    Except Panic (Progress (UserMemset × Submission) Int) :=
  if lenArg = 0 ∨ lenArg > userAccelMemsetMaxLen then .ok (.ret userAccelErrInvalid k)
  else do
    let (result, k) ← usercopyTaskValidate task userDst lenArg true k
    if result ≠ usercopyOk then .ok (.ret userAccelErrInvalid k)
    else do
      let (cmd, m) ← pageAlloc k.machine
      let (bouncePage, m) ← pageAlloc m
      if cmd = 0 ∨ bouncePage = 0 then do
        let m ← pageFreeIfPresent cmd m
        let m ← pageFreeIfPresent bouncePage m
        .ok (.ret userAccelErrNoMemory { k with machine := m })
      else do
        let k := { k with machine := { m with mem := writeMemsetCmd cmd bouncePage lenArg value m.mem } }
        let u : UserMemset :=
          { frame := frame
            task := task
            userDst := userDst
            len := lenArg
            timeoutTicks := timeoutTicks
            cmd := cmd
            bouncePage := bouncePage }
        let p ← accelSubmitSyncTimeout cmd timeoutTicks k
        userAccelAfterSubmit u p

/-- `user_accel_syscall_memset` once its result is known: the result goes to the user's `a0`. -/
def userAccelReturn (frame : U64) (result : Int) (k : Kernel) : Kernel :=
  userSyscallSetResult frame result (userSyscallAdvance frame k)

def userAccelSyscallMemset (frame : U64) (k : Kernel) :
    Except Panic (Progress (UserMemset × Submission) Int) :=
  let f := k.sched.frames frame
  if frame = 0 then .error "null user accelerator syscall frame"
  else
    let task := threadCurrentUserTaskForFrame frame k
    if task = 0 then .error "scheduled user task required for accelerator syscall"
    else userAccelMemsetImpl frame task f.a0 f.a1 (f.a2.setWidth 32) f.a3 k

end QemuRtos
