import QemuRtos.Core.Thread

/-!
# Traps (`core/trap.c`, `drivers/timer.c`, `user/syscall.c`)

`trapHandle` dispatches on the cause of a trap and returns what happens next: a frame is resumed,
or the handler goes on in `user_accel_syscall_memset`, which may block on a nested trap before it
resumes a frame. `trapReturnFromHandler` restores a frame, through the trampoline when it is a user
frame of the current thread.
-/

namespace QemuRtos

open Lib

/-! ## The timer -/

def timerIntervalCycles : Nat := 10000

/-- The catch-up loop of `timer_handle_interrupt`. -/
def timerNextCompare (now next : Nat) : Nat :=
  if next + timerIntervalCycles ≤ now then timerNextCompare now (next + timerIntervalCycles)
  else next + timerIntervalCycles
termination_by now - next
decreasing_by simp only [timerIntervalCycles] at *; omega

/-- `timer_handle_interrupt` when `mtime` reads `now`. -/
def timerHandleInterrupt (now : Nat) (k : Kernel) : Except Panic Kernel :=
  threadOnTimerTick
    { k with timer :=
        { ticks := k.timer.ticks + 1
          nextCompare := timerNextCompare now k.timer.nextCompare } }

/-! ## System calls -/

def userSyscallExit : U64 := 1
def userSyscallYield : U64 := 2
def userSyscallSleep : U64 := 3
def userSyscallAccelMemset : U64 := 4
def userSyscallNoop : U64 := 5
def userSyscallOk : Int := 0
def userSyscallErrUnknown : Int := -1

/-- How a trap handler ends. -/
inductive TrapAction
  /-- Resume this frame. -/
  | resume (frame : U64)
  /-- Go on in `user_accel_syscall_memset` with the frame of the system call. -/
  | accelMemset (frame : U64)
deriving DecidableEq

def userSyscallAdvance (frame : U64) (k : Kernel) : Kernel :=
  k.setFrame frame fun f => { f with mepc := f.mepc + 4 }

def userSyscallSetResult (frame : U64) (result : Int) (k : Kernel) : Kernel :=
  k.setFrame frame fun f => { f with a0 := intReg result }

def userSyscallRequireTask (frame : U64) (k : Kernel) : Except Panic Unit :=
  if threadCurrentUserTaskForFrame frame k = 0 then .error "scheduled user task required for syscall"
  else .ok ()

/-- The exit system call. Without a scheduled task the first user program returns to the kernel. -/
def userSyscallExitFromTrap (frame : U64) (k : Kernel) : Except Panic (U64 × Kernel) :=
  if threadCurrentUserTaskForFrame frame k ≠ 0 then threadExitCurrentFromTrap frame k
  else
    let k := { k with userExitCode := (k.sched.frames frame).a0 }
    .ok (frame, k.setFrame frame fun f =>
      { f with
        mepc := k.machine.image.firstUserExitReturn
        mstatus := f.mstatus ||| (sstatusSpp ||| sstatusSpie)
        sp := frame + trapFrameStackSize })

def userSyscallYieldFromTrap (frame : U64) (k : Kernel) : Except Panic (U64 × Kernel) := do
  userSyscallRequireTask frame k
  threadYieldCurrentFromTrap frame (userSyscallSetResult frame userSyscallOk (userSyscallAdvance frame k))

def userSyscallSleepFromTrap (frame : U64) (k : Kernel) : Except Panic (U64 × Kernel) := do
  let ticks := (k.sched.frames frame).a0
  userSyscallRequireTask frame k
  threadSleepCurrentFromTrap frame ticks
    (userSyscallSetResult frame userSyscallOk (userSyscallAdvance frame k))

/-- The system calls that only set their result: no-op, and every number that is not supported. -/
def userSyscallReturn (frame : U64) (result : Int) (k : Kernel) : Except Panic (U64 × Kernel) := do
  userSyscallRequireTask frame k
  .ok (frame, userSyscallSetResult frame result (userSyscallAdvance frame k))

def userSyscallNoopFromTrap (frame : U64) : Kernel → Except Panic (U64 × Kernel) :=
  userSyscallReturn frame userSyscallOk

/-- A handler that always resumes a frame. -/
def resuming (result : Except Panic (U64 × Kernel)) : Except Panic (TrapAction × Kernel) :=
  result.map fun (frame, k) => (.resume frame, k)

def userSyscallDispatch (frame : U64) (k : Kernel) : Except Panic (TrapAction × Kernel) :=
  let syscallNr := (k.sched.frames frame).a7
  if frame = 0 then .error "null user syscall frame"
  else if syscallNr = userSyscallExit then resuming (userSyscallExitFromTrap frame k)
  else if syscallNr = userSyscallYield then resuming (userSyscallYieldFromTrap frame k)
  else if syscallNr = userSyscallSleep then resuming (userSyscallSleepFromTrap frame k)
  else if syscallNr = userSyscallAccelMemset then .ok (.accelMemset frame, k)
  else if syscallNr = userSyscallNoop then resuming (userSyscallNoopFromTrap frame k)
  else resuming (userSyscallReturn frame userSyscallErrUnknown k)

/-! ## Dispatch and return -/

def mcauseInterrupt : U64 := 1 <<< 63
def mcauseCodeMask : U64 := ~~~mcauseInterrupt
def scauseSupervisorTimerInterrupt : U64 := 5

def trapIsPageFault (cause : U64) : Bool :=
  cause = mcauseInstructionPageFault || cause = mcauseLoadPageFault || cause = mcauseStorePageFault

/-- `trap_handle`, with the value of `mtime` for the timer interrupt. -/
def trapHandle (mtime : Nat) (frame : U64) (k : Kernel) : Except Panic (TrapAction × Kernel) :=
  let mcause := (k.sched.frames frame).mcause
  let isInterrupt := mcause &&& mcauseInterrupt
  let cause := mcause &&& mcauseCodeMask
  if isInterrupt = 0 ∧ cause = mcauseBreakpoint ∧ !k.trapSelftestSeen then
    let k := { k with trapSelftestSeen := true }
    .ok (.resume frame, k.setFrame frame fun f => { f with mepc := f.mepc + 4 })
  else if isInterrupt = 0 ∧ cause = mcauseBreakpoint then
    resuming (threadHandleControlTrapFromTrap frame k)
  else if isInterrupt ≠ 0 ∧ cause = scauseSupervisorTimerInterrupt then do
    let k ← timerHandleInterrupt mtime k
    resuming (threadMaybePreemptFromTrap frame k)
  else if isInterrupt = 0 ∧ cause = mcauseEcallUMode then userSyscallDispatch frame k
  else if isInterrupt = 0 ∧ trapIsPageFault cause then
    let (recovered, k) := threadUsercopyProbeRecover frame cause k
    if recovered then .ok (.resume frame, k) else .error "page fault"
  else .error "unhandled trap"

/-- What a trap return restores: a supervisor frame, or a trap context under a user `satp`. -/
inductive TrapReturn
  | supervisor (frame : U64)
  | user (context satp : U64)
deriving DecidableEq

/-- `sret` after `sstatus` has been loaded from the frame: `SIE` becomes the saved `SPIE`. -/
def sretFrom (frame : U64) (k : Kernel) : Kernel :=
  k.irqRestore ((k.sched.frames frame).mstatus &&& sstatusSpie ≠ 0)

def trapReturnToUser (task : U64) (k : Kernel) : Except Panic (TrapReturn × Kernel) :=
  let frame := userTaskTrapFrame task k
  let userSatp := userTaskSatp task k
  if frame = 0 ∨ userSatp = 0 ∨ (k.sched.frames frame).mstatus &&& sstatusSpp ≠ 0 then
    .error "invalid user trap return"
  else .ok (.user frame userSatp, sretFrom frame k)

def trapReturnFromHandler (frame : U64) (k : Kernel) : Except Panic (TrapReturn × Kernel) :=
  let task := threadCurrentUserTaskForFrame frame k
  if task ≠ 0 then trapReturnToUser task (threadSetCurrentTrapFrameFromTrap frame k)
  else .ok (.supervisor frame, sretFrom frame k)

/-- Trap entry: the hardware masks interrupts and the entry code saves the registers at `frame`. -/
def trapEnter (frame : U64) (regs : TrapFrame) (k : Kernel) : Kernel :=
  let (_, k) := k.irqSave
  k.setFrame frame fun _ => regs

end QemuRtos
