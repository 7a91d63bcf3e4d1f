import QemuRtos.Core.Trap

/-!
# Calls that block

A kernel function that waits is split where it waits. `Progress` is how its code goes on: it
returns, or it executes a control trap with these registers, and the part after the trap is kept as
the thread's continuation. `waitQueueSleep` and `waitQueueSleepTimeout` are the two waits of
`thread.c` up to their trap.
-/

namespace QemuRtos

open Lib

/-- The registers that a control trap sets: `a7`, `a0`, and `a1` for a wait with a timeout. -/
structure ControlTrap where
  op : U64
  arg0 : U64
  arg1 : Option U64
deriving DecidableEq

/-- The outcome of running kernel code up to its return or its next control trap, after which it
goes on at `next`. -/
inductive Progress (κ : Type) (α : Type)
  | ret (value : α) (k : Kernel)
  | trap (regs : ControlTrap) (next : κ) (k : Kernel)

/-- A blocking call before `thread_start` would spin; nothing makes one. -/
def spinsBeforeStart : Panic := "blocking call before thread_start"

/-- `wait_queue_sleep` up to its trap. -/
def waitQueueSleep (queue : U64) (k : Kernel) : Except Panic ControlTrap :=
  if !k.sched.threadsStarted then .error spinsBeforeStart
  else if queue = 0 then .error "wait_queue_sleep null queue"
  else .ok { op := threadTrapWait, arg0 := queue, arg1 := none }

/-- `wait_queue_sleep_timeout`: the result when it does not block, or its trap. -/
def waitQueueSleepTimeout (queue ticks : U64) (k : Kernel) : Except Panic (Int ⊕ ControlTrap) :=
  if !k.sched.threadsStarted then .ok (.inl waitTimeout)
  else if queue = 0 then .error "wait_queue_sleep_timeout null queue"
  else if ticks = 0 then .ok (.inl waitTimeout)
  else .ok (.inr { op := threadTrapWaitTimeout, arg0 := queue, arg1 := some ticks })

/-- Where a trap is taken: the frame it saves the registers in, and the registers. -/
structure TrapSite where
  frame : U64
  regs : TrapFrame

/-- `sstatus` as the hardware leaves it on a trap: the mode it came from and the interrupt enable. -/
def trapStatus (supervisor sie : Bool) (sstatus : U64) : U64 :=
  (sstatus &&& ~~~(sstatusSpp ||| sstatusSpie ||| sstatusSie)) |||
    ((if supervisor then sstatusSpp else 0) ||| (if sie then sstatusSpie else 0))

/-- The frame saved by the `ebreak` of a control trap. -/
def ebreakFrame (t : ControlTrap) (sie : Bool) (regs : TrapFrame) : TrapFrame :=
  { regs with
    a0 := t.arg0
    a1 := t.arg1.getD regs.a1
    a7 := t.op
    mcause := mcauseBreakpoint
    mstatus := trapStatus true sie regs.mstatus }

/-- The frame saved by a system call from user mode. -/
def ecallFrame (sie : Bool) (regs : TrapFrame) : TrapFrame :=
  { regs with mcause := mcauseEcallUMode, mstatus := trapStatus false sie regs.mstatus }

/-- The frame saved by a timer interrupt. -/
def timerFrame (supervisor sie : Bool) (regs : TrapFrame) : TrapFrame :=
  { regs with
    mcause := mcauseInterrupt ||| scauseSupervisorTimerInterrupt
    mstatus := trapStatus supervisor sie regs.mstatus }

/-- A trap that resumes a frame, from its entry to its return. -/
def takeTrap (mtime : Nat) (frame : U64) (regs : TrapFrame) (k : Kernel) : Except Panic Kernel := do
  let (action, k) ← trapHandle mtime frame (trapEnter frame regs k)
  match action with
  | .resume next => do
    let (_, k) ← trapReturnFromHandler next k
    .ok k
  | .accelMemset _ => .ok k

/-- The control trap of a thread. -/
def controlTrap (t : ControlTrap) (site : TrapSite) (k : Kernel) : Except Panic Kernel :=
  takeTrap 0 site.frame (ebreakFrame t k.machine.sie site.regs) k

/-- A register read as a C `int`. -/
def regInt (r : U64) : Int := (r.setWidth 32).toInt

theorem regInt_intReg_ok : regInt (intReg waitOk) = waitOk := by decide

theorem regInt_intReg_timeout : regInt (intReg waitTimeout) = waitTimeout := by decide

end QemuRtos
