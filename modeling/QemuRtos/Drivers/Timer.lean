import QemuRtos.Core.Blocking

/-!
# The timer (`drivers/timer.c`) and the machine-mode shim (`arch/riscv64/machine.c`)

The CLINT raises the machine timer interrupt while `mtime` has reached `mtimecmp`. The shim disarms the compare
register and makes the supervisor timer interrupt pending; the supervisor's handler counts a tick and asks the shim
for the next deadline. Machine interrupts can come between any two steps of the handler.
-/

namespace QemuRtos

open Lib

def timerMax : U64 := 0xffffffffffffffff

/-- `mtime` and `mtimecmp` of the CLINT, and the `STIP` bit of `mip`. -/
structure TimerRegs where
  mtime : U64
  mtimecmp : U64
  stip : Bool

/-! ## Machine mode -/

def machineEcallSetTimer : U64 := 1
def mcauseEcallSMode : U64 := 9
def mcauseMachineTimerInterrupt : U64 := 7

def machineTrapHandle (frame : TrapFrame) (hw : TimerRegs) : Except Panic (TrapFrame × TimerRegs) :=
  let isInterrupt := frame.mcause &&& mcauseInterrupt
  let cause := frame.mcause &&& mcauseCodeMask
  if isInterrupt = 0 ∧ cause = mcauseEcallSMode ∧ frame.a7 = machineEcallSetTimer then
    .ok ({ frame with a0 := 0, mepc := frame.mepc + 4 }, { hw with stip := false, mtimecmp := frame.a0 })
  else if isInterrupt ≠ 0 ∧ cause = mcauseMachineTimerInterrupt then
    .ok (frame, { hw with mtimecmp := timerMax, stip := true })
  else .error "unhandled machine trap"

/-- `machine_call_set_timer`: an `ecall` with these registers. -/
def machineCallSetTimer (deadline : U64) (regs : TrapFrame) (hw : TimerRegs) : Except Panic (Int × TimerRegs) := do
  let (frame, hw) ← machineTrapHandle
    { regs with a0 := deadline, a7 := machineEcallSetTimer, mcause := mcauseEcallSMode } hw
  .ok (regInt frame.a0, hw)

/-! ## The driver -/

/-- The static variables of `timer.c`, as the machine words they are. -/
structure TimerDriver where
  ticks : U64
  nextCompare : U64

/-- What the supervisor is doing: code outside the timer's handler, or a step of `timer_handle_interrupt`. -/
inductive TimerAt
  | kernel
  | handler
  /-- `mtime` has been read. -/
  | counting (now : U64)
  /-- The next deadline is known. -/
  | rearming
  /-- The deadline is set; `thread_on_timer_tick` runs. -/
  | ticking

structure TimerSystem where
  hw : TimerRegs
  driver : TimerDriver
  pos : TimerAt

def timerInterval : U64 := BitVec.ofNat 64 timerIntervalCycles

def timerSetDeadline (value : U64) (regs : TrapFrame) (hw : TimerRegs) : Except Panic TimerRegs := do
  let (result, hw) ← machineCallSetTimer value regs hw
  if result ≠ 0 then .error "machine timer call failed" else .ok hw

def timerInit (regs : TrapFrame) (s : TimerSystem) : Except Panic TimerSystem := do
  let nextCompare := s.hw.mtime + timerInterval
  let hw ← timerSetDeadline nextCompare regs s.hw
  .ok { hw := hw, driver := { ticks := 0, nextCompare := nextCompare }, pos := .kernel }

/-- The loop of `timer_handle_interrupt`. A loop over 64-bit words that makes `2 ^ 64` rounds never ends. -/
def timerCatchUp (now : U64) : Nat → U64 → Option U64
  | 0, _ => none
  | fuel + 1, nextCompare =>
    let nextCompare := nextCompare + timerInterval
    if nextCompare ≤ now then timerCatchUp now fuel nextCompare else some nextCompare

inductive TimerEvent
  | time (mtime : U64)
  | machineInterrupt (regs : TrapFrame)
  | supervisorInterrupt
  /-- The next step of the supervisor's handler. -/
  | handlerStep (regs : TrapFrame)

namespace TimerSystem

def handlerStep (regs : TrapFrame) (s : TimerSystem) : Except Panic TimerSystem :=
  match s.pos with
  | .kernel => .ok s
  | .handler => .ok { s with pos := .counting s.hw.mtime }
  | .counting now =>
    match timerCatchUp now (2 ^ 64) s.driver.nextCompare with
    | none => .error "timer_handle_interrupt stays in its loop"
    | some next => .ok { s with driver := { ticks := s.driver.ticks + 1, nextCompare := next }, pos := .rearming }
  | .rearming => do
    let hw ← timerSetDeadline s.driver.nextCompare regs s.hw
    .ok { s with hw := hw, pos := .ticking }
  | .ticking => .ok { s with pos := .kernel }

def exec : TimerEvent → TimerSystem → Except Panic TimerSystem
  | .time mtime, s => .ok { s with hw := { s.hw with mtime := mtime } }
  | .machineInterrupt regs, s => do
    let (_, hw) ← machineTrapHandle { regs with mcause := mcauseInterrupt ||| mcauseMachineTimerInterrupt } s.hw
    .ok { s with hw := hw }
  | .supervisorInterrupt, s => .ok { s with pos := .handler }
  | .handlerStep regs, s => s.handlerStep regs

/-- When an event can happen: `mtime` moves forward and stays below `2 ^ 64 - TIMER_INTERVAL_CYCLES`, and an interrupt
comes when it is pending; the handler itself runs with supervisor interrupts disabled. -/
def Enabled : TimerEvent → TimerSystem → Prop
  | .time mtime, s => s.hw.mtime ≤ mtime ∧ mtime.toNat < 2 ^ 64 - timerIntervalCycles
  | .machineInterrupt _, s => s.hw.mtimecmp ≤ s.hw.mtime
  | .supervisorInterrupt, s => s.pos = .kernel ∧ s.hw.stip = true
  | .handlerStep _, _ => True

end TimerSystem

end QemuRtos
