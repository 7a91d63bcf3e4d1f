import QemuRtos.Safety.AccelOutcome

/-!
# The protocol of the driver and the device, over every run

The control register, the device and the request slot stay in step: no start is left over, no stale descriptor can be
started, a request in flight is not disturbed, and an accepted submission is executed at most once.
-/

namespace QemuRtos

open Lib

variable {p : PageAllocator} {r : AccelMmio} {mem : Mem} {k k' : Kernel} {mask c : U32}

theorem accelWriteControlRaw_mem (h : k.Protocol) : (accelWriteControlRaw c k).2.machine.mem = k.machine.mem := by
  rcases accelWriteControlRaw_cases c k with ⟨hk, -⟩ | ⟨-, hfree, ⟨-, hk⟩ | ⟨-, hreq, hc, hk⟩⟩
  · rw [hk]
  · rw [hk]
  · rw [hk]
    rcases accelWriteControlRaw_start h hfree hreq hc with heq | ⟨r', -, heq⟩
    · rw [heq]
    · rw [heq]

theorem accelWriteControlRaw_busy (hb : k.accelBound = true) (hu : k.accelRequest.inUse = true) :
    (accelWriteControlRaw c k).1 = accelErrBusy ∨ (accelWriteControlRaw c k).1 = accelErrInvalid := by
  rw [accelWriteControlRaw]
  split
  · exact .inr rfl
  rw [if_neg (by rw [hb]; decide)]
  dsimp only [Kernel.irqSave]
  rw [if_pos hu]
  exact .inl rfl

theorem accelAckIrq_busy (hb : k.accelBound = true) (hu : k.accelRequest.inUse = true) :
    (accelAckIrq mask k).1 = accelErrBusy ∨ (accelAckIrq mask k).1 = accelErrInvalid := by
  rw [accelAckIrq]
  split
  · exact .inr rfl
  rw [if_neg (by rw [hb]; decide)]
  dsimp only [Kernel.irqSave]
  rw [if_pos (.inl hu)]
  exact .inl rfl

/-- An acknowledgement clears interrupt bits, and does nothing else to the registers. -/
def Acked (r r' : AccelMmio) : Prop :=
  ∃ mask : U32, r' = { r with control := 0, irqAck := 0, irqStatus := r.irqStatus &&& ~~~mask }

theorem accelAckIrq_mmio (h : k.Protocol) : (accelAckIrq mask k).2.accelMmio = k.accelMmio ∨
    k.accelMmio.control = 0 ∧ Acked k.accelMmio (accelAckIrq mask k).2.accelMmio := by
  rw [accelAckIrq]
  split
  · exact .inl rfl
  split
  · exact .inl rfl
  dsimp only [Kernel.irqSave]
  split
  · exact .inl rfl
  · rename_i hfree
    rcases h.pending_cases with hc | ⟨-, -, -, hor⟩
    · have heq : ackAndStep mask k.irqSave.2 = _ := ackAndStep_eq hc
      exact .inr ⟨hc, mask, congrArg Kernel.accelMmio heq⟩
    · exact absurd hor hfree

theorem IrqOutcome.mmio {Q : Set U64} (ho : IrqOutcome Q k k') (h : k.Protocol) : k'.accelMmio = k.accelMmio ∨
    k.accelMmio.control = 0 ∧ Acked k.accelMmio k'.accelMmio := by
  cases ho with
  | none => exact .inl rfl
  | spurious hirq =>
    have hc := knownIrq_control h hirq
    rw [ackAndStep_eq hc]
    exact .inr ⟨hc, _, rfl⟩
  | completed hirq _ _ _ _ _ _ =>
    have hc := knownIrq_control h hirq
    have hc' : (accelRecordCompletion k.accelMmio.irqStatus k).accelMmio.control = 0 := hc
    rw [ackAndStep_eq hc']
    exact .inr ⟨hc, _, rfl⟩

namespace System

variable {σ σ' σ₁ σ₂ σ₃ : System} {op op' : Op} {l : List Op}

/-- The step resets the device: by hand, or for a caller whose submission has returned. -/
inductive Resets (σ : System) : Op → Prop
  | raw {control : U32} (hc : control &&& accelControlReset ≠ 0)
    (hok : (accelWriteControlRaw control σ.kernel).1 = accelOk) : Resets σ (.accelControl control)
  | caller {op : Op} {c : Nat} {sub : Submission} {k₀ k₁ : Kernel} {pending : Bool} (hs : Submits σ c sub k₀)
    (hr : Released pending k₀ k₁) (hok : (accelReset k₁).1 = accelOk) : Resets σ op

/-- What a step can do to the registers of the device. -/
inductive RegsStepped (σ : System) (op : Op) : AccelMmio → Prop
  | same : RegsStepped σ op σ.kernel.accelMmio
  /-- A submission has claimed the slot. -/
  | claimed {cmd ticks : U64} {k : Kernel} (hk : AccelKept σ.kernel k) (hclaim : Claims cmd ticks k) :
    RegsStepped σ op { σ.kernel.accelMmio with cmdBase := cmd, control := accelControlStart }
  | reset (hreset : Resets σ op) : RegsStepped σ op
      { σ.kernel.accelMmio with control := 0, irqAck := 0, status := accelStatusIdle, irqStatus := 0, cmdBase := 0 }
  /-- The device has seen the start of a submission. -/
  | ran {r' : AccelMmio} (hc : σ.kernel.accelMmio.control = accelControlStart)
    (hr : DeviceRan { σ.kernel.accelMmio with control := 0 } r') : RegsStepped σ op r'
  /-- A start by hand. -/
  | started {r' : AccelMmio} (hc : σ.kernel.accelMmio.control = 0)
    (hfree : σ.kernel.accelMmio.status ≠ accelStatusIdle ∨ σ.kernel.accelMmio.cmdBase = 0)
    (hr : DeviceRan σ.kernel.accelMmio r') : RegsStepped σ op r'
  | acked {r' : AccelMmio} (hc : σ.kernel.accelMmio.control = 0) (ha : Acked σ.kernel.accelMmio r') :
    RegsStepped σ op r'

theorem Submits.regs {c : Nat} {sub : Submission} {k₀ : Kernel} (hs : Submits σ c sub k₀) :
    RegsStepped σ op k₀.accelMmio := by
  cases hs with
  | @claims k ticks hidle hk hclaim htid hk₀ =>
    have hregs : k₀.accelMmio = { σ.kernel.accelMmio with cmdBase := sub.cmd, control := accelControlStart } := by
      rw [hk₀, ← hk.mmio]
      rfl
    rw [hregs]
    exact .claimed hk hclaim
  | goesOn hcall hk₀ =>
    rw [hk₀]
    exact .same

theorem AccelStepped.regs (hs : AccelStepped σ op σ') (h : σ.kernel.Protocol) :
    RegsStepped σ op σ'.kernel.accelMmio := by
  cases hs with
  | kept hk =>
    rw [hk.kernel.mmio]
    exact .same
  | waits _ hs hk _ _ _ =>
    rw [hk.mmio]
    exact hs.regs
  | @returned c sub k₀ k₁ pending _ hs hr hk _ _ =>
    have hregs : RegsStepped σ op k₁.accelMmio := by
      rw [hr.mmio]
      exact hs.regs
    rcases hk with hk | hk
    · rw [hk.mmio]
      exact hregs
    rw [hk.mmio]
    rcases accelWriteControlRaw_cases accelControlReset k₁ with ⟨heq, -⟩ | ⟨hok, -, ⟨-, heq⟩ | ⟨hno, -⟩⟩
    · rw [accelReset, heq]
      exact hregs
    · have hreset : (accelReset k₁).2.accelMmio = { σ.kernel.accelMmio with
          control := 0, irqAck := 0, status := accelStatusIdle, irqStatus := 0, cmdBase := 0 } := by
        rw [accelReset, heq]
        dsimp only
        rw [hr.mmio]
        cases hs with
        | claims _ hk' _ _ hk₀ =>
          rw [hk₀, ← hk'.mmio]
          rfl
        | goesOn _ hk₀ => rw [hk₀]
      rw [hreset]
      exact .reset (.caller hs hr hok)
    · exact absurd hno (by decide)
  | ran _ =>
    rcases h.pending_cases with hc | ⟨hc, -, -, -⟩
    · have hquiet : platformAccelStep σ.kernel = σ.kernel := by rw [platformAccelStep, accelStep_quiet hc h.ack]
      show RegsStepped σ op (platformAccelStep σ.kernel).accelMmio
      rw [hquiet]
      exact .same
    · refine .ran hc ?_
      have hran := accelStart_ran σ.kernel.machine.pages { σ.kernel.accelMmio with control := 0 } σ.kernel.machine.mem
      rw [← accelStep_start hc h.ack] at hran
      exact hran
  | @written control hop =>
    subst hop
    show RegsStepped σ _ (accelWriteControlRaw control σ.kernel).2.accelMmio
    rcases accelWriteControlRaw_cases control σ.kernel with ⟨hk, -⟩ | ⟨hok, hfree, ⟨hc, hk⟩ | ⟨-, hreq, hc, hk⟩⟩
    · rw [hk]
      exact .same
    · rw [hk]
      exact .reset (.raw hc hok)
    · rw [hk]
      rcases accelWriteControlRaw_start h hfree hreq hc with heq | ⟨r', hran, heq⟩
      · rw [heq]
        exact .same
      · rw [heq]
        exact .started (h.control_free hfree hreq) (h.free hfree hreq) hran
  | @acked mask _ =>
    show RegsStepped σ op (accelAckIrq mask σ.kernel).2.accelMmio
    rcases accelAckIrq_mmio h with heq | ⟨hc, ha⟩
    · rw [heq]
      exact .same
    · exact .acked hc ha
  | @dispatched k' _ ho =>
    show RegsStepped σ op k'.accelMmio
    rcases ho.mmio h with heq | ⟨hc, ha⟩
    · rw [heq]
      exact .same
    · exact .acked hc ha

/-! ### Executions of a descriptor -/

/-- A step that the system can take. -/
structure Steps (op : Op) (σ σ' : System) : Prop where
  enabled : Enabled op σ
  once : AttachOnce op σ
  exec : System.exec op σ = .ok σ'

/-- The device executes a descriptor: it has one, is idle before the step and has been started after it. -/
structure Executes (σ σ' : System) : Prop where
  idle : σ.kernel.accelMmio.status = accelStatusIdle
  started : σ'.kernel.accelMmio.status ≠ accelStatusIdle
  base : σ'.kernel.accelMmio.cmdBase ≠ 0

/-- A submission is accepted: its start is pending after the step. -/
structure Accepts (σ σ' : System) : Prop where
  quiet : σ.kernel.accelMmio.control = 0
  pending : σ'.kernel.accelMmio.control ≠ 0

/-- The step accepts no submission. -/
def Unaccepted (op : Op) (σ : System) : Prop := ∀ σ', exec op σ = .ok σ' → ¬Accepts σ σ'

/-- The device has nothing to execute. -/
structure Spent (σ : System) : Prop where
  control : σ.kernel.accelMmio.control = 0
  done : σ.kernel.accelMmio.status ≠ accelStatusIdle ∨ σ.kernel.accelMmio.cmdBase = 0

theorem Steps.regs (hs : Steps op σ σ') (h : DriverOk σ) : RegsStepped σ op σ'.kernel.accelMmio :=
  (exec_accel h.sys hs.enabled hs.exec).regs h.accel.protocol

theorem Steps.driverOk (hs : Steps op σ σ') (h : DriverOk σ) : DriverOk σ' := h.step hs.enabled hs.once hs.exec

theorem Executes.spent (he : Executes σ σ') (h : DriverOk σ') : Spent σ' := by
  refine ⟨?_, .inl he.started⟩
  by_contra hne
  exact he.started (h.accel.protocol.pending hne).2.1

/-- Only an accepted submission gives the device something to execute. -/
theorem Spent.step (hsp : Spent σ) (hs : RegsStepped σ op σ'.kernel.accelMmio) (hno : ¬Accepts σ σ') : Spent σ' := by
  have hquiet : σ'.kernel.accelMmio.control = 0 := by
    by_contra hne
    exact hno ⟨hsp.control, hne⟩
  refine ⟨hquiet, ?_⟩
  generalize σ'.kernel.accelMmio = r' at hs hquiet ⊢
  cases hs with
  | same => exact hsp.done
  | claimed => exact absurd hquiet (by decide : accelControlStart ≠ 0)
  | reset => exact .inr rfl
  | ran _ hr => exact .inl hr.not_idle
  | started _ _ hr => exact .inl hr.not_idle
  | acked _ ha =>
    obtain ⟨mask, rfl⟩ := ha
    exact hsp.done

theorem Spent.not_executes (hsp : Spent σ) (hs : RegsStepped σ op σ'.kernel.accelMmio) : ¬Executes σ σ' := by
  intro he
  have hbase := hsp.done.resolve_left (not_not_intro he.idle)
  have hstarted := he.started
  have hne := he.base
  generalize σ'.kernel.accelMmio = r' at hs hstarted hne
  cases hs with
  | same => exact hstarted he.idle
  | claimed => exact hstarted he.idle
  | reset => exact hne rfl
  | ran hc _ => exact absurd (hsp.control.symm.trans hc) (by decide)
  | started _ _ hr => exact hne (hr.cmdBase.trans hbase)
  | acked _ ha =>
    obtain ⟨mask, rfl⟩ := ha
    exact hstarted he.idle

/-- What a run keeps in which no submission is accepted after an execution. -/
structure SpentOk (σ : System) : Prop where
  driver : DriverOk σ
  spent : Spent σ

theorem SpentOk.step (h : SpentOk σ) (hs : Steps op σ σ') (hno : ¬Accepts σ σ') : SpentOk σ' :=
  ⟨hs.driverOk h.driver, h.spent.step (hs.regs h.driver) hno⟩

/-- What holds of driver and device in every reachable state, and of what happens next. -/
structure DeviceSafe (σ : System) : Prop where
  /-- A pending start belongs to the request in flight, or to one that has timed out. -/
  pending : σ.kernel.accelMmio.control ≠ 0 → σ.kernel.accelMmio.control = accelControlStart ∧
    (σ.kernel.accelRequest.inUse = true ∨ σ.kernel.accelRequest.resetRequiredAfterTimeout = true)
  free : σ.kernel.accelRequest.inUse = false → σ.kernel.accelRequest.resetRequiredAfterTimeout = false →
    σ.kernel.accelMmio.status ≠ accelStatusIdle ∨ σ.kernel.accelMmio.cmdBase = 0
  stale : ∀ control, (accelWriteControlRaw control σ.kernel).2.machine.mem = σ.kernel.machine.mem
  flight : σ.kernel.accelRequest.inUse = true → σ.kernel.accelMmio.cmdBase = σ.kernel.accelRequest.cmd ∧
    σ.kernel.accelRequest.cmd ≠ 0
  refused : σ.kernel.accelRequest.inUse = true → ∀ control,
    (accelWriteControlRaw control σ.kernel).2 = σ.kernel ∧
      ((accelWriteControlRaw control σ.kernel).1 = accelErrBusy ∨
        (accelWriteControlRaw control σ.kernel).1 = accelErrInvalid)
  refusedAck : σ.kernel.accelRequest.inUse = true → ∀ mask, (accelAckIrq mask σ.kernel).2 = σ.kernel ∧
    ((accelAckIrq mask σ.kernel).1 = accelErrBusy ∨ (accelAckIrq mask σ.kernel).1 = accelErrInvalid)
  status : σ.kernel.accelMmio.status = accelStatusIdle ∨ σ.kernel.accelMmio.status = accelStatusDone ∨
    σ.kernel.accelMmio.status = accelStatusError
  reset : ∀ op σ', Steps op σ σ' → σ.kernel.accelMmio.status ≠ accelStatusIdle →
    σ'.kernel.accelMmio.status = accelStatusIdle → Resets σ op
  /-- What is accepted is a submission that has passed all checks, and the device gets its descriptor. -/
  accepted : ∀ op σ', Steps op σ σ' → Accepts σ σ' → ∃ cmd ticks k, AccelKept σ.kernel k ∧ Claims cmd ticks k ∧
    σ'.kernel.accelMmio.cmdBase = cmd
  /-- Between two executions a submission is accepted. -/
  once : ∀ op σ₁ l σ₂ op' σ₃, Steps op σ σ₁ → Executes σ σ₁ →
    Run System.exec (fun op σ => (Enabled op σ ∧ AttachOnce op σ) ∧ Unaccepted op σ) σ₁ l σ₂ →
    Steps op' σ₂ σ₃ → ¬Executes σ₂ σ₃

theorem RegsStepped.resets (hs : RegsStepped σ op σ'.kernel.accelMmio)
    (hne : σ.kernel.accelMmio.status ≠ accelStatusIdle)
    (hidle : σ'.kernel.accelMmio.status = accelStatusIdle) : Resets σ op := by
  generalize σ'.kernel.accelMmio = r' at hs hidle
  cases hs with
  | same => exact absurd hidle hne
  | claimed => exact absurd hidle hne
  | reset hreset => exact hreset
  | ran _ hr => exact absurd hidle hr.not_idle
  | started _ _ hr => exact absurd hidle hr.not_idle
  | acked _ ha =>
    obtain ⟨mask, rfl⟩ := ha
    exact absurd hidle hne

theorem RegsStepped.accepted (hs : RegsStepped σ op σ'.kernel.accelMmio) (ha : Accepts σ σ') :
    ∃ cmd ticks k, AccelKept σ.kernel k ∧ Claims cmd ticks k ∧ σ'.kernel.accelMmio.cmdBase = cmd := by
  have hpending := ha.pending
  generalize σ'.kernel.accelMmio = r' at hs hpending
  cases hs with
  | same => exact absurd ha.quiet hpending
  | @claimed cmd ticks k hk hclaim => exact ⟨cmd, ticks, k, hk, hclaim, rfl⟩
  | reset => exact absurd rfl hpending
  | ran _ hr => exact absurd hr.control hpending
  | started hc _ hr => exact absurd (hr.control.trans hc) hpending
  | acked _ hacked =>
    obtain ⟨mask, rfl⟩ := hacked
    exact absurd rfl hpending

theorem DriverOk.executes_once (h : DriverOk σ) (hs : Steps op σ σ₁) (he : Executes σ σ₁)
    (hrun : Run System.exec (fun op σ => (Enabled op σ ∧ AttachOnce op σ) ∧ Unaccepted op σ) σ₁ l σ₂)
    (hs' : Steps op' σ₂ σ₃) : ¬Executes σ₂ σ₃ := by
  have hok := hs.driverOk h
  have hspent : SpentOk σ₂ := by
    refine Run.invariant (fun op σ σ' hi hp hx => ?_) hrun ⟨hok, he.spent hok⟩
    exact hi.step ⟨hp.1.1, hp.1.2, hx⟩ (hp.2 σ' hx)
  exact hspent.spent.not_executes (hs'.regs hspent.driver)

theorem DriverOk.deviceSafe (h : DriverOk σ) : DeviceSafe σ where
  pending hne := ⟨(h.accel.protocol.pending hne).1, (h.accel.protocol.pending hne).2.2.2⟩
  free := h.accel.protocol.free
  stale _ := accelWriteControlRaw_mem h.accel.protocol
  flight hu := ⟨(h.accel.protocol.used hu).2.1, (h.accel.protocol.used hu).1⟩
  refused hu control := ⟨accelWriteControlRaw_used control hu, accelWriteControlRaw_busy (h.accel.bound hu) hu⟩
  refusedAck hu mask := ⟨accelAckIrq_used mask hu, accelAckIrq_busy (h.accel.bound hu) hu⟩
  status := h.accel.protocol.status
  reset _ _ hs := (hs.regs h).resets
  accepted _ _ hs := (hs.regs h).accepted
  once _ _ _ _ _ _ hs he hrun hs' := h.executes_once hs he hrun hs'

end System

end QemuRtos
