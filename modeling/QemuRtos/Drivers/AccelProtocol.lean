import QemuRtos.Drivers.AccelSpec
import QemuRtos.User.AccelSyscallSpec

/-!
# The protocol of the driver and the device

The driver's request slot and the device's registers are two state machines that meet in four registers.
`ProtocolOk` says how they stand to each other between two calls, and `OutcomeOk` how the outcome of the request
in flight is recorded until its submission returns.
-/

namespace QemuRtos

open Lib

variable {p : PageAllocator} {r r' : AccelMmio} {q : AccelRequest} {mem mem' : Mem} {cmd ticks : U64}
  {k k' : Kernel} {sub : Submission} {mask c : U32}

/-- How the registers and the request slot stand to each other between two calls. -/
structure ProtocolOk (r : AccelMmio) (q : AccelRequest) : Prop where
  ack : r.irqAck = 0
  status : r.status = accelStatusIdle ∨ r.status = accelStatusDone ∨ r.status = accelStatusError
  pending : r.control ≠ 0 → r.control = accelControlStart ∧ r.status = accelStatusIdle ∧ r.irqStatus = 0 ∧
    (q.inUse = true ∨ q.resetRequiredAfterTimeout = true)
  irq : r.irqStatus ≠ 0 → r.status ≠ accelStatusIdle
  done : r.status = accelStatusDone → r.irqStatus ≠ 0 → r.irqStatus = accelIrqDone
  free : q.inUse = false → q.resetRequiredAfterTimeout = false → r.status ≠ accelStatusIdle ∨ r.cmdBase = 0
  used : q.inUse = true → q.cmd ≠ 0 ∧ r.cmdBase = q.cmd ∧ q.resetRequiredAfterTimeout = false
  completed : q.completed = true → q.inUse = true ∧ r.control = 0 ∧ r.status ≠ accelStatusIdle

/-! ### The device -/

theorem and_not_zero (x : U32) : x &&& ~~~(0 : U32) = x := by
  rw [show ~~~(0 : U32) = BitVec.allOnes 32 from rfl, BitVec.and_allOnes]

theorem accelStep_ack (hc : r.control = 0) : accelStep p { r with irqAck := mask } mem =
    ({ r with control := 0, irqAck := 0, irqStatus := r.irqStatus &&& ~~~mask }, mem) := by
  have hz : ∀ x : U32, ¬(0 : U32) &&& x ≠ 0 := fun x => by simp
  rw [accelStep]
  dsimp only
  rw [hc, if_neg (hz _), if_neg (hz _)]

theorem accelStep_quiet (hc : r.control = 0) (ha : r.irqAck = 0) : accelStep p r mem = (r, mem) := by
  have h : accelStep p { r with irqAck := 0 } mem = _ := accelStep_ack hc
  obtain ⟨id, status, control, irqStatus, irqAck, cmdBase⟩ := r
  subst hc ha
  rw [h, and_not_zero]

theorem accelStep_reset (hc : c &&& accelControlReset ≠ 0) : accelStep p { r with control := c } mem =
    ({ r with control := 0, irqAck := 0, status := accelStatusIdle, irqStatus := 0, cmdBase := 0 }, mem) := by
  rw [accelStep]
  dsimp only
  rw [if_pos hc]
  rfl

theorem accelStep_start (hc : r.control = accelControlStart) (ha : r.irqAck = 0) :
    accelStep p r mem = accelStart p { r with control := 0 } mem := by
  have hr : ¬accelControlStart &&& accelControlReset ≠ 0 := by decide
  have hs : accelControlStart &&& accelControlStart ≠ 0 := by decide
  have hregs : ({ r with control := 0, irqAck := 0 } : AccelMmio) = { r with control := 0 } := by rw [← ha]
  rw [accelStep]
  dsimp only
  rw [hc, ha, if_neg hr, if_pos hs, and_not_zero, hregs]

/-- What a start leaves in the registers `r'`: the device has run, and it is not idle any more. -/
structure DeviceRan (r r' : AccelMmio) : Prop where
  cmdBase : r'.cmdBase = r.cmdBase
  control : r'.control = r.control
  ack : r'.irqAck = r.irqAck
  status : r'.status = accelStatusDone ∧ r'.irqStatus = accelIrqDone ∨
    r'.status = accelStatusError ∧ r'.irqStatus = accelIrqError

/-- A start executes the descriptor at `CMD_BASE` if the device is idle and there is one, and then tells in its status
whether it has been executed. -/
theorem accelStart_ran (p : PageAllocator) (r : AccelMmio) (mem : Mem) : DeviceRan r (accelStart p r mem).1 := by
  rw [accelStart]
  split
  · exact ⟨rfl, rfl, rfl, .inr ⟨rfl, rfl⟩⟩
  dsimp only
  split
  · exact ⟨rfl, rfl, rfl, .inl ⟨rfl, rfl⟩⟩
  rw [accelStartDescriptor]
  split
  · exact ⟨rfl, rfl, rfl, .inr ⟨rfl, rfl⟩⟩
  split
  · exact ⟨rfl, rfl, rfl, .inr ⟨rfl, rfl⟩⟩
  split
  · exact ⟨rfl, rfl, rfl, .inr ⟨rfl, rfl⟩⟩
  · exact ⟨rfl, rfl, rfl, .inl ⟨rfl, rfl⟩⟩

theorem DeviceRan.not_idle {r' : AccelMmio} (h : DeviceRan r r') : r'.status ≠ accelStatusIdle := by
  rcases h.status with ⟨hs, -⟩ | ⟨hs, -⟩ <;> rw [hs] <;> decide

theorem accelStart_free (h : r.status ≠ accelStatusIdle ∨ r.cmdBase = 0) : (accelStart p r mem).2 = mem := by
  rw [accelStart]
  by_cases hidle : r.status = accelStatusIdle
  · rw [if_neg (not_not_intro hidle)]
    dsimp only
    rw [if_pos (h.resolve_left (not_not_intro hidle))]
  · rw [if_pos hidle]

theorem accelStart_outcome (hidle : r.status = accelStatusIdle) (hbase : r.cmdBase ≠ 0)
    (hpend : cmdStatus mem r.cmdBase = accelCmdStatusPending) :
    (accelStart p r mem).1.status = accelStatusDone ∧ cmdStatus (accelStart p r mem).2 r.cmdBase = accelCmdStatusOk ∨
      (accelStart p r mem).1.status = accelStatusError ∧
        cmdStatus (accelStart p r mem).2 r.cmdBase ≠ accelCmdStatusOk ∧
        cmdStatus (accelStart p r mem).2 r.cmdBase ≠ accelCmdStatusTimeout := by
  rw [accelStart, if_neg (not_not_intro hidle)]
  dsimp only
  rw [if_neg hbase, accelStartDescriptor]
  split
  · exact .inr ⟨rfl, by rw [hpend]; decide, by rw [hpend]; decide⟩
  split
  · exact .inr ⟨rfl, by rw [hpend]; decide, by rw [hpend]; decide⟩
  split
  · refine .inr ⟨rfl, ?_⟩
    rw [cmdStatus, setCmdStatus, Mem.load32_store32]
    decide
  · refine .inl ⟨rfl, ?_⟩
    rw [cmdStatus, accelExecuteMemset, setCmdStatus, Mem.load32_store32]

theorem ProtocolOk.pending_cases (h : ProtocolOk r q) : r.control = 0 ∨ r.control = accelControlStart ∧
    r.status = accelStatusIdle ∧ r.irqStatus = 0 ∧ (q.inUse = true ∨ q.resetRequiredAfterTimeout = true) := by
  by_cases hc : r.control = 0
  · exact .inl hc
  · exact .inr (h.pending hc)

theorem DeviceRan.protocol (hr : DeviceRan r r') (hc : r.control = 0) (ha : r.irqAck = 0) (hnone : q.completed = false)
    (hused : q.inUse = true → q.cmd ≠ 0 ∧ r.cmdBase = q.cmd ∧ q.resetRequiredAfterTimeout = false) :
    ProtocolOk r' q := by
  have hne := hr.not_idle
  refine ⟨hr.ack.trans ha, ?_, fun hp => absurd (hr.control.trans hc) hp, fun _ => hne, fun hs _ => ?_,
    fun _ _ => .inl hne, fun hu => ?_, fun hd => ?_⟩
  · rcases hr.status with ⟨hs, -⟩ | ⟨hs, -⟩
    · exact .inr (.inl hs)
    · exact .inr (.inr hs)
  · rcases hr.status with ⟨-, hi⟩ | ⟨he, -⟩
    · exact hi
    · rw [hs] at he
      exact absurd he (by decide)
  · rw [hr.cmdBase]
    exact hused hu
  · rw [hnone] at hd
    cases hd

theorem ProtocolOk.step (h : ProtocolOk r q) (p : PageAllocator) (mem : Mem) : ProtocolOk (accelStep p r mem).1 q := by
  rcases h.pending_cases with hc | ⟨hc, hidle, -, -⟩
  · rw [accelStep_quiet hc h.ack]
    exact h
  · rw [accelStep_start hc h.ack]
    refine (accelStart_ran p _ mem).protocol rfl h.ack ?_ h.used
    by_contra hd
    exact (h.completed (Bool.not_eq_false _ ▸ hd)).2.2 hidle

theorem irqDone_and {x : U32} (h : accelIrqDone &&& x ≠ 0) : accelIrqDone &&& x = accelIrqDone := by
  have hmod : (accelIrqDone &&& x).toNat = x.toNat % 2 := by
    rw [BitVec.toNat_and, show accelIrqDone.toNat = 1 from rfl, Nat.and_comm, Nat.and_one_is_mod]
  rcases Nat.mod_two_eq_zero_or_one x.toNat with hz | hz
  · have hzero : accelIrqDone &&& x = 0 := BitVec.eq_of_toNat_eq (hmod.trans hz)
    exact absurd hzero h
  · exact BitVec.eq_of_toNat_eq (hmod.trans hz)

theorem ProtocolOk.acked (h : ProtocolOk r q) :
    ProtocolOk { r with control := 0, irqAck := 0, irqStatus := r.irqStatus &&& ~~~mask } q := by
  have hirq : r.irqStatus &&& ~~~mask ≠ 0 → r.irqStatus ≠ 0 := by
    intro hi hz
    rw [hz] at hi
    exact hi BitVec.zero_and
  refine ⟨rfl, h.status, fun hne => absurd rfl hne, fun hi => h.irq (hirq hi), fun hs hi => ?_, h.free, h.used,
    fun hd => ?_⟩
  · have hdone := h.done hs (hirq hi)
    show r.irqStatus &&& ~~~mask = accelIrqDone
    have hi : r.irqStatus &&& ~~~mask ≠ 0 := hi
    rw [hdone] at hi ⊢
    exact irqDone_and hi
  · exact ⟨(h.completed hd).1, rfl, (h.completed hd).2.2⟩

/-! ### The driver -/

/-- How the device and the slot of a kernel stand to each other. -/
def Kernel.Protocol (k : Kernel) : Prop := ProtocolOk k.accelMmio k.accelRequest

theorem ackAndStep_eq (hc : k.accelMmio.control = 0) : ackAndStep mask k =
    k.setMmio fun r => { r with control := 0, irqAck := 0, irqStatus := r.irqStatus &&& ~~~mask } := by
  rw [ackAndStep, platformAccelStep]
  simp only [Kernel.setMmio, accelStep_ack hc]

theorem Kernel.Protocol.ackAndStep (h : k.Protocol) (hc : k.accelMmio.control = 0) :
    (QemuRtos.ackAndStep mask k).Protocol := by
  rw [ackAndStep_eq hc]
  exact ProtocolOk.acked h

theorem knownIrq_control (h : k.Protocol) (hirq : knownIrq k ≠ 0) : k.accelMmio.control = 0 := by
  rcases h.pending_cases with hc | ⟨-, -, hz, -⟩
  · exact hc
  · rw [knownIrq, hz] at hirq
    exact absurd BitVec.zero_and hirq

theorem Kernel.Protocol.platformAccelStep (h : k.Protocol) : (QemuRtos.platformAccelStep k).Protocol :=
  ProtocolOk.step h _ _

theorem accelAckIrq_protocol (h : k.Protocol) : (accelAckIrq mask k).2.Protocol := by
  rw [accelAckIrq]
  split
  · exact h
  split
  · exact h
  dsimp only [Kernel.irqSave]
  split
  · exact h
  · rename_i hfree
    rcases h.pending_cases with hc | ⟨-, -, -, hor⟩
    · exact Kernel.Protocol.ackAndStep (k := k.irqSave.2) h hc
    · exact absurd hor hfree

theorem control_cases (hknown : c &&& ~~~(accelControlStart ||| accelControlReset) = 0)
    (hreset : c &&& accelControlReset = 0) : c = 0 ∨ c = accelControlStart := by
  have hc : c &&& accelControlStart = c := calc
    c &&& accelControlStart = (c &&& ~~~(accelControlStart ||| accelControlReset)) ||| (c &&& accelControlReset) |||
        (c &&& accelControlStart) := by
      rw [hknown, hreset]
      show _ = 0#32 ||| 0#32 ||| (c &&& accelControlStart)
      rw [BitVec.zero_or, BitVec.zero_or]
    _ = c &&& (~~~(accelControlStart ||| accelControlReset) ||| accelControlReset ||| accelControlStart) := by
      rw [BitVec.and_or_distrib_left, BitVec.and_or_distrib_left]
    _ = c := BitVec.and_allOnes
  have hmod : (c &&& accelControlStart).toNat = c.toNat % 2 := by
    rw [BitVec.toNat_and, show accelControlStart.toNat = 1 from rfl, Nat.and_one_is_mod]
  rw [hc] at hmod
  rcases Nat.mod_two_eq_zero_or_one c.toNat with hz | hz
  · exact .inl (BitVec.eq_of_toNat_eq (hmod.trans hz))
  · exact .inr (BitVec.eq_of_toNat_eq (hmod.trans hz))

/-- What a write of the control register does: it is refused and changes nothing, or it resets the device, or it lets
an idle device without a descriptor run. -/
theorem accelWriteControlRaw_cases (c : U32) (k : Kernel) :
    (accelWriteControlRaw c k).2 = k ∧ (accelWriteControlRaw c k).1 ≠ accelOk ∨
      (accelWriteControlRaw c k).1 = accelOk ∧ k.accelRequest.inUse = false ∧
        (c &&& accelControlReset ≠ 0 ∧ (accelWriteControlRaw c k).2 =
            { k with
              accelMmio := { k.accelMmio with
                control := 0, irqAck := 0, status := accelStatusIdle, irqStatus := 0, cmdBase := 0 }
              accelRequest := { k.accelRequest with resetRequiredAfterTimeout := false } } ∨
          c &&& accelControlReset = 0 ∧ k.accelRequest.resetRequiredAfterTimeout = false ∧
            (c = 0 ∨ c = accelControlStart) ∧
            (accelWriteControlRaw c k).2 = platformAccelStep (k.setMmio fun r => { r with control := c })) := by
  rw [accelWriteControlRaw]
  by_cases hknown : c &&& ~~~(accelControlStart ||| accelControlReset) = 0
  · rw [if_neg (not_not_intro hknown)]
    by_cases hbound : k.accelBound = true
    · rw [if_neg (by rw [hbound]; decide)]
      dsimp only [Kernel.irqSave]
      by_cases huse : k.accelRequest.inUse = true
      · rw [if_pos huse]
        exact .inl ⟨rfl, (by decide : accelErrBusy ≠ accelOk)⟩
      · rw [if_neg huse]
        have hfree : k.accelRequest.inUse = false := Bool.not_eq_true _ ▸ huse
        by_cases hreset : c &&& accelControlReset = 0
        · by_cases hreq : k.accelRequest.resetRequiredAfterTimeout = true
          · rw [if_pos ⟨hreq, hreset⟩]
            exact .inl ⟨rfl, (by decide : accelErrBusy ≠ accelOk)⟩
          · rw [if_neg fun hn => hreq hn.1, if_neg (not_not_intro hreset)]
            exact .inr ⟨rfl, hfree, .inr ⟨hreset, Bool.not_eq_true _ ▸ hreq, control_cases hknown hreset, rfl⟩⟩
        · rw [if_neg fun hn => hreset hn.2, if_pos hreset]
          refine .inr ⟨rfl, hfree, .inl ⟨hreset, ?_⟩⟩
          simp only [platformAccelStep, Kernel.setMmio, accelStep_reset hreset]
          rfl
    · rw [if_pos (by simpa using hbound)]
      exact .inl ⟨rfl, (by decide : accelErrNoDevice ≠ accelOk)⟩
  · rw [if_pos hknown]
    exact .inl ⟨rfl, (by decide : accelErrInvalid ≠ accelOk)⟩

theorem Kernel.Protocol.control_free (h : k.Protocol) (hu : k.accelRequest.inUse = false)
    (hq : k.accelRequest.resetRequiredAfterTimeout = false) : k.accelMmio.control = 0 := by
  rcases h.pending_cases with hz | ⟨-, -, -, hor⟩
  · exact hz
  · rw [hu, hq] at hor
    rcases hor with hor | hor <;> cases hor

theorem accelWriteControlRaw_start (h : k.Protocol) (hu : k.accelRequest.inUse = false)
    (hq : k.accelRequest.resetRequiredAfterTimeout = false) (hc : c = 0 ∨ c = accelControlStart) :
    platformAccelStep (k.setMmio fun r => { r with control := c }) = k ∨
      ∃ r', DeviceRan k.accelMmio r' ∧
        platformAccelStep (k.setMmio fun r => { r with control := c }) = { k with accelMmio := r' } := by
  have hidle := h.control_free hu hq
  have hfree := h.free hu hq
  rcases hc with rfl | rfl
  · have hsame : k.setMmio (fun r => { r with control := 0 }) = k := by
      rw [Kernel.setMmio, ← hidle]
    left
    rw [hsame, platformAccelStep, accelStep_quiet hidle h.ack]
  · have hregs : ({ k.accelMmio with control := 0 } : AccelMmio) = k.accelMmio := by rw [← hidle]
    have hran := accelStart_ran k.machine.pages k.accelMmio k.machine.mem
    have hmem : (accelStart k.machine.pages k.accelMmio k.machine.mem).2 = k.machine.mem := accelStart_free hfree
    refine .inr ⟨_, hran, ?_⟩
    rw [platformAccelStep, Kernel.setMmio]
    dsimp only
    rw [accelStep_start (r := { k.accelMmio with control := accelControlStart }) rfl h.ack]
    dsimp only
    rw [hregs, hmem]

theorem accelWriteControlRaw_protocol (h : k.Protocol) : (accelWriteControlRaw c k).2.Protocol := by
  rcases accelWriteControlRaw_cases c k with ⟨hk, -⟩ | ⟨-, hfree, ⟨-, hk⟩ | ⟨-, hreq, hc, hk⟩⟩
  · rw [hk]
    exact h
  · rw [hk]
    refine ⟨rfl, .inl rfl, fun hne => absurd rfl hne, fun hne => absurd rfl hne, fun hs => ?_, fun _ _ => .inr rfl,
      fun hu => ?_, fun hd => ?_⟩
    · exact absurd hs (by decide : accelStatusIdle ≠ accelStatusDone)
    · rw [show k.accelRequest.inUse = true from hu] at hfree
      cases hfree
    · rw [(h.completed hd).1] at hfree
      cases hfree
  · rw [hk]
    rcases accelWriteControlRaw_start h hfree hreq hc with heq | ⟨r', hran, heq⟩
    · rw [heq]
      exact h
    · rw [heq]
      refine hran.protocol (h.control_free hfree hreq) h.ack ?_ h.used
      by_contra hd
      rw [(h.completed (Bool.not_eq_false _ ▸ hd)).1] at hfree
      cases hfree

theorem completed_protocol (h : k.Protocol) (hirq : knownIrq k ≠ 0) (huse : k.accelRequest.inUse = true) {result : Int}
    (hc : k.accelMmio.control = 0) :
    (k.setRequest fun q => { q with result := result, completed := true }).Protocol := by
  have hne : k.accelMmio.irqStatus ≠ 0 := by
    intro hz
    rw [knownIrq, hz] at hirq
    exact hirq BitVec.zero_and
  exact ⟨h.ack, h.status, h.pending, h.irq, h.done, h.free, h.used, fun _ => ⟨huse, hc, h.irq hne⟩⟩

theorem IrqOutcome.protocol {Q : Set U64} (ho : IrqOutcome Q k k') (h : k.Protocol) : k'.Protocol := by
  cases ho with
  | none => exact h
  | spurious hirq => exact h.ackAndStep (knownIrq_control h hirq)
  | completed hirq _ huse _ _ _ _ =>
    have hc := knownIrq_control h hirq
    exact Kernel.Protocol.ackAndStep (k := accelRecordCompletion k.accelMmio.irqStatus k)
      (completed_protocol h hirq huse hc) hc

/-! ### Calls that leave the request alone -/

theorem accelWriteControlRaw_request (c : U32) (k : Kernel) :
    (accelWriteControlRaw c k).2.accelRequest.inUse = k.accelRequest.inUse ∧
      (accelWriteControlRaw c k).2.accelRequest.cmd = k.accelRequest.cmd ∧
      (accelWriteControlRaw c k).2.accelRequest.submitterTid = k.accelRequest.submitterTid ∧
      (accelWriteControlRaw c k).2.accelRequest.completed = k.accelRequest.completed ∧
      (accelWriteControlRaw c k).2.accelBound = k.accelBound := by
  rcases accelWriteControlRaw_cases c k with ⟨hk, -⟩ | ⟨-, -, ⟨-, hk⟩ | ⟨-, -, -, hk⟩⟩
  · rw [hk]
    exact ⟨rfl, rfl, rfl, rfl, rfl⟩
  · rw [hk]
    exact ⟨rfl, rfl, rfl, rfl, rfl⟩
  · rw [hk]
    exact ⟨rfl, rfl, rfl, rfl, rfl⟩

theorem accelAckIrq_request (mask : U32) (k : Kernel) : (accelAckIrq mask k).2.accelRequest = k.accelRequest ∧
    (accelAckIrq mask k).2.accelBound = k.accelBound := by
  rw [accelAckIrq]
  split
  · exact ⟨rfl, rfl⟩
  split
  · exact ⟨rfl, rfl⟩
  dsimp only [Kernel.irqSave]
  split
  · exact ⟨rfl, rfl⟩
  · exact ⟨rfl, rfl⟩

theorem IrqOutcome.request {Q : Set U64} (ho : IrqOutcome Q k k') : k'.accelRequest.inUse = k.accelRequest.inUse ∧
    k'.accelRequest.cmd = k.accelRequest.cmd ∧ k'.accelRequest.submitterTid = k.accelRequest.submitterTid ∧
    k'.accelBound = k.accelBound := by
  cases ho with
  | none => exact ⟨rfl, rfl, rfl, rfl⟩
  | spurious => exact ⟨rfl, rfl, rfl, rfl⟩
  | completed => exact ⟨rfl, rfl, rfl, rfl⟩

theorem accelWriteControlRaw_used (c : U32) (hu : k.accelRequest.inUse = true) :
    (accelWriteControlRaw c k).2 = k := by
  rcases accelWriteControlRaw_cases c k with ⟨hk, -⟩ | ⟨-, hfree, -⟩
  · exact hk
  · exact absurd (hfree.symm.trans hu) Bool.false_ne_true

theorem accelAckIrq_used (mask : U32) (hu : k.accelRequest.inUse = true) : (accelAckIrq mask k).2 = k := by
  rw [accelAckIrq]
  split
  · rfl
  split
  · rfl
  dsimp only [Kernel.irqSave]
  rw [if_pos (.inl hu)]
  rfl

/-! ### Submissions -/

/-- What a submission has to pass to claim the slot. -/
structure Claims (cmd ticks : U64) (k : Kernel) : Prop where
  safe : accelCmdPointerIsSafe k.machine.pages cmd = true
  ticks : ticks ≠ 0
  bound : k.accelBound = true
  valid : accelCmdPayloadIsValid k.machine.pages k.machine.mem cmd = true
  free : k.accelRequest.inUse = false
  reset : k.accelRequest.resetRequiredAfterTimeout = false
  ready : accelDeviceIsReady k.accelMmio = true

theorem accelSubmitSyncTimeout_claims (hc : Claims cmd ticks k) : accelSubmitSyncTimeout cmd ticks k =
    accelSubmitLoop { cmd := cmd, ticks := ticks, irqState := k.machine.sie } (accelClaim cmd k.irqSave.2) := by
  rw [accelSubmitSyncTimeout, if_neg (by rw [hc.safe]; decide), if_neg hc.ticks, if_neg (by rw [hc.bound]; decide),
    if_neg (by rw [hc.valid]; decide)]
  dsimp only [Kernel.irqSave]
  rw [if_neg (by rw [hc.free]; decide), if_neg (by rw [hc.reset, hc.ready]; decide)]

/-- A submission that does not claim the slot at most writes a status. It only times out when it may not wait. -/
theorem accelSubmitSyncTimeout_refused (hn : ¬Claims cmd ticks k) :
    ∃ r f, accelSubmitSyncTimeout cmd ticks k = .ok (.ret r (k.setMem f)) ∧ (r = accelErrTimeout → ticks = 0) := by
  have hother : ∀ {r : Int}, r ≠ accelErrTimeout → r = accelErrTimeout → ticks = 0 := fun hne he => absurd he hne
  rw [accelSubmitSyncTimeout]
  by_cases hsafe : accelCmdPointerIsSafe k.machine.pages cmd = true
  · rw [if_neg (by rw [hsafe]; decide)]
    by_cases hticks : ticks = 0
    · rw [if_pos hticks]
      exact ⟨_, _, rfl, fun _ => hticks⟩
    rw [if_neg hticks]
    by_cases hbound : k.accelBound = true
    · rw [if_neg (by rw [hbound]; decide)]
      by_cases hvalid : accelCmdPayloadIsValid k.machine.pages k.machine.mem cmd = true
      · rw [if_neg (by rw [hvalid]; decide)]
        dsimp only [Kernel.irqSave]
        by_cases huse : k.accelRequest.inUse = true
        · rw [if_pos huse]
          exact ⟨_, setCmdStatus cmd accelCmdStatusRejected, rfl, hother (by decide)⟩
        · rw [if_neg huse]
          refine ⟨accelErrBusy, setCmdStatus cmd accelCmdStatusRejected, ?_, hother (by decide)⟩
          rw [if_pos]
          · rfl
          by_contra hno
          simp only [not_or, Bool.not_eq_true, Bool.not_eq_eq_eq_not, Bool.not_true] at hno
          exact hn ⟨hsafe, hticks, hbound, hvalid, Bool.not_eq_true _ ▸ huse, hno.1, by simpa using hno.2⟩
      · rw [if_pos (by simpa using hvalid)]
        exact ⟨_, _, rfl, hother (by decide)⟩
    · rw [if_pos (by simpa using hbound)]
      exact ⟨_, id, rfl, hother (by decide)⟩
  · rw [if_pos (by simpa using hsafe)]
    exact ⟨_, id, rfl, hother (by decide)⟩

theorem Claims.irqSave (h : Claims cmd ticks k) : Claims cmd ticks k.irqSave.2 :=
  ⟨h.safe, h.ticks, h.bound, h.valid, h.free, h.reset, h.ready⟩

theorem Claims.ready_regs (hc : Claims cmd ticks k) :
    k.accelMmio.status = accelStatusIdle ∧ k.accelMmio.irqStatus = 0 := by
  have h := hc.ready
  rw [accelDeviceIsReady, Bool.and_eq_true_iff] at h
  exact ⟨of_decide_eq_true h.1, of_decide_eq_true h.2⟩

theorem Claims.cmd_ne_zero (hc : Claims cmd ticks k) : cmd ≠ 0 := by
  have h := hc.safe
  rw [accelCmdPointerIsSafe, Bool.and_eq_true_iff, Bool.and_eq_true_iff] at h
  exact of_decide_eq_true h.1.1

theorem Claims.protocol (hc : Claims cmd ticks k) (h : k.Protocol) : (accelClaim cmd k).Protocol := by
  obtain ⟨hidle, hirq⟩ := hc.ready_regs
  exact ⟨h.ack, h.status, fun _ => ⟨rfl, hidle, hirq, .inl rfl⟩, h.irq, h.done, fun hu => Bool.noConfusion hu,
    fun _ => ⟨hc.cmd_ne_zero, rfl, hc.reset⟩, fun hd => Bool.noConfusion hd⟩

/-- The slot is free again, after a completion or with a reset pending. -/
structure Released (pending : Bool) (k k' : Kernel) : Prop where
  mmio : k'.accelMmio = k.accelMmio
  free : k'.accelRequest.inUse = false
  open_ : k'.accelRequest.completed = false
  reset : k'.accelRequest.resetRequiredAfterTimeout = pending
  cause : k.accelRequest.completed = true ∧ pending = k.accelRequest.resetRequiredAfterTimeout ∨ pending = true
  bound : k'.accelBound = k.accelBound

theorem Released.protocol {pending : Bool} (hr : Released pending k k') (h : k.Protocol) : k'.Protocol := by
  have hpend : k.accelMmio.control ≠ 0 → pending = true := fun hne =>
    hr.cause.resolve_left fun hd => hne (h.completed hd.1).2.1
  rw [Kernel.Protocol, hr.mmio]
  refine ⟨h.ack, h.status, fun hne => ?_, h.irq, h.done, fun _ hz => ?_, fun hu => ?_, fun hd => ?_⟩
  · obtain ⟨hs, hidle, hirq, -⟩ := h.pending hne
    exact ⟨hs, hidle, hirq, .inr (hr.reset.trans (hpend hne))⟩
  · rw [hr.reset] at hz
    rcases hr.cause with ⟨hd, -⟩ | hreset
    · exact .inl (h.completed hd).2.2
    · rw [hreset] at hz
      cases hz
  · rw [hr.free] at hu
    cases hu
  · rw [hr.open_] at hd
    cases hd

/-- How a submission goes on in its wait loop, with or without a timeout of its wait. -/
inductive Waited (sub : Submission) (timedOut : Bool) (k : Kernel) : Progress Submission Int → Prop
  | waits (hopen : k.accelRequest.completed = false) (htime : timedOut = false) (regs : ControlTrap) :
    Waited sub timedOut k (.trap regs sub k)
  | completed (hdone : k.accelRequest.completed = true) (htime : timedOut = false) :
    Waited sub timedOut k (accelSubmitFinish sub accelErrIo k)
  | timedOut (htime : timedOut = true ∨ k.accelRequest.completed = false) :
    Waited sub timedOut k (accelSubmitTimedOut sub k)

theorem accelSubmitLoop_waited {p : Progress Submission Int} (h : accelSubmitLoop sub k = .ok p) :
    Waited sub false k p := by
  rw [accelSubmitLoop] at h
  split at h
  · rename_i hdone
    obtain rfl := Except.ok.inj h
    exact .completed hdone rfl
  rename_i hdone
  have hopen : k.accelRequest.completed = false := Bool.not_eq_true _ ▸ hdone
  split at h
  · obtain ⟨regs, -, h⟩ := bind_eq_ok.mp h
    obtain rfl := Except.ok.inj h
    exact .waits hopen rfl regs
  split at h
  · cases h
  · obtain rfl := Except.ok.inj h
    exact .timedOut (.inr hopen)
  · obtain rfl := Except.ok.inj h
    exact .waits hopen rfl _

/-- The wait of `sub` has timed out, when it goes on with this `a0`. -/
def Submission.timedOut (sub : Submission) (a0 : U64) : Bool := sub.ticks ≠ ticksForever ∧ regInt a0 = waitTimeout

theorem submissionResume_waited {a0 : U64} {p : Progress Submission Int} (h : sub.resume a0 k = .ok p) :
    Waited sub (sub.timedOut a0) k p := by
  rw [Submission.resume] at h
  by_cases hforever : sub.ticks = ticksForever
  · rw [if_pos hforever] at h
    rw [show sub.timedOut a0 = false from decide_eq_false fun hn => hn.1 hforever]
    exact accelSubmitLoop_waited h
  rw [if_neg hforever] at h
  by_cases htime : regInt a0 = waitTimeout
  · rw [if_pos htime] at h
    obtain rfl := Except.ok.inj h
    exact .timedOut (.inl (decide_eq_true ⟨hforever, htime⟩))
  · rw [if_neg htime] at h
    rw [show sub.timedOut a0 = false from decide_eq_false fun hn => htime hn.2]
    exact accelSubmitLoop_waited h

theorem Waited.released {timedOut : Bool} {r : Int} (h : Waited sub timedOut k (.ret r k')) :
    ∃ pending, Released pending k k' := by
  generalize hp : Progress.ret r k' = p at h
  cases h with
  | waits => cases hp
  | completed hdone =>
    cases hp
    exact ⟨_, rfl, rfl, rfl, rfl, .inl ⟨hdone, rfl⟩, rfl⟩
  | timedOut =>
    cases hp
    exact ⟨true, rfl, rfl, rfl, rfl, .inr rfl, rfl⟩

theorem Waited.trap {timedOut : Bool} {regs : ControlTrap} {next : Submission}
    (h : Waited sub timedOut k (.trap regs next k')) : next = sub ∧ k' = k := by
  cases h
  exact ⟨rfl, rfl⟩

/-! ### The outcome of a request -/

/-- The three records of a submission's outcome agree: its result, the status `s` of its descriptor, and whether the
device has to be reset. -/
def Agree (r : Int) (s : U32) (pending : Bool) : Prop :=
  (r = accelOk ↔ s = accelCmdStatusOk ∧ pending = false) ∧
    (r = accelErrTimeout ↔ s = accelCmdStatusTimeout ∧ pending = true)

/-- How the outcome of the request in flight is recorded, while its descriptor has the status `s`. -/
structure OutcomeOk (r : AccelMmio) (q : AccelRequest) (s : U32) : Prop where
  untouched : q.inUse = true → r.control ≠ 0 → s = accelCmdStatusPending
  ran : q.inUse = true → r.control = 0 → r.status = accelStatusDone ∧ s = accelCmdStatusOk ∨
      r.status = accelStatusError ∧ s ≠ accelCmdStatusOk ∧ s ≠ accelCmdStatusTimeout
  recorded : q.completed = true → q.result = accelOk ∧ s = accelCmdStatusOk ∨
    q.result = accelErrIo ∧ s ≠ accelCmdStatusOk ∧ s ≠ accelCmdStatusTimeout

/-- The status of the descriptor in flight. -/
def Kernel.flightStatus (k : Kernel) : U32 := cmdStatus k.machine.mem k.accelRequest.cmd

def Kernel.Outcome (k : Kernel) : Prop := OutcomeOk k.accelMmio k.accelRequest k.flightStatus

theorem OutcomeOk.free {s : U32} (hu : q.inUse = false) (hd : q.completed = false) : OutcomeOk r q s := by
  refine ⟨fun h => ?_, fun h => ?_, fun h => ?_⟩
  · rw [hu] at h; cases h
  · rw [hu] at h; cases h
  · rw [hd] at h; cases h

theorem claim_outcome (cmd : U64) (k : Kernel) : (accelClaim cmd k).Outcome := by
  have hs : (accelClaim cmd k).flightStatus = accelCmdStatusPending := Mem.load32_store32 ..
  exact ⟨fun _ _ => hs, fun _ hz => absurd hz (by decide : accelControlStart ≠ 0), fun hd => Bool.noConfusion hd⟩

theorem platformAccelStep_outcome (h : k.Protocol) (ho : k.Outcome) : (platformAccelStep k).Outcome := by
  rcases h.pending_cases with hc | ⟨hc, hidle, -, -⟩
  · have hquiet : platformAccelStep k = k := by rw [platformAccelStep, accelStep_quiet hc h.ack]
    rw [hquiet]
    exact ho
  have hopen : k.accelRequest.completed = false := by
    by_contra hd
    exact (h.completed (Bool.not_eq_false _ ▸ hd)).2.2 hidle
  by_cases huse : k.accelRequest.inUse = true
  · obtain ⟨hne, hbase, -⟩ := h.used huse
    have hpend : cmdStatus k.machine.mem k.accelMmio.cmdBase = accelCmdStatusPending := by
      rw [hbase]
      exact ho.untouched huse (by rw [hc]; decide)
    rw [← hbase] at hne
    have hran := accelStart_ran k.machine.pages { k.accelMmio with control := 0 } k.machine.mem
    have hstart := accelStart_outcome (p := k.machine.pages) (r := { k.accelMmio with control := 0 }) hidle hne hpend
    have hstep : platformAccelStep k =
        { k with
          accelMmio := (accelStart k.machine.pages { k.accelMmio with control := 0 } k.machine.mem).1
          machine := { k.machine with
            mem := (accelStart k.machine.pages { k.accelMmio with control := 0 } k.machine.mem).2 } } := by
      rw [platformAccelStep, accelStep_start hc h.ack]
    rw [hstep]
    refine ⟨fun _ hn => absurd hran.control hn, fun _ _ => ?_, fun hd => ?_⟩
    rotate_left
    · exact absurd (hopen.symm.trans hd) Bool.false_ne_true
    rw [Kernel.flightStatus]
    dsimp only at hstart ⊢
    rw [← hbase]
    exact hstart
  · exact .free (Bool.not_eq_true _ ▸ huse) hopen

theorem recordCompletion_outcome (h : k.Protocol) (ho : k.Outcome) (hirq : knownIrq k ≠ 0)
    (huse : k.accelRequest.inUse = true) : (accelRecordCompletion k.accelMmio.irqStatus k).Outcome := by
  have hc := knownIrq_control h hirq
  have hne : k.accelMmio.irqStatus ≠ 0 := by
    intro hz
    rw [knownIrq, hz] at hirq
    exact hirq BitVec.zero_and
  refine ⟨fun _ hn => absurd hc hn, fun _ _ => ho.ran huse hc, fun _ => ?_⟩
  rcases ho.ran huse hc with ⟨hdone, hok⟩ | ⟨herr, hnot⟩
  · have hresult : (accelRecordCompletion k.accelMmio.irqStatus k).accelRequest.result = accelOk := by
      refine if_pos ⟨?_, hdone, hok⟩
      rw [h.done hdone hne]
      decide
    exact .inl ⟨hresult, hok⟩
  · have hresult : (accelRecordCompletion k.accelMmio.irqStatus k).accelRequest.result = accelErrIo :=
      if_neg fun hall => hnot.1 hall.2.2
    exact .inr ⟨hresult, hnot⟩

theorem IrqOutcome.outcome {Q : Set U64} (hk : IrqOutcome Q k k') (h : k.Protocol) (ho : k.Outcome) : k'.Outcome := by
  have hack : ∀ (k₁ : Kernel) (mask : U32), k₁.accelMmio.control = 0 → k₁.Outcome → (ackAndStep mask k₁).Outcome := by
    intro k₁ mask hc ho
    rw [ackAndStep_eq hc]
    exact ⟨fun _ hn => absurd rfl hn, fun hu _ => ho.ran hu hc, ho.recorded⟩
  cases hk with
  | none => exact ho
  | spurious hirq => exact hack k _ (knownIrq_control h hirq) ho
  | completed hirq _ huse _ _ _ _ =>
    have hc := knownIrq_control h hirq
    exact hack (accelRecordCompletion k.accelMmio.irqStatus k) _ hc (recordCompletion_outcome h ho hirq huse)

/-- The records agree when a submission returns, unless its wait has timed out after its completion. -/
theorem Waited.agree_iff {timedOut : Bool} {r : Int} (hw : Waited sub timedOut k (.ret r k')) (h : k.Protocol)
    (ho : k.Outcome) (huse : k.accelRequest.inUse = true) (hcmd : k.accelRequest.cmd = sub.cmd) :
    Agree r (cmdStatus k'.machine.mem sub.cmd) k'.accelRequest.resetRequiredAfterTimeout ↔
      ¬(timedOut = true ∧ k.accelRequest.completed = true) := by
  generalize hp : Progress.ret r k' = p at hw
  cases hw with
  | waits => cases hp
  | completed hdone htime =>
    obtain ⟨rfl, rfl⟩ := Progress.ret.inj hp
    have hreset := (h.used huse).2.2
    have hrec := ho.recorded hdone
    rw [Kernel.flightStatus, hcmd] at hrec
    refine iff_of_true ?_ fun hn => absurd (htime.symm.trans hn.1) Bool.false_ne_true
    show Agree (if k.accelRequest.completed then k.accelRequest.result else accelErrIo)
      (cmdStatus k.machine.mem sub.cmd) k.accelRequest.resetRequiredAfterTimeout
    rw [hdone, if_pos rfl, hreset]
    rcases hrec with ⟨hr, hs⟩ | ⟨hr, hne⟩
    · rw [hr, hs]
      unfold Agree
      decide
    · rw [hr]
      exact ⟨iff_of_false (by decide) fun hn => hne.1 hn.1, iff_of_false (by decide) fun hn => hne.2 hn.1⟩
  | timedOut htime =>
    obtain ⟨rfl, rfl⟩ := Progress.ret.inj hp
    have hs : cmdStatus (k.machine.mem.store32 (sub.cmd.toNat + 24) accelCmdStatusTimeout) sub.cmd =
        accelCmdStatusTimeout := Mem.load32_store32 ..
    show Agree (if k.accelRequest.completed then k.accelRequest.result else accelErrTimeout)
      (cmdStatus (k.machine.mem.store32 (sub.cmd.toNat + 24) accelCmdStatusTimeout) sub.cmd) true ↔ _
    rw [hs]
    by_cases hdone : k.accelRequest.completed = true
    · have htime := htime.resolve_right (by rw [hdone]; decide)
      rw [if_pos hdone]
      refine iff_of_false (fun hagree => ?_) fun hn => hn ⟨htime, hdone⟩
      have hr := hagree.2.mpr ⟨rfl, rfl⟩
      rcases ho.recorded hdone with ⟨hr', -⟩ | ⟨hr', -⟩
      · rw [hr'] at hr
        exact absurd hr (by decide)
      · rw [hr'] at hr
        exact absurd hr (by decide)
    · rw [if_neg hdone]
      exact iff_of_true (by unfold Agree; decide) fun hn => hdone hn.2

end QemuRtos
