import QemuRtos.Drivers.MemsetSpec
import QemuRtos.Safety.AccelPages
import QemuRtos.Safety.TaskCopy
import QemuRtos.Safety.TaskThreads

/-!
# An accelerator call from its system call to its return

What the user asked for is what the descriptor asks the device for, what the device writes in the bounce page, and what
is copied back: a call that returns success has filled exactly the range it was given, and one that returns an error has
changed nothing outside its own pages.
-/

namespace QemuRtos

open Lib

variable {k k' : Kernel} {u : UserMemset} {sub : Submission} {value : U32} {mem mem' : Mem} {r r' : Int}
  {timedOut : Bool}

/-! ### The descriptor and the device -/

/-- The descriptor of a call asks the device to fill the bounce page. -/
structure Asks (u : UserMemset) (value : U32) (mem : Mem) : Prop where
  op : cmdOp mem u.cmd = accelCmdOpMemset
  dst : cmdDstPa mem u.cmd = u.bouncePage
  len : cmdLen mem u.cmd = u.len.setWidth 32
  value : cmdValue mem u.cmd = value

theorem Asks.congr (h : Asks u value mem)
    (hmem : ∀ b, u.cmd.toNat ≤ b → b < u.cmd.toNat + 24 → mem' b = mem b) : Asks u value mem' where
  op := (Mem.load32_congr fun x h1 h2 => hmem x (by omega) (by omega)).trans h.op
  dst := (Mem.load64_congr fun x h1 h2 => hmem x (by omega) (by omega)).trans h.dst
  len := (Mem.load32_congr fun x h1 h2 => hmem x (by omega) (by omega)).trans h.len
  value := (Mem.load32_congr fun x h1 h2 => hmem x (by omega) (by omega)).trans h.value

theorem setCmdStatus_of_disjoint {cmd : U64} {status : U32} {x : Nat} (h : x < cmd.toNat + 24 ∨ cmd.toNat + 28 ≤ x) :
    setCmdStatus cmd status mem x = mem x := Mem.store32_of_disjoint mem status (by omega)

theorem asks_writeMemsetCmd (u : UserMemset) (value : U32) (mem : Mem) :
    Asks u value (writeMemsetCmd u.cmd u.bouncePage u.len value mem) where
  op := by
    have h : cmdOp (writeMemsetCmd u.cmd u.bouncePage u.len value mem) u.cmd =
        ((memoryZero u.cmd 32 mem).store32 u.cmd.toNat accelCmdOpMemset).load32 u.cmd.toNat :=
      Mem.load32_congr fun x h1 h2 => by
        simp only [writeMemsetCmd]
        rw [Mem.store32_of_disjoint _ _ (by omega), Mem.store32_of_disjoint _ _ (by omega),
          Mem.store64_of_disjoint _ _ (by omega)]
    rw [h, Mem.load32_store32]
  dst := by
    let m₁ := (memoryZero u.cmd 32 mem).store32 u.cmd.toNat accelCmdOpMemset
    have h : cmdDstPa (writeMemsetCmd u.cmd u.bouncePage u.len value mem) u.cmd =
        (m₁.store64 (u.cmd.toNat + 8) u.bouncePage).load64 (u.cmd.toNat + 8) := Mem.load64_congr fun x h1 h2 => by
      simp only [writeMemsetCmd]
      rw [Mem.store32_of_disjoint _ _ (by omega), Mem.store32_of_disjoint _ _ (by omega)]
    rw [h, Mem.load64_store64]
  len := by
    let m₂ := ((memoryZero u.cmd 32 mem).store32 u.cmd.toNat accelCmdOpMemset).store64 (u.cmd.toNat + 8) u.bouncePage
    have h : cmdLen (writeMemsetCmd u.cmd u.bouncePage u.len value mem) u.cmd =
        (m₂.store32 (u.cmd.toNat + 16) (u.len.setWidth 32)).load32 (u.cmd.toNat + 16) :=
      Mem.load32_congr fun x h1 h2 => by
        simp only [writeMemsetCmd]
        rw [Mem.store32_of_disjoint _ _ (by omega)]
    rw [h, Mem.load32_store32]
  value := Mem.load32_store32 ..

theorem writeMemsetCmd_of_disjoint {cmd bounce len : U64} {x : Nat} (h : x < cmd.toNat ∨ cmd.toNat + 32 ≤ x) :
    writeMemsetCmd cmd bounce len value mem x = mem x := by
  simp only [writeMemsetCmd]
  rw [Mem.store32_of_disjoint _ _ (by omega), Mem.store32_of_disjoint _ _ (by omega),
    Mem.store64_of_disjoint _ _ (by omega), Mem.store32_of_disjoint _ _ (by omega), memoryZero,
    Mem.fill_of_disjoint _ _ (by omega)]

theorem PagesHeld.disjoint {p : PageAllocator} (h : PagesHeld u p) :
    u.cmd.toNat + pageSize ≤ u.bouncePage.toNat ∨ u.bouncePage.toNat + pageSize ≤ u.cmd.toNat := by
  have hc := h.cmd.1.aligned
  have hb := h.bounce.1.aligned
  have hne : u.cmd.toNat ≠ u.bouncePage.toNat := fun he => h.ne (BitVec.eq_of_toNat_eq he)
  simp only [pageSize] at *
  omega

/-- What a run of the device on the descriptor of a call does: it writes the pages of the call only, and leaves the
bounce page filled if it reports success. -/
structure DeviceFilled (u : UserMemset) (value : U32) (mem : Mem) (x : AccelMmio × Mem) : Prop where
  asks : Asks u value x.2
  filled : x.1.status = accelStatusDone → ∀ i < u.len.toNat, x.2 (u.bouncePage.toNat + i) = value.setWidth 8
  others : ∀ b, ¬InPage u.cmd b → ¬InPage u.bouncePage b → x.2 b = mem b

theorem accelStart_filled {p : PageAllocator} {rs : AccelMmio} (ha : Asks u value mem) (hheld : PagesHeld u p)
    (hlen : u.len.toNat ≤ pageSize) (hidle : rs.status = accelStatusIdle) (hbase : rs.cmdBase = u.cmd)
    (hne : u.cmd ≠ 0) : DeviceFilled u value mem (accelStart p rs mem) := by
  have hdisj := hheld.disjoint
  have herror : ∀ rs' : AccelMmio, rs'.enterError.status ≠ accelStatusDone := fun _ => by
    show accelStatusError ≠ accelStatusDone
    decide
  rw [accelStart, if_neg (not_not_intro hidle)]
  dsimp only
  rw [if_neg (by rw [hbase]; exact hne), hbase, accelStartDescriptor]
  split
  · exact ⟨ha, fun hd => absurd hd (herror _), fun _ _ _ => rfl⟩
  split
  · exact ⟨ha, fun hd => absurd hd (herror _), fun _ _ _ => rfl⟩
  split
  · refine ⟨ha.congr fun b h1 h2 => setCmdStatus_of_disjoint (by omega), fun hd => absurd hd (herror _),
      fun b hb _ => ?_⟩
    refine setCmdStatus_of_disjoint ?_
    simp only [InPage, pageSize] at hb
    omega
  · have hlen' : (cmdLen mem u.cmd).toNat = u.len.toNat := by
      rw [ha.len, BitVec.toNat_setWidth]
      simp only [pageSize] at hlen
      omega
    have hdone := (accelExecuteMemset_iff { rs with status := accelStatusBusy } mem u.cmd).mpr (.of_disjoint rfl (by
      rw [ha.dst, hlen']
      simp only [pageSize] at *
      omega))
    rw [ha.dst, hlen', ha.value] at hdone
    refine ⟨ha.congr fun b h1 h2 => hdone.others b ?_ ?_, fun _ i hi => hdone.filled _ (by omega) (by omega),
      fun b hc hb => hdone.others b ?_ ?_⟩
    · simp only [pageSize] at *
      omega
    · omega
    · simp only [InPage, pageSize] at *
      omega
    · simp only [InPage, pageSize] at *
      omega

/-! ### The copy back -/

/-- Where byte `i` of the user range of a call is. -/
abbrev UserMemset.byteAt (u : UserMemset) (k : Kernel) (i : Nat) : Nat :=
  userByte k.machine (k.tasks u.task).addressSpace u.userDst i

theorem userAddr_sie {m : Machine} {sp : VmSpace} (sie : Bool) (va : U64) :
    userAddr { m with sie := sie } sp va = userAddr m sp va := by
  obtain ⟨a, ha⟩ := vmWalk_lookup sp va { m with sie := false }
  have hget : ∀ b : Bool, vmGetMapping (some sp) va { m with sie := b } =
      if a = 0 ∨ (!pteIsValid (m.mem.load64 a.toNat)) = true ∨ (!pteIsLeaf (m.mem.load64 a.toNat)) = true then
        .ok (vmErrNotMapped, none, { m with sie := b })
      else .ok (vmOk, some (pteToPa (m.mem.load64 a.toNat) ||| pageOffset va,
        m.mem.load64 a.toNat &&& sv39PteFlagMask), { m with sie := b }) := by
    intro b
    unfold vmGetMapping
    show (vmWalk (some sp) va false { m with sie := false } >>= _) = _
    rw [ha va rfl, ok_bind]
    rfl
  rw [userAddr, userAddr, hget sie, show vmGetMapping (some sp) va m = _ from hget m.sie]
  by_cases hc : a = 0 ∨ (!pteIsValid (m.mem.load64 a.toNat)) = true ∨ (!pteIsLeaf (m.mem.load64 a.toNat)) = true
  · rw [if_pos hc, if_pos hc]
  · rw [if_neg hc, if_neg hc]

theorem CopyApart.sie {m : Machine} {sp : VmSpace} {kernelPtr userVa : U64} {n : Nat} (sie : Bool)
    (ha : CopyApart m sp kernelPtr userVa n) : CopyApart { m with sie := sie } sp kernelPtr userVa n := by
  have hbyte : ∀ i, userByte { m with sie := sie } sp userVa i = userByte m sp userVa i := fun i => userAddr_sie sie _
  refine ⟨fun i hi j hj hpage => ?_, fun i hi x hx => ?_, ha.buffer_tables, fun i hi j hj => ?_⟩
  · rw [hbyte i, hbyte j]
    exact ha.frames i hi j hj hpage
  · rw [hbyte i]
    exact ha.tables i hi x hx
  · rw [hbyte j]
    exact ha.buffer_frames i hi j hj

theorem userAccelReturn_a0 (frame : U64) (result : Int) (k : Kernel) :
    ((userAccelReturn frame result k).sched.frames frame).a0 = intReg result := by
  simp only [userAccelReturn, userSyscallSetResult, Kernel.setFrame, Sched.setFrame, Function.update_self]

theorem Returned.memory {next : U64} (h : Returned next k k') : k'.machine.mem = k.machine.mem := by
  cases h with
  | supervisor => rfl
  | user => rfl

theorem Returned.frames {next : U64} (h : Returned next k k') : k'.sched.frames = k.sched.frames := by
  cases h with
  | supervisor => rfl
  | user => rfl

theorem Waited.result (h : Waited sub timedOut k (.ret r k')) :
    r = (if k.accelRequest.completed = true then k.accelRequest.result else accelErrTimeout) ∧ k'.tasks = k.tasks ∧
      ∃ mem, k'.machine = { k.machine with mem := mem, sie := sub.irqState } ∧
        ∀ b, b < sub.cmd.toNat + 24 ∨ sub.cmd.toNat + 28 ≤ b → mem b = k.machine.mem b := by
  generalize hp : Progress.ret r k' = p at h
  cases h with
  | waits => cases hp
  | completed hdone htime =>
    cases hp
    refine ⟨?_, rfl, k.machine.mem, rfl, fun _ _ => rfl⟩
    exact (if_pos hdone).trans (if_pos hdone).symm
  | timedOut htime =>
    cases hp
    exact ⟨rfl, rfl, _, rfl, fun b hb => setCmdStatus_of_disjoint hb⟩

/-- The end of a call copies the bounce page back if the submission has succeeded, and else writes nothing. -/
theorem userAccelMemsetFinish_result {mem : Mem} (hok : PagesOk k.machine.pages)
    (hready : userTaskIsReady u.task k = true) (hnull : u.bouncePage ≠ 0) (hmem : k.machine.mem = mem)
    (hapart : CopyApart k.machine (k.tasks u.task).addressSpace u.bouncePage u.userDst u.len.toNat)
    (h : userAccelMemsetFinish u r k = .ok (r', k')) :
    r' = userAccelOk ∧ r = userAccelOk ∧ Mem.Copied (userByte k.machine (k.tasks u.task).addressSpace u.userDst)
        (u.bouncePage.toNat + ·) u.len.toNat mem k'.machine.mem ∨
      (r' = userAccelErrInvalid ∨ r' = r ∧ r ≠ userAccelOk) ∧ k'.machine.mem = mem := by
  obtain ⟨k₁, h₁, h⟩ := bind_eq_ok.mp h
  obtain ⟨⟨r₂, k₂⟩, h₂, h⟩ := bind_eq_ok.mp h
  obtain ⟨m₁, hbounce, h⟩ := bind_eq_ok.mp h
  obtain ⟨m₂, hcmd, h⟩ := bind_eq_ok.mp h
  obtain ⟨rfl, rfl⟩ := Prod.mk.inj (Except.ok.inj h)
  obtain ⟨hpages, hcase⟩ := userAccelResetAfterTimeout_ok h₁
  have hfree : m₂.mem = k₂.machine.mem := by
    obtain ⟨f, rfl⟩ := userAccelCopyback_ok h₂
    rw [← hpages] at hok
    obtain ⟨-, p₁, rfl, hok₁, -⟩ := pageFree_ok (m := (k₁.setMem f).machine) hok hbounce
    obtain ⟨-, p₂, rfl, -, -⟩ := pageFree_ok hok₁ hcmd
    rfl
  rw [userAccelCopyback] at h₂
  by_cases hr : r = userAccelOk
  · have hk : k₁ = k := by
      rcases hcase with ⟨rfl, -⟩ | ⟨hreset, rfl⟩
      · rfl
      · rw [userAccelResetAfterTimeout, if_neg (by rw [hr]; exact fun h => absurd h.1 (by decide))] at h₁
        exact (Except.ok.inj h₁).symm
    subst hk
    rw [if_pos hr] at h₂
    obtain ⟨⟨r₃, k₃⟩, hcopy, h₂⟩ := bind_eq_ok.mp h₂
    obtain ⟨rfl, rfl⟩ := Prod.mk.inj (Except.ok.inj h₂)
    rw [(copyUserTask_eq hready hnull u.userDst u.len).2] at hcopy
    obtain ⟨result, -, hcases, hinvalid, hvalid⟩ := copyUserTaskBytes_spec hready u.bouncePage u.userDst u.len true
    rcases hcases with hres | hres
    · obtain ⟨mem', heq, hdone⟩ := hvalid hres hapart
      obtain ⟨rfl, rfl⟩ := Prod.mk.inj (Except.ok.inj (hcopy.symm.trans heq))
      refine .inl ⟨(if_neg (not_not_intro rfl)).trans hr, hr, ?_⟩
      rw [← hmem]
      show Mem.Copied _ _ _ k₁.machine.mem m₂.mem
      rw [hfree]
      exact hdone
    · obtain ⟨rfl, rfl⟩ := Prod.mk.inj (Except.ok.inj (hcopy.symm.trans (hinvalid hres)))
      exact .inr ⟨.inl (if_pos (by decide)), hfree.trans hmem⟩
  · rw [if_neg hr] at h₂
    obtain ⟨rfl, rfl⟩ := Prod.mk.inj (Except.ok.inj h₂)
    refine .inr ⟨.inr ⟨rfl, hr⟩, hfree.trans ?_⟩
    rw [← hmem]
    rcases hcase with ⟨rfl, -⟩ | ⟨hreset, rfl⟩
    · rfl
    · rw [accelReset_done hreset]

namespace System

variable {σ σ' σ₀ σ₁ σ₂ σ₃ σ₄ : System} {op : Op} {l l' : List Op} {c : Nat} {site site' : TrapSite} {regs : TrapFrame}

/-! ### While the call waits -/

theorem calls_of_memset (h : (σ.calls c).memset = some u) : ∃ sub, σ.calls c = .userMemset u sub := by
  cases hcall : σ.calls c with
  | userMemset u' sub =>
    rw [hcall] at h
    obtain rfl := Option.some.inj h
    exact ⟨sub, rfl⟩
  | idle =>
    rw [hcall] at h
    cases h
  | lock call =>
    rw [hcall] at h
    cases h
  | submit sub =>
    rw [hcall] at h
    cases h

/-- The call of `c` is in progress: its descriptor says what it asks for, and once the device reports success the bounce
page holds it. -/
structure InFlight (c : Nat) (u : UserMemset) (value : U32) (σ : System) : Prop where
  call : (σ.calls c).memset = some u
  small : u.len.toNat ≤ pageSize
  asks : Asks u value σ.kernel.machine.mem
  filled : σ.kernel.accelMmio.control = 0 → σ.kernel.accelMmio.status = accelStatusDone →
    ∀ i < u.len.toNat, σ.kernel.machine.mem (u.bouncePage.toNat + i) = value.setWidth 8
  recorded : σ.kernel.accelRequest.completed = true →
    σ.kernel.accelRequest.result = accelOk ∧ σ.kernel.accelMmio.status = accelStatusDone ∨
      σ.kernel.accelRequest.result = accelErrIo

/-- The step does not end the call of `c`, and only the device writes the pages of the call in it. -/
def LeavesCall (c : Nat) (u : UserMemset) (op : Op) (σ : System) : Prop :=
  ∀ σ', exec op σ = .ok σ' → (σ'.calls c).memset = some u ∧ (op ≠ .accelStep →
    ∀ b, InPage u.cmd b ∨ InPage u.bouncePage b → σ'.kernel.machine.mem b = σ.kernel.machine.mem b)

/-- A run in which the call of `c` is in progress throughout. -/
def WaitingRuns (c : Nat) (u : UserMemset) : System → List Op → System → Prop :=
  Run exec fun op σ => ((Enabled op σ ∧ AttachOnce op σ) ∧ SparesCalls op σ) ∧ LeavesCall c u op σ

theorem InFlight.kept (h : InFlight c u value σ) (hcall : (σ'.calls c).memset = some u)
    (hmem : ∀ b, InPage u.cmd b ∨ InPage u.bouncePage b → σ'.kernel.machine.mem b = σ.kernel.machine.mem b)
    (hcontrol : σ'.kernel.accelMmio.control = σ.kernel.accelMmio.control)
    (hstatus : σ'.kernel.accelMmio.status = σ.kernel.accelMmio.status)
    (hrecorded : σ'.kernel.accelRequest.completed = true →
      σ'.kernel.accelRequest.result = accelOk ∧ σ.kernel.accelMmio.status = accelStatusDone ∨
        σ'.kernel.accelRequest.result = accelErrIo) : InFlight c u value σ' where
  call := hcall
  small := h.small
  asks := h.asks.congr fun b h1 h2 => hmem b (.inl ⟨by omega, by simp only [pageSize]; omega⟩)
  filled hc hs i hi := by
    have hsmall := h.small
    rw [hmem _ (.inr ⟨by omega, by omega⟩)]
    exact h.filled (hcontrol.symm.trans hc) (hstatus.symm.trans hs) i hi
  recorded hd := by
    rw [hstatus]
    exact hrecorded hd

theorem InFlight.base (h : InFlight c u value σ) (hinv : PagesInv σ) : σ.kernel.accelMmio.cmdBase = u.cmd ∧ u.cmd ≠ 0 := by
  obtain ⟨sub, hcall⟩ := calls_of_memset h.call
  obtain ⟨huse, hcmd, -⟩ := hinv.driver.accel.calls c sub (by rw [hcall]; rfl)
  have hok := hinv.driver.sys.call c
  rw [hcall] at hok
  obtain ⟨hne, hbase, -⟩ := hinv.driver.accel.protocol.used huse
  rw [hcmd, hok.2.2.2.2.2.1] at hne hbase
  exact ⟨hbase, hne⟩

theorem InFlight.device (h : InFlight c u value σ) (hinv : PagesInv σ) :
    InFlight c u value (σ.setKernel (platformAccelStep σ.kernel)) ∧
      ∀ b, ¬InPage u.cmd b → ¬InPage u.bouncePage b →
        (platformAccelStep σ.kernel).machine.mem b = σ.kernel.machine.mem b := by
  have hp := hinv.driver.accel.protocol
  obtain ⟨hbase, hne⟩ := h.base hinv
  rcases hp.pending_cases with hc | ⟨hc, hidle, -, -⟩
  · have hquiet : platformAccelStep σ.kernel = σ.kernel := by rw [platformAccelStep, accelStep_quiet hc hp.ack]
    rw [hquiet]
    exact ⟨h, fun _ _ _ => rfl⟩
  · have hd : DeviceFilled u value σ.kernel.machine.mem (accelStart σ.kernel.machine.pages
        { σ.kernel.accelMmio with control := 0 } σ.kernel.machine.mem) :=
      accelStart_filled h.asks (hinv.held c u h.call) h.small hidle hbase hne
    rw [← accelStep_start hc hp.ack] at hd
    refine ⟨⟨h.call, h.small, hd.asks, fun _ hs => hd.filled hs, fun hdone => ?_⟩, hd.others⟩
    have hdone : σ.kernel.accelRequest.completed = true := hdone
    exact absurd ((hp.completed hdone).2.1.symm.trans hc) (by decide)

theorem InFlight.step (h : InFlight c u value σ) (hinv : PagesInv σ) (hs : Steps op σ σ')
    (hleaves : LeavesCall c u op σ) : InFlight c u value σ' := by
  obtain ⟨hcall', hmem⟩ := hleaves σ' hs.exec
  by_cases hop : op = .accelStep
  · subst hop
    obtain rfl := Except.ok.inj hs.exec
    exact (h.device hinv).1
  have hmem := hmem hop
  have hdriver := hinv.driver
  obtain ⟨sub, hcall⟩ := calls_of_memset h.call
  obtain ⟨huse, -, -⟩ := hdriver.accel.calls c sub (by rw [hcall]; rfl)
  have hkept : AccelKept σ.kernel σ'.kernel → InFlight c u value σ' := fun hk =>
    h.kept hcall' hmem (by rw [hk.mmio]) (by rw [hk.mmio]) (by rw [hk.request]; exact h.recorded)
  cases exec_accel hdriver.sys hs.enabled hs.exec with
  | kept hk => exact hkept hk.kernel
  | waits _ hsub hk _ _ _ =>
    cases hsub with
    | claims _ hk' hclaim _ _ =>
      have hfree := hclaim.free
      rw [hk'.request, huse] at hfree
      cases hfree
    | goesOn _ hk₀ =>
      rw [hk₀] at hk
      exact hkept hk
  | returned hsub hr hk _ _ =>
    obtain ⟨sub', hcall₂⟩ := calls_of_memset hcall'
    have huse' := ((hs.driverOk hdriver).accel.calls c sub' (by rw [hcall₂]; rfl)).1
    have hfree : σ'.kernel.accelRequest.inUse = false := by
      rcases hk with hk | hk
      · rw [hk.request]
        exact hr.free
      · rw [hk.request]
        exact (accelWriteControlRaw_request _ _).1.trans hr.free
    exact absurd (hfree.symm.trans huse') Bool.false_ne_true
  | ran hran => exact absurd hran hop
  | written _ =>
    refine hkept ?_
    show AccelKept σ.kernel (accelWriteControlRaw _ σ.kernel).2
    rw [accelWriteControlRaw_used _ huse]
    exact .refl _
  | acked _ =>
    refine hkept ?_
    show AccelKept σ.kernel (accelAckIrq _ σ.kernel).2
    rw [accelAckIrq_used _ huse]
    exact .refl _
  | dispatched _ ho =>
    cases ho with
    | none _ => exact hkept (.refl _)
    | spurious _ _ hfree =>
      rcases hfree with hfree | hz
      · exact absurd (hfree.symm.trans huse) Bool.false_ne_true
      · exact absurd hz (hdriver.accel.protocol.used huse).1
    | completed hirq _ _ _ _ _ _ =>
      have hc := knownIrq_control hdriver.accel.protocol hirq
      let k₁ := accelRecordCompletion σ.kernel.accelMmio.irqStatus σ.kernel
      have hc' : k₁.accelMmio.control = 0 := hc
      have heq : ackAndStep (knownIrq σ.kernel) k₁ = _ := ackAndStep_eq hc'
      refine h.kept hcall' hmem ?_ ?_ fun _ => ?_
      · show (ackAndStep (knownIrq σ.kernel) k₁).accelMmio.control = _
        rw [heq]
        exact hc.symm
      · show (ackAndStep (knownIrq σ.kernel) k₁).accelMmio.status = _
        rw [heq]
        rfl
      · show (ackAndStep (knownIrq σ.kernel) k₁).accelRequest.result = accelOk ∧ _ ∨
          (ackAndStep (knownIrq σ.kernel) k₁).accelRequest.result = accelErrIo
        rw [heq]
        by_cases hok : σ.kernel.accelMmio.irqStatus &&& accelIrqDone ≠ 0 ∧ σ.kernel.accelMmio.status = accelStatusDone ∧
            cmdStatus σ.kernel.machine.mem σ.kernel.accelRequest.cmd = accelCmdStatusOk
        · exact .inl ⟨if_pos hok, hok.2.1⟩
        · exact .inr (if_neg hok)

theorem InFlight.ready (h : InFlight c u value σ) (hinv : PagesInv σ) (hcur : σ.kernel.sched.currentThread = some c) :
    userTaskIsReady u.task σ.kernel = true := by
  obtain ⟨sub, hcall⟩ := calls_of_memset h.call
  have hok := hinv.driver.sys.call c
  rw [hcall] at hok
  obtain ⟨-, -, htask, hne, -⟩ := hok
  have hreal := hinv.driver.sys.real_of_userTask hcur (htask ▸ hne)
  rw [htask]
  exact (hinv.driver.sys.threads.thread c hreal).ready (htask ▸ hne)

theorem WaitingRuns.inFlight (hrun : WaitingRuns c u σ l σ') (h : PagesInv σ) (hf : InFlight c u value σ) :
    PagesInv σ' ∧ InFlight c u value σ' := by
  induction hrun with
  | nil => exact ⟨h, hf⟩
  | cons hp hx _ ih =>
    have hs : Steps _ _ _ := ⟨hp.1.1.1, hp.1.1.2, hx⟩
    exact ih (h.step hs hp.1.2) (hf.step h hs hp.2)

/-! ### The system call and its return -/

theorem ecall_accel_of_call (h : SysOk σ) (hs : Steps (.ecall regs site) σ σ')
    (hcur : σ.kernel.sched.currentThread = some c) (hcall : σ'.calls c = .userMemset u sub) :
    regs.a7 = userSyscallAccelMemset := by
  by_contra haccel
  obtain ⟨d, hd, hidle, -⟩ := hs.enabled
  obtain rfl : c = d := Option.some.inj (hcur.symm.trans hd)
  have hkept := (ecall_kept h hs.enabled haccel hs.exec).calls c
  rw [hcall, hidle] at hkept
  cases hkept

theorem ecall_inFlight (h : SysOk σ) (hs : Steps (.ecall regs site) σ σ')
    (hcur : σ.kernel.sched.currentThread = some c) (hcall : σ'.calls c = .userMemset u sub) :
    InFlight c u (regs.a2.setWidth 32) σ' ∧ u.userDst = regs.a0 ∧ u.len = regs.a1 ∧
      ∀ b, ¬InPage u.cmd b → σ'.kernel.machine.mem b = σ.kernel.machine.mem b := by
  obtain ⟨d, frame, k, he, hcase⟩ := ecall_memset h hs.enabled (ecall_accel_of_call h hs hcur hcall) hs.exec
  obtain rfl : c = d := Option.some.inj (hcur.symm.trans he.current)
  have hok : PagesOk k.machine.pages := by
    rw [he.kernel]
    exact h.pages
  have hmem : k.machine.mem = σ.kernel.machine.mem := by rw [he.kernel]; rfl
  rcases hcase with ⟨r, k₁, k₂, -, -, rfl⟩ | ⟨t, u', sub', k₁, k₂, hp, hk, rfl⟩
  · rw [setCall_calls_self] at hcall
    cases hcall
  rw [setCall_calls_self] at hcall
  obtain ⟨rfl, rfl⟩ := Call.userMemset.inj hcall
  rcases userAccelSyscallMemset_pages he.task he.ready hok hp with ⟨_, _, heq, -⟩ | ⟨_, _, _, _, heq, hb⟩
  · cases heq
  cases heq
  rw [he.regs] at hb
  have hwritten : k₂.machine.mem = setCmdStatus u'.cmd accelCmdStatusPending
      (writeMemsetCmd u'.cmd u'.bouncePage u'.len (regs.a2.setWidth 32) σ.kernel.machine.mem) := by
    rw [hk.mem, hb.mem, hmem]
    rfl
  refine ⟨⟨by rw [setCall_calls_self]; rfl, hb.small, ?_, fun hc => ?_, fun hd => ?_⟩, hb.dst, hb.len, fun b hnot => ?_⟩
  · show Asks u' _ k₂.machine.mem
    rw [hwritten]
    exact (asks_writeMemsetCmd u' _ _).congr fun b h1 h2 => setCmdStatus_of_disjoint (by omega)
  · have hc : k₂.accelMmio.control = 0 := hc
    rw [hk.accel.mmio, hb.started] at hc
    exact absurd hc (by decide)
  · have hd : k₂.accelRequest.completed = true := hd
    rw [hk.accel.request, hb.open_] at hd
    cases hd
  · show k₂.machine.mem b = _
    simp only [InPage, pageSize] at hnot
    rw [hwritten, setCmdStatus_of_disjoint (by omega), writeMemsetCmd_of_disjoint (by omega)]

/-- The user range, the page tables of the task and the pages of the call do not overlap. -/
structure MappingsApart (σ : System) (u : UserMemset) : Prop where
  copy : CopyApart σ.kernel.machine (σ.kernel.tasks u.task).addressSpace u.bouncePage u.userDst u.len.toNat
  tables : ∀ x, TableByte σ.kernel.machine (σ.kernel.tasks u.task).addressSpace x → ¬InPage u.cmd x

/-- The result of a call, and what its return writes. -/
inductive MemsetResult (u : UserMemset) (value : U32) (σ σ' : System) : Int → Prop
  | filled (hbytes : ∀ i < u.len.toNat, σ'.kernel.machine.mem (u.byteAt σ.kernel i) = value.setWidth 8)
    (hothers : ∀ b, ¬InPage u.cmd b → (∀ i < u.len.toNat, b ≠ u.byteAt σ.kernel i) →
      σ'.kernel.machine.mem b = σ.kernel.machine.mem b) : MemsetResult u value σ σ' userAccelOk
  | failed {result : Int} (hresult : result ∈ [userAccelErrInvalid, userAccelErrIo, userAccelErrTimeout])
    (hothers : ∀ b, ¬InPage u.cmd b → σ'.kernel.machine.mem b = σ.kernel.machine.mem b) :
    MemsetResult u value σ σ' result

theorem resume_memset (hinv : PagesInv σ) (hflight : InFlight c u value σ)
    (hcur : σ.kernel.sched.currentThread = some c) (hcall : σ.calls c = .userMemset u sub)
    (hx : exec (.resume site) σ = .ok σ') (hret : σ'.calls c = .idle) (hapart : MappingsApart σ u) :
    ∃ result, (σ'.kernel.sched.frames u.frame).a0 = intReg result ∧ MemsetResult u value σ σ' result := by
  have hrun : σ.resume σ.current site = .ok σ' := hx
  rw [current_eq hcur, resume, hcall] at hrun
  obtain ⟨p, hp, hrun⟩ := bind_eq_ok.mp hrun
  obtain ⟨p', hp', hrun⟩ := bind_eq_ok.mp hrun
  have hw := submissionResume_waited hp
  cases p with
  | trap regs next k₁ =>
    obtain rfl := Except.ok.inj hp'
    obtain ⟨k', -, hrun⟩ := bind_eq_ok.mp hrun
    obtain rfl := Except.ok.inj hrun
    rw [setCall_calls_self] at hret
    cases hret
  | ret r k₁ =>
    obtain ⟨⟨r₂, k₂⟩, hfinish, hp'⟩ := bind_eq_ok.mp hp'
    obtain rfl := Except.ok.inj hp'
    obtain ⟨⟨ret, k₃⟩, h₃, hrun⟩ := bind_eq_ok.mp hrun
    obtain rfl := Except.ok.inj hrun
    have hreturned := trapReturnFromHandler_ok h₃
    have hmem₃ : k₃.machine.mem = k₂.machine.mem := hreturned.memory
    have hheld := hinv.held c u hflight.call
    have hok := hinv.driver.sys.call c
    rw [hcall] at hok
    obtain ⟨-, -, -, -, -, hcmd, -⟩ := hok
    obtain ⟨hr, htasks, mem₁, hmachine, hmem₁⟩ := hw.result
    rw [hcmd] at hmem₁
    have hready : userTaskIsReady u.task k₁ = true :=
      (userTaskIsReady_congr (k := σ.kernel) (by rw [htasks])).trans (hflight.ready hinv hcur)
    have htables : ∀ x, TableByte σ.kernel.machine (σ.kernel.tasks u.task).addressSpace x →
        mem₁ x = σ.kernel.machine.mem x := fun x hx' => by
      have hnot := hapart.tables x hx'
      simp only [InPage, pageSize] at hnot
      exact hmem₁ x (by omega)
    have hpages : PagesOk k₁.machine.pages := by
      rw [hmachine]
      exact hinv.driver.sys.pages
    have hbyte : ∀ i, userByte k₁.machine (k₁.tasks u.task).addressSpace u.userDst i = u.byteAt σ.kernel i := by
      intro i
      rw [htasks, hmachine]
      exact (userAddr_sie (m := { σ.kernel.machine with mem := mem₁ }) sub.irqState _).trans (userAddr_congr htables _)
    have hcopy : CopyApart k₁.machine (k₁.tasks u.task).addressSpace u.bouncePage u.userDst u.len.toNat := by
      rw [htasks, hmachine]
      exact (hapart.copy.congr htables).sie sub.irqState
    have hoff : ∀ b, ¬InPage u.cmd b → k₁.machine.mem b = σ.kernel.machine.mem b := fun b hnot => by
      rw [hmachine]
      simp only [InPage, pageSize] at hnot
      exact hmem₁ b (by omega)
    refine ⟨r₂, ?_, ?_⟩
    · show (k₃.sched.frames u.frame).a0 = _
      rw [hreturned.frames]
      exact userAccelReturn_a0 u.frame r₂ k₂
    have hnull := hheld.bounce.1.ne_zero hinv.driver.sys.pages
    rcases userAccelMemsetFinish_result hpages hready hnull rfl hcopy hfinish with
      ⟨rfl, hrok, hdone⟩ | ⟨hresult, hsame⟩
    · -- the request has been completed, and the device has reported success
      have hcomplete : σ.kernel.accelRequest.completed = true := by
        by_contra hopen
        rw [if_neg hopen, hrok] at hr
        exact absurd hr (by decide)
      rw [if_pos hcomplete, hrok] at hr
      have hstatus : σ.kernel.accelMmio.status = accelStatusDone := by
        rcases hflight.recorded hcomplete with ⟨-, hs⟩ | hio
        · exact hs
        · rw [hio] at hr
          exact absurd hr (by decide)
      have hcontrol := (hinv.driver.accel.protocol.completed hcomplete).2.1
      have hdisj := hheld.disjoint
      have hsmall := hflight.small
      refine .filled (fun i hi => ?_) fun b hnot hb => ?_
      · show k₃.machine.mem _ = _
        rw [hmem₃, ← hbyte i, hdone.moved i hi, hoff _ (by simp only [InPage, pageSize] at *; omega)]
        exact hflight.filled hcontrol hstatus i hi
      · show k₃.machine.mem b = _
        rw [hmem₃, hdone.kept b fun i hi => by rw [hbyte i]; exact hb i hi, hoff b hnot]
    · refine .failed ?_ fun b hnot => ?_
      · rcases hresult with rfl | ⟨rfl, hne'⟩
        · exact List.mem_cons_self
        · by_cases hcomplete : σ.kernel.accelRequest.completed = true
          · rw [if_pos hcomplete] at hr
            rcases hflight.recorded hcomplete with ⟨hokr, -⟩ | hio
            · exact absurd (hr.trans hokr) hne'
            · rw [hr, hio]
              exact .tail _ List.mem_cons_self
          · rw [if_neg hcomplete] at hr
            rw [hr]
            exact .tail _ (.tail _ List.mem_cons_self)
      · show k₃.machine.mem b = _
        rw [hmem₃, hsame, hoff b hnot]

/-- From its system call to its return, whatever else the system does in between: while an accelerator call waits, its
descriptor and the device carry what the user has asked for; a call that returns success has filled exactly these bytes,
and one that fails has written nothing but its own pages, as has the device. -/
theorem memset_exact {k : Kernel} (hf : Fresh k) (hboot : boot k = .ok σ₀) (hrun : SparingRuns σ₀ l σ₁)
    (hbegin : Steps (.ecall regs site) σ₁ σ₂) (hcur : σ₁.kernel.sched.currentThread = some c)
    (hcall : σ₂.calls c = .userMemset u sub) (hwait : WaitingRuns c u σ₂ l' σ₃)
    (hend : Steps (.resume site') σ₃ σ₄) (hcur₃ : σ₃.kernel.sched.currentThread = some c)
    (hret : σ₄.calls c = .idle) :
    (u.userDst = regs.a0 ∧ u.len = regs.a1) ∧
      (∀ b, ¬InPage u.cmd b → σ₂.kernel.machine.mem b = σ₁.kernel.machine.mem b) ∧
      (∀ l₁ τ, WaitingRuns c u σ₂ l₁ τ → Asks u (regs.a2.setWidth 32) τ.kernel.machine.mem ∧
        τ.kernel.accelMmio.cmdBase = u.cmd ∧ ∀ b, ¬InPage u.cmd b → ¬InPage u.bouncePage b →
          (platformAccelStep τ.kernel).machine.mem b = τ.kernel.machine.mem b) ∧
      (MappingsApart σ₃ u → ∃ result, (σ₄.kernel.sched.frames u.frame).a0 = intReg result ∧
        MemsetResult u (regs.a2.setWidth 32) σ₃ σ₄ result) := by
  have h := hrun.inv hf hboot
  have haccel := ecall_accel_of_call h.driver.sys hbegin hcur hcall
  have h₂ : PagesInv σ₂ := h.step hbegin fun hexit => absurd (haccel.symm.trans hexit) (by decide)
  obtain ⟨hflight, hdst, hlen, hmem⟩ := ecall_inFlight h.driver.sys hbegin hcur hcall
  refine ⟨⟨hdst, hlen⟩, hmem, fun l₁ τ hτ => ?_, fun hapart => ?_⟩
  · obtain ⟨hinv, hfl⟩ := hτ.inFlight h₂ hflight
    exact ⟨hfl.asks, (hfl.base hinv).1, (hfl.device hinv).2⟩
  · obtain ⟨hinv, hfl⟩ := hwait.inFlight h₂ hflight
    obtain ⟨sub', hcall₃⟩ := calls_of_memset hfl.call
    exact resume_memset hinv hfl hcur₃ hcall₃ hend.exec hret hapart

/-! ### Calls whose pages other code holds -/

section

variable {place : TablePlaces} {held : U64 → Bool}

/-- If the pages of a call are held apart from the memory of its task, a legal range of the task lies apart from them. -/
theorem mappingsApart_of_held (h : (σ.kernel.clients held).Ok place) (hready : userTaskIsReady u.task σ.kernel = true)
    (hlegal : LegalUserRange (σ.kernel.tasks u.task).addressSpace u.userDst u.len true σ.kernel.machine)
    (hsmall : u.len.toNat ≤ pageSize) (hcmd : held u.cmd = true) (hbounce : held u.bouncePage = true) :
    MappingsApart σ u := by
  have halive : (σ.kernel.clients held).Alive u.task := .inl (userTaskIsReady_iff.mp hready).2.1
  -- a page that other code holds has no byte in common with the memory of the task
  have hapart : ∀ {a}, held a = true → ∀ b ∈ (σ.kernel.clients held).memory (.task u.task),
      ∀ x, InPage a x → ¬InPage b x := by
    intro a ha b hb x hxa hxb
    have halloc := (h.held .clients a ha).1
    obtain rfl := hxa.unique halloc.1.aligned (h.memory_allocated hb).1.aligned hxb
    have hne : Clients.Owner.clients ≠ .task u.task := Clients.Owner.noConfusion
    exact Set.disjoint_left.mp (h.memory_disjoint hne) (.inl ha) hb
  refine ⟨h.copyApart halive hlegal fun i hi a ha => hapart hbounce a ha _ ⟨Nat.le_add_right .., by omega⟩,
    fun x hx hxc => ?_⟩
  obtain ⟨t, p, ht, hxt⟩ := (h.tasks u.task halive).live.tableByte h.tables hx
  refine hapart hcmd t ?_ x hxc hxt
  rw [h.memory_eq]
  exact .inl ⟨p, by rw [Clients.root_task halive]; exact ht⟩

theorem ecall_clients (h : SysOk σ) (hs : Steps (.ecall regs site) σ σ')
    (hcur : σ.kernel.sched.currentThread = some c) (hcall : σ'.calls c = .userMemset u sub)
    (hok : (σ.kernel.clients held).Ok place) : ∃ held', (σ'.kernel.clients held').Ok place ∧ held' u.cmd = true ∧
      held' u.bouncePage = true := by
  have hstepped := exec_stepped h hs.enabled hs.once hs.exec
  have himage := hstepped.grows.image
  have hpages' := (hstepped.sysOk h).pages
  have hwrites := (ecall_inFlight h hs hcur hcall).2.2.2
  obtain ⟨d, frame, k, he, hcase⟩ := ecall_memset h hs.enabled (ecall_accel_of_call h hs hcur hcall) hs.exec
  obtain rfl : c = d := Option.some.inj (hcur.symm.trans he.current)
  have hpages : k.machine.pages = σ.kernel.machine.pages := by rw [he.kernel]; rfl
  have htasks : k.tasks = σ.kernel.tasks := by rw [he.kernel]; rfl
  rcases hcase with ⟨r, k₁, k₂, -, -, rfl⟩ | ⟨t, u', sub', k₁, k₂, hp, hk, rfl⟩
  · rw [setCall_calls_self] at hcall
    cases hcall
  rw [setCall_calls_self] at hcall
  obtain ⟨rfl, rfl⟩ := Call.userMemset.inj hcall
  rcases userAccelSyscallMemset_pages he.task he.ready (hpages ▸ h.pages) hp with ⟨_, _, heq, -⟩ | ⟨_, _, _, _, heq, hb⟩
  · cases heq
  cases heq
  have halloc : ∀ a, σ.kernel.machine.pages.Allocated a ↔
      k₂.machine.pages.Allocated a ∧ a ≠ u'.cmd ∧ a ≠ u'.bouncePage := fun a => by
    rw [← hpages, hk.pages]
    exact hb.pages.allocated a
  have hheld : PagesHeld u' k₂.machine.pages := hk.pages ▸ hb.pages.held
  let held' : U64 → Bool := fun a => held a || decide (a = u'.cmd ∨ a = u'.bouncePage)
  have hheld' : ∀ a, held' a = true ↔ held a = true ∨ a = u'.cmd ∨ a = u'.bouncePage := fun a => by
    rw [Bool.or_eq_true, decide_eq_true_eq]
  have hgrow : ClientsGrow held held' σ.kernel k₂ := by
    refine ⟨himage, hk.tasks.trans (hb.tasks.trans htasks), hpages', fun a => ?_, fun a ha => (hheld' a).mpr (.inl ha),
      fun a ha => ?_, fun x hx => ?_⟩
    · rw [halloc a, hheld' a]
      constructor
      · intro ha
        by_cases hnew : a = u'.cmd ∨ a = u'.bouncePage
        · exact .inr (.inr hnew)
        · exact .inl ⟨ha, not_or.mp hnew⟩
      · rintro (⟨ha, -⟩ | ha | rfl | rfl)
        · exact ha
        · exact ((halloc a).mp (hok.held .clients a ha).1).1
        · exact hheld.cmd
        · exact hheld.bounce
    · refine ((hheld' a).mp ha).imp_right fun hnew hold => ?_
      obtain ⟨-, hc, hb⟩ := (halloc a).mp hold
      exact hnew.elim hc hb
    · exact hwrites x (hx u'.cmd ((hheld' _).mpr (.inr (.inl rfl))))
  exact ⟨held', hgrow.clients hok, (hheld' _).mpr (.inr (.inl rfl)), (hheld' _).mpr (.inr (.inr rfl))⟩

theorem InFlight.device_clients (h : InFlight c u value σ) (hinv : PagesInv σ) (hok : (σ.kernel.clients held).Ok place)
    (hcmd : held u.cmd = true) (hbounce : held u.bouncePage = true) :
    ((platformAccelStep σ.kernel).clients held).Ok place := by
  have hgrow : ClientsGrow held held σ.kernel (platformAccelStep σ.kernel) := by
    refine ⟨rfl, rfl, hok.tables.pages, fun a => ?_, fun _ => id, fun _ => .inl, fun x hx => ?_⟩
    · exact (or_iff_left_of_imp fun ha => (hok.held .clients a ha).1).symm
    · exact (h.device hinv).2 x (hx _ hcmd) (hx _ hbounce)
  exact hgrow.clients hok

end

/-! ### A call in a small system -/

theorem leavesCall_device (hcall : (σ.calls c).memset = some u) : LeavesCall c u .accelStep σ := by
  intro σ' hx
  obtain rfl := Except.ok.inj hx
  exact ⟨hcall, fun hno => absurd rfl hno⟩

theorem leavesCall_kept (hcall : (σ.calls c).memset = some u)
    (hkept : ∀ σ', exec op σ = .ok σ' → TasksKept σ.kernel σ'.kernel ∧ σ'.calls = σ.calls) : LeavesCall c u op σ := by
  intro σ' hx
  obtain ⟨hk, hcalls⟩ := hkept σ' hx
  exact ⟨by rw [hcalls]; exact hcall, fun _ b _ => by rw [hk.machine]⟩

theorem dispatchIrqs_tasksKept (h : DriverOk σ) (hx : exec .dispatchIrqs σ = .ok σ') :
    TasksKept σ.kernel σ'.kernel ∧ σ'.calls = σ.calls := by
  obtain ⟨k₁, h₁, hx⟩ := bind_eq_ok.mp hx
  obtain rfl := Except.ok.inj hx
  refine ⟨?_, rfl⟩
  show TasksKept σ.kernel k₁
  cases platformDispatchPendingIrqs_outcome h.sys.sched h.sys.accelQueue h₁ with
  | none => exact ⟨rfl, rfl⟩
  | spurious hirq =>
    rw [ackAndStep_eq (knownIrq_control h.accel.protocol hirq)]
    exact ⟨rfl, rfl⟩
  | completed hirq =>
    have hc := knownIrq_control h.accel.protocol hirq
    let k₀ := accelRecordCompletion σ.kernel.accelMmio.irqStatus σ.kernel
    have hc' : k₀.accelMmio.control = 0 := hc
    have heq : ackAndStep (knownIrq σ.kernel) k₀ = _ := ackAndStep_eq hc'
    exact ⟨by rw [heq]; rfl, by rw [heq]; rfl⟩

theorem control_tasksKept {t : ControlTrap} (h : SysOk σ) (hen : Enabled (.control t site) σ)
    (hx : exec (.control t site) σ = .ok σ') : TasksKept σ.kernel σ'.kernel ∧ σ'.calls = σ.calls := by
  obtain ⟨d, hcur, -, htask, hallow, hon⟩ := hen
  obtain ⟨k₁, h₁, hx⟩ := bind_eq_ok.mp hx
  obtain rfl := Except.ok.inj hx
  have hlt := (h.sched.started hcur).2.lt
  obtain ⟨l, g, -, ht⟩ := controlTrap_ok h.sched hcur h.seen hon.ne_zero (hallow.controlOk hlt htask) h₁
  exact ⟨ht.tasksKept, rfl⟩

/-- The call of thread `c` returns `USER_ACCEL_OK` when it goes on. -/
def memsetOkCheck (c : Nat) (σ : System) : Bool :=
  match σ.calls c with
  | .userMemset u _ => succeeds (fun σ' => decide ((σ'.kernel.sched.frames u.frame).a0 = intReg userAccelOk))
    (exec (.resume (sampleSite c)) σ)
  | _ => false

theorem sampleMemset_run : ∃ σ₀ σ, boot sampleKernel = .ok σ₀ ∧
    Run System.exec (fun op σ => (Enabled op σ ∧ AttachOnce op σ) ∧ op.Tends ∧ AttachFree op σ) σ₀ sampleUserOps σ ∧
    (decide (σ.kernel.sched.currentThread = some 1) &&
      runCheck (fun σ => memsetCheck 1 σ && memsetOkCheck 1 σ) (sampleMemsetOps ++ sampleMemsetDone) σ) = true :=
  run_of_startCheck (by decide +kernel)

theorem sampleMemsetDone_waiting (h : DriverOk σ) (hrun : Runs σ sampleMemsetDone σ')
    (hcall : σ'.calls 1 = .userMemset u sub) : σ.calls 1 = .userMemset u sub ∧ WaitingRuns 1 u σ sampleMemsetDone σ' ∧
      TasksKept (platformAccelStep σ.kernel) σ'.kernel := by
  obtain ⟨σ₁, hp₁, hx₁, hrun⟩ := hrun.uncons
  obtain ⟨σ₂, hp₂, hx₂, hrun⟩ := hrun.uncons
  obtain ⟨σ₃, hp₃, hx₃, hrun⟩ := hrun.uncons
  obtain rfl := hrun.eq_of_nil
  have h₁ := h.step hp₁.1 hp₁.2 hx₁
  have h₂ := h₁.step hp₂.1 hp₂.2 hx₂
  obtain ⟨hk₃, hcalls₃⟩ := control_tasksKept h₂.sys hp₃.1 hx₃
  obtain ⟨hk₂, hcalls₂⟩ := dispatchIrqs_tasksKept h₁ hx₂
  obtain rfl := Except.ok.inj hx₁
  have hcall₂ : σ₂.calls 1 = .userMemset u sub := by rw [← hcalls₃]; exact hcall
  have hcall₁ : σ.calls 1 = .userMemset u sub := by rw [hcalls₂] at hcall₂; exact hcall₂
  refine ⟨hcall₁, .cons ⟨⟨hp₁, fun hop => hop.elim⟩, leavesCall_device (congrArg Call.memset hcall₁)⟩ hx₁ (.cons
    ⟨⟨hp₂, fun hop => hop.elim⟩, leavesCall_kept (congrArg Call.memset hcall₁) fun _ hx => dispatchIrqs_tasksKept h₁ hx⟩ hx₂
    (.single ⟨⟨hp₃, fun hop => hop.elim⟩, leavesCall_kept (congrArg Call.memset hcall₂) fun _ hx =>
      control_tasksKept h₂.sys hp₃.1 hx⟩ hx₃)), hk₂.trans hk₃⟩

/-- The user thread has a byte filled, from its system call to its return. -/
theorem memset_exact_sample : ∃ (σ σ' : System) (u : UserMemset), u.userDst = userSpaceStackBase ∧ u.len = 1 ∧
    MappingsApart σ u ∧ (σ'.kernel.sched.frames u.frame).a0 = intReg userAccelOk ∧
    σ'.kernel.machine.mem (u.byteAt σ.kernel 0) = 7 := by
  obtain ⟨σ₀, σ₁, hboot, hrun, hp⟩ := sampleMemset_run
  have hruns : Runs σ₀ sampleUserOps σ₁ := hrun.mono fun _ _ hp => hp.1
  have htend : TendOk σ₁ := Run.invariant (fun _ _ _ hi hp hx => hi.step hp.1.1 hp.2.1 hp.2.2 hx) hrun
    (boot_tendOk sampleKernel_fresh hboot)
  have hsparing := sampleUser_sparing hboot hruns
  have h₁ := hsparing.inv sampleKernel_fresh hboot
  obtain ⟨place, held, hclients⟩ := htend.tables
  obtain ⟨hcur, hp⟩ := Bool.and_eq_true_iff.mp hp
  have hcur := of_decide_eq_true hcur
  obtain ⟨σ₃, hrun₃, hcheck⟩ := runs_of_runCheck hp
  obtain ⟨hcheck, hok⟩ := Bool.and_eq_true_iff.mp hcheck
  obtain ⟨u, sub, σ₄, hcur₃, hcall, hend, hret⟩ := memset_of_check hcheck
  obtain ⟨σ₂, hp₁, hx₁, hrun₃⟩ := hrun₃.uncons
  have hs₁ : Steps _ _ _ := ⟨hp₁.1, hp₁.2, hx₁⟩
  have h₂ : PagesInv σ₂ := h₁.step hs₁ fun hexit => absurd hexit (show userSyscallAccelMemset ≠ userSyscallExit by decide)
  obtain ⟨hcall₂, hwait, hkept⟩ := sampleMemsetDone_waiting h₂.driver hrun₃ hcall
  have hfl₂ := (ecall_inFlight h₁.driver.sys hs₁ hcur hcall₂).1
  obtain ⟨h₃, hfl₃⟩ := hwait.inFlight h₂ hfl₂
  obtain ⟨⟨hdst, hlen⟩, -, -, hexact⟩ :=
    memset_exact sampleKernel_fresh hboot hsparing hs₁ hcur hcall₂ hwait hend hcur₃ hret
  -- the pages of the call are apart from the memory of the task
  obtain ⟨held', hclients₂, hcmd, hbounce⟩ := ecall_clients h₁.driver.sys hs₁ hcur hcall₂ hclients
  have hclients₃ := hkept.clients (hfl₂.device_clients h₂ hclients₂ hcmd hbounce)
  have hready := hfl₃.ready h₃ hcur₃
  have hlegal := hclients₃.legal_stack (.inl (userTaskIsReady_iff.mp hready).2.1)
    (show userSpaceStackBase.toNat ≤ u.userDst.toNat by rw [hdst])
    (show u.userDst.toNat + u.len.toNat ≤ _ by rw [hdst, hlen]; decide) true
  have hapart : MappingsApart σ₃ u := mappingsApart_of_held hclients₃ hready hlegal hfl₃.small hcmd hbounce
  rw [memsetOkCheck, hcall, hend.exec] at hok
  have ha0 := of_decide_eq_true hok
  obtain ⟨result, ha0', hresult⟩ := hexact hapart
  refine ⟨σ₃, σ₄, u, hdst, hlen, hapart, ha0, ?_⟩
  cases hresult with
  | filled hbytes => exact hbytes 0 (by rw [hlen]; decide)
  | failed hmem =>
    rw [ha0] at ha0'
    simp only [List.mem_cons, List.not_mem_nil, or_false] at hmem
    obtain rfl | rfl | rfl := hmem <;> exact absurd ha0' (by decide)

end System

end QemuRtos
