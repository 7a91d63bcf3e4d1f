import QemuRtos.Drivers.Accel

/-!
# What a memset of the device writes

The loop of the device reads its bound from the descriptor in every round, while its stores may change the
descriptor. It writes exactly the destination if and only if they leave the bound in force.
-/

namespace QemuRtos

open Lib

variable {mem mem' : Mem} {cmd dst : U64} {value : Byte} {i n len : Nat}

/-- The addresses that the loop of `accel_execute_memset` stores to, in order, from index `i` on. -/
def memsetWrites (cmd dst : U64) (value : Byte) (i : Nat) (mem : Mem) : List Nat :=
  if i < (cmdLen mem cmd).toNat then
    (dst.toNat + i) :: memsetWrites cmd dst value (i + 1) (Function.update mem (dst.toNat + i) value)
  else []
termination_by 2 ^ 32 - i
decreasing_by
  have := (cmdLen mem cmd).isLt
  omega

/-- The loop does these stores and no others. -/
theorem accelMemsetLoop_writes (cmd dst : U64) (value : Byte) (i : Nat) (mem : Mem) : accelMemsetLoop cmd dst value i mem =
    (memsetWrites cmd dst value i mem).foldl (fun mem a => Function.update mem a value) mem := by
  induction i, mem using accelMemsetLoop.induct cmd dst value with
  | case1 i mem hlt ih =>
    rw [accelMemsetLoop, memsetWrites, if_pos hlt, if_pos hlt, List.foldl_cons]
    exact ih
  | case2 i mem hge =>
    rw [accelMemsetLoop, memsetWrites, if_neg hge, if_neg hge]
    rfl

/-- The length field once the first `k` bytes of the destination are written. -/
def lenAfter (mem : Mem) (cmd dst : U64) (value : Byte) (k : Nat) : Nat := (cmdLen (mem.fill dst.toNat k value) cmd).toNat

/-- The loop ends after `n` rounds. -/
def RoundsOf (mem : Mem) (cmd dst : U64) (value : Byte) (i n : Nat) : Prop :=
  i ≤ n ∧ (∀ k, i ≤ k → k < n → k < lenAfter mem cmd dst value k) ∧ lenAfter mem cmd dst value n ≤ n

theorem fill_zero (mem : Mem) (a : Nat) (value : Byte) : mem.fill a 0 value = mem := by
  funext x
  rw [Mem.fill, if_neg (by omega)]

theorem fill_succ (mem : Mem) (a k : Nat) (value : Byte) :
    Function.update (mem.fill a k value) (a + k) value = mem.fill a (k + 1) value := by
  funext x
  by_cases hx : x = a + k
  · subst hx
    rw [Function.update_self, Mem.fill, if_pos (by omega)]
  · rw [Function.update_of_ne hx, Mem.fill, Mem.fill]
    by_cases hin : a ≤ x ∧ x < a + k
    · rw [if_pos hin, if_pos (by omega)]
    · rw [if_neg hin, if_neg (by omega)]

theorem exists_rounds (mem : Mem) (cmd dst : U64) (value : Byte) (i : Nat) : ∃ n, RoundsOf mem cmd dst value i n := by
  by_cases hlt : i < lenAfter mem cmd dst value i
  · have hbound : lenAfter mem cmd dst value i < 2 ^ 32 := (cmdLen _ cmd).isLt
    obtain ⟨n, hin, hall, hend⟩ := exists_rounds mem cmd dst value (i + 1)
    refine ⟨n, by omega, fun k hik hkn => ?_, hend⟩
    by_cases hk : k = i
    · rw [hk]
      exact hlt
    · exact hall k (by omega) hkn
  · exact ⟨i, le_rfl, fun k h1 h2 => absurd h2 (by omega), Nat.le_of_not_lt hlt⟩
termination_by 2 ^ 32 - i

theorem RoundsOf.spec (h : RoundsOf mem cmd dst value i n) :
    memsetWrites cmd dst value i (mem.fill dst.toNat i value) = (List.range' i (n - i)).map (dst.toNat + ·) ∧
      accelMemsetLoop cmd dst value i (mem.fill dst.toNat i value) = mem.fill dst.toNat n value := by
  obtain ⟨hin, hall, hend⟩ := h
  obtain ⟨k, rfl⟩ := Nat.exists_eq_add_of_le hin
  induction k generalizing i with
  | zero =>
    have hge : ¬i < (cmdLen (mem.fill dst.toNat i value) cmd).toNat := Nat.not_lt.mpr hend
    rw [memsetWrites, if_neg hge, accelMemsetLoop, if_neg hge, Nat.add_zero, Nat.sub_self]
    exact ⟨rfl, rfl⟩
  | succ k ih =>
    have hlt : i < (cmdLen (mem.fill dst.toNat i value) cmd).toNat := hall i le_rfl (by omega)
    have hsplit : i + (k + 1) = i + 1 + k := by omega
    obtain ⟨hw, hl⟩ := ih (i := i + 1) (by omega) (fun j h1 h2 => hall j (by omega) (by omega)) (by rw [← hsplit]; exact hend)
    rw [memsetWrites, if_pos hlt, accelMemsetLoop, if_pos hlt, fill_succ, hw, hl, hsplit, Nat.add_sub_cancel_left,
      show i + 1 + k - i = k + 1 by omega, List.range'_succ]
    exact ⟨rfl, rfl⟩

/-- The device has written `value` to exactly the destination and set the status. -/
structure MemsetDone (cmd dst : U64) (len : Nat) (value : Byte) (writes : List Nat) (mem mem' : Mem) : Prop where
  writes : writes = (List.range len).map (dst.toNat + ·)
  filled : ∀ b, dst.toNat ≤ b → b < dst.toNat + len → mem' b = value
  status : cmdStatus mem' cmd = accelCmdStatusOk
  others : ∀ b, ¬(dst.toNat ≤ b ∧ b < dst.toNat + len) → ¬(cmd.toNat + 24 ≤ b ∧ b < cmd.toNat + 28) → mem' b = mem b

/-- The stores of the loop leave its bound in force for `len` rounds, and the status word that is written last
agrees with the fill value where it lies in the destination. -/
structure BoundKept (cmd dst : U64) (len : Nat) (value : Byte) (mem : Mem) : Prop where
  runs : ∀ k < len, k < lenAfter mem cmd dst value k
  stops : lenAfter mem cmd dst value len ≤ len
  status : ∀ j < 4, dst.toNat ≤ cmd.toNat + 24 + j → cmd.toNat + 24 + j < dst.toNat + len →
    value = BitVec.ofNat 8 (accelCmdStatusOk.toNat / 256 ^ j)

theorem BoundKept.of_disjoint (hlen : (cmdLen mem cmd).toNat = len)
    (h : dst.toNat + len ≤ cmd.toNat + 16 ∨ cmd.toNat + 28 ≤ dst.toNat ∨
      cmd.toNat + 20 ≤ dst.toNat ∧ dst.toNat + len ≤ cmd.toNat + 24) : BoundKept cmd dst len value mem := by
  have hsame : ∀ k ≤ len, lenAfter mem cmd dst value k = len := by
    intro k hk
    have hload : cmdLen (mem.fill dst.toNat k value) cmd = cmdLen mem cmd := by
      unfold cmdLen
      refine Mem.load32_congr fun x h1 h2 => Mem.fill_of_disjoint mem value ?_
      omega
    rw [lenAfter, hload, hlen]
  refine ⟨fun k hk => ?_, (hsame len le_rfl).le, fun j hj h1 h2 => ?_⟩
  · rw [hsame k hk.le]
    exact hk
  · omega

theorem accelExecuteMemset_iff (r : AccelMmio) (mem : Mem) (cmd : U64) :
    MemsetDone cmd (cmdDstPa mem cmd) (cmdLen mem cmd).toNat ((cmdValue mem cmd).setWidth 8)
        (memsetWrites cmd (cmdDstPa mem cmd) ((cmdValue mem cmd).setWidth 8) 0 mem) mem (accelExecuteMemset cmd r mem).2 ↔
      BoundKept cmd (cmdDstPa mem cmd) (cmdLen mem cmd).toNat ((cmdValue mem cmd).setWidth 8) mem := by
  obtain ⟨n, hn⟩ := exists_rounds mem cmd (cmdDstPa mem cmd) ((cmdValue mem cmd).setWidth 8) 0
  obtain ⟨hwrites, hloop⟩ := hn.spec
  rw [fill_zero, Nat.sub_zero] at hwrites
  rw [fill_zero] at hloop
  have hmem : (accelExecuteMemset cmd r mem).2 =
      setCmdStatus cmd accelCmdStatusOk (mem.fill (cmdDstPa mem cmd).toNat n ((cmdValue mem cmd).setWidth 8)) := by
    unfold accelExecuteMemset
    rw [hloop]
  rw [hwrites, hmem]
  generalize cmdDstPa mem cmd = dst at *
  generalize (cmdLen mem cmd).toNat = len at *
  generalize BitVec.setWidth 8 (cmdValue mem cmd) = value at *
  have hstatus : ∀ m : Mem, ∀ b, setCmdStatus cmd accelCmdStatusOk m b =
      if cmd.toNat + 24 ≤ b ∧ b < cmd.toNat + 28 then BitVec.ofNat 8 (accelCmdStatusOk.toNat / 256 ^ (b - (cmd.toNat + 24))) else m b :=
    fun _ _ => rfl
  constructor
  · intro h
    have hlen : n = len := by
      have := congrArg List.length h.writes
      rwa [List.length_map, List.length_map, List.length_range', List.length_range] at this
    subst hlen
    refine ⟨fun k hk => hn.2.1 k (Nat.zero_le k) hk, hn.2.2, fun j hj h1 h2 => ?_⟩
    have := h.filled _ h1 h2
    rw [hstatus, if_pos (by omega), Nat.add_sub_cancel_left] at this
    exact this.symm
  · intro h
    -- the loop ends where the bound says
    have hlen : n = len := by
      obtain ⟨-, hruns, hstops⟩ := hn
      rcases Nat.lt_trichotomy n len with hlt | heq | hgt
      · have := h.runs n hlt
        omega
      · exact heq
      · have := hruns len (Nat.zero_le _) hgt
        have := h.stops
        omega
    subst hlen
    refine ⟨by rw [List.range_eq_range'], fun b h1 h2 => ?_, ?_, fun b h1 h2 => ?_⟩
    · rw [hstatus]
      by_cases hb : cmd.toNat + 24 ≤ b ∧ b < cmd.toNat + 28
      · rw [if_pos hb]
        have := h.status (b - (cmd.toNat + 24)) (by omega) (by omega) (by omega)
        exact this.symm
      · rw [if_neg hb, Mem.fill_of_mem _ _ h1 h2]
    · exact Mem.load32_store32 ..
    · rw [hstatus, if_neg h2]
      exact Mem.fill_of_disjoint _ _ (by omega)

/-! ### The device step -/

/-- The registers and the memory with which the device starts a descriptor that both validations accept. -/
structure Started (p : PageAllocator) (r : AccelMmio) (mem : Mem) (cmd : U64) : Prop where
  control : r.control &&& accelControlReset = 0 ∧ r.control &&& accelControlStart ≠ 0
  idle : r.status = accelStatusIdle
  base : r.cmdBase = cmd
  safe : accelCmdPointerIsSafe p cmd = true
  driver : accelCmdPayloadIsValid p mem cmd = true
  device : accelDescriptorPayloadIsValid p mem cmd = true

theorem Started.step {p : PageAllocator} {r : AccelMmio} (h : Started p r mem cmd) :
    ∃ r', (accelStep p r mem).2 = (accelExecuteMemset cmd r' mem).2 := by
  have hsafe := h.safe
  have hlocation : accelDescriptorLocationIsValid p cmd = true := hsafe
  have hne : cmd ≠ 0 := by
    unfold accelCmdPointerIsSafe at hsafe
    simp only [Bool.and_eq_true, decide_eq_true_eq] at hsafe
    exact hsafe.1.1
  have hpending : cmdStatus mem cmd ≠ accelCmdStatusTimeout := by
    have hdevice := h.device
    unfold accelDescriptorPayloadIsValid at hdevice
    intro he
    rw [if_pos (.inr (.inr (.inr (.inl (by rw [he]; decide)))))] at hdevice
    cases hdevice
  refine ⟨{ r with control := 0, irqAck := 0, status := accelStatusBusy }, ?_⟩
  unfold accelStep
  dsimp only
  rw [if_neg (not_not_intro h.control.1), if_pos h.control.2]
  unfold accelStart
  dsimp only
  rw [if_neg (not_not_intro h.idle), if_neg (by rw [h.base]; exact hne), h.base]
  unfold accelStartDescriptor
  rw [hlocation, if_neg (by decide), if_neg hpending, h.device, if_neg (by decide)]

/-- A device step that executes a validated descriptor writes exactly the destination and sets the status if and
only if its stores keep the bound of the loop. -/
theorem deviceMemset_exact_iff {p : PageAllocator} {r : AccelMmio} (h : Started p r mem cmd) :
    MemsetDone cmd (cmdDstPa mem cmd) (cmdLen mem cmd).toNat ((cmdValue mem cmd).setWidth 8)
        (memsetWrites cmd (cmdDstPa mem cmd) ((cmdValue mem cmd).setWidth 8) 0 mem) mem (accelStep p r mem).2 ↔
      BoundKept cmd (cmdDstPa mem cmd) (cmdLen mem cmd).toNat ((cmdValue mem cmd).setWidth 8) mem := by
  obtain ⟨r', hr'⟩ := h.step
  rw [hr']
  exact accelExecuteMemset_iff r' mem cmd

/-- A pending descriptor at `0x80041000`, in a memory that is zero elsewhere. -/
def sampleDescriptor (dst : U64) (len value : U32) : Mem :=
  let mem : Mem := fun _ => 0
  let mem := mem.store32 0x80041000 accelCmdOpMemset
  let mem := mem.store64 0x80041008 dst
  let mem := mem.store32 0x80041010 len
  mem.store32 0x80041014 value

/-- An allocator of the RAM above the kernel. -/
def samplePages : PageAllocator :=
  { sampleMachine.pages with managedStart := 0x80040000, managedEnd := 0x88000000, initialized := true }

/-- The device with a start pending for the descriptor. -/
def sampleMmio : AccelMmio := { accelMmioInit with control := accelControlStart, cmdBase := 0x80041000 }

theorem deviceMemset_exact_sample :
    Started samplePages sampleMmio (sampleDescriptor 0x80042000 16 0xab) 0x80041000 ∧
    MemsetDone 0x80041000 0x80042000 16 0xab
      (memsetWrites 0x80041000 0x80042000 0xab 0 (sampleDescriptor 0x80042000 16 0xab)) (sampleDescriptor 0x80042000 16 0xab)
      (accelStep samplePages sampleMmio (sampleDescriptor 0x80042000 16 0xab)).2 := by
  have h : Started samplePages sampleMmio (sampleDescriptor 0x80042000 16 0xab) 0x80041000 :=
    ⟨by decide, rfl, rfl, by decide, by decide, by decide⟩
  have hdst : cmdDstPa (sampleDescriptor 0x80042000 16 0xab) 0x80041000 = 0x80042000 := by decide
  have hlen : (cmdLen (sampleDescriptor 0x80042000 16 0xab) 0x80041000).toNat = 16 := by decide
  have hvalue : (cmdValue (sampleDescriptor 0x80042000 16 0xab) 0x80041000).setWidth 8 = 0xab := by decide
  have hiff := deviceMemset_exact_iff h
  rw [hdst, hlen, hvalue] at hiff
  exact ⟨h, hiff.mpr (.of_disjoint hlen (.inr (.inl (by decide))))⟩

/-- The destination is the length field of the descriptor itself: one byte is asked for, but the store raises
the length and the device runs on. -/
theorem deviceMemset_overrun :
    Started samplePages sampleMmio (sampleDescriptor 0x80041010 1 3) 0x80041000 ∧
    ¬MemsetDone 0x80041000 0x80041010 1 3
      (memsetWrites 0x80041000 0x80041010 3 0 (sampleDescriptor 0x80041010 1 3)) (sampleDescriptor 0x80041010 1 3)
      (accelStep samplePages sampleMmio (sampleDescriptor 0x80041010 1 3)).2 := by
  have h : Started samplePages sampleMmio (sampleDescriptor 0x80041010 1 3) 0x80041000 :=
    ⟨by decide, rfl, rfl, by decide, by decide, by decide⟩
  obtain ⟨r', hr'⟩ := h.step
  have hdst : cmdDstPa (sampleDescriptor 0x80041010 1 3) 0x80041000 = 0x80041010 := by decide
  have hlen : (cmdLen (sampleDescriptor 0x80041010 1 3) 0x80041000).toNat = 1 := by decide
  have hvalue : (cmdValue (sampleDescriptor 0x80041010 1 3) 0x80041000).setWidth 8 = 3 := by decide
  have hiff := accelExecuteMemset_iff r' (sampleDescriptor 0x80041010 1 3) 0x80041000
  rw [hdst, hlen, hvalue, ← hr'] at hiff
  refine ⟨h, fun hdone => ?_⟩
  have hstops := (hiff.mp hdone).stops
  revert hstops
  decide

end QemuRtos
