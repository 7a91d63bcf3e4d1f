import QemuRtos.Memory.TaskCopy
import QemuRtos.Safety.Tasks
import QemuRtos.User.SyscallSpec

/-!
# Task-aware copies

`copy_from_user_task` and `copy_to_user_task` move exactly the bytes of an accepted range, and nothing else.
-/

namespace QemuRtos

open Lib

variable {k k₁ : Kernel} {task kernelPtr userVa len : U64} {write : Bool} {m : Machine} {sp : VmSpace} {mem : Mem}

theorem LegalUserRange.backed (h : LegalUserRange sp userVa len write m) :
    Backed m sp userVa len.toNat ∧ userVa.toNat + len.toNat ≤ 2 ^ 64 := by
  obtain ⟨-, htop, -, -, haccess⟩ := h
  have hfit : userVa.toNat + len.toNat ≤ 2 ^ 64 := by
    have : userSpaceStackTop.toNat ≤ 2 ^ 64 := Nat.le_of_lt userSpaceStackTop.isLt
    omega
  refine ⟨fun i hi => ?_, hfit⟩
  have hva := userVa_toNat hfit hi
  obtain ⟨pa, flags, hget, -⟩ := haccess (userVa + BitVec.ofNat 64 i) (by omega) (by omega)
  exact ⟨pa, flags, hget⟩

theorem usercopyTaskValidate_eq (hready : userTaskIsReady task k = true) (userVa len : U64) (write : Bool) :
    ∃ result, usercopyTaskValidate task userVa len write k = .ok (result, k) ∧
      (result = usercopyOk ∨ result = usercopyErrInvalid) ∧
      (result = usercopyOk ↔ len = 0 ∨ LegalUserRange (k.tasks task).addressSpace userVa len write k.machine) := by
  obtain ⟨result, hrun, hcases, hiff⟩ :=
    usercopyValidateRangeInSpace_iff (k.tasks task).addressSpace userVa len write k.machine
  refine ⟨result, ?_, hcases, hiff⟩
  rw [usercopyTaskValidate, if_neg (by simp [hready]), hrun]
  rfl

theorem copyUserTaskBytes_spec (hready : userTaskIsReady task k = true) (kernelPtr userVa len : U64) (write : Bool) :
    ∃ result, usercopyTaskValidate task userVa len write k = .ok (result, k) ∧
      (result = usercopyOk ∨ result = usercopyErrInvalid) ∧
      (result = usercopyErrInvalid → copyUserTaskBytes task kernelPtr userVa len write k = .ok (usercopyErrInvalid, k)) ∧
      (result = usercopyOk → CopyApart k.machine (k.tasks task).addressSpace kernelPtr userVa len.toNat →
        ∃ mem, copyUserTaskBytes task kernelPtr userVa len write k =
            .ok (usercopyOk, { k with machine := { k.machine with mem := mem } }) ∧
          Mem.Copied (copyDst k.machine (k.tasks task).addressSpace kernelPtr userVa write)
            (copySrc k.machine (k.tasks task).addressSpace kernelPtr userVa write) len.toNat k.machine.mem mem) := by
  obtain ⟨result, hrun, hcases, hiff⟩ := usercopyTaskValidate_eq hready userVa len write
  refine ⟨result, hrun, hcases, fun hinvalid => ?_, fun hok ha => ?_⟩
  · have hlen : len ≠ 0 := fun hz => absurd ((hiff.mpr (.inl hz)).symm.trans hinvalid) (by decide)
    rw [copyUserTaskBytes, if_neg hlen, hrun, ok_bind, hinvalid]
    rfl
  · by_cases hlen : len = 0
    · subst hlen
      exact ⟨k.machine.mem, rfl, Mem.Copied.zero ..⟩
    · obtain ⟨hb, hfit⟩ := ((hiff.mp hok).resolve_left hlen).backed
      obtain ⟨mem, hloop, hdone⟩ := copyUserTaskLoop_spec hb ha hfit (Nat.zero_le _)
        (Mem.Copied.zero (copyDst k.machine (k.tasks task).addressSpace kernelPtr userVa write)
          (copySrc k.machine (k.tasks task).addressSpace kernelPtr userVa write) k.machine.mem)
      refine ⟨mem, ?_, hdone⟩
      rw [copyUserTaskBytes, if_neg hlen, hrun, ok_bind, hok]
      dsimp only
      rw [if_neg (not_not_intro rfl), show k.machine = { k.machine with mem := k.machine.mem } from rfl, hloop]
      rfl

/-- The null checks of the two copies are part of what the validation refuses. -/
theorem copyUserTask_eq (hready : userTaskIsReady task k = true) (hnull : kernelPtr ≠ 0) (userVa len : U64) :
    copyFromUserTask task kernelPtr userVa len k = copyUserTaskBytes task kernelPtr userVa len false k ∧
      copyToUserTask task userVa kernelPtr len k = copyUserTaskBytes task kernelPtr userVa len true k := by
  by_cases hlen : len = 0
  · subst hlen
    exact ⟨rfl, rfl⟩
  have hrefused : userVa = 0 → ∀ write, copyUserTaskBytes task kernelPtr userVa len write k = .ok (usercopyErrInvalid, k) := by
    rintro rfl write
    obtain ⟨result, hrun, hcases, hiff⟩ := usercopyTaskValidate_eq hready 0 len write
    obtain ⟨result', hrun', -, hinvalid, -⟩ := copyUserTaskBytes_spec hready kernelPtr 0 len write
    obtain ⟨rfl, -⟩ := Prod.mk.inj (Except.ok.inj (hrun.symm.trans hrun'))
    refine hinvalid (hcases.resolve_left fun hok => ?_)
    have hlegal := ((hiff.mp hok).resolve_left hlen).1
    exact absurd hlegal (by decide)
  rw [copyFromUserTask, copyToUserTask, if_neg hlen, if_neg hlen]
  by_cases hva : userVa = 0
  · rw [if_pos (.inr hva), if_pos (.inl hva), hrefused hva, hrefused hva]
    exact ⟨rfl, rfl⟩
  · rw [if_neg (not_or.mpr ⟨hnull, hva⟩), if_neg (not_or.mpr ⟨hva, hnull⟩)]
    exact ⟨rfl, rfl⟩

/-! ### There and back -/

theorem userAddr_congr (h : ∀ x, TableByte m sp x → mem x = m.mem x) (va : U64) :
    userAddr { m with mem := mem } sp va = userAddr m sp va := by
  obtain ⟨entry, he⟩ := vmGetMapping_congr m sp va
  rw [userAddr, userAddr, he mem h va rfl, show vmGetMapping (some sp) va m = _ from he m.mem (fun _ _ => rfl) va rfl]
  cases entry <;> rfl

theorem TableByte.congr (h : ∀ x, TableByte m sp x → mem x = m.mem x) {x : Nat} :
    TableByte { m with mem := mem } sp x ↔ TableByte m sp x :=
  exists_congr fun va => walkReads_congr _ _ (fun y hy => h y ⟨va, hy⟩) x

theorem CopyApart.congr {n : Nat} (ha : CopyApart m sp kernelPtr userVa n) (h : ∀ x, TableByte m sp x → mem x = m.mem x) :
    CopyApart { m with mem := mem } sp kernelPtr userVa n where
  frames i hi j hj hpage := by
    rw [userByte, userByte, userAddr_congr h, userAddr_congr h]
    exact ha.frames i hi j hj hpage
  tables i hi x hx := by
    rw [userByte, userAddr_congr h]
    exact ha.tables i hi x ((TableByte.congr h).mp hx)
  buffer_tables i hi hx := ha.buffer_tables i hi ((TableByte.congr h).mp hx)
  buffer_frames i hi j hj := by
    rw [userByte, userAddr_congr h]
    exact ha.buffer_frames i hi j hj

theorem LegalUserRange.readable (h : LegalUserRange sp userVa len true m)
    (hwr : ∀ va pa flags, vmGetMapping (some sp) va m = .ok (vmOk, some (pa, flags), m) → flags &&& vmPteW ≠ 0 →
      flags &&& vmPteR ≠ 0) (hmem : ∀ x, TableByte m sp x → mem x = m.mem x) :
    LegalUserRange sp userVa len false { m with mem := mem } := by
  obtain ⟨hbase, htop, hclint, huart, haccess⟩ := h
  refine ⟨hbase, htop, hclint, huart, fun b hb hb' => ?_⟩
  obtain ⟨pa, flags, hget, hu, hw⟩ := haccess b hb hb'
  obtain ⟨entry, he⟩ := vmGetMapping_congr m sp b
  have hm := he m.mem (fun _ _ => rfl) b rfl
  rw [show ({ m with mem := m.mem } : Machine) = m from rfl, hget] at hm
  cases entry with
  | none =>
    have : vmOk = vmErrNotMapped := congrArg Prod.fst (Except.ok.inj hm)
    exact absurd this (by decide)
  | some pte =>
    obtain ⟨rfl, rfl⟩ := Prod.mk.inj (Option.some.inj (congrArg (fun y => y.2.1) (Except.ok.inj hm)))
    exact ⟨_, _, he mem hmem b rfl, hu, hwr b _ _ hget hw⟩

/-! ### Tasks of reachable states -/

theorem InPage.congr {a : U64} {x y : Nat} (ha : a.toNat % pageSize = 0) (hx : InPage a x) (h : y / pageSize = x / pageSize) :
    InPage a y := by
  unfold InPage at hx ⊢
  unfold pageSize at *
  omega

theorem inPage_physical {a va : U64} (ha : a.toNat % pageSize = 0) : InPage a (a ||| pageOffset va).toNat := by
  have hpa := (physical_toNat (paToPte a 0) va).1
  rw [pteToPa_paToPte ha (by decide)] at hpa
  have hlt := Nat.mod_lt va.toNat (show 0 < pageSize by decide)
  rw [hpa]
  exact ⟨Nat.le_add_right .., Nat.add_lt_add_left hlt _⟩

namespace Clients

variable {c : Clients} {place : TablePlaces} {va : U64}

theorem Ok.readable (h : c.Ok place) (halive : c.Alive task) {pa flags : U64}
    (hget : vmGetMapping (some (c.kernel.tasks task).addressSpace) va c.kernel.machine =
      .ok (vmOk, some (pa, flags), c.kernel.machine)) (hw : flags &&& vmPteW ≠ 0) : flags &&& vmPteR ≠ 0 := by
  obtain ⟨frame, hmap, -⟩ := h.taskMapping_of_getMapping halive hget
  rw [taskMapping] at hmap
  split at hmap
  · cases hmap
    decide
  split at hmap
  · cases hmap
    exact absurd rfl hw
  split at hmap
  · cases hmap
    decide
  split at hmap
  · cases hmap
    decide
  · cases hmap

theorem Ok.userAddr_inPage (h : c.Ok place) (halive : c.Alive task)
    (hu : UserAccess (c.kernel.tasks task).addressSpace write c.kernel.machine va) :
    SamePage va userSpaceCodeBase ∧
        InPage (c.kernel.tasks task).codePage (userAddr c.kernel.machine (c.kernel.tasks task).addressSpace va) ∨
      SamePage va userSpaceStackBase ∧
        InPage (c.kernel.tasks task).stackPage (userAddr c.kernel.machine (c.kernel.tasks task).addressSpace va) := by
  obtain ⟨pa, flags, hget, huser, -⟩ := hu
  obtain ⟨frame, hmap, rfl⟩ := h.taskMapping_of_getMapping halive hget
  obtain ⟨hpages, hcode, hstack⟩ := (taskMapping_pages _ _ va).2 frame flags hmap
  have hok := h.tasks task halive
  rw [userAddr, hget]
  rcases hpages.mp huser with hva | hva
  · rw [(hcode hva).1]
    exact .inl ⟨hva, inPage_physical (hok.frames.held _ (.inl rfl) hok.present.1).1.1.aligned⟩
  · rw [(hstack hva).1]
    exact .inr ⟨hva, inPage_physical (hok.frames.held _ (.inr (.inl rfl)) hok.present.2.1).1.1.aligned⟩

/-- A buffer outside the memory of the task lies apart from every range that the task may access. -/
theorem Ok.copyApart (h : c.Ok place) (halive : c.Alive task) {buffer : U64}
    (hlegal : LegalUserRange (c.kernel.tasks task).addressSpace userVa len write c.kernel.machine)
    (hbuffer : ∀ i < len.toNat, ∀ a ∈ c.memory (.task task), ¬InPage a (buffer.toNat + i)) :
    CopyApart c.kernel.machine (c.kernel.tasks task).addressSpace buffer userVa len.toNat := by
  have hok := h.tasks task halive
  have haccess : ∀ i < len.toNat, UserAccess (c.kernel.tasks task).addressSpace write c.kernel.machine
      (userVa + BitVec.ofNat 64 i) := by
    intro i hi
    have hva := userVa_toNat hlegal.backed.2 hi
    exact hlegal.2.2.2.2 _ (by omega) (by omega)
  have hpages := fun i hi => h.userAddr_inPage halive (haccess i hi)
  have halloc : ∀ {a}, a ∈ (c.kernel.tasks task).frames → c.kernel.machine.pages.Allocated a ∧ place a = none :=
    fun ha => hok.frames.held _ ha.1 ha.2
  have hcode : (c.kernel.tasks task).codePage ∈ (c.kernel.tasks task).frames := ⟨.inl rfl, hok.present.1⟩
  have hstack : (c.kernel.tasks task).stackPage ∈ (c.kernel.tasks task).frames := ⟨.inr (.inl rfl), hok.present.2.1⟩
  have hframe : ∀ i < len.toNat, ∃ a ∈ (c.kernel.tasks task).frames,
      InPage a (userByte c.kernel.machine (c.kernel.tasks task).addressSpace userVa i) := fun i hi =>
    (hpages i hi).elim (fun hp => ⟨_, hcode, hp.2⟩) fun hp => ⟨_, hstack, hp.2⟩
  have hmemory : ∀ {a}, a ∈ (c.kernel.tasks task).frames → a ∈ c.memory (.task task) := fun ha =>
    .inl (by rw [frames_task halive]; exact ha)
  refine ⟨fun i hi j hj hne he => ?_, fun i hi x hx he => ?_, fun i hi hx => ?_, fun i hi j hj he => ?_⟩
  · -- two pages of user mode are the code page and the stack page
    have hcs := hok.frames.code_stack hok.present.1
    have halignCode := (halloc hcode).1.1.aligned
    have halignStack := (halloc hstack).1.1.aligned
    rcases hpages i hi with ⟨hvi, hpi⟩ | ⟨hvi, hpi⟩ <;> rcases hpages j hj with ⟨hvj, hpj⟩ | ⟨hvj, hpj⟩
    · exact hne (hvi.trans hvj.symm)
    · exact hcs ((hpi.congr halignCode he.symm).unique halignCode halignStack hpj)
    · exact hcs ((hpj.congr halignCode he).unique halignCode halignStack hpi)
    · exact hne (hvi.trans hvj.symm)
  · obtain ⟨t, p, ht, hxt⟩ := hok.live.tableByte h.tables hx
    obtain ⟨a, ha, hxa⟩ := hframe i hi
    obtain ⟨haa, hnone⟩ := halloc ha
    obtain rfl := (hxa.congr haa.1.aligned he).unique haa.1.aligned (h.tables.aligned ht) hxt
    rw [hnone] at ht
    cases ht
  · obtain ⟨t, p, ht, hxt⟩ := hok.live.tableByte h.tables hx
    refine hbuffer i hi t ?_ hxt
    rw [h.memory_eq]
    exact .inl ⟨p, by rw [root_task halive]; exact ht⟩
  · obtain ⟨a, ha, hxa⟩ := hframe j hj
    exact hbuffer i hi a (hmemory ha) (hxa.congr (halloc ha).1.1.aligned he)

end Clients

/-- Accepted ranges are copied byte for byte and nothing else changes, and refused ranges change nothing. For a task
of a reachable state it is enough that the buffer is outside the task's memory, and what was copied to the task is
copied back. -/
theorem copyUserTask_exact (hready : userTaskIsReady task k = true) (hnull : kernelPtr ≠ 0) (userVa len : U64) :
    (∃ result, usercopyTaskValidate task userVa len false k = .ok (result, k) ∧
      (result ≠ usercopyOk → copyFromUserTask task kernelPtr userVa len k = .ok (usercopyErrInvalid, k)) ∧
      (result = usercopyOk → CopyApart k.machine (k.tasks task).addressSpace kernelPtr userVa len.toNat →
        ∃ mem, copyFromUserTask task kernelPtr userVa len k =
            .ok (usercopyOk, { k with machine := { k.machine with mem := mem } }) ∧
          (∀ i < len.toNat, mem (kernelPtr.toNat + i) =
            k.machine.mem (userByte k.machine (k.tasks task).addressSpace userVa i)) ∧
          ∀ x, (∀ i < len.toNat, x ≠ kernelPtr.toNat + i) → mem x = k.machine.mem x)) ∧
    (∃ result, usercopyTaskValidate task userVa len true k = .ok (result, k) ∧
      (result ≠ usercopyOk → copyToUserTask task userVa kernelPtr len k = .ok (usercopyErrInvalid, k)) ∧
      (result = usercopyOk → CopyApart k.machine (k.tasks task).addressSpace kernelPtr userVa len.toNat →
        ∃ mem, copyToUserTask task userVa kernelPtr len k =
            .ok (usercopyOk, { k with machine := { k.machine with mem := mem } }) ∧
          (∀ i < len.toNat, mem (userByte k.machine (k.tasks task).addressSpace userVa i) =
            k.machine.mem (kernelPtr.toNat + i)) ∧
          ∀ x, (∀ i < len.toNat, x ≠ userByte k.machine (k.tasks task).addressSpace userVa i) → mem x = k.machine.mem x)) ∧
    ∀ k₀ c₀ l c, (∀ task, (k₀.tasks task).state = .unused) → Clients.boot k₀ = .ok c₀ →
      Run (next Clients.exec) (fun op c => c.Permitted op) c₀ l c → c.kernel.machine = k.machine → c.kernel.tasks = k.tasks →
      (∀ buffer write, LegalUserRange (k.tasks task).addressSpace userVa len write k.machine →
        (∀ i < len.toNat, ∀ a ∈ c.memory (.task task), ¬InPage a (buffer.toNat + i)) →
        CopyApart k.machine (k.tasks task).addressSpace buffer userVa len.toNat) ∧
      ∀ k₁ dst, copyToUserTask task userVa kernelPtr len k = .ok (usercopyOk, k₁) → dst ≠ 0 →
        CopyApart k.machine (k.tasks task).addressSpace kernelPtr userVa len.toNat →
        CopyApart k.machine (k.tasks task).addressSpace dst userVa len.toNat →
        ∃ k₂, copyFromUserTask task dst userVa len k₁ = .ok (usercopyOk, k₂) ∧
          ∀ i < len.toNat, k₂.machine.mem (dst.toNat + i) = k.machine.mem (kernelPtr.toNat + i) := by
  obtain ⟨hfrom, hto⟩ := copyUserTask_eq hready hnull userVa len
  refine ⟨?_, ?_, fun k₀ c₀ l c hk hboot hreach hm htasks => ?_⟩
  · obtain ⟨result, hvalid, hcases, hinvalid, hok⟩ := copyUserTaskBytes_spec hready kernelPtr userVa len false
    rw [hfrom]
    refine ⟨result, hvalid, fun hne => hinvalid (hcases.resolve_left hne), fun hres ha => ?_⟩
    obtain ⟨mem, hcopy, hdone⟩ := hok hres ha
    exact ⟨mem, hcopy, hdone.moved, hdone.kept⟩
  · obtain ⟨result, hvalid, hcases, hinvalid, hok⟩ := copyUserTaskBytes_spec hready kernelPtr userVa len true
    rw [hto]
    refine ⟨result, hvalid, fun hne => hinvalid (hcases.resolve_left hne), fun hres ha => ?_⟩
    obtain ⟨mem, hcopy, hdone⟩ := hok hres ha
    exact ⟨mem, hcopy, hdone.moved, hdone.kept⟩
  · obtain ⟨place, hc⟩ := (Clients.run_reached hk hboot hreach).ok
    have halive : c.Alive task := .inl (by rw [htasks]; exact (userTaskIsReady_iff.mp hready).2.1)
    refine ⟨fun buffer write hlegal hbuffer => ?_, fun k₁ dst hrun hdst ha ha' => ?_⟩
    · rw [← hm, ← htasks] at hlegal ⊢
      exact hc.copyApart halive hlegal hbuffer
    have hwr : ∀ va pa flags,
        vmGetMapping (some (k.tasks task).addressSpace) va k.machine = .ok (vmOk, some (pa, flags), k.machine) →
        flags &&& vmPteW ≠ 0 → flags &&& vmPteR ≠ 0 := by
      rw [← hm, ← htasks]
      exact fun _ _ _ hget => hc.readable halive hget
    obtain ⟨result, hvalid, hcases, hinvalid, hok⟩ := copyUserTaskBytes_spec hready kernelPtr userVa len true
    rw [hto] at hrun
    have hres : result = usercopyOk := hcases.resolve_right fun hres => by
      have : usercopyErrInvalid = usercopyOk := congrArg Prod.fst (Except.ok.inj ((hinvalid hres).symm.trans hrun))
      exact absurd this (by decide)
    obtain ⟨mem, hcopy, hdone⟩ := hok hres ha
    obtain rfl := congrArg Prod.snd (Except.ok.inj (hrun.symm.trans hcopy))
    have htables : ∀ x, TableByte k.machine (k.tasks task).addressSpace x → mem x = k.machine.mem x := fun x hx =>
      hdone.kept x fun i hi => ha.dst_not_table hi hx
    let k₁ : Kernel := { k with machine := { k.machine with mem := mem } }
    have hready₁ : userTaskIsReady task k₁ = true := hready
    obtain ⟨result₁, hvalid₁, hcases₁, -, hok₁⟩ := copyUserTaskBytes_spec hready₁ dst userVa len false
    have hres₁ : result₁ = usercopyOk := by
      obtain ⟨r, hr, -, hiff⟩ := usercopyTaskValidate_eq hready userVa len true
      obtain ⟨r₁, hr₁, -, hiff₁⟩ := usercopyTaskValidate_eq hready₁ userVa len false
      obtain ⟨rfl, -⟩ := Prod.mk.inj (Except.ok.inj (hr.symm.trans hvalid))
      obtain ⟨rfl, -⟩ := Prod.mk.inj (Except.ok.inj (hr₁.symm.trans hvalid₁))
      refine hiff₁.mpr ((hiff.mp hres).imp_right fun hlegal => ?_)
      exact hlegal.readable hwr htables
    obtain ⟨mem', hcopy', hdone'⟩ := hok₁ hres₁ (ha'.congr htables)
    refine ⟨_, (copyUserTask_eq hready₁ hdst userVa len).1.trans hcopy', fun i hi => ?_⟩
    have hbyte : userByte k₁.machine (k₁.tasks task).addressSpace userVa i =
        userByte k.machine (k.tasks task).addressSpace userVa i := userAddr_congr htables _
    calc mem' (dst.toNat + i) = mem (userByte k₁.machine (k₁.tasks task).addressSpace userVa i) := hdone'.moved i hi
      _ = mem (userByte k.machine (k.tasks task).addressSpace userVa i) := by rw [hbyte]
      _ = k.machine.mem (kernelPtr.toNat + i) := hdone.moved i hi

/-! ### A copy there and back -/

theorem Clients.Ok.legal_stack {c : Clients} {place : TablePlaces} (h : c.Ok place) (halive : c.Alive task) {va len : U64}
    (hbase : userSpaceStackBase.toNat ≤ va.toNat) (htop : va.toNat + len.toNat ≤ userSpaceStackTop.toNat) (write : Bool) :
    LegalUserRange (c.kernel.tasks task).addressSpace va len write c.kernel.machine := by
  have hstack : userSpaceStackBase.toNat = 0x3ffff000 := by decide
  have htop' : userSpaceStackTop.toNat = 0x40000000 := by decide
  refine ⟨?_, htop, fun x hx _ hdev => ?_, fun x hx _ hdev => ?_, fun b hb hb' => ?_⟩
  · have : userSpaceBase.toNat = 0x1000 := by decide
    omega
  · have : userSpaceClintEnd.toNat = 0x2010000 := by decide
    omega
  · have : userSpaceUart0End.toNat = 0x10001000 := by decide
    omega
  · have hpage : SamePage b userSpaceStackBase := by
      rw [SamePage, hstack]
      unfold pageSize
      omega
    obtain ⟨hsome, hflags⟩ := taskMapping_pages c.kernel.machine.image (c.kernel.tasks task) b
    obtain ⟨⟨pa, flags⟩, hmap⟩ := Option.ne_none_iff_exists'.mp (hsome.mpr (.inr (.inl hpage)))
    obtain ⟨huser, -, hrw⟩ := hflags pa flags hmap
    obtain ⟨-, hr, hw, -⟩ := hrw hpage
    refine ⟨pa ||| pageOffset b, flags, ?_, huser.mpr (.inr hpage), ?_⟩
    · rw [h.task_getMapping halive, hmap]
    · cases write with
      | false => exact hr
      | true => exact hw

theorem Clients.Ok.not_inPage {c : Clients} {place : TablePlaces} (h : c.Ok place) {o : Clients.Owner} {x : Nat}
    (hx : x < c.kernel.machine.pages.managedStart.toNat) (a : U64) (ha : a ∈ c.memory o) : ¬InPage a x := fun hp =>
  absurd ((h.memory_allocated ha).1.start_le.trans hp.1) (Nat.not_le.mpr hx)

/-- Memory in which a buffer of the kernel starts with `1`, `2`, `3` and `4`. -/
def sampleBytes (mem : Mem) : Mem := fun x =>
  if 0x80010000 ≤ x ∧ x < 0x80010004 then BitVec.ofNat 8 (x - 0x80010000 + 1) else mem x

/-- Four bytes are copied to the stack of a task, and from there to another buffer. -/
theorem copyUserTask_exact_sample : ∃ k k₁ k₂ : Kernel, userTaskIsReady 0x80038000 k = true ∧
    copyToUserTask 0x80038000 userSpaceStackBase 0x80010000 4 k = .ok (usercopyOk, k₁) ∧
    copyFromUserTask 0x80038000 0x80010100 userSpaceStackBase 4 k₁ = .ok (usercopyOk, k₂) ∧
    ∀ i < 4, k₂.machine.mem (0x80010100 + i) = BitVec.ofNat 8 (i + 1) := by
  obtain ⟨c₀, c₁, hboot, hinit⟩ := Clients.sampleTask_built
  obtain ⟨hreached, -⟩ := Clients.boot_reached (fun _ => rfl) hboot
  obtain ⟨place, hok⟩ := hreached.ok
  obtain ⟨result, c₁', place', hexec, hs, hout, -⟩ := Clients.taskInit_step hok 0x80038000 (some [0])
  obtain ⟨hresult, rfl⟩ := Prod.mk.inj (Except.ok.inj (hinit.symm.trans hexec))
  obtain rfl := ClientOut.status.inj hresult
  have hreached₁ := hreached.step (show c₀.Permitted Clients.sampleTaskInit from trivial) hinit
  have hstart := hreached₁.above
  rw [hs.image, Clients.boot_image hboot, show sampleKernel.machine.image.kernelEnd.toNat = 0x80040000 from rfl] at hstart
  let c₂ := c₁.setMachine { c₁.kernel.machine with mem := sampleBytes c₁.kernel.machine.mem }
  have hwrite : c₁.Permitted (.write (sampleBytes c₁.kernel.machine.mem)) := by
    intro a ha _ x hx
    have := ha.1.start_le.trans hx.1
    refine if_neg ?_
    omega
  have hrun : Run (next Clients.exec) (fun op c => c.Permitted op) c₀
      [Clients.sampleTaskInit, .write (sampleBytes c₁.kernel.machine.mem)] c₂ :=
    .cons trivial (by rw [next, hinit]; rfl) (.single hwrite rfl)
  obtain ⟨c, hexec₂, hs₂⟩ := Clients.write_step hs.ok hwrite
  obtain rfl : c = c₂ := congrArg Prod.snd (Except.ok.inj hexec₂).symm
  have halive : c₁.Alive 0x80038000 := by
    cases hout with
    | built _ _ hstate => exact .inl hstate
  have hready : userTaskIsReady 0x80038000 c₂.kernel = true := by
    cases hout with
    | built _ hnull hstate => exact hs.ok.isReady hnull hstate
  have hlegal : LegalUserRange (c₂.kernel.tasks 0x80038000).addressSpace userSpaceStackBase 4 true c₂.kernel.machine :=
    hs₂.ok.legal_stack halive (by decide) (by decide) true
  have houtside : ∀ x < 0x80040000, ∀ a ∈ c₂.memory (.task 0x80038000), ¬InPage a x := fun x hx =>
    hs₂.ok.not_inPage (hx.trans_le hstart)
  have hfour : (4 : U64).toNat = 4 := rfl
  obtain ⟨-, ⟨result, hvalid, -, hcopy⟩, hreach⟩ :=
    copyUserTask_exact hready (show (0x80010000 : U64) ≠ 0 by decide) userSpaceStackBase 4
  obtain ⟨hapart, hback⟩ := hreach sampleKernel c₀ _ c₂ (fun _ => rfl) hboot hrun rfl rfl
  have ha := hapart 0x80010000 true hlegal fun i hi => houtside _ (show 0x80010000 + i < _ by omega)
  have ha' := hapart 0x80010100 true hlegal fun i hi => houtside _ (show 0x80010100 + i < _ by omega)
  have hres : result = usercopyOk := by
    obtain ⟨r, hr, -, hiff⟩ := usercopyTaskValidate_eq hready userSpaceStackBase 4 true
    obtain ⟨rfl, -⟩ := Prod.mk.inj (Except.ok.inj (hr.symm.trans hvalid))
    exact hiff.mpr (.inr hlegal)
  obtain ⟨mem, hto, -⟩ := hcopy hres ha
  obtain ⟨k₂, hfrom, hbytes⟩ := hback _ 0x80010100 hto (by decide) ha ha'
  rw [hfour, show (0x80010000 : U64).toNat = 0x80010000 from rfl, show (0x80010100 : U64).toNat = 0x80010100 from rfl] at hbytes
  refine ⟨_, _, k₂, hready, hto, hfrom, fun i hi => ?_⟩
  rw [hbytes i hi, show c₂.kernel.machine.mem = sampleBytes c₁.kernel.machine.mem from rfl, sampleBytes, if_pos (by omega),
    Nat.add_sub_cancel_left]

end QemuRtos
