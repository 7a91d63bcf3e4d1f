import QemuRtos.Safety.Spaces

/-!
# The page walk of the hardware

The Sv39 walk of the privileged specification, for 4 KiB pages, over the same tables that the kernel walks. The two
part where `vm_map_page` was given a physical address that does not fit an Sv39 entry.
-/

namespace QemuRtos

open Lib

/-! ### The walk -/

/-- An entry that faults wherever the walk meets it: not valid, `W` without `R`, or with one of the bits 63:54 set. -/
def hwFaults (pte : U64) : Bool :=
  pte &&& vmPteV = 0 || (pte &&& vmPteR = 0 && pte &&& vmPteW ≠ 0) || pte >>> 54 ≠ 0

def hwIsLeaf (pte : U64) : Bool := pte &&& (vmPteR ||| vmPteX) ≠ 0

/-- The page of an entry, from its 44-bit PPN. -/
def hwPage (pte : U64) : U64 := ((pte >>> 10) &&& 0xfffffffffff) <<< 12

def hwVpn (va : U64) (level : Nat) : Nat := va.toNat / 2 ^ (12 + 9 * level) % 512

/-- The last step: `bits` are the A and D bits that the access needs. -/
def hwAccess (va bits pte : U64) : Option U64 :=
  if hwFaults pte || !hwIsLeaf pte || pte &&& bits ≠ bits then none else some (hwPage pte ||| (va &&& 0xfff))

/-- The walk from the table at `a` of a level. -/
def hwWalk (mem : Mem) (va bits : U64) : Nat → U64 → Option U64
  | 0, a => hwAccess va bits (mem.load64 (a.toNat + hwVpn va 0 * 8))
  | level + 1, a =>
    let pte := mem.load64 (a.toNat + hwVpn va (level + 1) * 8)
    if hwFaults pte || hwIsLeaf pte then none else hwWalk mem va bits level (hwPage pte)

variable {m : Machine} {place : TablePlaces} {sp : VmSpace} {va pa flags bits pte t r : U64} {p : List Nat} {level : Nat}

theorem hwVpn_address (ht : t.toNat % pageSize = 0) (va : U64) (level : Nat) :
    t.toNat + hwVpn va level * 8 = (pteAddr t (vpnIndex va level)).toNat := by
  rw [pteAddr_toNat ht (vpnIndex_lt va level), vpnIndex_toNat, hwVpn, Nat.mul_comm 9 level, Nat.mul_comm 8]

theorem hwPage_toNat (pte : U64) : (hwPage pte).toNat = pte.toNat / 1024 % 2 ^ 44 * 4096 := by
  have hmask : ((pte >>> 10) &&& 0xfffffffffff).toNat = pte.toNat / 1024 % 2 ^ 44 := by
    rw [BitVec.toNat_and, BitVec.toNat_ushiftRight, Nat.shiftRight_eq_div_pow]
    exact Nat.and_two_pow_sub_one_eq_mod _ 44
  simp only [hwPage, BitVec.toNat_shiftLeft, hmask, Nat.shiftLeft_eq]
  have := Nat.mod_lt (pte.toNat / 1024) (show 0 < 2 ^ 44 by decide)
  omega

theorem reserved_iff (hf : flags.toNat < 1024) : paToPte pa flags >>> 54 = 0 ↔ pa.toNat < 2 ^ 56 := by
  rw [← BitVec.toNat_inj, BitVec.toNat_ushiftRight, paToPte_toNat hf, Nat.shiftRight_eq_div_pow]
  show (1024 * (pa.toNat / 4096) + flags.toNat) / 2 ^ 54 = 0 ↔ _
  omega

theorem hwPage_paToPte (hpa : pa.toNat % pageSize = 0) (hf : flags.toNat < 1024) (hlt : pa.toNat < 2 ^ 56) :
    hwPage (paToPte pa flags) = pa := by
  rw [← BitVec.toNat_inj, hwPage_toNat, paToPte_toNat hf]
  simp only [pageSize] at hpa
  omega

theorem paToPte_and_flag (hf : flags.toNat < 1024) {b : U64} (hb : sv39PteFlagMask &&& b = b) :
    paToPte pa flags &&& b = flags &&& b := by
  have hflags : flags &&& sv39PteFlagMask = flags := by
    have h : paToPte pa flags &&& sv39PteFlagMask = flags := paToPte_flags hf
    rw [← h, BitVec.and_assoc, BitVec.and_self]
  rw [← hb, ← BitVec.and_assoc, ← BitVec.and_assoc, paToPte_flags hf, hflags]

/-- A mapping is a legal leaf if and only if its page fits the PPN. -/
theorem hwFaults_mapping (hf : flagsAreValid flags = true) :
    (hwFaults (paToPte pa flags) = false ↔ pa.toNat < 2 ^ 56) ∧ hwIsLeaf (paToPte pa flags) = true := by
  obtain ⟨hlt, hv, hrx, hwr⟩ := flagsAreValid_iff.mp hf
  have hf' : flags.toNat < 1024 := by omega
  have hres : paToPte pa flags >>> 54 = 0 ↔ pa.toNat < 2 ^ 56 := reserved_iff hf'
  rw [← hres]
  have hv' : flags &&& vmPteV ≠ 0 := by simpa only [pteIsValid, decide_eq_true_eq] using hv
  constructor
  · simp only [hwFaults, paToPte_and_flag hf' (show sv39PteFlagMask &&& vmPteV = vmPteV from rfl),
      paToPte_and_flag hf' (show sv39PteFlagMask &&& vmPteR = vmPteR from rfl),
      paToPte_and_flag hf' (show sv39PteFlagMask &&& vmPteW = vmPteW from rfl), Bool.or_eq_false_iff, Bool.and_eq_false_iff,
      decide_eq_false_iff_not, not_not]
    constructor
    · exact fun h => h.2
    · refine fun h => ⟨⟨hv', ?_⟩, h⟩
      by_cases hw : flags &&& vmPteW = 0
      · exact .inr hw
      · exact .inl (hwr hw)
  · rw [hwIsLeaf, paToPte_and_flag hf' (show sv39PteFlagMask &&& (vmPteR ||| vmPteX) = vmPteR ||| vmPteX from rfl)]
    exact decide_eq_true hrx

theorem hwPointer (ht : t.toNat % pageSize = 0) (hlt : t.toNat < 2 ^ 56) :
    hwFaults (paToPte t vmPteV) = false ∧ hwIsLeaf (paToPte t vmPteV) = false ∧ hwPage (paToPte t vmPteV) = t := by
  have hv : vmPteV.toNat < 1024 := by decide
  refine ⟨?_, ?_, hwPage_paToPte ht hv hlt⟩
  · simp only [hwFaults, paToPte_and_flag hv (show sv39PteFlagMask &&& vmPteV = vmPteV from rfl),
      paToPte_and_flag hv (show sv39PteFlagMask &&& vmPteR = vmPteR from rfl),
      paToPte_and_flag hv (show sv39PteFlagMask &&& vmPteW = vmPteW from rfl), (reserved_iff hv).mpr hlt]
    decide
  · rw [hwIsLeaf, paToPte_and_flag hv (show sv39PteFlagMask &&& (vmPteR ||| vmPteX) = vmPteR ||| vmPteX from rfl)]
    decide

theorem hwFaults_of_invalid (h : pteIsValid pte = false) : hwFaults pte = true := by
  have hv : pte &&& vmPteV = 0 := by simpa only [pteIsValid, ne_eq, decide_not, Bool.not_eq_false', decide_eq_true_eq] using h
  simp only [hwFaults, hv, decide_true, Bool.true_or]

/-- The hardware finds the table of the last level where the kernel does. -/
theorem hwWalk_find (h : TablesOk m place) (hlt : ∀ {t x}, place t = some x → t.toNat < 2 ^ 56) (va bits : U64) (level : Nat)
    (ht : place t = some (r, p)) (hlevel : p.length + level = sv39Levels - 1) : hwWalk m.mem va bits level t =
      (findTable (tableCells m.mem) (vpnPath va level) t).bind fun s => hwAccess va bits (tableEntry m.mem s (vpnIndex va 0)) := by
  induction level generalizing t p with
  | zero =>
    rw [hwWalk, hwVpn_address (h.aligned ht)]
    rfl
  | succ level ih =>
    have hi := vpnIndex_lt va (level + 1)
    rw [hwWalk, hwVpn_address (h.aligned ht), vpnPath, findTable, tableCells_of_lt hi]
    rw [show m.mem.load64 (pteAddr t (vpnIndex va (level + 1))).toNat = tableEntry m.mem t (vpnIndex va (level + 1)) from rfl]
    cases hc : cellOf (tableEntry m.mem t (vpnIndex va (level + 1))) with
    | empty =>
      rw [hwFaults_of_invalid (cellOf_eq_empty.mp hc), Bool.true_or, if_pos rfl]
      rfl
    | leaf v =>
      have := h.forest.leaf_depth ht ((tableCells_of_lt hi).trans hc)
      omega
    | table s =>
      have hs := h.forest.child ht ((tableCells_of_lt hi).trans hc)
      obtain ⟨-, -, -, he⟩ := (cellOf_eq_table (h.ne_zero hs)).mp hc
      obtain ⟨hfault, hleaf, hpage⟩ := hwPointer (h.aligned hs) (hlt hs)
      rw [he, hfault, hleaf, hpage, if_neg (by decide)]
      refine ih hs ?_
      rw [List.length_append, List.length_singleton]
      omega

theorem hwWalk_mapped (h : TablesOk m place) (hlt : ∀ {t x}, place t = some x → t.toNat < 2 ^ 56) (hl : Live place sp)
    (hva : vaIsCanonical va = true) (bits : U64) :
    hwWalk m.mem va bits (sv39Levels - 1) sp.root = (mapped m sp.root va).bind (hwAccess va bits) := by
  rw [hwWalk_find h hlt va bits _ hl rfl, mapped, if_pos hva, getLeaf]
  cases hs : findTable (tableCells m.mem) (tablePath va) sp.root with
  | none => simp only [Option.bind_none]
  | some s =>
    obtain ⟨-, -, ⟨hcell, hinvalid⟩ | ⟨hcell, -, -⟩⟩ := walkResult_entry h hl hs
    · show hwAccess va bits (tableEntry m.mem s (vpnIndex va 0)) = (tableCells m.mem s (vpnIndex va 0)).leaf?.bind _
      have hfault : hwFaults (tableEntry m.mem s (vpnIndex va 0)) = true := hwFaults_of_invalid hinvalid
      rw [hcell, hwAccess, hfault, Bool.true_or, Bool.true_or, if_pos rfl]
      rfl
    · show hwAccess va bits (tableEntry m.mem s (vpnIndex va 0)) = (tableCells m.mem s (vpnIndex va 0)).leaf?.bind _
      rw [hcell]
      rfl

/-! ### Agreement -/

/-- On each canonical address the hardware finds what `vm_get_mapping` reports, if the entry has the A and D bits that
the access needs; each mapping is a legal leaf; and `vm_translate` reports an invalid address only where none is. -/
def WalkersAgree (m : Machine) (sp : VmSpace) : Prop :=
  ∀ va, vaIsCanonical va = true →
    (∀ bits, bits = vmPteA ∨ bits = vmPteA ||| vmPteD → hwWalk m.mem va bits (sv39Levels - 1) sp.root =
      match vmGetMapping (some sp) va m with
      | .ok (_, some (pa, flags), _) => if flags &&& bits = bits then some pa else none
      | _ => none) ∧
    (∀ pte, mapped m sp.root va = some pte → hwFaults pte = false ∧ hwIsLeaf pte = true) ∧
    ∀ m', vmTranslate (some sp) va m = .ok (vmTranslateInvalid, m') →
      ∃ m'', vmGetMapping (some sp) va m = .ok (vmErrNotMapped, none, m'')

namespace Clients

variable {c c₀ : Clients} {M M₀ : Maps} {k : Kernel} {l : List ClientOp} {i : Nat}

theorem Agrees.walkers_of_fits (h : c.Agrees M) (hok : c.Ok place) (hlt : ∀ {t x}, place t = some x → t.toNat < 2 ^ 56)
    (hz : (c.spaces i).root ≠ 0) (hfits : ∀ va pa flags, M i va = some (pa, flags) → pa.toNat < 2 ^ 56) :
    WalkersAgree c.kernel.machine (c.spaces i) := by
  intro va hva
  have hl := hok.liveSpace hz
  rw [vmGetMapping_spec hok.tables hl, vmTranslate_spec hok.tables hl, h.lookup va hz]
  cases hM : M i (pageBase va) with
  | none =>
    refine ⟨fun bits _ => ?_, fun pte hpte => (nomatch hpte), fun m' _ => ⟨_, rfl⟩⟩
    rw [hwWalk_mapped hok.tables hlt hl hva, h.lookup va hz, hM]
    rfl
  | some x =>
    obtain ⟨pa, flags⟩ := x
    obtain ⟨-, -, hpa, hflags⟩ := h.args hM
    have hf : flags.toNat < 1024 := by
      have := (flagsAreValid_iff.mp hflags).1
      omega
    have hpa' := hfits _ _ _ hM
    obtain ⟨hfault, hleaf⟩ : (hwFaults (paToPte pa flags) = false ↔ pa.toNat < 2 ^ 56) ∧ hwIsLeaf (paToPte pa flags) = true :=
      hwFaults_mapping hflags
    have hpage : pteToPa (paToPte pa flags) = pa := pteToPa_paToPte (pageAligned_iff.mp hpa) hf
    refine ⟨fun bits hbits => ?_, fun pte hpte => ?_, fun m' ht => ?_⟩
    · rw [hwWalk_mapped hok.tables hlt hl hva, h.lookup va hz, hM]
      have hb : sv39PteFlagMask &&& bits = bits := by
        obtain rfl | rfl := hbits <;> rfl
      show hwAccess va bits (paToPte pa flags) = if (paToPte pa flags &&& sv39PteFlagMask) &&& bits = bits then
        some (pteToPa (paToPte pa flags) ||| pageOffset va) else none
      rw [hwAccess, hfault.mpr hpa', hleaf, paToPte_and_flag hf hb, paToPte_flags hf, hpage,
        hwPage_paToPte (pageAligned_iff.mp hpa) hf hpa']
      by_cases hneed : flags &&& bits = bits
      · rw [if_pos hneed, if_neg (by simp [hneed])]
        rfl
      · rw [if_neg hneed, if_pos (by simp [hneed])]
    · obtain rfl := Option.some.inj hpte
      exact ⟨hfault.mpr hpa', hleaf⟩
    · -- a page below the limit does not give the all-ones address
      have he : pteToPa (paToPte pa flags) ||| pageOffset va = vmTranslateInvalid := congrArg Prod.fst (Except.ok.inj ht)
      rw [hpage] at he
      have hor : (pa ||| pageOffset va).toNat < 2 ^ 56 := by
        rw [BitVec.toNat_or]
        refine Nat.or_lt_two_pow hpa' ?_
        have : (pageOffset va).toNat ≤ vmPageOffsetMask.toNat := by
          rw [pageOffset, BitVec.toNat_and]
          exact Nat.and_le_right
        have hmask : vmPageOffsetMask.toNat = 4095 := rfl
        omega
      rw [he] at hor
      exact absurd hor (by decide)

theorem Agrees.fits_of_walkers (h : c.Agrees M) (hw : (c.spaces i).root ≠ 0 → WalkersAgree c.kernel.machine (c.spaces i))
    {va pa flags : U64} (hM : M i va = some (pa, flags)) : pa.toNat < 2 ^ 56 := by
  have hargs := h.args hM
  have hz : (c.spaces i).root ≠ 0 := fun hz => by
    rw [h.empty va hz] at hM
    cases hM
  have hmapped : mapped c.kernel.machine (c.spaces i).root va = some (paToPte pa flags) := by
    rw [h.lookup va hz, (pageBase_eq_iff hargs.2.1).mpr rfl, hM]
    rfl
  exact (hwFaults_mapping hargs.2.2.2).1.mp ((hw hz va hargs.1).2.1 _ hmapped).1

theorem record_from {op : ClientOp} {out : ClientOut} {va pa flags : U64} (hM : M.record op out i va = some (pa, flags)) :
    M i va = some (pa, flags) ∨ op = .mapPage (some i) va pa flags := by
  have hold : ∀ {j f}, Function.update M j f i va = some (pa, flags) → (j = i → f va ≠ some (pa, flags)) →
      M i va = some (pa, flags) := by
    intro j f hu hne
    by_cases hj : i = j
    · subst hj
      rw [Function.update_self] at hu
      exact absurd hu (hne rfl)
    · rwa [Function.update_of_ne hj] at hu
  revert hM
  fun_cases Maps.record M op out with
  | case1 => exact fun hM => .inl (hold hM fun _ hnone => by cases hnone)
  | case2 => exact .inl
  | case3 => exact fun hM => .inl (hold hM fun _ hnone => by cases hnone)
  | case4 => exact .inl
  | case5 j va' pa' flags' =>
    intro hM
    by_cases hnew : j = i ∧ va' = va
    · obtain ⟨rfl, rfl⟩ := hnew
      rw [Function.update_self, Function.update_self] at hM
      obtain ⟨rfl, rfl⟩ := Prod.mk.inj (Option.some.inj hM)
      exact .inr rfl
    · by_cases hj : i = j
      · subst hj
        rw [Function.update_self, Function.update_of_ne fun he => hnew ⟨rfl, he.symm⟩] at hM
        exact .inl hM
      · rw [Function.update_of_ne hj] at hM
        exact .inl hM
  | case6 => exact .inl
  | case7 j va' =>
    intro hM
    by_cases hj : i = j
    · subst hj
      rw [Function.update_self] at hM
      by_cases hv : va = va'
      · rw [hv, Function.update_self] at hM
        cases hM
      · rw [Function.update_of_ne hv] at hM
        exact .inl hM
    · rw [Function.update_of_ne hj] at hM
      exact .inl hM
  | case8 => exact .inl
  | case9 => exact .inl

theorem recorded_of_run {x y : Clients × Maps} (hrun : Run trackedStep (fun op x => x.1.Permitted op) x l y) {va pa flags : U64}
    (hM : y.2 i va = some (pa, flags)) :
    x.2 i va = some (pa, flags) ∨ .mapPage (some i) va pa flags ∈ l := by
  induction hrun with
  | nil => exact .inl hM
  | @cons x y z op l hp hs _ ih =>
    obtain ⟨r, -, rfl⟩ := trackedStep_ok hs
    obtain hM | hM := ih hM
    · obtain hM | rfl := record_from hM
      · exact .inl hM
      · exact .inr List.mem_cons_self
    · exact .inr (List.mem_cons_of_mem _ hM)

/-- The two walks agree in exactly the states where each mapped page fits the 44-bit PPN; so they do throughout a run
that maps only such pages. -/
theorem walkers_agree_iff (hk : ∀ task, (k.tasks task).state = .unused) (hboot : boot k = .ok c₀) (hrun : TrackedRun c₀ l c M) :
    ((∀ i, (c.spaces i).root ≠ 0 → WalkersAgree c.kernel.machine (c.spaces i)) ↔
      ∀ i va pa flags, M i va = some (pa, flags) → pa.toNat < 2 ^ 56) ∧
    ((∀ i va pa flags, .mapPage (some i) va pa flags ∈ l → pa.toNat < 2 ^ 56) →
      ∀ i, (c.spaces i).root ≠ 0 → WalkersAgree c.kernel.machine (c.spaces i)) := by
  obtain ⟨hreached, h⟩ := tracked_ok hk hboot hrun
  obtain ⟨place, hok⟩ := hreached.ok
  have hlt : ∀ {t x}, place t = some x → t.toNat < 2 ^ 56 := by
    intro t x ht
    have hend := (hok.tables.allocated ht).1.lt_end
    have hbelow := hreached.below
    rw [show c.kernel.machine.image.ramEnd.toNat = 0x88000000 by rw [c.kernel.machine.image.ram_end]; rfl] at hbelow
    omega
  have hiff : (∀ i, (c.spaces i).root ≠ 0 → WalkersAgree c.kernel.machine (c.spaces i)) ↔
      ∀ i va pa flags, M i va = some (pa, flags) → pa.toNat < 2 ^ 56 :=
    ⟨fun hw i va pa flags hM => h.fits_of_walkers (hw i) hM, fun hfits i hz => h.walkers_of_fits hok hlt hz (hfits i)⟩
  refine ⟨hiff, fun hcalls => hiff.mpr fun i va pa flags hM => ?_⟩
  obtain hM | hmem := recorded_of_run hrun hM
  · cases hM
  · exact hcalls i va pa flags hmem

/-- The failing run: `vm_map_page` accepts a physical page whose number has 45 bits. -/
def farPageOps : List ClientOp :=
  [.spaceInit (some 0), .mapPage (some 0) 0x40000000 0x100000000000000 (vmPteV ||| vmPteR ||| vmPteA)]

theorem farPage_run : ∃ c₀ c M, boot sampleKernel = .ok c₀ ∧ TrackedRun c₀ farPageOps c M ∧ (c.spaces 0).root ≠ 0 ∧
    M 0 0x40000000 = some (0x100000000000000, vmPteV ||| vmPteR ||| vmPteA) := by
  obtain ⟨c₀, x, hboot, hrun, hp⟩ := exists_run trackedStep (fun op x => x.1.Permitted op) (boot sampleKernel)
    (fun c => (c, Maps.empty)) farPageOps
    (fun x => (x.1.spaces 0).root ≠ 0 ∧ x.2 0 0x40000000 = some (0x100000000000000, vmPteV ||| vmPteR ||| vmPteA))
    (by decide +kernel) (by simp [Permitted, farPageOps])
  have hp := of_decide_eq_true hp
  exact ⟨c₀, x.1, x.2, hboot, hrun, hp.1, hp.2⟩

/-- A run with a page that the hardware can map. -/
def nearPageOps : List ClientOp :=
  [.spaceInit (some 0), .mapPage (some 0) 0x40000000 0x80000000 (vmPteV ||| vmPteR ||| vmPteA)]

theorem nearPage_run : ∃ c₀ c M, boot sampleKernel = .ok c₀ ∧ TrackedRun c₀ nearPageOps c M ∧ (c.spaces 0).root ≠ 0 ∧
    M 0 0x40000000 = some (0x80000000, vmPteV ||| vmPteR ||| vmPteA) := by
  obtain ⟨c₀, x, hboot, hrun, hp⟩ := exists_run trackedStep (fun op x => x.1.Permitted op) (boot sampleKernel)
    (fun c => (c, Maps.empty)) nearPageOps
    (fun x => (x.1.spaces 0).root ≠ 0 ∧ x.2 0 0x40000000 = some (0x80000000, vmPteV ||| vmPteR ||| vmPteA))
    (by decide +kernel) (by simp [Permitted, nearPageOps])
  have hp := of_decide_eq_true hp
  exact ⟨c₀, x.1, x.2, hboot, hrun, hp.1, hp.2⟩

/-- A run after which the two walks agree on a mapped page, and one after which they do not. -/
theorem walkers_agree_iff_sample :
    (∃ (c : Clients) (M : Maps), (c.spaces 0).root ≠ 0 ∧ M 0 0x40000000 ≠ none ∧
      (∀ i, (c.spaces i).root ≠ 0 → WalkersAgree c.kernel.machine (c.spaces i)) ∧
      ∀ i va pa flags, M i va = some (pa, flags) → pa.toNat < 2 ^ 56) ∧
    ∃ (c : Clients) (M : Maps), M 0 0x40000000 ≠ none ∧
      ¬∀ i, (c.spaces i).root ≠ 0 → WalkersAgree c.kernel.machine (c.spaces i) := by
  constructor
  · obtain ⟨c₀, c, M, hboot, hrun, hz, hM⟩ := nearPage_run
    obtain ⟨hiff, hcalls⟩ := walkers_agree_iff (fun _ => rfl) hboot hrun
    have hagree := hcalls fun i va pa flags hmem => by
      simp only [nearPageOps, List.mem_cons, List.not_mem_nil, or_false, reduceCtorEq, false_or, ClientOp.mapPage.injEq] at hmem
      obtain ⟨-, -, rfl, -⟩ := hmem
      decide
    exact ⟨c, M, hz, by rw [hM]; exact Option.some_ne_none _, hagree, hiff.mp hagree⟩
  · obtain ⟨c₀, c, M, hboot, hrun, -, hM⟩ := farPage_run
    refine ⟨c, M, by rw [hM]; exact Option.some_ne_none _, fun hagree => ?_⟩
    exact absurd ((walkers_agree_iff (fun _ => rfl) hboot hrun).1.mp hagree _ _ _ _ hM) (by decide)

/-- After that run the hardware faults on the page that `vm_map_page` reported as mapped. -/
theorem walkers_disagree : ∃ c₀ c M, boot sampleKernel = .ok c₀ ∧ TrackedRun c₀ farPageOps c M ∧ (c.spaces 0).root ≠ 0 ∧
    ¬WalkersAgree c.kernel.machine (c.spaces 0) := by
  obtain ⟨c₀, c, M, hboot, hrun, hz, hM⟩ := farPage_run
  refine ⟨c₀, c, M, hboot, hrun, hz, fun hw => ?_⟩
  obtain ⟨-, h⟩ := tracked_ok (fun _ => rfl) hboot hrun
  exact absurd (h.fits_of_walkers (fun _ => hw) hM) (by decide)

end Clients

end QemuRtos
