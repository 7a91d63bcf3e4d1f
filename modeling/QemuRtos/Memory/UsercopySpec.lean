import QemuRtos.Memory.Usercopy
import QemuRtos.Memory.VmSpec

/-!
# User ranges and copies, byte by byte

`usercopy_validate_range_in_space` looks at the pages of a range. It accepts a range if and only if it lies in
the user part of the address space, avoids the device windows, and each byte of it is mapped for the user
with the permission asked for.
-/

namespace QemuRtos

open Lib

variable {m : Machine} {space : VmSpace} {va va' len : U64} {write : Bool}

/-! ### Lookups in any space -/

theorem vmWalkFrom_lookup (va : U64) (level : Nat) (table : U64) (m : Machine) :
    ∃ a, ∀ va', SamePage va' va → vmWalkFrom va' false level table [] m = .ok (a, m) := by
  induction level generalizing table with
  | zero => exact ⟨pteAddr table (vpnIndex va 0), fun va' h => by rw [vmWalkFrom, h.vpnIndex]⟩
  | succ level ih =>
    by_cases hv : pteIsValid (m.mem.load64 (pteAddr table (vpnIndex va (level + 1))).toNat) = true
    · by_cases hl : pteIsLeaf (m.mem.load64 (pteAddr table (vpnIndex va (level + 1))).toNat) = true
      · refine ⟨0, fun va' h => ?_⟩
        rw [vmWalkFrom, h.vpnIndex]
        dsimp only
        rw [if_pos hv, if_pos hl]
      · obtain ⟨a, ha⟩ := ih (pteToPa (m.mem.load64 (pteAddr table (vpnIndex va (level + 1))).toNat))
        refine ⟨a, fun va' h => ?_⟩
        rw [vmWalkFrom, h.vpnIndex]
        dsimp only
        rw [if_pos hv, if_neg hl, ha va' h]
    · refine ⟨0, fun va' h => ?_⟩
      rw [vmWalkFrom, h.vpnIndex]
      dsimp only
      rw [if_neg hv, if_pos (by decide)]

theorem vmWalk_lookup (space : VmSpace) (va : U64) (m : Machine) :
    ∃ a, ∀ va', SamePage va' va → vmWalk (some space) va' false m = .ok (a, m) := by
  obtain ⟨a, ha⟩ := vmWalkFrom_lookup va (sv39Levels - 1) space.root m
  by_cases hc : space.root = 0 ∨ (!vaIsCanonical va) = true
  · refine ⟨0, fun va' h => ?_⟩
    unfold vmWalk
    dsimp only
    rw [h.canonical, if_pos hc]
  · refine ⟨a, fun va' h => ?_⟩
    unfold vmWalk
    dsimp only
    rw [h.canonical, if_neg hc, ha va' h]

theorem vmGetMapping_lookup (space : VmSpace) (va : U64) (m : Machine) :
    ∃ entry : Option U64, ∀ va', SamePage va' va → vmGetMapping (some space) va' m = .ok
      (match entry with
        | none => (vmErrNotMapped, none, m)
        | some pte => (vmOk, some (pteToPa pte ||| pageOffset va', pte &&& sv39PteFlagMask), m)) := by
  obtain ⟨a, ha⟩ := vmWalk_lookup space va { m with sie := false }
  by_cases hc : a = 0 ∨ (!pteIsValid (m.mem.load64 a.toNat)) = true ∨ (!pteIsLeaf (m.mem.load64 a.toNat)) = true
  · refine ⟨none, fun va' h => ?_⟩
    unfold vmGetMapping
    show (vmWalk (some space) va' false { m with sie := false } >>= _) = _
    rw [ha va' h, ok_bind]
    dsimp only
    rw [if_pos hc]
    rfl
  · refine ⟨some (m.mem.load64 a.toNat), fun va' h => ?_⟩
    unfold vmGetMapping
    show (vmWalk (some space) va' false { m with sie := false } >>= _) = _
    rw [ha va' h, ok_bind]
    dsimp only
    rw [if_neg hc]
    rfl

/-! ### The loop over the pages -/

/-- The permission that a copy in a direction needs. -/
abbrev neededFlag (write : Bool) : U64 := if write then vmPteW else vmPteR

/-- `vm_get_mapping` reports a leaf of the user with the permission. -/
def UserAccess (space : VmSpace) (write : Bool) (m : Machine) (va : U64) : Prop :=
  ∃ pa flags, vmGetMapping (some space) va m = .ok (vmOk, some (pa, flags), m) ∧ flags &&& vmPteU ≠ 0 ∧
    flags &&& neededFlag write ≠ 0

theorem SamePage.symm (h : SamePage va va') : SamePage va' va := Eq.symm h

theorem SamePage.userAccess (h : SamePage va' va) : UserAccess space write m va' ↔ UserAccess space write m va := by
  obtain ⟨entry, he⟩ := vmGetMapping_lookup space va m
  unfold UserAccess
  rw [he va' h, he va rfl]
  cases entry with
  | none => simp [vmErrNotMapped, vmOk]
  | some pte => simp

theorem usercopyValidatePages_access {page last : U64} (h : UserAccess space write m page) (fuel : Nat) :
    usercopyValidatePages space (neededFlag write) last (fuel + 1) page m =
      if page = last then .ok (usercopyOk, m)
      else usercopyValidatePages space (neededFlag write) last fuel (page + 0x1000) m := by
  obtain ⟨pa, flags, hget, hu, hneeded⟩ := h
  rw [usercopyValidatePages, hget, ok_bind]
  dsimp only [Option.getD_some]
  rw [if_neg (not_not_intro rfl), if_neg (not_or.mpr ⟨hu, hneeded⟩)]

theorem usercopyValidatePages_noAccess {page last : U64} (h : ¬UserAccess space write m page) (fuel : Nat) :
    usercopyValidatePages space (neededFlag write) last (fuel + 1) page m = .ok (usercopyErrInvalid, m) := by
  obtain ⟨entry, he⟩ := vmGetMapping_lookup space page m
  have hget := he page rfl
  cases entry with
  | none =>
    rw [usercopyValidatePages, hget, ok_bind]
    rfl
  | some pte =>
    rw [usercopyValidatePages, hget, ok_bind]
    dsimp only [Option.getD_some]
    rw [if_neg (not_not_intro rfl), if_pos]
    by_contra hno
    obtain ⟨hu, hneeded⟩ := not_or.mp hno
    exact h ⟨_, _, hget, hu, hneeded⟩

/-- The loop accepts `k + 1` pages that follow one another if and only if each is accessible. -/
theorem usercopyValidatePages_spec (space : VmSpace) (write : Bool) (m : Machine) (k : Nat) (page : U64) {last : U64}
    (hlast : page.toNat + k * pageSize = last.toNat) :
    ∃ result, usercopyValidatePages space (neededFlag write) last (k + 1) page m = .ok (result, m) ∧
      (result = usercopyOk ∧ (∀ a : U64, page.toNat ≤ a.toNat → a.toNat < last.toNat + pageSize →
          page.toNat % pageSize = 0 → UserAccess space write m a) ∨
        result = usercopyErrInvalid ∧ ∃ a : U64, page.toNat ≤ a.toNat ∧ a.toNat ≤ last.toNat ∧
          a.toNat % pageSize = page.toNat % pageSize ∧ ¬UserAccess space write m a) := by
  by_cases hacc : UserAccess space write m page
  · induction k generalizing page with
    | zero =>
      obtain rfl : page = last := BitVec.eq_of_toNat_eq (by omega)
      refine ⟨_, by rw [usercopyValidatePages_access hacc, if_pos rfl], .inl ⟨rfl, fun a h1 h2 h3 => ?_⟩⟩
      have hsame : SamePage a page := by
        unfold SamePage pageSize at *
        omega
      exact hsame.userAccess.mpr hacc
    | succ k ih =>
      have hlt := last.isLt
      have hsize : pageSize = 4096 := rfl
      have hnext : (page + 0x1000).toNat = page.toNat + pageSize := by
        rw [BitVec.toNat_add]
        show (page.toNat + 4096) % 2 ^ 64 = _
        rw [Nat.mod_eq_of_lt (by rw [hsize] at hlast; omega), hsize]
      have hne : page ≠ last := by
        rintro rfl
        rw [hsize] at hlast
        omega
      rw [usercopyValidatePages_access hacc, if_neg hne]
      by_cases hacc' : UserAccess space write m (page + 0x1000)
      · obtain ⟨result, heq, hcase⟩ := ih (page + 0x1000) (by rw [hnext, ← hlast]; ring) hacc'
        refine ⟨result, heq, ?_⟩
        rcases hcase with ⟨hr, hall⟩ | ⟨hr, a, h1, h2, h3, hno⟩
        · refine .inl ⟨hr, fun a h1 h2 h3 => ?_⟩
          by_cases hin : a.toNat < page.toNat + pageSize
          · have hsame : SamePage a page := by
              unfold SamePage pageSize at *
              omega
            exact hsame.userAccess.mpr hacc
          · refine hall a (by omega) h2 ?_
            rw [hnext, Nat.add_mod_right]
            exact h3
        · refine .inr ⟨hr, a, by omega, h2, ?_, hno⟩
          rw [h3, hnext, Nat.add_mod_right]
      · refine ⟨_, usercopyValidatePages_noAccess hacc' k, .inr ⟨rfl, page + 0x1000, by omega, ?_, ?_, hacc'⟩⟩
        · rw [hnext, ← hlast, Nat.add_mul]
          omega
        · rw [hnext, Nat.add_mod_right]
  · exact ⟨_, usercopyValidatePages_noAccess hacc k, .inr ⟨rfl, page, le_rfl, by omega, rfl, hacc⟩⟩

/-! ### The range -/

/-- Two ranges of addresses have no element in common. -/
def RangesDisjoint (a₁ b₁ a₂ b₂ : Nat) : Prop := ∀ x, a₁ ≤ x → x < b₁ → ¬(a₂ ≤ x ∧ x < b₂)

/-- The legal ranges of a user: none of the arithmetic wraps. -/
def LegalUserRange (space : VmSpace) (userVa len : U64) (write : Bool) (m : Machine) : Prop :=
  userSpaceBase.toNat ≤ userVa.toNat ∧ userVa.toNat + len.toNat ≤ userSpaceStackTop.toNat ∧
    RangesDisjoint userVa.toNat (userVa.toNat + len.toNat) userSpaceClintBase.toNat userSpaceClintEnd.toNat ∧
    RangesDisjoint userVa.toNat (userVa.toNat + len.toNat) userSpaceUart0Base.toNat userSpaceUart0End.toNat ∧
    ∀ b : U64, userVa.toNat ≤ b.toNat → b.toNat < userVa.toNat + len.toNat → UserAccess space write m b

theorem rangesOverlap_iff {a₁ b₁ a₂ b₂ : U64} (h₁ : a₁.toNat < b₁.toNat) (h₂ : a₂.toNat < b₂.toNat) :
    rangesOverlap a₁ b₁ a₂ b₂ = false ↔ RangesDisjoint a₁.toNat b₁.toNat a₂.toNat b₂.toNat := by
  unfold rangesOverlap RangesDisjoint
  rw [Bool.and_eq_false_iff, decide_eq_false_iff_not, decide_eq_false_iff_not, BitVec.lt_def, BitVec.lt_def]
  constructor
  · intro h x h1 h2 h3
    omega
  · intro h
    by_contra hno
    have := h (max a₁.toNat a₂.toNat) (by omega) (by omega)
    omega

theorem userSpaceVaRangeIsValid_iff (hlen : len ≠ 0) : userSpaceVaRangeIsValid va len = true ↔
    userSpaceBase.toNat ≤ va.toNat ∧ va.toNat + len.toNat ≤ userSpaceStackTop.toNat ∧
      RangesDisjoint va.toNat (va.toNat + len.toNat) userSpaceClintBase.toNat userSpaceClintEnd.toNat ∧
      RangesDisjoint va.toNat (va.toNat + len.toNat) userSpaceUart0Base.toNat userSpaceUart0End.toNat := by
  have hpos : 0 < len.toNat := by
    refine Nat.pos_of_ne_zero fun h => hlen (BitVec.eq_of_toNat_eq ?_)
    rw [h]
    rfl
  have hva := va.isLt
  have hln := len.isLt
  have htop : userSpaceStackTop.toNat = 0x40000000 := rfl
  unfold userSpaceVaRangeIsValid
  dsimp only
  by_cases hwrap : va.toNat + len.toNat < 2 ^ 64
  · have hend : (va + len).toNat = va.toNat + len.toNat := by rw [BitVec.toNat_add, Nat.mod_eq_of_lt hwrap]
    have hlast : (va + len - 1).toNat = va.toNat + len.toNat - 1 := by
      rw [BitVec.toNat_sub_of_le (by rw [BitVec.le_def, hend]; show 1 ≤ _; omega), hend]
      rfl
    rw [if_neg (by
      rw [Bool.or_eq_true, decide_eq_true_eq, decide_eq_true_eq, BitVec.lt_def, hend]
      exact not_or.mpr ⟨hlen, by omega⟩)]
    have htop' : userSpaceTop.toNat = 0x3fffffff := rfl
    by_cases hin : va < userSpaceBase ∨ va + len - 1 > userSpaceTop
    · rw [if_pos (by simpa using hin)]
      refine iff_of_false nofun fun h => ?_
      rw [BitVec.lt_def, gt_iff_lt, BitVec.lt_def, hlast] at hin
      omega
    · rw [if_neg (by simpa using hin)]
      rw [BitVec.lt_def, gt_iff_lt, BitVec.lt_def, hlast] at hin
      rw [← hend, ← rangesOverlap_iff (by omega) (by decide), ← rangesOverlap_iff (by omega) (by decide)]
      unfold rangeOverlapsPlatformMmio
      rw [Bool.not_eq_true', Bool.or_eq_false_iff]
      constructor
      · intro h
        exact ⟨by omega, by omega, h⟩
      · intro h
        exact h.2.2
  · rw [if_pos]
    · refine iff_of_false nofun fun h => ?_
      omega
    · have : (va + len).toNat < va.toNat := by
        rw [BitVec.toNat_add, Nat.mod_eq_sub_mod (by omega), Nat.mod_eq_of_lt (by omega)]
        omega
      rw [Bool.or_eq_true, decide_eq_true_eq, decide_eq_true_eq, BitVec.lt_def]
      exact .inr this

/-- `usercopy_validate_range_in_space` accepts an empty range and the legal ranges, and no other. -/
theorem usercopyValidateRangeInSpace_iff (space : VmSpace) (userVa len : U64) (write : Bool) (m : Machine) :
    ∃ result, usercopyValidateRangeInSpace space userVa len write m = .ok (result, m) ∧
      (result = usercopyOk ∨ result = usercopyErrInvalid) ∧
      (result = usercopyOk ↔ len = 0 ∨ LegalUserRange space userVa len write m) := by
  unfold usercopyValidateRangeInSpace usercopyRangeEnd
  by_cases hlen : len = 0
  · rw [if_pos hlen]
    dsimp only
    rw [if_pos hlen]
    exact ⟨_, rfl, .inl rfl, iff_of_true rfl (.inl hlen)⟩
  rw [if_neg hlen]
  dsimp only
  by_cases hvalid : userSpaceVaRangeIsValid userVa len = true
  · obtain ⟨hbase, htop, hclint, huart⟩ := (userSpaceVaRangeIsValid_iff hlen).mp hvalid
    have htop' : userSpaceStackTop.toNat = 0x40000000 := rfl
    have hpos : 0 < len.toNat := by
      refine Nat.pos_of_ne_zero fun h => hlen (BitVec.eq_of_toNat_eq ?_)
      rw [h]
      rfl
    have hend : (userVa + len).toNat = userVa.toNat + len.toNat := by
      rw [BitVec.toNat_add, Nat.mod_eq_of_lt (by omega)]
    have hlast : (userVa + len - 1).toNat = userVa.toNat + len.toNat - 1 := by
      rw [BitVec.toNat_sub_of_le (by rw [BitVec.le_def, hend]; show 1 ≤ _; omega), hend]
      rfl
    rw [if_neg (by rw [BitVec.lt_def, hend]; omega)]
    dsimp only
    rw [if_neg hlen, hvalid, if_neg (by decide)]
    -- the first and the last page
    have hfirst : (userVa &&& ~~~pageMask).toNat = userVa.toNat / 2 ^ 12 * 2 ^ 12 := toNat_and_not_mask userVa (k := 12) (by decide)
    have hlastPage : ((userVa + len - 1) &&& ~~~pageMask).toNat = (userVa.toNat + len.toNat - 1) / 2 ^ 12 * 2 ^ 12 := by
      rw [← hlast]
      exact toNat_and_not_mask _ (k := 12) (by decide)
    have hsize : pageSize = 4096 := rfl
    have hfuel : (((userVa + len - 1) &&& ~~~pageMask) - (userVa &&& ~~~pageMask)).toNat =
        ((userVa + len - 1) &&& ~~~pageMask).toNat - (userVa &&& ~~~pageMask).toNat := by
      rw [BitVec.toNat_sub_of_le]
      rw [BitVec.le_def, hfirst, hlastPage]
      omega
    obtain ⟨result, heq, hcase⟩ := usercopyValidatePages_spec space write m
      ((((userVa + len - 1) &&& ~~~pageMask) - (userVa &&& ~~~pageMask)).toNat / pageSize)
      (userVa &&& ~~~pageMask) (show _ = ((userVa + len - 1) &&& ~~~pageMask).toNat by
        rw [hfuel, hfirst, hlastPage, hsize]
        omega)
    refine ⟨result, heq, ?_⟩
    rcases hcase with ⟨hr, hall⟩ | ⟨hr, a, h1, h2, h3, hno⟩
    · refine ⟨.inl hr, iff_of_true hr (.inr ⟨hbase, htop, hclint, huart, fun b hb1 hb2 => ?_⟩)⟩
      exact hall b (by rw [hfirst]; omega) (by rw [hlastPage, hsize]; omega) (by rw [hfirst, hsize]; omega)
    · refine ⟨.inr hr, iff_of_false (by rw [hr]; decide) ?_⟩
      rintro (h0 | hlegal)
      · exact hlen h0
      · -- the page that is refused holds a byte of the range
        rw [hfirst] at h1 h3
        rw [hlastPage] at h2
        rw [hsize] at h3
        have hb : (BitVec.ofNat 64 (max userVa.toNat a.toNat) : U64).toNat = max userVa.toNat a.toNat := by
          rw [BitVec.toNat_ofNat, Nat.mod_eq_of_lt (by omega)]
        refine hno (SamePage.userAccess ?_ |>.mpr (hlegal.2.2.2.2 (BitVec.ofNat 64 (max userVa.toNat a.toNat)) ?_ ?_))
        · unfold SamePage pageSize
          rw [hb]
          omega
        · rw [hb]
          omega
        · rw [hb]
          omega
  · refine ⟨usercopyErrInvalid, ?_, .inr rfl, iff_of_false (by decide) ?_⟩
    · by_cases hwrap : userVa + len < userVa
      · rw [if_pos hwrap]
      · rw [if_neg hwrap]
        dsimp only
        rw [if_neg hlen, if_pos (by simpa using hvalid)]
    · rintro (h0 | hlegal)
      · exact hlen h0
      · exact hvalid ((userSpaceVaRangeIsValid_iff hlen).mpr ⟨hlegal.1, hlegal.2.1, hlegal.2.2.1, hlegal.2.2.2.1⟩)

end QemuRtos
