import QemuRtos.Memory.UsercopySpec
import QemuRtos.Lib.ByteMem

/-!
# Copies to and from a user task

The task-aware copies translate a range page by page. If the kernel's buffer, the user's frames and the page tables
lie apart, each byte of the range goes to or comes from the physical address that `vm_get_mapping` gives for it.
-/

namespace QemuRtos

open Lib

variable {m : Machine} {mem mem' : Mem} {sp : VmSpace} {va va' : U64} {level : Nat} {table : U64} {write : Bool}

/-! ### The bytes that a walk reads -/

def entryByte (table : U64) (i x : Nat) : Prop := (pteAddr table i).toNat ≤ x ∧ x < (pteAddr table i).toNat + 8

/-- Byte `x` is part of an entry that the walk for `va` looks at, from a table at a level. -/
def walkReads (mem : Mem) (va : U64) : Nat → U64 → Nat → Prop
  | 0, table, x => entryByte table (vpnIndex va 0) x
  | level + 1, table, x =>
    let entry := tableEntry mem table (vpnIndex va (level + 1))
    entryByte table (vpnIndex va (level + 1)) x ∨
      (pteIsValid entry && !pteIsLeaf entry) = true ∧ walkReads mem va level (pteToPa entry) x

/-- Byte `x` belongs to the page tables of a space. -/
def TableByte (m : Machine) (sp : VmSpace) (x : Nat) : Prop := ∃ va, walkReads m.mem va (sv39Levels - 1) sp.root x

theorem tableEntry_congr {i : Nat} (h : ∀ x, entryByte table i x → mem' x = mem x) :
    tableEntry mem' table i = tableEntry mem table i :=
  Mem.load64_congr fun x h1 h2 => h x ⟨h1, h2⟩

theorem walkReads_congr (level : Nat) (table : U64) (h : ∀ x, walkReads mem va level table x → mem' x = mem x) (x : Nat) :
    walkReads mem' va level table x ↔ walkReads mem va level table x := by
  induction level generalizing table with
  | zero => exact Iff.rfl
  | succ level ih =>
    have hentry : tableEntry mem' table (vpnIndex va (level + 1)) = tableEntry mem table (vpnIndex va (level + 1)) :=
      tableEntry_congr fun y hy => h y (.inl hy)
    rw [walkReads, walkReads, hentry]
    exact or_congr_right (and_congr_right fun hv => ih _ fun y hy => h y (.inr ⟨hv, hy⟩))

theorem walkReads_inPage {place : TablePlaces} {r : U64} {p : List Nat} {x : Nat} (h : TablesOk m place)
    (ht : place table = some (r, p)) (hx : walkReads m.mem va level table x) :
    ∃ t p', place t = some (r, p') ∧ InPage t x := by
  induction level generalizing table p with
  | zero => exact ⟨table, p, ht, pteAddr_inPage (h.aligned ht) (vpnIndex_lt va 0) hx.1 hx.2⟩
  | succ level ih =>
    have hi := vpnIndex_lt va (level + 1)
    rcases hx with hx | ⟨hv, hx⟩
    · exact ⟨table, p, ht, pteAddr_inPage (h.aligned ht) hi hx.1 hx.2⟩
    rw [Bool.and_eq_true_iff, Bool.not_eq_true'] at hv
    cases hcell : cellOf (tableEntry m.mem table (vpnIndex va (level + 1))) with
    | empty =>
      rw [cellOf_eq_empty.mp hcell] at hv
      cases hv.1
    | leaf v =>
      obtain ⟨-, hleaf, -⟩ := cellOf_eq_leaf.mp hcell
      rw [hleaf] at hv
      cases hv.2
    | table t =>
      have ht' := h.forest.child ht ((tableCells_of_lt hi).trans hcell)
      obtain ⟨-, -, hpa, -⟩ := (cellOf_eq_table (h.ne_zero ht')).mp hcell
      rw [hpa] at hx
      exact ih ht' hx

theorem Live.tableByte {place : TablePlaces} {x : Nat} (h : TablesOk m place) (hl : Live place sp) (hx : TableByte m sp x) :
    ∃ t p, place t = some (sp.root, p) ∧ InPage t x :=
  hx.elim fun _ hx => walkReads_inPage h hl hx

theorem vmWalkFrom_congr (level : Nat) (table : U64) (h : ∀ x, walkReads m.mem va level table x → mem' x = m.mem x) :
    ∃ a, vmWalkFrom va false level table [] m = .ok (a, m) ∧
      vmWalkFrom va false level table [] { m with mem := mem' } = .ok (a, { m with mem := mem' }) ∧
      (a ≠ 0 → mem'.load64 a.toNat = m.mem.load64 a.toNat) := by
  induction level generalizing table with
  | zero => exact ⟨_, rfl, rfl, fun _ => tableEntry_congr h⟩
  | succ level ih =>
    have hentry : tableEntry mem' table (vpnIndex va (level + 1)) = tableEntry m.mem table (vpnIndex va (level + 1)) :=
      tableEntry_congr fun y hy => h y (.inl hy)
    rw [vmWalkFrom, vmWalkFrom]
    dsimp only
    rw [show mem'.load64 (pteAddr table (vpnIndex va (level + 1))).toNat = _ from hentry,
      show m.mem.load64 (pteAddr table (vpnIndex va (level + 1))).toNat =
        tableEntry m.mem table (vpnIndex va (level + 1)) from rfl]
    by_cases hv : pteIsValid (tableEntry m.mem table (vpnIndex va (level + 1))) = true
    · by_cases hl : pteIsLeaf (tableEntry m.mem table (vpnIndex va (level + 1))) = true
      · simp only [if_pos hv, if_pos hl]
        exact ⟨0, rfl, rfl, fun hz => absurd rfl hz⟩
      · simp only [if_pos hv, if_neg hl]
        exact ih _ fun y hy => h y (.inr ⟨by simp [hv, hl], hy⟩)
    · simp only [if_neg hv, Bool.not_false, if_true]
      exact ⟨0, rfl, rfl, fun hz => absurd rfl hz⟩

theorem vmGetMapping_congr (m : Machine) (sp : VmSpace) (va : U64) :
    ∃ entry : Option U64, ∀ mem', (∀ x, TableByte m sp x → mem' x = m.mem x) → ∀ va', SamePage va' va →
      vmGetMapping (some sp) va' { m with mem := mem' } = .ok
        (match entry with
          | none => (vmErrNotMapped, none, { m with mem := mem' })
          | some pte => (vmOk, some (pteToPa pte ||| pageOffset va', pte &&& sv39PteFlagMask), { m with mem := mem' })) := by
  obtain ⟨entry, he⟩ := vmGetMapping_lookup sp va m
  refine ⟨entry, fun mem' h va' hva => ?_⟩
  have hm := he va' hva
  have hwalk : ∃ a, vmWalk (some sp) va' false { m with sie := false } = .ok (a, { m with sie := false }) ∧
      vmWalk (some sp) va' false { m with sie := false, mem := mem' } = .ok (a, { m with sie := false, mem := mem' }) ∧
      (a ≠ 0 → mem'.load64 a.toNat = m.mem.load64 a.toNat) := by
    by_cases hc : sp.root = 0 ∨ (!vaIsCanonical va') = true
    · refine ⟨0, ?_, ?_, fun hz => absurd rfl hz⟩ <;>
      · unfold vmWalk
        dsimp only
        rw [if_pos hc]
    · have hread : ∀ x, walkReads m.mem va' (sv39Levels - 1) sp.root x → mem' x = m.mem x := fun x hx => h x ⟨va', hx⟩
      obtain ⟨a, h₁, h₂, h₃⟩ := vmWalkFrom_congr (m := { m with sie := false }) (sv39Levels - 1) sp.root hread
      refine ⟨a, ?_, ?_, h₃⟩
      · unfold vmWalk
        dsimp only
        rw [if_neg hc, h₁]
      · unfold vmWalk
        dsimp only
        rw [if_neg hc, h₂]
  obtain ⟨a, h₁, h₂, h₃⟩ := hwalk
  unfold vmGetMapping at hm ⊢
  dsimp only [irqSave] at hm ⊢
  rw [h₁, ok_bind] at hm
  rw [h₂, ok_bind]
  dsimp only at hm ⊢
  by_cases hz : a = 0
  · rw [if_pos (.inl hz)] at hm ⊢
    cases entry with
    | none => rfl
    | some pte =>
      have : vmErrNotMapped = vmOk := congrArg Prod.fst (Except.ok.inj hm)
      exact absurd this (by decide)
  · rw [h₃ hz]
    split at hm
    next hc =>
      rw [if_pos hc]
      cases entry with
      | none => rfl
      | some pte =>
        have : vmErrNotMapped = vmOk := congrArg Prod.fst (Except.ok.inj hm)
        exact absurd this (by decide)
    next hc =>
      rw [if_neg hc]
      cases entry with
      | none =>
        have : vmOk = vmErrNotMapped := congrArg Prod.fst (Except.ok.inj hm)
        exact absurd this (by decide)
      | some pte =>
        have := congrArg (fun y => y.2.1) (Except.ok.inj hm)
        dsimp only at this
        rw [this]
        rfl

/-! ### The bytes of a user range -/

theorem physical_toNat (pte va : U64) : (pteToPa pte ||| pageOffset va).toNat = (pteToPa pte).toNat + va.toNat % pageSize ∧
    (pteToPa pte).toNat % pageSize = 0 := by
  have hpa : (pteToPa pte).toNat = 2 ^ 12 * (pte.toNat / 1024 % 2 ^ 52) := by
    rw [pteToPa_toNat]
    omega
  have hoff : (pageOffset va).toNat = va.toNat % pageSize := toNat_pageMask va
  have hlt : va.toNat % pageSize < 2 ^ 12 := Nat.mod_lt _ (by decide)
  rw [BitVec.toNat_or, hoff, hpa, ← Nat.two_pow_add_eq_or_of_lt hlt]
  exact ⟨rfl, Nat.mul_mod_right _ _⟩

/-- The physical address of a user byte, as `vm_get_mapping` gives it. -/
def userAddr (m : Machine) (sp : VmSpace) (va : U64) : Nat :=
  match vmGetMapping (some sp) va m with
  | .ok (_, some (pa, _), _) => pa.toNat
  | _ => 0

/-- Address of byte `i` of a user range. -/
abbrev userByte (m : Machine) (sp : VmSpace) (userVa : U64) (i : Nat) : Nat := userAddr m sp (userVa + BitVec.ofNat 64 i)

/-- Distinct pages of the user range have distinct frames, none with a page table in it, and the kernel's buffer is in
none of these frames and none of the tables. -/
structure CopyApart (m : Machine) (sp : VmSpace) (kernelPtr userVa : U64) (len : Nat) : Prop where
  frames : ∀ i < len, ∀ j < len, ¬SamePage (userVa + BitVec.ofNat 64 i) (userVa + BitVec.ofNat 64 j) →
    userByte m sp userVa i / pageSize ≠ userByte m sp userVa j / pageSize
  tables : ∀ i < len, ∀ x, TableByte m sp x → x / pageSize ≠ userByte m sp userVa i / pageSize
  buffer_tables : ∀ i < len, ¬TableByte m sp (kernelPtr.toNat + i)
  buffer_frames : ∀ i < len, ∀ j < len, (kernelPtr.toNat + i) / pageSize ≠ userByte m sp userVa j / pageSize

variable {kernelPtr userVa : U64} {len copied chunk : Nat}

theorem userByte_eq {entry : U64} (h : ∀ va', SamePage va' va → vmGetMapping (some sp) va' m =
      .ok (vmOk, some (pteToPa entry ||| pageOffset va', entry &&& sv39PteFlagMask), m)) (hva : SamePage va' va) :
    userAddr m sp va' = (pteToPa entry).toNat + va'.toNat % pageSize := by
  rw [userAddr, h va' hva]
  exact (physical_toNat entry va').1

/-- Byte `i` of the range is in a page that has a frame. -/
def Backed (m : Machine) (sp : VmSpace) (userVa : U64) (len : Nat) : Prop :=
  ∀ i < len, ∃ pa flags, vmGetMapping (some sp) (userVa + BitVec.ofNat 64 i) m = .ok (vmOk, some (pa, flags), m)

theorem Backed.entry (h : Backed m sp userVa len) {i : Nat} (hi : i < len) :
    ∃ entry : U64, ∀ mem', (∀ x, TableByte m sp x → mem' x = m.mem x) → ∀ va',
      SamePage va' (userVa + BitVec.ofNat 64 i) → vmGetMapping (some sp) va' { m with mem := mem' } =
        .ok (vmOk, some (pteToPa entry ||| pageOffset va', entry &&& sv39PteFlagMask), { m with mem := mem' }) := by
  obtain ⟨entry, he⟩ := vmGetMapping_congr m sp (userVa + BitVec.ofNat 64 i)
  obtain ⟨pa, flags, hget⟩ := h i hi
  have hm := he m.mem (fun _ _ => rfl) _ rfl
  rw [show ({ m with mem := m.mem } : Machine) = m from rfl, hget] at hm
  cases entry with
  | none =>
    have : vmOk = vmErrNotMapped := congrArg Prod.fst (Except.ok.inj hm)
    exact absurd this (by decide)
  | some pte => exact ⟨pte, he⟩

theorem userVa_toNat (hfit : userVa.toNat + len ≤ 2 ^ 64) {i : Nat} (hi : i < len) :
    (userVa + BitVec.ofNat 64 i).toNat = userVa.toNat + i := by
  rw [BitVec.toNat_add, BitVec.toNat_ofNat]
  omega

theorem userByte_injective (h : Backed m sp userVa len) (ha : CopyApart m sp kernelPtr userVa len)
    (hfit : userVa.toNat + len ≤ 2 ^ 64) {i j : Nat} (hi : i < len) (hj : j < len)
    (he : userByte m sp userVa i = userByte m sp userVa j) : i = j := by
  by_cases hpage : SamePage (userVa + BitVec.ofNat 64 i) (userVa + BitVec.ofNat 64 j)
  · obtain ⟨entry, hentry⟩ := h.entry hj
    have hget := hentry m.mem fun _ _ => rfl
    rw [userByte, userByte, userByte_eq hget hpage, userByte_eq hget rfl, userVa_toNat hfit hi, userVa_toNat hfit hj] at he
    rw [SamePage, userVa_toNat hfit hi, userVa_toNat hfit hj] at hpage
    simp only [pageSize] at he hpage
    omega
  · exact absurd (congrArg (· / pageSize) he) (ha.frames i hi j hj hpage)

/-! ### The copy loop -/

/-- Where the bytes of a copy go, and where they come from. -/
def copyDst (m : Machine) (sp : VmSpace) (kernelPtr userVa : U64) (write : Bool) (i : Nat) : Nat :=
  if write then userByte m sp userVa i else kernelPtr.toNat + i

def copySrc (m : Machine) (sp : VmSpace) (kernelPtr userVa : U64) (write : Bool) (i : Nat) : Nat :=
  if write then kernelPtr.toNat + i else userByte m sp userVa i

theorem CopyApart.apart (ha : CopyApart m sp kernelPtr userVa len) {i j : Nat} (hi : i < len) (hj : j < len) :
    copySrc m sp kernelPtr userVa write i ≠ copyDst m sp kernelPtr userVa write j := by
  cases write with
  | false => exact fun he => ha.buffer_frames j hj i hi (congrArg (· / pageSize) he.symm)
  | true => exact fun he => ha.buffer_frames i hi j hj (congrArg (· / pageSize) he)

theorem CopyApart.dst_injective (ha : CopyApart m sp kernelPtr userVa len) (h : Backed m sp userVa len)
    (hfit : userVa.toNat + len ≤ 2 ^ 64) {i j : Nat} (hi : i < len) (hj : j < len)
    (he : copyDst m sp kernelPtr userVa write i = copyDst m sp kernelPtr userVa write j) : i = j := by
  cases write with
  | false => exact Nat.add_left_cancel he
  | true => exact userByte_injective h ha hfit hi hj he

theorem CopyApart.dst_not_table (ha : CopyApart m sp kernelPtr userVa len) {i x : Nat} (hi : i < len) (hx : TableByte m sp x) :
    x ≠ copyDst m sp kernelPtr userVa write i := by
  cases write with
  | false =>
    rintro rfl
    exact ha.buffer_tables i hi hx
  | true =>
    rintro rfl
    exact ha.tables i hi _ hx rfl

theorem copyChunk_copied {dst src : Nat → Nat} {d s n N : Nat} (hd : ∀ j < chunk, dst (n + j) = d + j)
    (hs : ∀ j < chunk, src (n + j) = s + j) (hinj : ∀ i < N, ∀ j < N, dst i = dst j → i = j)
    (hapart : ∀ i < N, ∀ j < N, src i ≠ dst j) (hN : n + chunk ≤ N) (h : Mem.Copied dst src n mem mem') :
    Mem.Copied dst src (n + chunk) mem (copyChunk d s chunk mem') := by
  induction chunk with
  | zero => exact h
  | succ chunk ih =>
    have ih := ih (fun j hj => hd j (by omega)) (fun j hj => hs j (by omega)) (by omega)
    have := ih.succ (fun i hi he => absurd (hinj i (by omega) _ (by omega) he) (by omega))
      fun i hi => hapart _ (by omega) i (by omega)
    rw [hd chunk (by omega), hs chunk (by omega)] at this
    rw [copyChunk, List.range_succ, List.foldl_append]
    exact this

/-- From any point of the range, the loop copies the rest. -/
theorem copyUserTaskLoop_spec (hb : Backed m sp userVa len) (ha : CopyApart m sp kernelPtr userVa len)
    (hfit : userVa.toNat + len ≤ 2 ^ 64) (hcopied : copied ≤ len)
    (h : Mem.Copied (copyDst m sp kernelPtr userVa write) (copySrc m sp kernelPtr userVa write) copied m.mem mem) :
    ∃ mem', copyUserTaskLoop sp kernelPtr userVa len write copied { m with mem := mem } =
        .ok (usercopyOk, { m with mem := mem' }) ∧
      Mem.Copied (copyDst m sp kernelPtr userVa write) (copySrc m sp kernelPtr userVa write) len m.mem mem' := by
  induction hn : len - copied using Nat.strong_induction_on generalizing copied mem with
  | _ n ih =>
    subst hn
    by_cases hlt : copied < len
    · have htables : ∀ x, TableByte m sp x → mem x = m.mem x := fun x hx =>
        h.kept x fun i hi => ha.dst_not_table (by omega) hx
      obtain ⟨entry, hentry⟩ := hb.entry hlt
      have hget := hentry mem htables _ rfl
      have hcur := userVa_toNat hfit hlt
      have hmask : ((userVa + BitVec.ofNat 64 copied) &&& pageMask).toNat = (userVa.toNat + copied) % pageSize := by
        rw [toNat_pageMask, hcur]
      obtain ⟨hpa, halign⟩ := physical_toNat entry (userVa + BitVec.ofNat 64 copied)
      rw [hcur] at hpa
      have hoff := Nat.mod_lt (userVa.toNat + copied) (show 0 < pageSize by decide)
      let chunk := min (len - copied) (pageSize - (userVa.toNat + copied) % pageSize)
      have hchunk : 0 < chunk ∧ copied + chunk ≤ len := by
        dsimp only [chunk]
        omega
      -- the bytes up to the end of the page are in one frame
      have huser : ∀ j < chunk, userByte m sp userVa (copied + j) =
          (pteToPa entry ||| pageOffset (userVa + BitVec.ofNat 64 copied)).toNat + j := by
        intro j hj
        have hj' : copied + j < len ∧ j < pageSize - (userVa.toNat + copied) % pageSize := by
          dsimp only [chunk] at hj
          omega
        have hva := userVa_toNat hfit hj'.1
        have hpage : SamePage (userVa + BitVec.ofNat 64 (copied + j)) (userVa + BitVec.ofNat 64 copied) := by
          rw [SamePage, hva, hcur]
          simp only [pageSize] at hj' ⊢
          omega
        rw [userByte, userByte_eq (hentry m.mem fun _ _ => rfl) hpage, hva, hpa]
        simp only [pageSize] at hj' ⊢
        omega
      have hinj : ∀ i < len, ∀ j < len, copyDst m sp kernelPtr userVa write i = copyDst m sp kernelPtr userVa write j → i = j :=
        fun i hi j hj => ha.dst_injective hb hfit hi hj
      have hapart : ∀ i < len, ∀ j < len, copySrc m sp kernelPtr userVa write i ≠ copyDst m sp kernelPtr userVa write j :=
        fun i hi j hj => ha.apart hi hj
      have hnext : Mem.Copied (copyDst m sp kernelPtr userVa write) (copySrc m sp kernelPtr userVa write) (copied + chunk) m.mem
          (if write then
            copyChunk (pteToPa entry ||| pageOffset (userVa + BitVec.ofNat 64 copied)).toNat (kernelPtr.toNat + copied) chunk mem
          else
            copyChunk (kernelPtr.toNat + copied) (pteToPa entry ||| pageOffset (userVa + BitVec.ofNat 64 copied)).toNat chunk
              mem) := by
        cases write with
        | false => exact copyChunk_copied (fun j _ => (Nat.add_assoc ..).symm) huser hinj hapart hchunk.2 h
        | true => exact copyChunk_copied huser (fun j _ => (Nat.add_assoc ..).symm) hinj hapart hchunk.2 h
      obtain ⟨mem', hrun, hdone⟩ := ih (len - (copied + chunk)) (by omega) hchunk.2 hnext rfl
      refine ⟨mem', ?_, hdone⟩
      rw [copyUserTaskLoop, if_pos hlt]
      dsimp only
      rw [hget, ok_bind]
      dsimp only [Option.getD_some]
      rw [if_neg (not_not_intro rfl), hmask]
      exact hrun
    · obtain rfl : copied = len := by omega
      refine ⟨mem, ?_, h⟩
      rw [copyUserTaskLoop, if_neg hlt]

end QemuRtos
