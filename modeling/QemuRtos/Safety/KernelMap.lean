import QemuRtos.Memory.PagingSpec

/-!
# The kernel runs under an identity map

The ranges that `paging_init_kernel` maps are apart from each other under the linker script's layout, aligned outwards
as they are, and below the trampoline page. So every call maps a page of its own, and what is mapped at the end is read
off the layout.
-/

namespace QemuRtos

open Lib

/-! ### Ranges -/

structure KernelRange where
  start : U64
  stop : U64
  flags : U64

namespace KernelRange

/-- The first address of the range's pages. -/
def first (r : KernelRange) : Nat := (alignDown r.start (BitVec.ofNat 64 pageSize)).toNat

/-- The address behind the range's pages. -/
def last (r : KernelRange) : Nat := (alignUp r.stop (BitVec.ofNat 64 pageSize)).toNat

def pages (r : KernelRange) : List PageMapping := rangePages r.start r.stop r.flags

def Apart (r s : KernelRange) : Prop := r.last ≤ s.first ∨ s.last ≤ r.first

theorem first_eq (r : KernelRange) : r.first = r.start.toNat / pageSize * pageSize := pageAlignDown_toNat _

theorem last_eq (r : KernelRange) : r.last = (r.stop.toNat + (pageSize - 1)) % 2 ^ 64 / pageSize * pageSize :=
  pageAlignUp_toNat _

theorem mem_pages {r : KernelRange} {x : PageMapping} : x ∈ r.pages ↔
    x.pa = x.va ∧ x.flags = r.flags ∧ x.va.toNat % pageSize = 0 ∧ r.first ≤ x.va.toNat ∧ x.va.toNat < r.last := by
  have hfirst := r.first_eq
  have hlast := r.last_eq
  have hlt : r.last < 2 ^ 64 := (alignUp r.stop (BitVec.ofNat 64 pageSize)).isLt
  have haddr : ∀ i, i < (r.last - r.first) / pageSize →
      (alignDown r.start (BitVec.ofNat 64 pageSize) + BitVec.ofNat 64 (i * pageSize)).toNat = r.first + i * pageSize := by
    intro i hi
    rw [BitVec.toNat_add, BitVec.toNat_ofNat, Nat.add_mod_mod]
    exact Nat.mod_eq_of_lt (by unfold pageSize at *; change r.first + _ < _; omega)
  unfold pageSize at hfirst hlast
  simp only [pages, rangePages, List.mem_map, List.mem_range]
  constructor
  · rintro ⟨i, hi, rfl⟩
    have ha := haddr i hi
    change i < (r.last - r.first) / pageSize at hi
    dsimp only
    rw [ha]
    unfold pageSize at *
    refine ⟨rfl, rfl, ?_, ?_, ?_⟩ <;> omega
  · rintro ⟨hpa, hflags, halign, h1, h2⟩
    refine ⟨(x.va.toNat - r.first) / pageSize, ?_, ?_⟩
    · change _ < (r.last - r.first) / pageSize
      unfold pageSize at *
      omega
    · have ha := haddr ((x.va.toNat - r.first) / pageSize) (by unfold pageSize at *; omega)
      have hva : alignDown r.start (BitVec.ofNat 64 pageSize) +
          BitVec.ofNat 64 ((x.va.toNat - r.first) / pageSize * pageSize) = x.va := by
        apply BitVec.eq_of_toNat_eq
        rw [ha]
        unfold pageSize at *
        omega
      obtain ⟨va, pa, flags⟩ := x
      dsimp only at hpa hflags hva
      rw [hva, hpa, hflags]

theorem pages_apart (r : KernelRange) : r.pages.Pairwise fun x y => ¬SamePage x.va y.va := by
  have hfirst := r.first_eq
  have hlast := r.last_eq
  have hlt : r.last < 2 ^ 64 := (alignUp r.stop (BitVec.ofNat 64 pageSize)).isLt
  unfold pages rangePages
  rw [List.pairwise_map, List.pairwise_iff_getElem]
  intro i j hi hj hij
  rw [List.length_range] at hi hj
  change _ < (r.last - r.first) / pageSize at hi
  change _ < (r.last - r.first) / pageSize at hj
  rw [List.getElem_range, List.getElem_range]
  dsimp only
  unfold SamePage
  rw [BitVec.toNat_add, BitVec.toNat_add, BitVec.toNat_ofNat, BitVec.toNat_ofNat, Nat.add_mod_mod, Nat.add_mod_mod]
  change ¬(r.first + i * pageSize) % 2 ^ 64 / pageSize = (r.first + j * pageSize) % 2 ^ 64 / pageSize
  unfold pageSize at *
  rw [Nat.mod_eq_of_lt (by omega), Nat.mod_eq_of_lt (by omega)]
  omega

theorem Apart.pages {r s : KernelRange} (h : r.Apart s) : ∀ x ∈ r.pages, ∀ y ∈ s.pages, ¬SamePage x.va y.va := by
  intro x hx y hy hsame
  obtain ⟨-, -, hx, hx₁, hx₂⟩ := mem_pages.mp hx
  obtain ⟨-, -, hy, hy₁, hy₂⟩ := mem_pages.mp hy
  unfold Apart at h
  unfold SamePage pageSize at *
  omega

end KernelRange

/-! ### The kernel's pages -/

namespace LinkerSymbols

variable (sym : LinkerSymbols)

/-- The ranges in the order of the source. The managed pages start behind the kernel. -/
def ranges : List KernelRange :=
  [⟨sym.textStart, sym.textEnd, textFlags⟩, ⟨sym.rodataStart, sym.rodataEnd, roFlags⟩,
    ⟨sym.dataStart, sym.kernelEnd, rwFlags⟩, ⟨alignUp sym.kernelEnd (BitVec.ofNat 64 pageSize), sym.ramEnd, rwFlags⟩,
    ⟨uart0Base, uart0Base + BitVec.ofNat 64 pageSize, rwFlags⟩,
    ⟨clintMmioBase, clintMmioBase + clintMmioSize, rwFlags⟩]

def trampoline : PageMapping := ⟨userTrampolineVa, sym.trampolineStart, textFlags⟩

/-- The calls of `vm_map_page`. -/
def pages : List PageMapping := sym.ranges.flatMap KernelRange.pages ++ [sym.trampoline]

theorem ranges_apart : sym.ranges.Pairwise KernelRange.Apart := by
  have hbelow : sym.ramEnd.toNat ≤ 0x3ffffff000 := sym.ram_below
  have huart : 0x10001000 ≤ sym.textStart.toNat ∨ sym.ramEnd.toNat ≤ 0x10000000 := sym.uart_apart
  have hclint : 0x2010000 ≤ sym.textStart.toNat ∨ sym.ramEnd.toNat ≤ 0x2000000 := sym.clint_apart
  have huart₁ : uart0Base.toNat = 0x10000000 := rfl
  have huart₂ : (uart0Base + BitVec.ofNat 64 pageSize).toNat = 0x10001000 := rfl
  have hclint₁ : clintMmioBase.toNat = 0x2000000 := rfl
  have hclint₂ : (clintMmioBase + clintMmioSize).toNat = 0x2010000 := rfl
  have htext := sym.text_align
  have hrodata := sym.rodata_align
  have hdata := sym.data_align
  have hram := sym.ram_align
  have h1 := sym.text_le_trampoline
  have h2 := sym.trampoline_page
  have h3 := sym.trampoline_le_text
  have h4 := sym.text_le_rodata
  have h5 := sym.rodata_le_end
  have h6 := sym.rodata_le_data
  have h7 := sym.data_le_end
  have h8 := sym.kernel_le_ram
  simp only [ranges, List.pairwise_cons, List.mem_cons, List.not_mem_nil, or_false, forall_eq_or_imp, forall_eq,
    IsEmpty.forall_iff, implies_true, List.Pairwise.nil, and_true, and_assoc, KernelRange.Apart, KernelRange.first_eq,
    KernelRange.last_eq, pageAlignUp_toNat, huart₁, huart₂, hclint₁, hclint₂]
  clear huart₁ huart₂ hclint₁ hclint₂
  unfold pageSize at *
  refine ⟨?_, ?_, ?_, ?_, ?_, ?_, ?_, ?_, ?_, ?_, ?_, ?_, ?_, ?_, ?_⟩ <;> omega

theorem ranges_below : ∀ r ∈ sym.ranges, r.last ≤ userTrampolineVa.toNat ∧ flagsAreValid r.flags = true := by
  have hbelow : sym.ramEnd.toNat ≤ 0x3ffffff000 := sym.ram_below
  have huart₂ : (uart0Base + BitVec.ofNat 64 pageSize).toNat = 0x10001000 := rfl
  have hclint₂ : (clintMmioBase + clintMmioSize).toNat = 0x2010000 := rfl
  have hva : userTrampolineVa.toNat = 0x3ffffff000 := rfl
  have hrodata := sym.rodata_align
  have hdata := sym.data_align
  have h4 := sym.text_le_rodata
  have h5 := sym.rodata_le_end
  have h6 := sym.rodata_le_data
  have h7 := sym.data_le_end
  have h8 := sym.kernel_le_ram
  simp only [ranges, List.mem_cons, List.not_mem_nil, or_false, forall_eq_or_imp, forall_eq, KernelRange.last_eq, huart₂,
    hclint₂, hva]
  clear huart₂ hclint₂ hva
  unfold pageSize at *
  refine ⟨⟨?_, by decide⟩, ⟨?_, by decide⟩, ⟨?_, by decide⟩, ⟨?_, by decide⟩, ⟨?_, by decide⟩, ?_, by decide⟩ <;> omega

theorem mem_pages {x : PageMapping} :
    x ∈ sym.pages ↔ (∃ r ∈ sym.ranges, x ∈ r.pages) ∨ x = sym.trampoline := by
  simp only [pages, List.mem_append, List.mem_flatMap, List.mem_singleton]

theorem pages_mappable {free : Nat} (hfree : (pageTables sym.pages).card ≤ free) : Mappable free sym.pages where
  apart := by
    refine List.pairwise_append.mpr ⟨List.pairwise_flatMap.mpr ⟨fun r _ => r.pages_apart,
      sym.ranges_apart.imp fun h => h.pages⟩, List.pairwise_singleton _ _, fun x hx y hy hsame => ?_⟩
    obtain ⟨r, hr, hx⟩ := List.mem_flatMap.mp hx
    obtain ⟨-, -, halign, -, hlt⟩ := KernelRange.mem_pages.mp hx
    rw [List.mem_singleton.mp hy] at hsame
    have hbelow := (sym.ranges_below r hr).1
    have hva : userTrampolineVa.toNat = 0x3ffffff000 := rfl
    change x.va.toNat / pageSize = userTrampolineVa.toNat / pageSize at hsame
    rw [hva] at hsame hbelow
    unfold pageSize at *
    omega
  args x hx := by
    obtain ⟨r, hr, hx⟩ | rfl := sym.mem_pages.mp hx
    · obtain ⟨hpa, hflags, halign, -, hlt⟩ := KernelRange.mem_pages.mp hx
      obtain ⟨hbelow, hvalid⟩ := sym.ranges_below r hr
      have hva : userTrampolineVa.toNat = 0x3ffffff000 := rfl
      rw [hpa, hflags]
      exact ⟨vaIsCanonical_iff.mpr (.inl (by omega)), pageAligned_iff.mpr halign, pageAligned_iff.mpr halign, hvalid⟩
    · exact ⟨show vaIsCanonical userTrampolineVa = true by decide, show pageAligned userTrampolineVa = true by decide,
        pageAligned_iff.mpr sym.trampoline_align, show flagsAreValid textFlags = true by decide⟩
  frames := hfree

/-! ### The map -/

/-- The pages of a region of the layout, which starts on a page. -/
def InPages (start stop va : U64) : Prop :=
  start.toNat ≤ va.toNat ∧ va.toNat < (stop.toNat + (pageSize - 1)) / pageSize * pageSize

instance (start stop va : U64) : Decidable (InPages start stop va) := inferInstanceAs (Decidable (_ ∧ _))

/-- The map the kernel means to run under: where an address goes and with which flags. -/
def kernelMap (va : U64) : Option (U64 × U64) :=
  if InPages sym.textStart sym.textEnd va then some (va, textFlags)
  else if InPages sym.rodataStart sym.rodataEnd va then some (va, roFlags)
  else if InPages sym.dataStart sym.ramEnd va then some (va, rwFlags)
  else if InPages uart0Base (uart0Base + BitVec.ofNat 64 pageSize) va then some (va, rwFlags)
  else if InPages clintMmioBase (clintMmioBase + clintMmioSize) va then some (va, rwFlags)
  else if SamePage va userTrampolineVa then some (sym.trampolineStart ||| pageOffset va, textFlags)
  else none

theorem page_or_offset (va : U64) : alignDown va (BitVec.ofNat 64 pageSize) ||| pageOffset va = va := by
  rw [alignDown, pageOffset, ← BitVec.and_or_distrib_left,
    show ~~~(BitVec.ofNat 64 pageSize - 1) ||| vmPageOffsetMask = BitVec.allOnes 64 by decide, BitVec.and_allOnes]

theorem lookup_range {r : KernelRange} (hr : r ∈ sym.ranges) {va : U64} (h1 : r.first ≤ va.toNat)
    (h2 : va.toNat < r.last) : (lookupPage sym.pages va).map (fun x => (x.pa ||| pageOffset va, x.flags)) =
      some (va, r.flags) := by
  have hpage := pageAlignDown_toNat va
  have hfirst := r.first_eq
  have hlast := r.last_eq
  let x : PageMapping := ⟨alignDown va (BitVec.ofNat 64 pageSize), alignDown va (BitVec.ofNat 64 pageSize), r.flags⟩
  have hx : x ∈ r.pages := by
    refine KernelRange.mem_pages.mpr ⟨rfl, rfl, ?_, ?_, ?_⟩ <;>
    · change _ = _ at hpage
      show _
      dsimp only [x]
      rw [hpage]
      unfold pageSize at *
      omega
  have hsame : SamePage va x.va := by
    show va.toNat / pageSize = (alignDown va _).toNat / pageSize
    rw [hpage]
    unfold pageSize
    omega
  rw [(sym.pages_mappable (le_refl _)).lookup_of_mem (sym.mem_pages.mpr (.inl ⟨r, hr, hx⟩)) hsame]
  show some (x.pa ||| pageOffset va, r.flags) = _
  rw [show x.pa ||| pageOffset va = va from page_or_offset va]

theorem lookup_trampoline {va : U64} (h : SamePage va userTrampolineVa) :
    (lookupPage sym.pages va).map (fun x => (x.pa ||| pageOffset va, x.flags)) =
      some (sym.trampolineStart ||| pageOffset va, textFlags) := by
  rw [(sym.pages_mappable (le_refl _)).lookup_of_mem (sym.mem_pages.mpr (.inr rfl)) h]
  rfl

theorem lookup_none {va : U64} (hranges : ∀ r ∈ sym.ranges, ¬(r.first ≤ va.toNat ∧ va.toNat < r.last))
    (h : ¬SamePage va userTrampolineVa) : lookupPage sym.pages va = none := by
  unfold lookupPage
  rw [List.find?_eq_none]
  intro x hx hsame
  have hsame : SamePage va x.va := of_decide_eq_true hsame
  obtain ⟨r, hr, hx⟩ | rfl := sym.mem_pages.mp hx
  · obtain ⟨-, -, halign, h1, h2⟩ := KernelRange.mem_pages.mp hx
    have hfirst := r.first_eq
    have hlast := r.last_eq
    refine hranges r hr ?_
    unfold SamePage pageSize at *
    omega
  · exact h hsame

/-- The calls of `vm_map_page` map what the kernel means to run under. -/
theorem lookup_pages (va : U64) :
    (lookupPage sym.pages va).map (fun x => (x.pa ||| pageOffset va, x.flags)) = sym.kernelMap va := by
  have hbelow : sym.ramEnd.toNat ≤ 0x3ffffff000 := sym.ram_below
  have huart₁ : uart0Base.toNat = 0x10000000 := rfl
  have huart₂ : (uart0Base + BitVec.ofNat 64 pageSize).toNat = 0x10001000 := rfl
  have hclint₁ : clintMmioBase.toNat = 0x2000000 := rfl
  have hclint₂ : (clintMmioBase + clintMmioSize).toNat = 0x2010000 := rfl
  have htext := sym.text_align
  have hrodata := sym.rodata_align
  have hdata := sym.data_align
  have hram := sym.ram_align
  have h4 := sym.text_le_rodata
  have h5 := sym.rodata_le_end
  have h6 := sym.rodata_le_data
  have h7 := sym.data_le_end
  have h8 := sym.kernel_le_ram
  have hmanaged := pageAlignUp_toNat sym.kernelEnd
  have hrange : ∀ r ∈ sym.ranges, r.start.toNat / pageSize * pageSize ≤ va.toNat ∧
      va.toNat < (r.stop.toNat + (pageSize - 1)) % 2 ^ 64 / pageSize * pageSize →
      (lookupPage sym.pages va).map (fun x => (x.pa ||| pageOffset va, x.flags)) = some (va, r.flags) := by
    intro r hr h
    exact sym.lookup_range hr (by rw [r.first_eq]; exact h.1) (by rw [r.last_eq]; exact h.2)
  simp only [ranges, List.mem_cons, List.not_mem_nil, or_false, forall_eq_or_imp, forall_eq, huart₁, huart₂, hclint₁,
    hclint₂, hmanaged] at hrange
  obtain ⟨hr1, hr2, hr3, hr4, hr5, hr6⟩ := hrange
  have huart : InPages uart0Base (uart0Base + BitVec.ofNat 64 pageSize) va ↔
      0x10000000 ≤ va.toNat ∧ va.toNat < (0x10001000 + (pageSize - 1)) / pageSize * pageSize := by
    rw [InPages, huart₁, huart₂]
  have hclint : InPages clintMmioBase (clintMmioBase + clintMmioSize) va ↔
      0x2000000 ≤ va.toNat ∧ va.toNat < (0x2010000 + (pageSize - 1)) / pageSize * pageSize := by
    rw [InPages, hclint₁, hclint₂]
  have hranges : ∀ r ∈ sym.ranges, r.first ≤ va.toNat ∧ va.toNat < r.last →
      InPages sym.textStart sym.textEnd va ∨ InPages sym.rodataStart sym.rodataEnd va ∨
        InPages sym.dataStart sym.ramEnd va ∨ InPages uart0Base (uart0Base + BitVec.ofNat 64 pageSize) va ∨
        InPages clintMmioBase (clintMmioBase + clintMmioSize) va := by
    rw [huart, hclint]
    simp only [ranges, List.mem_cons, List.not_mem_nil, or_false, forall_eq_or_imp, forall_eq, KernelRange.first_eq,
      KernelRange.last_eq, huart₁, huart₂, hclint₁, hclint₂, hmanaged]
    clear hr1 hr2 hr3 hr4 hr5 hr6 huart₁ huart₂ hclint₁ hclint₂ hmanaged huart hclint
    unfold InPages pageSize at *
    refine ⟨?_, ?_, ?_, ?_, ?_, ?_⟩ <;> omega
  unfold kernelMap
  by_cases c1 : InPages sym.textStart sym.textEnd va
  · rw [if_pos c1]
    exact hr1 (by unfold InPages pageSize at *; omega)
  rw [if_neg c1]
  by_cases c2 : InPages sym.rodataStart sym.rodataEnd va
  · rw [if_pos c2]
    exact hr2 (by unfold InPages pageSize at *; omega)
  rw [if_neg c2]
  by_cases c3 : InPages sym.dataStart sym.ramEnd va
  · -- The data section and the managed pages are two ranges that meet at the end of the kernel.
    rw [if_pos c3]
    by_cases hend : va.toNat < (sym.kernelEnd.toNat + (pageSize - 1)) / pageSize * pageSize
    · exact hr3 (by unfold InPages pageSize at *; omega)
    · exact hr4 (by unfold InPages pageSize at *; omega)
  rw [if_neg c3]
  by_cases c4 : InPages uart0Base (uart0Base + BitVec.ofNat 64 pageSize) va
  · rw [if_pos c4]
    have := huart.mp c4
    exact hr5 (by unfold pageSize at *; omega)
  rw [if_neg c4]
  by_cases c5 : InPages clintMmioBase (clintMmioBase + clintMmioSize) va
  · rw [if_pos c5]
    have := hclint.mp c5
    exact hr6 (by unfold pageSize at *; omega)
  rw [if_neg c5]
  by_cases c6 : SamePage va userTrampolineVa
  · rw [if_pos c6]
    exact sym.lookup_trampoline c6
  · rw [if_neg c6, sym.lookup_none (fun r hr hin => ?_) c6]
    · rfl
    · rcases hranges r hr hin with h | h | h | h | h
      · exact c1 h
      · exact c2 h
      · exact c3 h
      · exact c4 h
      · exact c5 h

/-- No page is writable and executable, and none is the user's. -/
theorem kernelMap_flags {va pa flags : U64} (h : sym.kernelMap va = some (pa, flags)) :
    (flags &&& vmPteW = 0 ∨ flags &&& vmPteX = 0) ∧ flags &&& vmPteU = 0 := by
  have hflags : flags = textFlags ∨ flags = roFlags ∨ flags = rwFlags := by
    unfold kernelMap at h
    grind
  obtain rfl | rfl | rfl := hflags <;> decide

/-- `page_init(__kernel_end, __ram_end)` is done. -/
structure PageInitDone (m : Machine) : Prop where
  ok : PagesOk m.pages
  start : m.pages.managedStart = alignUp sym.kernelEnd (BitVec.ofNat 64 pageSize)

theorem pageInit_done {m m' : Machine} (h : pageInit sym.kernelEnd sym.ramEnd m = .ok m') : sym.PageInitDone m' := by
  have hpos : 0 < (alignUp sym.kernelEnd (BitVec.ofNat 64 pageSize)).toNat := by
    have hbelow : sym.ramEnd.toNat ≤ 0x3ffffff000 := sym.ram_below
    have h2 := sym.trampoline_page
    have h3 := sym.trampoline_le_text
    have h4 := sym.text_le_rodata
    have h5 := sym.rodata_le_end
    have h6 := sym.rodata_le_data
    have h7 := sym.data_le_end
    have h8 := sym.kernel_le_ram
    rw [pageAlignUp_toNat]
    unfold pageSize
    omega
  obtain ⟨p', rfl, hok, -, -, hstart, -⟩ := pageInit_ok h hpos
  exact ⟨hok, hstart⟩

theorem trampoline_guard : ¬(sym.trampolineStart = sym.trampolineEnd ∨
    sym.trampolineEnd - sym.trampolineStart > BitVec.ofNat 64 pageSize ∨ sym.trampolineStart &&& pageMask ≠ 0) := by
  have h := sym.trampoline_page
  rintro (he | hlong | halign)
  · rw [he] at h
    exact absurd h.1 (lt_irrefl _)
  · have hle : sym.trampolineStart ≤ sym.trampolineEnd := BitVec.le_def.mpr h.1.le
    have hlong := BitVec.lt_def.mp hlong
    rw [BitVec.toNat_sub_of_le hle, BitVec.toNat_ofNat] at hlong
    unfold pageSize at *
    omega
  · exact halign (and_pageMask_eq_zero.mpr sym.trampoline_align)

end LinkerSymbols

/-- The kernel page table after `paging_init_kernel`: an identity map of the image, of the managed pages and of the
devices, with the trampoline above, and nothing else. -/
theorem pagingInitKernel_identityMap (sym : LinkerSymbols) (m : Machine) (hinit : sym.PageInitDone m)
    (hfree : (pageTables sym.pages).card ≤ m.pages.freePages) :
    ∃ m' : Machine, pagingInitKernel sym m = .ok (satpModeSv39 ||| (m'.kernelSpace.root >>> 12), m') ∧
      (∀ va, vmGetMapping (some m'.kernelSpace) va m' = .ok (match sym.kernelMap va with
        | none => (vmErrNotMapped, none, m')
        | some x => (vmOk, some x, m'))) ∧
      ∀ va pa flags, sym.kernelMap va = some (pa, flags) →
        (flags &&& vmPteW = 0 ∨ flags &&& vmPteX = 0) ∧ flags &&& vmPteU = 0 := by
  have hmappable := sym.pages_mappable hfree
  have htables : TablesOk m fun _ => none :=
    ⟨hinit.ok, ⟨nofun, nofun, nofun, nofun, nofun⟩, nofun⟩
  have hone : 1 ≤ (pageTables sym.pages).card := Finset.card_pos.mpr ⟨[], mem_pageTables.mpr (.inl rfl)⟩
  obtain ⟨result, space', m₁, hspace, hout⟩ := vmSpaceInit_spec htables m.kernelSpace
  cases hout with
  | noMemory hnone => omega
  | @ok _ root hsome hfresh hgrown hempty hlookup =>
    let sp : VmSpace := ⟨root⟩
    have h₁ : PagesMapped m sp [] m₁ (Function.update (fun _ => none) root (some (root, []))) :=
      { ok := hgrown.ok
        live := Function.update_self _ _ _
        lookup := hempty
        budget := by
          have := vmSpaceInit_free hinit.ok hspace
          rw [show (pageTables []).card = 1 from rfl]
          omega
        range := hgrown.reallocated.range }
    have hpages : sym.pages = rangePages sym.textStart sym.textEnd textFlags ++
        (rangePages sym.rodataStart sym.rodataEnd roFlags ++ (rangePages sym.dataStart sym.kernelEnd rwFlags ++
        (rangePages (alignUp sym.kernelEnd (BitVec.ofNat 64 pageSize)) sym.ramEnd rwFlags ++
        (rangePages uart0Base (uart0Base + BitVec.ofNat 64 pageSize) rwFlags ++
        (rangePages clintMmioBase (clintMmioBase + clintMmioSize) rwFlags ++ [sym.trampoline]))))) := by
      simp only [LinkerSymbols.pages, LinkerSymbols.ranges, KernelRange.pages, List.flatMap_cons, List.flatMap_nil,
        List.append_nil, List.append_assoc]
    have hall : Mappable m.pages.freePages ([] ++ sym.pages) := hmappable
    rw [hpages] at hall
    obtain ⟨m₂, _, hmap₂, h₂⟩ := h₁.mapRange hall
    obtain ⟨m₃, _, hmap₃, h₃⟩ := h₂.mapRange (by simpa only [List.append_assoc] using hall)
    obtain ⟨m₄, _, hmap₄, h₄⟩ := h₃.mapRange (by simpa only [List.append_assoc] using hall)
    have hmanaged : pageManagedStart m₄ = alignUp sym.kernelEnd (BitVec.ofNat 64 pageSize) :=
      (congrArg Prod.fst h₄.range : m₄.pages.managedStart = m.pages.managedStart).trans hinit.start
    obtain ⟨m₅, _, hmap₅, h₅⟩ := h₄.mapRange (by simpa only [List.append_assoc] using hall)
    obtain ⟨m₆, _, hmap₆, h₆⟩ := h₅.mapRange (by simpa only [List.append_assoc] using hall)
    obtain ⟨m₇, _, hmap₇, h₇⟩ := h₆.mapRange (by simpa only [List.append_assoc] using hall)
    obtain ⟨m₈, place, hmap₈, h₈⟩ := h₇.step (r := []) (by simpa only [List.append_assoc] using hall)
      "kernel trampoline map failed"
    have hlist : [] ++ rangePages sym.textStart sym.textEnd textFlags ++
        rangePages sym.rodataStart sym.rodataEnd roFlags ++ rangePages sym.dataStart sym.kernelEnd rwFlags ++
        rangePages (alignUp sym.kernelEnd (BitVec.ofNat 64 pageSize)) sym.ramEnd rwFlags ++
        rangePages uart0Base (uart0Base + BitVec.ofNat 64 pageSize) rwFlags ++
        rangePages clintMmioBase (clintMmioBase + clintMmioSize) rwFlags ++ [sym.trampoline] = sym.pages := by
      simp only [hpages, List.nil_append, List.append_assoc]
    rw [hlist] at h₈
    let satp := satpModeSv39 ||| (sp.root >>> 12)
    let m' : Machine := { m₈ with kernelSpace := sp, kernelSatp := satp }
    have hok : TablesOk m' place := ⟨h₈.ok.pages, h₈.ok.forest, h₈.ok.allocated⟩
    refine ⟨m', ?_, fun va => ?_, fun va pa flags hva => ?_⟩
    · unfold pagingInitKernel
      rw [hspace, ok_bind]
      simp only [Option.getD_some]
      rw [if_neg (not_not.mpr rfl), hmap₂, ok_bind, hmap₃, ok_bind, hmap₄, ok_bind, hmanaged, hmap₅, ok_bind, hmap₆, ok_bind, hmap₇, ok_bind,
        if_neg sym.trampoline_guard]
      show (mapPage sp _ sym.trampoline _ >>= _) = _
      rw [hmap₈, ok_bind]
    · show vmGetMapping (some sp) va m' = _
      rw [vmGetMapping_spec hok h₈.live, show mapped m' sp.root va = mapped m₈ sp.root va from rfl, h₈.lookup,
        ← sym.lookup_pages]
      cases hfind : lookupPage sym.pages va with
      | none => rfl
      | some x =>
        obtain ⟨-, -, hpa, hflags⟩ := hmappable.args x (List.mem_of_find?_eq_some hfind)
        have hlt : x.flags.toNat < 1024 := (flagsAreValid_iff.mp hflags).1.trans (by decide)
        show Except.ok (vmOk, some (pteToPa (paToPte x.pa x.flags) ||| pageOffset va,
          paToPte x.pa x.flags &&& sv39PteFlagMask), m') = _
        rw [pteToPa_paToPte (pageAligned_iff.mp hpa) hlt, paToPte_flags hlt]
        rfl
    · exact sym.kernelMap_flags hva

/-- A small kernel with 16 managed pages. -/
def sampleSymbols : LinkerSymbols where
  textStart := 0x80000000
  trampolineStart := 0x80001000
  trampolineEnd := 0x80002000
  textEnd := 0x80002800
  rodataStart := 0x80003000
  rodataEnd := 0x80003400
  dataStart := 0x80004000
  kernelEnd := 0x80006000
  ramEnd := 0x80016000
  text_align := by decide
  trampoline_align := by decide
  rodata_align := by decide
  data_align := by decide
  ram_align := by decide
  text_le_trampoline := by decide
  trampoline_page := by decide
  trampoline_le_text := by decide
  text_le_rodata := by decide
  rodata_le_end := by decide
  rodata_le_data := by decide
  data_le_end := by decide
  kernel_le_ram := by decide
  ram_below := by decide
  uart_apart := by decide
  clint_apart := by decide

theorem pagingInitKernel_identityMap_sample : ∃ m m' : Machine, pageInit 0x80006000 0x80016000 sampleMachine = .ok m ∧
    pagingInitKernel sampleSymbols m = .ok (satpModeSv39 ||| (m'.kernelSpace.root >>> 12), m') ∧
      vmGetMapping (some m'.kernelSpace) 0x80001234 m' = .ok (vmOk, some (0x80001234, textFlags), m') ∧
      vmGetMapping (some m'.kernelSpace) 0x80006000 m' = .ok (vmOk, some (0x80006000, rwFlags), m') ∧
      vmGetMapping (some m'.kernelSpace) 0x80016000 m' = .ok (vmErrNotMapped, none, m') := by
  obtain ⟨m, h⟩ : ∃ m, pageInit 0x80006000 0x80016000 sampleMachine = .ok m := ⟨_, rfl⟩
  have hfree : m.pages.freePages = 16 := by
    obtain rfl := Except.ok.inj h
    decide
  obtain ⟨m', hinit, hmap, -⟩ := pagingInitKernel_identityMap sampleSymbols m (sampleSymbols.pageInit_done h)
    (by rw [hfree]; decide +kernel)
  exact ⟨m, m', h, hinit, hmap 0x80001234, hmap 0x80006000, hmap 0x80016000⟩

end QemuRtos
