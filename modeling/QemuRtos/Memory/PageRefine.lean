import QemuRtos.Lib.LowestFree
import QemuRtos.Lib.Transition
import QemuRtos.Memory.PageSpec

/-!
# The page allocator takes the lowest free page

Every page below the hint is allocated, so the scan from the hint finds the lowest free page. The allocator
behaves as a pool of page addresses that hands out its least free element.
-/

namespace QemuRtos

open Lib

/-- A call of the allocator's interface. -/
inductive PageOp
  | alloc
  | free (page : U64)

namespace PageOp

/-- What a call shows its caller: the page, unless it is null. -/
def exec : PageOp → Machine → Except Panic (Option Nat × Machine)
  | .alloc, m => do
    let (page, m) ← pageAlloc m
    .ok (if page = 0 then none else some page.toNat, m)
  | .free page, m => do
    let m ← pageFree page m
    .ok (none, m)

/-- The abstract allocator: a pool of page addresses. -/
def spec : PageOp → Pool Nat → Except Panic (Option Nat × Pool Nat)
  | .alloc, p => .ok p.alloc
  | .free page, p => match p.release page.toNat with
    | some p => .ok (none, p)
    | none => .error "page_free of a page that is not allocated"

end PageOp

/-- The addresses of the pages between two addresses. -/
def pageAddrs (first last : U64) : Finset Nat :=
  (Finset.range last.toNat).filter fun a => first.toNat ≤ a ∧ a % pageSize = 0

/-- The pool of all pages of the range that `page_init` manages. -/
def pagePool (memStart memEnd : U64) : Pool Nat where
  elems := pageAddrs (alignUp memStart (BitVec.ofNat 64 pageSize)) (alignDown memEnd (BitVec.ofNat 64 pageSize))
  taken := ∅

/-- Every page below the hint is allocated. -/
def HintOk (p : PageAllocator) : Prop := ∀ i < p.nextFreeHint, i < p.totalPages → p.bitmapTest i = true

variable {p : PageAllocator} {m m' : Machine} {a : U64}

/-! ### The scan -/

/-- The scan does not wrap, and passes no free page. -/
theorem HintOk.scan {offset : Nat} (h : HintOk p) (hs : p.scan = some offset) :
    p.nextFreeHint + offset < p.totalPages ∧ p.bitmapTest (p.nextFreeHint + offset) = false ∧
      ∀ j < p.nextFreeHint + offset, p.bitmapTest j = true := by
  obtain ⟨hclear, as, bs, hsplit, hbefore⟩ := List.find?_eq_some_iff_append.mp hs
  have hclear : p.bitmapTest ((p.nextFreeHint + offset) % p.totalPages) = false := by simpa using hclear
  have hoff : offset < p.totalPages := by
    have : offset ∈ List.range p.totalPages := by rw [hsplit]; simp
    exact List.mem_range.mp this
  have hmod := Nat.mod_lt (p.nextFreeHint + offset) (show p.totalPages > 0 by omega)
  have hge : p.nextFreeHint ≤ (p.nextFreeHint + offset) % p.totalPages := by
    by_contra hlt
    rw [h _ (Nat.lt_of_not_le hlt) hmod] at hclear
    cases hclear
  have hlt : p.nextFreeHint + offset < p.totalPages := by
    by_contra hge'
    have : (p.nextFreeHint + offset) % p.totalPages ≤ (p.nextFreeHint + offset - p.totalPages) := by
      rw [Nat.mod_eq_sub_mod (Nat.le_of_not_lt hge')]
      exact Nat.mod_le ..
    omega
  rw [Nat.mod_eq_of_lt hlt] at hclear
  refine ⟨hlt, hclear, fun j hj => ?_⟩
  by_cases hjh : j < p.nextFreeHint
  · exact h j hjh (by omega)
  -- the offset at which the scan has looked at page `j`
  have hpre : as = List.range offset := by
    have hlen : as.length = offset := by
      have hget : (List.range p.totalPages)[as.length]? = some offset := by rw [hsplit]; simp
      rw [List.getElem?_range (by
        have := congrArg List.length hsplit
        simp at this
        omega)] at hget
      exact Option.some.inj hget
    have := congrArg (List.take offset) hsplit
    rw [List.take_range, Nat.min_eq_left hoff.le, List.take_left' hlen] at this
    exact this.symm
  have hmem : j - p.nextFreeHint ∈ as := by rw [hpre, List.mem_range]; omega
  have := hbefore _ hmem
  rw [Nat.add_sub_cancel' (Nat.le_of_not_lt hjh), Nat.mod_eq_of_lt (by omega)] at this
  simpa using this

theorem pageAlloc_lowest (h : PagesOk m.pages) (hh : HintOk m.pages) :
    ∃ a p', pageAlloc m = .ok (a, { m with pages := p' }) ∧ PagesOk p' ∧ HintOk p' ∧
      (a = 0 ∧ p' = m.pages ∧ m.pages.freePages = 0 ∨ a ≠ 0 ∧ PageTaken a m.pages p' ∧
        ∀ b, m.pages.Managed b → ¬m.pages.Allocated b → a.toNat ≤ b.toNat) := by
  obtain ⟨a, p', heq, hp', hcase⟩ := pageAlloc_spec h
  refine ⟨a, p', heq, hp', ?_⟩
  rcases hcase with ⟨rfl, rfl, hfull⟩ | ⟨hne, ht⟩
  · exact ⟨hh, .inl ⟨rfl, rfl, hfull⟩⟩
  rw [pageAlloc] at heq
  simp only [irqSave, h.initialized, Bool.not_true, Bool.false_eq_true, ↓reduceIte] at heq
  cases hscan : m.pages.scan with
  | none =>
    simp only [hscan] at heq
    cases heq
    exact absurd rfl hne
  | some offset =>
    obtain ⟨hlt, hclear, hbelow⟩ := hh.scan hscan
    simp only [hscan, Nat.mod_eq_of_lt hlt] at heq
    obtain ⟨rfl, hm⟩ := Prod.mk.inj (Except.ok.inj heq)
    have hpages := congrArg Machine.pages hm
    dsimp only [irqRestore] at hpages
    refine ⟨fun i hi hit => ?_, .inr ⟨hne, ht, fun b hb hfree => ?_⟩⟩
    · rw [← hpages] at hi hit ⊢
      have hi : i < if m.pages.totalPages = 0 then 0 else (m.pages.nextFreeHint + offset + 1) % m.pages.totalPages := hi
      rw [if_neg (by omega)] at hi
      have hi' : i ≤ m.pages.nextFreeHint + offset := by
        have := Nat.mod_le (m.pages.nextFreeHint + offset + 1) m.pages.totalPages
        omega
      refine (Bitmap.test_set ..).trans ?_
      rcases Nat.lt_or_eq_of_le hi' with hl | rfl
      · rw [show Bitmap.test m.pages.pageBitmap i = true from hbelow i hl, Bool.or_true]
      · rw [decide_eq_true rfl, Bool.true_or]
    · obtain ⟨hib, hab⟩ := h.addr_index hb
      show (m.pages.pageAddrFromIndex (m.pages.nextFreeHint + offset)).toNat ≤ b.toNat
      rw [h.addr_toNat hlt, ← hab, h.addr_toNat hib]
      have : ¬m.pages.pageIndexFromAddr b < m.pages.nextFreeHint + offset := fun hl => hfree ⟨hb, hbelow _ hl⟩
      have := Nat.mul_le_mul_right pageSize (Nat.le_of_not_lt this)
      omega

theorem pageFree_hint (h : PagesOk m.pages) (hh : HintOk m.pages) (hfree : pageFree a m = .ok m') :
    HintOk m'.pages := by
  obtain ⟨⟨hman, htest⟩, -⟩ := pageFree_ok h hfree
  rw [pageFree] at hfree
  simp only [irqSave, h.initialized, Bool.not_true, Bool.false_eq_true, ↓reduceIte, pageFree_guard.mpr hman,
    htest] at hfree
  cases hfree
  intro i hi hit
  have hlt : i < m.pages.nextFreeHint ∧ i ≠ m.pages.pageIndexFromAddr a := by
    have hi : i < if m.pages.pageIndexFromAddr a < m.pages.nextFreeHint then m.pages.pageIndexFromAddr a
      else m.pages.nextFreeHint := hi
    split at hi <;> omega
  refine (Bitmap.test_clear ..).trans ?_
  rw [show Bitmap.test m.pages.pageBitmap i = true from hh i hlt.1 hit, decide_eq_false (Ne.symm hlt.2)]
  rfl

/-! ### The refinement -/

/-- The pool that an allocator stands for. -/
structure Represents (m : Machine) (p : Pool Nat) : Prop where
  ok : PagesOk m.pages
  hint : HintOk m.pages
  elems : p.elems = pageAddrs m.pages.managedStart m.pages.managedEnd
  sub : p.taken ⊆ p.elems
  taken : ∀ a : U64, a.toNat ∈ p.taken ↔ m.pages.Allocated a

namespace Represents

variable {p : Pool Nat} (h : Represents m p)
include h

theorem mem_elems (a : U64) : a.toNat ∈ p.elems ↔ m.pages.Managed a := by
  rw [h.elems, pageAddrs, Finset.mem_filter, Finset.mem_range]
  exact ⟨fun ⟨h₁, h₂, h₃⟩ => ⟨h₃, h₂, h₁⟩, fun ⟨h₁, h₂, h₃⟩ => ⟨h₃, h₂, h₁⟩⟩

omit h in
theorem exists_addr {n : Nat} (h : Represents m p) (hn : n ∈ p.elems) : ∃ a : U64, a.toNat = n := by
  rw [h.elems, pageAddrs, Finset.mem_filter, Finset.mem_range] at hn
  have := m.pages.managedEnd.isLt
  exact ⟨BitVec.ofNat 64 n, by rw [BitVec.toNat_ofNat, Nat.mod_eq_of_lt (by omega)]⟩

theorem mem_free (a : U64) : a.toNat ∈ p.free ↔ m.pages.Managed a ∧ ¬m.pages.Allocated a := by
  rw [Pool.mem_free, h.mem_elems, h.taken]

theorem card_free : m.pages.freePages = p.free.card := by
  rw [h.ok.free_eq]
  refine Finset.card_bij (fun i _ => (m.pages.pageAddrFromIndex i).toNat) (fun i hi => ?_) (fun i hi j hj heq => ?_)
    fun n hn => ?_
  · obtain ⟨hlt, hclear⟩ := (Bitmap.mem_clearBelow _ i).mp hi
    refine (h.mem_free _).mpr ⟨h.ok.managed_addr hlt, ?_⟩
    rw [allocated_iff_addr h.ok hlt]
    exact Bool.eq_false_iff.mp hclear
  · have hi := ((Bitmap.mem_clearBelow _ i).mp hi).1
    have hj := ((Bitmap.mem_clearBelow _ j).mp hj).1
    rw [← h.ok.index_addr hi, ← h.ok.index_addr hj, BitVec.eq_of_toNat_eq heq]
  · obtain ⟨a, rfl⟩ := h.exists_addr (Pool.mem_free.mp hn).1
    obtain ⟨hman, hfree⟩ := (h.mem_free a).mp hn
    obtain ⟨hi, ha⟩ := h.ok.addr_index hman
    refine ⟨m.pages.pageIndexFromAddr a, (Bitmap.mem_clearBelow _ _).mpr ⟨hi, ?_⟩, by rw [ha]⟩
    exact Bool.eq_false_iff.mpr fun ht => hfree ⟨hman, ht⟩

theorem alloc : Agree Represents (PageOp.exec .alloc m) (PageOp.spec .alloc p) := by
  obtain ⟨a, p', heq, hp', hh', hcase⟩ := pageAlloc_lowest h.ok h.hint
  rw [PageOp.exec, heq, ok_bind, PageOp.spec]
  rcases hcase with ⟨rfl, rfl, hfull⟩ | ⟨hne, ht, hleast⟩
  · rw [Pool.alloc_of_empty (Finset.card_eq_zero.mp (h.card_free.symm.trans hfull))]
    exact ⟨if_pos rfl, h⟩
  · have hmem : a.toNat ∈ p.free := (h.mem_free a).mpr ⟨ht.managed, ht.fresh⟩
    rw [Pool.alloc_of_least hmem fun n hn => ?_]
    · refine ⟨if_neg hne, hp', hh', ?_, ?_, fun b => ?_⟩
      · have hr := ht.range
        simp only [PageAllocator.range, Prod.mk.injEq] at hr
        rw [hr.1, hr.2.1]
        exact h.elems
      · exact Finset.insert_subset (Pool.mem_free.mp hmem).1 h.sub
      · rw [Finset.mem_insert, ht.allocated, h.taken, BitVec.toNat_inj]
        exact or_comm
    · obtain ⟨b, rfl⟩ := h.exists_addr (Pool.mem_free.mp hn).1
      obtain ⟨hb, hfree⟩ := (h.mem_free b).mp hn
      exact hleast b hb hfree

theorem pageFree_error_iff (a : U64) : (∃ e, pageFree a m = .error e) ↔ a.toNat ∉ p.taken := by
  rw [h.taken]
  constructor
  · rintro ⟨e, he⟩ ha
    obtain ⟨p', heq, -⟩ := pageFree_spec h.ok ha
    rw [heq] at he
    cases he
  · intro ha
    cases hf : pageFree a m with
    | error e => exact ⟨e, rfl⟩
    | ok m' => exact absurd (pageFree_ok h.ok hf).1 ha

theorem free (a : U64) : Agree Represents (PageOp.exec (.free a) m) (PageOp.spec (.free a) p) := by
  rw [PageOp.exec, PageOp.spec]
  by_cases ha : a.toNat ∈ p.taken
  · obtain ⟨p', heq, hp', hg⟩ := pageFree_spec h.ok ((h.taken a).mp ha)
    rw [Pool.release_of_mem ha, heq, ok_bind]
    refine ⟨rfl, hp', pageFree_hint h.ok h.hint heq, ?_, (Finset.erase_subset ..).trans h.sub, fun b => ?_⟩
    · have hr := hg.range
      simp only [PageAllocator.range, Prod.mk.injEq] at hr
      rw [hr.1, hr.2.1]
      exact h.elems
    · rw [Finset.mem_erase, hg.allocated, h.taken, ne_eq, BitVec.toNat_inj]
      exact and_comm
  · obtain ⟨e, he⟩ := (h.pageFree_error_iff a).mpr ha
    rw [Pool.release_of_notMem ha, he]
    trivial

theorem step (op : PageOp) : Agree Represents (op.exec m) (op.spec p) := by
  cases op with
  | alloc => exact h.alloc
  | free page => exact h.free page

end Represents

theorem pageInit_represents {memStart memEnd : U64} (h : pageInit memStart memEnd m = .ok m')
    (hz : alignUp memStart (BitVec.ofNat 64 pageSize) ≠ 0) : Represents m' (pagePool memStart memEnd) := by
  obtain ⟨p', rfl, hp', hnone, hhint, hstart, hend⟩ := pageInit_ok h (by
    refine Nat.pos_of_ne_zero fun hn => hz (BitVec.eq_of_toNat_eq ?_)
    rw [hn]; rfl)
  refine ⟨hp', fun i hi => ?_, ?_, Finset.empty_subset _, fun a => ?_⟩
  · rw [show ({ m with pages := p' } : Machine).pages.nextFreeHint = 0 from hhint] at hi
    exact absurd hi (Nat.not_lt_zero i)
  · show pageAddrs _ _ = pageAddrs p'.managedStart p'.managedEnd
    rw [hstart, hend]
  · exact iff_of_false (Finset.notMem_empty _) (hnone a)

/-- After `page_init` of a range that does not start at address 0, the allocator shows its callers what a
pool of pages shows that hands out its lowest free page. In each state of each run `free_pages` counts the
free pages, `page_alloc` returns an aligned page of the range that is not allocated, and `page_free` panics on
what is not an allocated page. -/
theorem pageAllocator_lowestFree {memStart memEnd : U64} (h : pageInit memStart memEnd m = .ok m')
    (hz : alignUp memStart (BitVec.ofNat 64 pageSize) ≠ 0) (l : List PageOp) :
    outputs PageOp.exec l m' = outputs PageOp.spec l (pagePool memStart memEnd) ∧
    ∀ m₁, Run (next PageOp.exec) (fun _ _ => True) m' l m₁ →
      ∃ p, Run (next PageOp.spec) (fun _ _ => True) (pagePool memStart memEnd) l p ∧
        m₁.pages.freePages = p.free.card ∧
        (∃ a m₂, pageAlloc m₁ = .ok (a, m₂) ∧ (a = 0 ↔ p.free = ∅) ∧ (a ≠ 0 → a.toNat % pageSize = 0 ∧
          m₁.pages.managedStart.toNat ≤ a.toNat ∧ a.toNat < m₁.pages.managedEnd.toNat ∧ a.toNat ∉ p.taken)) ∧
        ∀ a, (∃ e, pageFree a m₁ = .error e) ↔ a.toNat % pageSize ≠ 0 ∨ a.toNat < m₁.pages.managedStart.toNat ∨
          m₁.pages.managedEnd.toNat ≤ a.toNat ∨ a.toNat ∉ p.taken := by
  have hr := pageInit_represents h hz
  refine ⟨outputs_eq (fun op _ _ hr => hr.step op) l hr, fun m₁ hrun => ?_⟩
  obtain ⟨p, hspec, hr₁⟩ := hrun.agree (fun op _ _ hr => hr.step op) hr
  refine ⟨p, hspec, hr₁.card_free, ?_, fun a => ?_⟩
  · obtain ⟨a, p', heq, -, -, hcase⟩ := pageAlloc_lowest hr₁.ok hr₁.hint
    refine ⟨a, _, heq, ?_⟩
    rcases hcase with ⟨rfl, -, hfull⟩ | ⟨hne, ht, -⟩
    · exact ⟨iff_of_true rfl (Finset.card_eq_zero.mp (hr₁.card_free.symm.trans hfull)), fun hne => absurd rfl hne⟩
    · have hmem := (hr₁.mem_free a).mpr ⟨ht.managed, ht.fresh⟩
      refine ⟨iff_of_false hne (Finset.ne_empty_of_mem hmem), fun _ => ?_⟩
      exact ⟨ht.managed.aligned, ht.managed.start_le, ht.managed.lt_end, (Pool.mem_free.mp hmem).2⟩
  · rw [hr₁.pageFree_error_iff]
    refine ⟨fun hn => .inr (.inr (.inr hn)), ?_⟩
    rintro (hal | hlt | hge | hn) hmem
    · exact hal ((hr₁.taken a).mp hmem).1.aligned
    · exact absurd ((hr₁.taken a).mp hmem).1.start_le (Nat.not_le.mpr hlt)
    · exact absurd ((hr₁.taken a).mp hmem).1.lt_end (Nat.not_lt.mpr hge)
    · exact hn hmem

theorem pageAllocator_lowestFree_sample : ∃ m', pageInit 0x80040000 0x80042000 sampleMachine = .ok m' ∧
    outputs PageOp.exec [.alloc, .alloc, .free 0x80040000, .alloc, .alloc] m' =
      outputs PageOp.spec [.alloc, .alloc, .free 0x80040000, .alloc, .alloc] (pagePool 0x80040000 0x80042000) := by
  have hz : alignUp 0x80040000 (BitVec.ofNat 64 pageSize) ≠ 0 := by decide
  obtain ⟨m', h⟩ : ∃ m', pageInit 0x80040000 0x80042000 sampleMachine = .ok m' := ⟨_, rfl⟩
  exact ⟨m', h, (pageAllocator_lowestFree h hz _).1⟩

/-- A range that starts at address 0 is accepted, and its first page is handed out as null. -/
theorem pageAllocator_null_page : ¬∀ (memStart memEnd : U64) (m m' : Machine) (l : List PageOp),
    pageInit memStart memEnd m = .ok m' →
      outputs PageOp.exec l m' = outputs PageOp.spec l (pagePool memStart memEnd) := by
  intro h
  have := h 0 0x1000 sampleMachine _ [.alloc] rfl
  have hmem : (0 : Nat) ∈ (pagePool 0 0x1000).free := by
    refine Pool.mem_free.mpr ⟨Finset.mem_filter.mpr ⟨Finset.mem_range.mpr ?_, ?_, rfl⟩, Finset.notMem_empty _⟩
    · decide
    · decide
  have hspec : outputs PageOp.spec [.alloc] (pagePool 0 0x1000) = [some (some 0)] := by
    rw [outputs, PageOp.spec, Pool.alloc_of_least hmem fun b _ => Nat.zero_le b]
    rfl
  rw [hspec] at this
  revert this
  decide

end QemuRtos
