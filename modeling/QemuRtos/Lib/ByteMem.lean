import Mathlib.Data.BitVec
import Mathlib.Tactic.Ring
import Mathlib.Tactic.NormNum

/-!
# Byte-addressed memory

A memory maps addresses to bytes. `loadLE n` and `storeLE n` read and write `n`-byte little-endian
words; a load of what was just stored returns it (`loadLE_storeLE`), and a load sees nothing of a
write to other bytes (`loadLE_congr`). `load32`, `load64` and their stores are the two word sizes
with their values as bit vectors. `fill` is a constant run of bytes and `writeBytes` a given one.
-/

namespace Lib

abbrev Byte := BitVec 8

/-- Memory as a function from addresses to bytes. -/
abbrev Mem := Nat → Byte

namespace Mem

/-- The `n` bytes from `a` as a little-endian number. -/
def loadLE (m : Mem) : Nat → Nat → Nat
  | 0, _ => 0
  | n + 1, a => (m a).toNat + 256 * loadLE m n (a + 1)

/-- The memory with the `n` low bytes of `v` stored from `a`. -/
def storeLE (m : Mem) (n a v : Nat) : Mem := fun x =>
  if a ≤ x ∧ x < a + n then BitVec.ofNat 8 (v / 256 ^ (x - a)) else m x

/-- The memory with the bytes `a … a + n - 1` all equal to `v`. -/
def fill (m : Mem) (a n : Nat) (v : Byte) : Mem := fun x => if a ≤ x ∧ x < a + n then v else m x

/-- The memory with the bytes `bs` written from `a`. -/
def writeBytes (m : Mem) (a : Nat) (bs : List Byte) : Mem := fun x =>
  if a ≤ x then (bs[x - a]?).getD (m x) else m x

def load32 (m : Mem) (a : Nat) : BitVec 32 := BitVec.ofNat 32 (m.loadLE 4 a)

def store32 (m : Mem) (a : Nat) (v : BitVec 32) : Mem := m.storeLE 4 a v.toNat

def load64 (m : Mem) (a : Nat) : BitVec 64 := BitVec.ofNat 64 (m.loadLE 8 a)

def store64 (m : Mem) (a : Nat) (v : BitVec 64) : Mem := m.storeLE 8 a v.toNat

/-! ### Loads -/

theorem loadLE_congr {m m' : Mem} {n a : Nat} (h : ∀ x, a ≤ x → x < a + n → m x = m' x) :
    m.loadLE n a = m'.loadLE n a := by
  induction n generalizing a with
  | zero => rfl
  | succ n ih =>
    rw [loadLE, loadLE, h a (le_refl _) (by omega), ih fun x h1 h2 => h x (by omega) (by omega)]

theorem loadLE_lt (m : Mem) (n a : Nat) : m.loadLE n a < 256 ^ n := by
  induction n generalizing a with
  | zero => simp [loadLE]
  | succ n ih =>
    have h1 := ih (a + 1)
    have h2 := (m a).isLt
    rw [loadLE, Nat.pow_succ]
    omega

theorem loadLE_shift {m : Mem} {v k : Nat} (n a : Nat)
    (h : ∀ i < n, (m (a + i)).toNat = v / 256 ^ (k + i) % 256) :
    m.loadLE n a = v / 256 ^ k % 256 ^ n := by
  induction n generalizing a k with
  | zero => simp [loadLE, Nat.mod_one]
  | succ n ih =>
    have hstep := ih (k := k + 1) (a + 1) fun i hi => by
      rw [Nat.add_assoc, Nat.add_comm 1 i, Nat.add_assoc k, Nat.add_comm 1 i]
      exact h (i + 1) (by omega)
    have h0 := h 0 (by omega)
    rw [Nat.add_zero, Nat.add_zero] at h0
    rw [loadLE, hstep, h0, Nat.pow_succ 256 k, ← Nat.div_div_eq_div_mul, Nat.pow_succ, Nat.mul_comm (256 ^ n),
      Nat.mod_mul]

theorem loadLE_storeLE (m : Mem) (n a v : Nat) : (m.storeLE n a v).loadLE n a = v % 256 ^ n := by
  have h := loadLE_shift (m := m.storeLE n a v) (v := v) (k := 0) n a fun i hi => by
    rw [storeLE, if_pos (by omega), Nat.add_sub_cancel_left, Nat.zero_add]
    simp
  simpa using h

theorem loadLE_storeLE_disjoint (m : Mem) {n k a b v : Nat} (h : b + k ≤ a ∨ a + n ≤ b) :
    (m.storeLE n a v).loadLE k b = m.loadLE k b :=
  loadLE_congr fun x h1 h2 => by rw [storeLE, if_neg (by omega)]

@[simp] theorem load64_store64 (m : Mem) (a : Nat) (v : BitVec 64) : (m.store64 a v).load64 a = v := by
  apply BitVec.eq_of_toNat_eq
  rw [load64, store64, loadLE_storeLE, BitVec.toNat_ofNat]
  have := v.isLt
  omega

theorem load64_store64_disjoint (m : Mem) {a b : Nat} (v : BitVec 64) (h : b + 8 ≤ a ∨ a + 8 ≤ b) :
    (m.store64 a v).load64 b = m.load64 b := by
  rw [load64, load64, store64, loadLE_storeLE_disjoint m h]

@[simp] theorem load32_store32 (m : Mem) (a : Nat) (v : BitVec 32) : (m.store32 a v).load32 a = v := by
  apply BitVec.eq_of_toNat_eq
  rw [load32, store32, loadLE_storeLE, BitVec.toNat_ofNat]
  have := v.isLt
  omega

theorem load64_congr {m m' : Mem} {a : Nat} (h : ∀ x, a ≤ x → x < a + 8 → m x = m' x) :
    m.load64 a = m'.load64 a := by
  rw [load64, load64, loadLE_congr h]

theorem load32_congr {m m' : Mem} {a : Nat} (h : ∀ x, a ≤ x → x < a + 4 → m x = m' x) :
    m.load32 a = m'.load32 a := by
  rw [load32, load32, loadLE_congr h]

theorem loadLE_zero {m : Mem} {n a : Nat} (h : ∀ x, a ≤ x → x < a + n → m x = 0) : m.loadLE n a = 0 := by
  have := loadLE_shift (m := m) (v := 0) (k := 0) n a fun i hi => by rw [h _ (by omega) (by omega)]; simp
  simpa using this

theorem load64_zero {m : Mem} {a : Nat} (h : ∀ x, a ≤ x → x < a + 8 → m x = 0) : m.load64 a = 0 := by
  rw [load64, loadLE_zero h]
  rfl

/-! ### Bytes outside a write -/

theorem storeLE_of_disjoint (m : Mem) {n a v x : Nat} (h : x < a ∨ a + n ≤ x) : m.storeLE n a v x = m x :=
  if_neg (by omega)

theorem store64_of_disjoint (m : Mem) {a x : Nat} (v : BitVec 64) (h : x < a ∨ a + 8 ≤ x) :
    m.store64 a v x = m x :=
  storeLE_of_disjoint m h

theorem store32_of_disjoint (m : Mem) {a x : Nat} (v : BitVec 32) (h : x < a ∨ a + 4 ≤ x) :
    m.store32 a v x = m x :=
  storeLE_of_disjoint m h

theorem fill_of_mem (m : Mem) {a n x : Nat} (v : Byte) (h1 : a ≤ x) (h2 : x < a + n) : m.fill a n v x = v :=
  if_pos ⟨h1, h2⟩

theorem fill_of_disjoint (m : Mem) {a n x : Nat} (v : Byte) (h : x < a ∨ a + n ≤ x) :
    m.fill a n v x = m x :=
  if_neg (by omega)

/-! ### Copies, byte by byte -/

/-- The first `n` bytes of a copy have been moved, from the addresses `src` to the addresses `dst`, and no others. -/
structure Copied (dst src : Nat → Nat) (n : Nat) (m m' : Mem) : Prop where
  moved : ∀ i < n, m' (dst i) = m (src i)
  kept : ∀ x, (∀ i < n, x ≠ dst i) → m' x = m x

variable {dst src : Nat → Nat} {n : Nat} {m m' : Mem}

theorem Copied.zero (dst src : Nat → Nat) (m : Mem) : Copied dst src 0 m m :=
  ⟨fun _ hi => absurd hi (Nat.not_lt_zero _), fun _ _ => rfl⟩

theorem Copied.succ (h : Copied dst src n m m') (hd : ∀ i < n, dst i ≠ dst n) (hs : ∀ i < n, src n ≠ dst i) :
    Copied dst src (n + 1) m (Function.update m' (dst n) (m' (src n))) where
  moved i hi := by
    obtain hlt | rfl := Nat.lt_succ_iff_lt_or_eq.mp hi
    · rw [Function.update_of_ne (hd i hlt)]
      exact h.moved i hlt
    · rw [Function.update_self]
      exact h.kept _ hs
  kept x hx := by
    rw [Function.update_of_ne (hx n (Nat.lt_succ_self n))]
    exact h.kept x fun i hi => hx i (Nat.lt_succ_of_lt hi)

/-- The copy of `n` bytes, the first one first. -/
def move (dst src : Nat → Nat) : Nat → Mem → Mem
  | 0, m => m
  | n + 1, m => Function.update (move dst src n m) (dst n) (move dst src n m (src n))

/-- A copy between bytes that are apart. -/
theorem move_copied (m : Mem) (hd : ∀ i j, i < j → j < n → dst i ≠ dst j) (hs : ∀ i j, i < n → j < n → src j ≠ dst i) :
    Copied dst src n m (m.move dst src n) := by
  induction n with
  | zero => exact .zero dst src m
  | succ n ih =>
    refine (ih (fun i j hi hj => hd i j hi (by omega)) fun i j hi hj => hs i j (by omega) (by omega)).succ ?_ ?_
    · intro i hi
      exact hd i n hi (by omega)
    · intro i hi
      exact hs i n (by omega) (by omega)

end Mem

end Lib
