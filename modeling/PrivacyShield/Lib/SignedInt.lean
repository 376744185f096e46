import Mathlib.Algebra.Order.Group.Int
import Mathlib.Algebra.Order.Ring.Int
import Mathlib.Data.Int.ModEq
import Mathlib.Tactic.Positivity
import Mathlib.Tactic.Ring

/-!
# Fixed-width signed integers

`SInt w` is a two's-complement integer of `w` bits. It is kept as the integer it denotes, with the
proof that it fits, so that every statement about it is a statement about `Int`.

* `SInt.checkedAdd` and `SInt.checkedSub` compute the exact result and return `none` when it does
  not fit.
* `SInt.toBeBytes` is the big-endian two's-complement encoding; it is injective whenever the width
  is a positive number of bytes (`SInt.toBeBytes_injective`).
-/

namespace PrivacyShield.Lib

/-- A signed integer of `w` bits. -/
@[ext]
structure SInt (w : Nat) where
  toInt : Int
  lower : -2 ^ (w - 1) ≤ toInt
  upper : toInt < 2 ^ (w - 1)
  deriving DecidableEq

namespace SInt

variable {w : Nat}

theorem two_pow_pos (n : Nat) : (0 : Int) < 2 ^ n := by positivity

instance : Zero (SInt w) where
  zero := ⟨0, by have := two_pow_pos (w - 1); omega, two_pow_pos _⟩

instance : Inhabited (SInt w) := ⟨0⟩

instance : LE (SInt w) := ⟨fun x y => x.toInt ≤ y.toInt⟩

instance : LT (SInt w) := ⟨fun x y => x.toInt < y.toInt⟩

instance : DecidableLE (SInt w) := fun x y => inferInstanceAs (Decidable (x.toInt ≤ y.toInt))

instance : DecidableLT (SInt w) := fun x y => inferInstanceAs (Decidable (x.toInt < y.toInt))

theorem not_le {x y : SInt w} : ¬x ≤ y ↔ y.toInt < x.toInt := Int.not_le

theorem not_lt {x y : SInt w} : ¬x < y ↔ y.toInt ≤ x.toInt := Int.not_lt

/-! ## Checked arithmetic -/

/-- The signed integer that denotes `n`, if `n` fits. -/
def ofInt? (w : Nat) (n : Int) : Option (SInt w) :=
  if h : -2 ^ (w - 1) ≤ n ∧ n < 2 ^ (w - 1) then some ⟨n, h.1, h.2⟩ else none

theorem ofInt?_eq_some_iff {n : Int} {x : SInt w} : ofInt? w n = some x ↔ x.toInt = n := by
  unfold ofInt?
  split
  · simp only [Option.some.injEq, SInt.ext_iff]
    exact eq_comm
  · next h =>
    constructor
    · intro hx
      cases hx
    · intro hx
      subst hx
      exact absurd ⟨x.lower, x.upper⟩ h

theorem ofInt?_eq_none_iff {n : Int} :
    ofInt? w n = none ↔ ¬(-2 ^ (w - 1) ≤ n ∧ n < 2 ^ (w - 1)) := by
  unfold ofInt?
  split
  · next h => simp [h]
  · next h => simp [h]

/-- Exact addition, `none` when the sum does not fit. -/
def checkedAdd (x y : SInt w) : Option (SInt w) := ofInt? w (x.toInt + y.toInt)

/-- Exact subtraction, `none` when the difference does not fit. -/
def checkedSub (x y : SInt w) : Option (SInt w) := ofInt? w (x.toInt - y.toInt)

theorem checkedAdd_eq_some_iff {x y z : SInt w} :
    x.checkedAdd y = some z ↔ z.toInt = x.toInt + y.toInt := ofInt?_eq_some_iff

theorem checkedSub_eq_some_iff {x y z : SInt w} :
    x.checkedSub y = some z ↔ z.toInt = x.toInt - y.toInt := ofInt?_eq_some_iff

/-- A sum with a non-negative second term can only leave the range upwards. -/
theorem checkedAdd_eq_none_iff {x y : SInt w} (hy : 0 ≤ y.toInt) :
    x.checkedAdd y = none ↔ 2 ^ (w - 1) ≤ x.toInt + y.toInt := by
  have hx := x.lower
  rw [checkedAdd, ofInt?_eq_none_iff]
  omega

/-- A sum with a non-negative second term is computed exactly when it stays below the bound. -/
theorem exists_checkedAdd_iff {x y : SInt w} (hy : 0 ≤ y.toInt) :
    (∃ z, x.checkedAdd y = some z) ↔ x.toInt + y.toInt ≤ 2 ^ (w - 1) - 1 := by
  rw [← Option.ne_none_iff_exists', Ne, checkedAdd_eq_none_iff hy]
  omega

/-- Taking a non-negative part `y ≤ x` away from `x` never leaves the range. -/
theorem exists_checkedSub {x y : SInt w} (hy : 0 ≤ y.toInt) (hyx : y.toInt ≤ x.toInt) :
    ∃ z, x.checkedSub y = some z := by
  have hx := x.upper
  have hpos := two_pow_pos (w - 1)
  exact ⟨⟨x.toInt - y.toInt, by omega, by omega⟩, checkedSub_eq_some_iff.2 rfl⟩

/-! ## Two parts -/

theorem two_pow_width {m n : Nat} (hm : 0 < m) :
    (2 : Int) ^ (m + n - 1) = 2 ^ (m - 1) * 2 ^ n := by
  rw [← pow_add]
  congr 1
  omega

/-- The integer with the upper part `hi` and the `n` lower bits `lo`. -/
def join {m n : Nat} (hm : 0 < m) (hi : SInt m) (lo : BitVec n) : SInt (m + n) where
  toInt := hi.toInt * 2 ^ n + lo.toNat
  lower := by
    have hmul := Int.mul_le_mul_of_nonneg_right hi.lower (two_pow_pos n).le
    rw [two_pow_width hm, ← neg_mul]
    omega
  upper := by
    have hmul := Int.mul_le_mul_of_nonneg_right (Int.le_sub_one_of_lt hi.upper) (two_pow_pos n).le
    have hlo : (lo.toNat : Int) < 2 ^ n := by exact_mod_cast lo.isLt
    rw [sub_mul, one_mul] at hmul
    rw [two_pow_width hm]
    omega

theorem toInt_join {m n : Nat} (hm : 0 < m) (hi : SInt m) (lo : BitVec n) :
    (join hm hi lo).toInt = hi.toInt * 2 ^ n + lo.toNat := rfl

end SInt

/-! ## Big-endian bytes -/

/-- The low `n` bytes of `v`, most significant first. -/
def beBytes : Nat → Nat → List UInt8
  | 0, _ => []
  | n + 1, v => UInt8.ofNat (v / 256 ^ n) :: beBytes n v

@[simp] theorem beBytes_length (n v : Nat) : (beBytes n v).length = n := by
  induction n with
  | zero => rfl
  | succ n ih => rw [beBytes, List.length_cons, ih]

/-- Equal encodings denote equal numbers, up to the width encoded. -/
theorem beBytes_inj {n u v : Nat} (h : beBytes n u = beBytes n v) :
    u % 256 ^ n = v % 256 ^ n := by
  induction n with
  | zero => rw [Nat.pow_zero, Nat.mod_one, Nat.mod_one]
  | succ n ih =>
    obtain ⟨hhead, htail⟩ := List.cons_eq_cons.1 h
    have hdigit : u / 256 ^ n % 256 = v / 256 ^ n % 256 := by
      simpa using congrArg UInt8.toNat hhead
    rw [Nat.pow_succ, Nat.mod_mul, Nat.mod_mul, ih htail, hdigit]

namespace SInt

variable {w : Nat}

/-- Two's-complement big-endian encoding. -/
def toBeBytes (x : SInt w) : List UInt8 := beBytes (w / 8) (x.toInt % 2 ^ w).toNat

theorem toInt_emod_inj (hw : 0 < w) {x y : SInt w} (h : x.toInt % 2 ^ w = y.toInt % 2 ^ w) :
    x = y := by
  have hpow : (2 : Int) ^ w = 2 * 2 ^ (w - 1) := by
    obtain ⟨k, rfl⟩ := Nat.exists_eq_succ_of_ne_zero hw.ne'
    rw [Nat.succ_sub_one, pow_succ, mul_comm]
  obtain ⟨k, hk⟩ := Int.ModEq.dvd h
  have hxl := x.lower
  have hxu := x.upper
  have hyl := y.lower
  have hyu := y.upper
  have hpos := two_pow_pos (w - 1)
  rw [hpow] at hk
  -- the difference is a multiple of `2 ^ w` strictly between `-2 ^ w` and `2 ^ w`
  have hk1 : k < 1 := by
    apply lt_of_mul_lt_mul_left (a := 2 * 2 ^ (w - 1)) _ (by omega)
    omega
  have hk2 : -1 < k := by
    apply lt_of_mul_lt_mul_left (a := 2 * 2 ^ (w - 1)) _ (by omega)
    omega
  obtain rfl : k = 0 := by omega
  ext
  omega

/-- The encoding of a whole number of bytes loses nothing. -/
theorem toBeBytes_injective (hw : 0 < w) (h8 : 8 ∣ w) :
    Function.Injective (toBeBytes : SInt w → List UInt8) := by
  intro x y h
  have hpow : 256 ^ (w / 8) = 2 ^ w := by
    rw [show 256 = 2 ^ 8 from rfl, ← Nat.pow_mul, Nat.mul_div_cancel' h8]
  have hpos : (0 : Int) < 2 ^ w := two_pow_pos w
  have hxy := beBytes_inj h
  have below : ∀ z : SInt w, (z.toInt % 2 ^ w).toNat < 256 ^ (w / 8) := by
    intro z
    rw [hpow, Int.toNat_lt (Int.emod_nonneg _ hpos.ne')]
    push_cast
    exact Int.emod_lt_of_pos _ hpos
  rw [Nat.mod_eq_of_lt (below x), Nat.mod_eq_of_lt (below y)] at hxy
  apply toInt_emod_inj hw
  rw [← Int.toNat_of_nonneg (Int.emod_nonneg x.toInt hpos.ne'), hxy,
    Int.toNat_of_nonneg (Int.emod_nonneg y.toInt hpos.ne')]

end SInt

end PrivacyShield.Lib
