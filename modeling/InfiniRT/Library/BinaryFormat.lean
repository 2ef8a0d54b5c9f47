import Mathlib.Algebra.Order.Field.Rat
import Mathlib.Algebra.Order.Ring.Abs
import Mathlib.Tactic.FieldSimp
import Mathlib.Tactic.Linarith
import Mathlib.Tactic.LinearCombination
import Mathlib.Tactic.NormNum
import Mathlib.Tactic.Positivity
import Mathlib.Tactic.Ring

/-!
# Binary interchange formats

A bit pattern is a sign and a code, which is an exponent field above a mantissa field.  Codes are
ordered as the magnitudes they stand for, and if the exponent were unbounded every natural number
would be a code: the code of infinity would be the power of two that follows the largest finite
number.  Rounding is therefore first a statement about the strictly monotone sequence of all
magnitudes, and the overflow is read off the code.

Magnitudes are affine between two neighbours of a coarser format, so dropping `k` low bits of a code
with the usual bias rounds to the nearest magnitude, ties to the even code, carries included.
Proved:

* **`nearestEven_roundShift`** — a shift with rounding is rounding to nearest, ties to even;
* **`nearestEven_magnitude`** — dropping mantissa bits of a code rounds the magnitude, carries
  included;
* **`RoundsTo.of_nearest`** — rounding the magnitude rounds the number;
* **`RoundsTo.of_overflow`** — too large a number rounds to infinity.
-/

namespace InfiniRT.Library

/-! ### Rounding along a strictly monotone sequence -/

section Nearest

variable {f : ℕ → ℚ} {v : ℚ} {n m k : ℕ}

/-- The `n`th member is nearest to `v`, and among two nearest ones it is the even one. -/
def NearestEven (f : ℕ → ℚ) (v : ℚ) (n : ℕ) : Prop :=
  ∀ m, |v - f n| ≤ |v - f m| ∧ (|v - f m| = |v - f n| → m = n ∨ Even n)

/-- The lower neighbour is nearer, or both are as near and it is even. -/
theorem nearestEven_lower (hf : StrictMono f) (hn : f n ≤ v)
    (h : v - f n < f (n + 1) - v ∨ v - f n = f (n + 1) - v ∧ Even n) : NearestEven f v n := by
  intro m
  rcases lt_trichotomy m n with hm | rfl | hm
  · have hlt := hf hm
    rw [abs_of_nonneg (by linarith), abs_of_nonneg (by linarith)]
    exact ⟨by linarith, fun heq => by linarith⟩
  · exact ⟨le_rfl, fun _ => .inl rfl⟩
  · have hle := hf.monotone (Nat.succ_le_of_lt hm)
    have hpos : v - f m ≤ 0 := by rcases h with h | h <;> linarith [h]
    rw [abs_of_nonneg (by linarith), abs_of_nonpos hpos]
    rcases h with h | ⟨h, heven⟩
    · exact ⟨by linarith, fun heq => by linarith⟩
    · exact ⟨by linarith, fun _ => .inr heven⟩

/-- The upper neighbour is nearer, or both are as near and it is even. -/
theorem nearestEven_upper (hf : StrictMono f) (hn : v ≤ f (n + 1))
    (h : f (n + 1) - v < v - f n ∨ f (n + 1) - v = v - f n ∧ Even (n + 1)) :
    NearestEven f v (n + 1) := by
  intro m
  rcases lt_trichotomy m (n + 1) with hm | rfl | hm
  · have hle := hf.monotone (Nat.le_of_lt_succ hm)
    have hpos : 0 ≤ v - f m := by rcases h with h | h <;> linarith [h]
    rw [abs_of_nonpos (by linarith), abs_of_nonneg hpos]
    rcases h with h | ⟨h, heven⟩
    · exact ⟨by linarith, fun heq => by linarith⟩
    · exact ⟨by linarith, fun _ => .inr heven⟩
  · exact ⟨le_rfl, fun _ => .inl rfl⟩
  · have hlt := hf hm
    rw [abs_of_nonpos (by linarith), abs_of_nonpos (by linarith)]
    exact ⟨by linarith, fun heq => by linarith⟩

/-- Drop the `k` low bits of `n`, rounding to the nearest multiple and ties to the even quotient. -/
def roundShift (k n : ℕ) : ℕ := (n + (2 ^ (k - 1) - 1) + n / 2 ^ k % 2) / 2 ^ k

theorem roundShift_lower (hk : 0 < k)
    (h : 2 * (n % 2 ^ k) < 2 ^ k ∨ 2 * (n % 2 ^ k) = 2 ^ k ∧ Even (n / 2 ^ k)) :
    roundShift k n = n / 2 ^ k := by
  obtain ⟨k, rfl⟩ := Nat.exists_eq_succ_of_ne_zero hk.ne'
  have hpos := Nat.two_pow_pos k
  have hsum := Nat.div_add_mod n (2 ^ (k + 1))
  rw [Nat.succ_eq_add_one, Nat.even_iff] at *
  rw [roundShift, Nat.add_sub_cancel]
  have hpow : (2 : ℕ) ^ (k + 1) = 2 * 2 ^ k := pow_succ' 2 k
  refine Nat.div_eq_of_lt_le ?_ ?_
  · rw [Nat.mul_comm]
    omega
  · rw [Nat.add_mul, Nat.mul_comm]
    omega

theorem roundShift_upper (hk : 0 < k)
    (h : 2 ^ k < 2 * (n % 2 ^ k) ∨ 2 * (n % 2 ^ k) = 2 ^ k ∧ ¬Even (n / 2 ^ k)) :
    roundShift k n = n / 2 ^ k + 1 := by
  obtain ⟨k, rfl⟩ := Nat.exists_eq_succ_of_ne_zero hk.ne'
  have hpos := Nat.two_pow_pos k
  have hsum := Nat.div_add_mod n (2 ^ (k + 1))
  have hlt := Nat.mod_lt n (Nat.two_pow_pos (k + 1))
  rw [Nat.succ_eq_add_one, Nat.even_iff] at *
  rw [roundShift, Nat.add_sub_cancel]
  have hpow : (2 : ℕ) ^ (k + 1) = 2 * 2 ^ k := pow_succ' 2 k
  refine Nat.div_eq_of_lt_le ?_ ?_
  · rw [Nat.add_mul, Nat.mul_comm]
    omega
  · rw [Nat.add_mul, Nat.add_mul, Nat.mul_comm]
    omega

theorem roundShift_le (hk : 0 < k) (n : ℕ) : roundShift k n ≤ n / 2 ^ k + 1 := by
  rcases lt_trichotomy (2 * (n % 2 ^ k)) (2 ^ k) with h | h | h
  · exact (roundShift_lower hk (.inl h)).le.trans (Nat.le_succ _)
  · by_cases heven : Even (n / 2 ^ k)
    · exact (roundShift_lower hk (.inr ⟨h, heven⟩)).le.trans (Nat.le_succ _)
    · exact (roundShift_upper hk (.inr ⟨h, heven⟩)).le
  · exact (roundShift_upper hk (.inl h)).le

/-- **Rounding by shifting.** Where `v` lies between two neighbours as the dropped bits do between
two multiples, the shift rounds `v`. -/
theorem nearestEven_roundShift (hf : StrictMono f) (hk : 0 < k)
    (hv : v = f (n / 2 ^ k) + (n % 2 ^ k : ℕ) / 2 ^ k * (f (n / 2 ^ k + 1) - f (n / 2 ^ k))) :
    NearestEven f v (roundShift k n) := by
  set q := n / 2 ^ k with hq
  set r := n % 2 ^ k with hr
  have hgap : 0 < f (q + 1) - f q := sub_pos.mpr (hf (Nat.lt_succ_self q))
  have hpow : (0 : ℚ) < 2 ^ k := by positivity
  have hrest : (r : ℚ) / 2 ^ k < 1 := by
    rw [div_lt_one hpow]
    exact_mod_cast Nat.mod_lt n (Nat.two_pow_pos k)
  have hrest₀ : (0 : ℚ) ≤ r / 2 ^ k := by positivity
  have hlow : f q ≤ v := by
    rw [hv]
    nlinarith
  have hhigh : v ≤ f (q + 1) := by
    rw [hv]
    nlinarith
  -- twice the distance to the lower neighbour, in gaps
  have hdist : v - f q = r / 2 ^ k * (f (q + 1) - f q) := by
    rw [hv]
    ring
  have hdist' : f (q + 1) - v = (1 - r / 2 ^ k) * (f (q + 1) - f q) := by
    rw [hv]
    ring
  have hhalf : ∀ {a : ℕ}, ((a : ℚ) < 2 ^ k ↔ a < 2 ^ k) := by
    intro a
    exact_mod_cast Iff.rfl
  rcases lt_trichotomy (2 * r) (2 ^ k) with hlt | heq | hgt
  · rw [roundShift_lower hk (.inl hlt)]
    refine nearestEven_lower hf hlow (.inl ?_)
    rw [hdist, hdist']
    refine mul_lt_mul_of_pos_right ?_ hgap
    have : (r : ℚ) / 2 ^ k < 1 / 2 := by
      rw [div_lt_div_iff₀ hpow two_pos]
      have : ((2 * r : ℕ) : ℚ) < 2 ^ k := hhalf.mpr hlt
      push_cast at this
      linarith
    linarith
  · have hr2 : (r : ℚ) / 2 ^ k = 1 / 2 := by
      rw [div_eq_div_iff hpow.ne' two_ne_zero]
      have : ((2 * r : ℕ) : ℚ) = 2 ^ k := by exact_mod_cast heq
      push_cast at this
      linarith
    by_cases heven : Even q
    · rw [roundShift_lower hk (.inr ⟨heq, heven⟩)]
      refine nearestEven_lower hf hlow (.inr ⟨?_, heven⟩)
      rw [hdist, hdist', hr2]
      norm_num
    · rw [roundShift_upper hk (.inr ⟨heq, heven⟩)]
      refine nearestEven_upper hf hhigh (.inr ⟨?_, Nat.even_add_one.mpr heven⟩)
      rw [hdist, hdist', hr2]
      norm_num
  · rw [roundShift_upper hk (.inl hgt)]
    refine nearestEven_upper hf hhigh (.inl ?_)
    rw [hdist, hdist']
    refine mul_lt_mul_of_pos_right ?_ hgap
    have : (1 : ℚ) / 2 < r / 2 ^ k := by
      rw [div_lt_div_iff₀ two_pos hpow]
      have : ((2 : ℕ) : ℚ) ^ k < ((2 * r : ℕ) : ℚ) := by exact_mod_cast hgt
      push_cast at this
      linarith
    linarith

end Nearest

/-! ### Formats and their values -/

/-- The widths of the two fields under the sign. -/
structure BinaryFormat where
  exponentBits : ℕ
  mantissaBits : ℕ
  exponentBits_pos : 0 < exponentBits
  mantissaBits_pos : 0 < mantissaBits

/-- The magnitude of a code with `p` mantissa bits, in units of the smallest positive one.  A zero
exponent field has no leading bit. -/
def units (p n : ℕ) : ℕ :=
  if n / 2 ^ p = 0 then n % 2 ^ p else (2 ^ p + n % 2 ^ p) * 2 ^ (n / 2 ^ p - 1)

section Units

variable {p n k i c : ℕ}

theorem units_of_lt (h : n < 2 ^ p) : units p n = n := by
  rw [units, if_pos (Nat.div_eq_of_lt h), Nat.mod_eq_of_lt h]

/-- The gap above a code is a power of two that depends on its exponent field only. -/
theorem units_succ (p n : ℕ) : units p (n + 1) = units p n + 2 ^ (n / 2 ^ p - 1) := by
  have hpos := Nat.two_pow_pos p
  have hsum := Nat.div_add_mod n (2 ^ p)
  have hlt := Nat.mod_lt n hpos
  rcases Nat.lt_or_ge (n % 2 ^ p + 1) (2 ^ p) with h | h
  · -- the exponent field stays
    obtain ⟨hdiv, hmod⟩ : (n + 1) / 2 ^ p = n / 2 ^ p ∧ (n + 1) % 2 ^ p = n % 2 ^ p + 1 :=
      (Nat.div_mod_unique hpos).mpr ⟨by omega, h⟩
    rw [units, units, hdiv, hmod]
    split
    · next h0 => rw [h0, Nat.zero_sub, Nat.pow_zero]
    · ring
  · -- the mantissa field carries
    have hmod : n % 2 ^ p = 2 ^ p - 1 := by omega
    have hn : n + 1 = 2 ^ p * (n / 2 ^ p + 1) := by
      rw [Nat.mul_add, Nat.mul_one]
      omega
    have hdiv : (n + 1) / 2 ^ p = n / 2 ^ p + 1 := by rw [hn, Nat.mul_div_cancel_left _ hpos]
    have hmod' : (n + 1) % 2 ^ p = 0 := by rw [hn, Nat.mul_mod_right]
    rw [units, units, hdiv, hmod', hmod, if_neg (Nat.succ_ne_zero _), Nat.add_zero,
      Nat.add_sub_cancel]
    split
    · next h0 =>
      rw [h0, Nat.pow_zero, Nat.mul_one]
      omega
    · next h0 =>
      obtain ⟨e, he⟩ := Nat.exists_eq_succ_of_ne_zero h0
      rw [he, Nat.succ_sub_one, pow_succ, ← Nat.add_one_mul, ← Nat.mul_assoc, Nat.mul_right_comm]
      congr 1
      omega

theorem units_strictMono (p : ℕ) : StrictMono (units p) :=
  strictMono_nat_of_lt_succ fun n => by
    rw [units_succ]
    exact Nat.lt_add_of_pos_right (Nat.two_pow_pos _)

/-- Between two multiples of `2 ^ k` the magnitudes are affine. -/
theorem units_add (hk : k ≤ p) (h : ℕ) (hi : i ≤ 2 ^ k) :
    units p (h * 2 ^ k + i) = units p (h * 2 ^ k) + i * 2 ^ (h * 2 ^ k / 2 ^ p - 1) := by
  induction i with
  | zero => simp
  | succ i ih =>
    have hdiv : (h * 2 ^ k + i) / 2 ^ p = h * 2 ^ k / 2 ^ p := by
      obtain ⟨d, rfl⟩ := Nat.exists_eq_add_of_le hk
      rw [Nat.pow_add, ← Nat.div_div_eq_div_mul, ← Nat.div_div_eq_div_mul,
        Nat.mul_comm h, Nat.mul_add_div (Nat.two_pow_pos k), Nat.div_eq_of_lt (a := i) (by omega),
        Nat.mul_div_cancel_left _ (Nat.two_pow_pos k), Nat.add_zero]
    rw [← Nat.add_assoc, units_succ, ih (by omega), hdiv]
    ring

/-- More mantissa bits: the same magnitudes in smaller units. -/
theorem units_mul (p k n : ℕ) : units (p + k) (n * 2 ^ k) = units p n * 2 ^ k := by
  have hdiv : n * 2 ^ k / 2 ^ (p + k) = n / 2 ^ p := by
    rw [Nat.pow_add, Nat.mul_div_mul_right _ _ (Nat.two_pow_pos k)]
  have hmod : n * 2 ^ k % 2 ^ (p + k) = n % 2 ^ p * 2 ^ k := by
    rw [Nat.pow_add, Nat.mul_mod_mul_right]
  rw [units, units, hdiv, hmod]
  split
  · rfl
  · rw [Nat.pow_add]
    ring

/-- A larger exponent field. -/
theorem units_rebias (c : ℕ) (h : 2 ^ p ≤ n) : units p (n + c * 2 ^ p) = units p n * 2 ^ c := by
  have hpos := Nat.two_pow_pos p
  have hdiv : (n + c * 2 ^ p) / 2 ^ p = n / 2 ^ p + c := Nat.add_mul_div_right _ _ hpos
  have hmod : (n + c * 2 ^ p) % 2 ^ p = n % 2 ^ p := Nat.add_mul_mod_self_right _ _ _
  have he : 0 < n / 2 ^ p := Nat.div_pos h hpos
  rw [units, units, hdiv, hmod, if_neg (by omega), if_neg (by omega), Nat.mul_assoc, ← Nat.pow_add]
  congr 2
  omega

/-- The magnitudes with `k` bits dropped lie between two neighbours as the dropped bits do. -/
theorem units_interpolate (p : ℕ) {k : ℕ} (n : ℕ) :
    (units (p + k) n : ℚ) = (units p (n / 2 ^ k) + (n % 2 ^ k : ℕ) / 2 ^ k *
      (units p (n / 2 ^ k + 1) - units p (n / 2 ^ k))) * 2 ^ k := by
  have hpos : (0 : ℚ) < 2 ^ k := by positivity
  have hle : k ≤ p + k := Nat.le_add_left k p
  have hn : n / 2 ^ k * 2 ^ k + n % 2 ^ k = n := Nat.div_add_mod' n (2 ^ k)
  have hlow := units_add hle (n / 2 ^ k) (Nat.mod_lt n (Nat.two_pow_pos k)).le
  have hhigh := units_add hle (n / 2 ^ k) (le_refl (2 ^ k))
  rw [hn, units_mul] at hlow
  rw [← Nat.add_one_mul, units_mul, units_mul] at hhigh
  have hlow' : (units (p + k) n : ℚ) = units p (n / 2 ^ k) * 2 ^ k +
      (n % 2 ^ k : ℕ) * 2 ^ (n / 2 ^ k * 2 ^ k / 2 ^ (p + k) - 1) := by exact_mod_cast hlow
  have hhigh' : (units p (n / 2 ^ k + 1) : ℚ) * 2 ^ k = units p (n / 2 ^ k) * 2 ^ k +
      2 ^ k * 2 ^ (n / 2 ^ k * 2 ^ k / 2 ^ (p + k) - 1) := by exact_mod_cast hhigh
  have hgap : (units p (n / 2 ^ k + 1) : ℚ) - units p (n / 2 ^ k) =
      2 ^ (n / 2 ^ k * 2 ^ k / 2 ^ (p + k) - 1) :=
    mul_right_cancel₀ hpos.ne' (by linear_combination hhigh')
  rw [hlow', hgap]
  field_simp

end Units

namespace BinaryFormat

variable (F : BinaryFormat)

/-- What is added to an exponent in its field. -/
def bias : ℕ := 2 ^ (F.exponentBits - 1) - 1

/-- The smallest positive magnitude. -/
def unit : ℚ := 2 ^ (1 - (F.bias : ℤ) - F.mantissaBits)

/-- The magnitude of a code, also past the largest finite one. -/
def magnitude (n : ℕ) : ℚ := units F.mantissaBits n * F.unit

/-- The number of codes, and the weight of the sign bit. -/
def signBit : ℕ := 2 ^ (F.exponentBits + F.mantissaBits)

/-- The code of infinity: an exponent field of ones and no mantissa. -/
def infinity : ℕ := (2 ^ F.exponentBits - 1) * 2 ^ F.mantissaBits

/-- The pattern with a given sign and code. -/
def pack (negative : Bool) (n : ℕ) : ℕ := (if negative then F.signBit else 0) + n

/-! ### Reading a bit pattern -/

/-- The sign of a pattern. -/
def negative (bits : ℕ) : Bool := decide (F.signBit ≤ bits)

/-- A pattern without its sign. -/
def code (bits : ℕ) : ℕ := bits % F.signBit

/-- The mantissa field. -/
def mantissa (bits : ℕ) : ℕ := bits % 2 ^ F.mantissaBits

/-- The number a finite pattern stands for. -/
def toRat (bits : ℕ) : ℚ :=
  if F.negative bits then -F.magnitude (F.code bits) else F.magnitude (F.code bits)

def IsFinite (bits : ℕ) : Prop := F.code bits < F.infinity

def IsInfinite (bits : ℕ) : Prop := F.code bits = F.infinity

def IsNaN (bits : ℕ) : Prop := F.infinity < F.code bits

instance (bits : ℕ) : Decidable (F.IsFinite bits) := inferInstanceAs (Decidable (_ < _))

instance (bits : ℕ) : Decidable (F.IsInfinite bits) := inferInstanceAs (Decidable (_ = _))

instance (bits : ℕ) : Decidable (F.IsNaN bits) := inferInstanceAs (Decidable (_ < _))

/-! ### Correct rounding -/

/-- Halfway between the largest finite number and the power of two that follows it. -/
def overflow : ℚ := (F.magnitude (F.infinity - 1) + F.magnitude F.infinity) / 2

/-- The pattern is the correctly rounded `v`: it has the given sign, it is a nearest finite number,
it has an even mantissa if another number is as near, and it is infinity from the overflow on. -/
structure RoundsTo (v : ℚ) (negative : Bool) (bits : ℕ) : Prop where
  sign : F.negative bits = negative
  nearest : |v| < F.overflow → F.IsFinite bits ∧ ∀ other, F.IsFinite other →
    |v - F.toRat bits| ≤ |v - F.toRat other| ∧
    (|v - F.toRat other| = |v - F.toRat bits| →
      F.toRat other = F.toRat bits ∨ Even (F.mantissa bits))
  overflow : F.overflow ≤ |v| → F.IsInfinite bits

/-- The pattern `y` of `G` is what the pattern `x` of `F` converts to. -/
structure Converts (F G : BinaryFormat) (x y : ℕ) : Prop where
  nan : F.IsNaN x → G.IsNaN y
  infinite : F.IsInfinite x → G.IsInfinite y ∧ G.negative y = F.negative x
  finite : F.IsFinite x → G.RoundsTo (F.toRat x) (F.negative x) y

variable {F} {n m bits : ℕ} {v : ℚ} {sign : Bool}

theorem unit_pos : 0 < F.unit := zpow_pos two_pos _

theorem magnitude_strictMono : StrictMono F.magnitude := fun _ _ h =>
  mul_lt_mul_of_pos_right (Nat.cast_lt.mpr (units_strictMono _ h)) unit_pos

/-- A number of a finer format lies between two neighbours as the further bits do. -/
theorem magnitude_interpolate {F G : BinaryFormat} {k : ℕ} (hbias : F.bias = G.bias)
    (hmantissa : F.mantissaBits = G.mantissaBits + k) (n : ℕ) :
    F.magnitude n = G.magnitude (n / 2 ^ k) + (n % 2 ^ k : ℕ) / 2 ^ k *
      (G.magnitude (n / 2 ^ k + 1) - G.magnitude (n / 2 ^ k)) := by
  have hunit : (2 : ℚ) ^ k * F.unit = G.unit := by
    rw [unit, unit, hbias, hmantissa, ← zpow_natCast, ← zpow_add₀ two_ne_zero]
    congr 1
    push_cast
    ring
  rw [magnitude, hmantissa, units_interpolate, mul_assoc, hunit, magnitude, magnitude]
  ring

/-- The same number with another bias. -/
theorem magnitude_rebias {F G : BinaryFormat} {c : ℕ} (hbias : F.bias = G.bias + c)
    (hmantissa : F.mantissaBits = G.mantissaBits) (h : 2 ^ G.mantissaBits ≤ n) :
    F.magnitude (n + c * 2 ^ G.mantissaBits) = G.magnitude n := by
  have hunit : (2 : ℚ) ^ c * F.unit = G.unit := by
    rw [unit, unit, hbias, hmantissa, ← zpow_natCast, ← zpow_add₀ two_ne_zero]
    congr 1
    push_cast
    ring
  rw [magnitude, hmantissa, units_rebias c h, Nat.cast_mul, Nat.cast_pow, Nat.cast_ofNat, mul_assoc,
    hunit, magnitude]

/-- **Dropping mantissa bits rounds.** -/
theorem nearestEven_magnitude {F G : BinaryFormat} {k : ℕ} (hk : 0 < k) (hbias : F.bias = G.bias)
    (hmantissa : F.mantissaBits = G.mantissaBits + k) (n : ℕ) :
    NearestEven G.magnitude (F.magnitude n) (roundShift k n) :=
  nearestEven_roundShift magnitude_strictMono hk (magnitude_interpolate hbias hmantissa n)

theorem magnitude_zero : F.magnitude 0 = 0 := by
  rw [magnitude, units_of_lt (Nat.two_pow_pos _), Nat.cast_zero, zero_mul]

theorem magnitude_nonneg (n : ℕ) : 0 ≤ F.magnitude n := by
  rw [← magnitude_zero (F := F)]
  exact magnitude_strictMono.monotone (Nat.zero_le n)

theorem infinity_pos : 0 < F.infinity := by
  have h := Nat.one_lt_two_pow F.exponentBits_pos.ne'
  exact Nat.mul_pos (by omega) (Nat.two_pow_pos _)

theorem infinity_lt : F.infinity < F.signBit := by
  rw [infinity, signBit, Nat.pow_add]
  exact Nat.mul_lt_mul_of_pos_right (Nat.sub_lt (Nat.two_pow_pos _) one_pos) (Nat.two_pow_pos _)

theorem infinity_even : Even F.infinity :=
  Nat.even_mul.mpr (.inr ((Nat.even_pow.mpr ⟨even_two, F.mantissaBits_pos.ne'⟩)))

theorem negative_pack (sign : Bool) (hn : n < F.signBit) : F.negative (F.pack sign n) = sign := by
  cases sign with
  | false => simpa [negative, pack] using hn
  | true => simp [negative, pack]

theorem code_pack (sign : Bool) (hn : n < F.signBit) : F.code (F.pack sign n) = n := by
  cases sign with
  | false => simpa [code, pack] using Nat.mod_eq_of_lt hn
  | true => simpa [code, pack] using Nat.mod_eq_of_lt hn

theorem pack_code (hbits : bits < 2 * F.signBit) :
    F.pack (F.negative bits) (F.code bits) = bits := by
  by_cases h : F.signBit ≤ bits
  · rw [pack, negative, decide_eq_true h, if_pos rfl, code, Nat.mod_eq_sub_mod h,
      Nat.mod_eq_of_lt (by omega)]
    omega
  · rw [pack, negative, decide_eq_false h, code, Nat.mod_eq_of_lt (by omega)]
    simp

theorem even_mantissa : Even (F.mantissa bits) ↔ Even bits := by
  obtain ⟨p, hp⟩ := Nat.exists_eq_succ_of_ne_zero F.mantissaBits_pos.ne'
  rw [mantissa, hp, Nat.even_iff, Nat.even_iff,
    Nat.mod_mod_of_dvd _ (dvd_pow_self 2 p.succ_ne_zero)]

theorem even_pack (sign : Bool) : Even (F.pack sign n) ↔ Even n := by
  have hsign : Even F.signBit :=
    Nat.even_pow.mpr ⟨even_two, by have := F.exponentBits_pos; omega⟩
  cases sign with
  | false => simp [pack]
  | true => simp [pack, Nat.even_add, hsign]

theorem toRat_eq_zero : F.toRat bits = 0 ↔ F.code bits = 0 := by
  have hcode : F.magnitude (F.code bits) = 0 ↔ F.code bits = 0 := by
    rw [← magnitude_zero (F := F)]
    exact magnitude_strictMono.injective.eq_iff
  rw [toRat]
  split
  · rw [neg_eq_zero, hcode]
  · exact hcode

theorem abs_toRat (bits : ℕ) : |F.toRat bits| = F.magnitude (F.code bits) := by
  rw [toRat]
  split
  · rw [abs_neg, abs_of_nonneg (magnitude_nonneg _)]
  · rw [abs_of_nonneg (magnitude_nonneg _)]

/-- Signs apart, numbers are as far from each other as their magnitudes, or farther. -/
theorem abs_sub_le_abs_sub (hv : v = if sign then -|v| else |v|) (bits : ℕ) :
    abs (|v| - F.magnitude (F.code bits)) ≤ |v - F.toRat bits| ∧
      (F.negative bits = sign → |v - F.toRat bits| = abs (|v| - F.magnitude (F.code bits))) := by
  constructor
  · rw [← abs_toRat]
    exact abs_abs_sub_abs_le v (F.toRat bits)
  · rintro rfl
    rw [toRat]
    split at hv
    · next h =>
      rw [if_pos h]
      nth_rewrite 1 [hv]
      rw [neg_sub_neg, abs_sub_comm]
    · next h =>
      rw [if_neg h]
      nth_rewrite 1 [hv]
      rfl

/-- Numbers of different signs are as far apart as their magnitudes together. -/
theorem abs_sub_of_negative_ne (hv : v = if sign then -|v| else |v|) (h : F.negative bits ≠ sign) :
    |v - F.toRat bits| = |v| + F.magnitude (F.code bits) := by
  have hpos := magnitude_nonneg (F := F) (F.code bits)
  have habs := abs_nonneg v
  rw [toRat]
  cases sign with
  | false =>
    rw [if_pos (Bool.eq_true_of_not_eq_false h), sub_neg_eq_add]
    nth_rewrite 1 [hv]
    exact abs_of_nonneg (add_nonneg habs hpos)
  | true =>
    rw [if_neg h]
    nth_rewrite 1 [hv]
    rw [if_pos rfl, ← neg_add', abs_neg]
    exact abs_of_nonneg (add_nonneg habs hpos)

theorem magnitude_pred_infinity_lt (F : BinaryFormat) :
    F.magnitude (F.infinity - 1) < F.magnitude F.infinity :=
  magnitude_strictMono (Nat.sub_lt infinity_pos one_pos)

theorem lt_infinity_of_nearest (h : NearestEven F.magnitude v n) (hv : v < F.overflow) :
    n < F.infinity := by
  by_contra hn
  have hle := (magnitude_strictMono (F := F)).monotone (Nat.le_of_not_lt hn)
  have hlast := F.magnitude_pred_infinity_lt
  rw [BinaryFormat.overflow] at hv
  have hdist := (h (F.infinity - 1)).1
  rw [abs_of_nonpos (by linarith)] at hdist
  rcases abs_cases (v - F.magnitude (F.infinity - 1)) with ⟨heq, -⟩ | ⟨heq, -⟩ <;> linarith

theorem infinity_le_of_nearest (h : NearestEven F.magnitude v n) (hv : F.overflow ≤ v) :
    F.infinity ≤ n := by
  by_contra hn
  have hle := (magnitude_strictMono (F := F)).monotone (Nat.le_pred_of_lt (Nat.lt_of_not_le hn))
  have hlast := F.magnitude_pred_infinity_lt
  rw [BinaryFormat.overflow] at hv
  rw [Nat.pred_eq_sub_one] at hle
  have habs : |v - F.magnitude n| = v - F.magnitude n := abs_of_nonneg (by linarith)
  obtain ⟨hnear, htie⟩ := h F.infinity
  rw [habs] at hnear htie
  rcases abs_cases (v - F.magnitude F.infinity) with ⟨heq, -⟩ | ⟨heq, -⟩
  · linarith
  · -- a tie, between the largest finite number, which is odd, and infinity
    have hlast' : F.magnitude n = F.magnitude (F.infinity - 1) := by linarith
    obtain rfl := magnitude_strictMono.injective hlast'
    rcases htie (by linarith) with hcode | heven
    · have := infinity_pos (F := F)
      omega
    · have hodd := infinity_even (F := F)
      rw [← Nat.sub_add_cancel (infinity_pos (F := F)), Nat.even_add_one] at hodd
      exact hodd heven

/-- **Rounding the magnitude rounds the number.** -/
theorem RoundsTo.of_nearest (h : NearestEven F.magnitude |v| n) (hn : n ≤ F.infinity)
    (hv : v = if sign then -|v| else |v|) : F.RoundsTo v sign (F.pack sign n) := by
  have hlt : n < F.signBit := hn.trans_lt infinity_lt
  have hsign := negative_pack sign hlt
  have hcode := code_pack sign hlt
  refine ⟨hsign, fun hover => ⟨?_, fun other _ => ?_⟩, fun hover => ?_⟩
  · rw [IsFinite, hcode]
    exact lt_infinity_of_nearest h hover
  · obtain ⟨hother, -⟩ := abs_sub_le_abs_sub hv other
    have hself := (abs_sub_le_abs_sub hv (F.pack sign n)).2 hsign
    rw [hcode] at hself
    obtain ⟨hnear, htie⟩ := h (F.code other)
    refine ⟨hself ▸ hnear.trans hother, fun heq => ?_⟩
    rw [even_mantissa, even_pack]
    rw [hself] at heq
    rcases htie (le_antisymm (hother.trans heq.le) hnear) with hsame | heven
    · by_cases hs : F.negative other = sign
      · refine .inl ?_
        rw [toRat, toRat, hsign, hcode, hs, hsame]
      · -- as near on both sides of zero, so both are zero
        refine .inr ?_
        have hzero := (h 0).1
        rw [abs_sub_of_negative_ne hv hs, hsame] at heq
        rw [← heq, magnitude_zero, sub_zero, abs_abs] at hzero
        have hn0 : F.magnitude n = F.magnitude 0 := by
          rw [magnitude_zero]
          exact le_antisymm (by linarith) (magnitude_nonneg n)
        rw [magnitude_strictMono.injective hn0]
        exact Even.zero
    · exact .inr heven
  · rw [IsInfinite, hcode]
    exact le_antisymm hn (infinity_le_of_nearest h hover)

/-- Too large a number rounds to infinity. -/
theorem RoundsTo.of_overflow (h : F.magnitude F.infinity ≤ |v|) :
    F.RoundsTo v sign (F.pack sign F.infinity) := by
  have hlast := F.magnitude_pred_infinity_lt
  refine ⟨negative_pack sign infinity_lt, fun hover => ?_, fun _ => code_pack sign infinity_lt⟩
  rw [BinaryFormat.overflow] at hover
  linarith

/-- **A number of the format rounds to itself**, its sign included. -/
theorem RoundsTo.eq_of_toRat {x : ℕ} (h : F.RoundsTo (F.toRat x) (F.negative x) bits)
    (hfinite : F.IsFinite x) (hx : x < 2 * F.signBit) (hbits : bits < 2 * F.signBit) :
    bits = x := by
  have hover : |F.toRat x| < F.overflow := by
    have hlast := F.magnitude_pred_infinity_lt
    have hle := (magnitude_strictMono (F := F)).monotone (Nat.le_pred_of_lt hfinite)
    rw [Nat.pred_eq_sub_one] at hle
    rw [abs_toRat, BinaryFormat.overflow]
    linarith
  have hdist := ((h.nearest hover).2 x hfinite).1
  rw [sub_self, abs_zero] at hdist
  have heq : F.toRat x = F.toRat bits := sub_eq_zero.mp (abs_nonpos_iff.mp hdist)
  have hcode : F.code x = F.code bits := by
    have habs := congrArg abs heq
    rw [abs_toRat, abs_toRat] at habs
    exact magnitude_strictMono.injective habs
  rw [← pack_code hbits, ← pack_code hx, h.sign, hcode]

end BinaryFormat

end InfiniRT.Library
