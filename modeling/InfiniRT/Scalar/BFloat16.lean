import InfiniRT.Library.BinaryFormat

/-!
# `BFloat16`

A `float` is its bit pattern, which is what `std::memcpy` moves.  `FromFloat` adds a bias to the
pattern and keeps the upper half, with no case for what is not a number: a carry turns some of these
into zero, and a payload in the lower half is dropped.  Proved:

* **`fromFloat_converts_iff`** — the exact condition under which `FromFloat` is right.
-/

namespace InfiniRT.Scalar

open InfiniRT.Library (BinaryFormat NearestEven roundShift roundShift_le)

theorem exponentBits_pos : 0 < 8 := Nat.succ_pos 7

theorem mantissaBits_pos : 0 < 23 := Nat.succ_pos 22

theorem upperMantissaBits_pos : 0 < 7 := Nat.succ_pos 6

/-- The format of `float`. -/
def binary32 : BinaryFormat := ⟨8, 23, exponentBits_pos, mantissaBits_pos⟩

/-- The format of `BFloat16`: a `float` without its lower half. -/
def bfloat16 : BinaryFormat := ⟨8, 7, exponentBits_pos, upperMantissaBits_pos⟩

theorem signBit_bfloat16 : bfloat16.signBit = 2 ^ 15 := rfl

theorem signBit_binary32 : binary32.signBit = 2 ^ 31 := rfl

theorem infinity_bfloat16 : bfloat16.infinity = 255 * 2 ^ 7 := rfl

theorem infinity_binary32 : binary32.infinity = 255 * 2 ^ 23 := rfl

/-- `float`. -/
abbrev Float32 := BitVec 32

/-- `BFloat16`. -/
structure BFloat16 where
  bits : BitVec 16
  deriving DecidableEq, Repr

namespace BFloat16

/-- `FromFloat`. -/
def fromFloat (val : Float32) : BFloat16 :=
  let roundingBias := 0x00007FFF#32 + ((val >>> 16) &&& 1#32)
  { bits := ((val + roundingBias) >>> 16).setWidth 16 }

/-- `ToFloat`. -/
def toFloat (val : BFloat16) : Float32 := val.bits.setWidth 32 <<< 16

/-- The upper half, and a carry out of the lower one. -/
theorem fromFloat_toNat (x : Float32) : (fromFloat x).bits.toNat =
    (x.toNat / 2 ^ 16 + (x.toNat % 2 ^ 16 + (2 ^ 15 - 1) + x.toNat / 2 ^ 16 % 2) / 2 ^ 16) %
      2 ^ 16 := by
  have hx := x.isLt
  simp only [fromFloat, BitVec.toNat_setWidth, BitVec.toNat_ushiftRight, BitVec.toNat_add,
    BitVec.toNat_and, BitVec.toNat_ofNat, Nat.shiftRight_eq_div_pow, Nat.one_mod,
    Nat.and_one_is_mod]
  omega

/-- The NaN patterns whose upper half keeps a payload when the lower half is rounded away. -/
def PayloadSurvives (x : Float32) : Prop :=
  2 ^ 15 < binary32.mantissa x.toNat ∧ binary32.mantissa x.toNat < 2 ^ 23 - 2 ^ 15

instance (x : Float32) : Decidable (PayloadSurvives x) := inferInstanceAs (Decidable (_ ∧ _))

theorem roundShift_eq_add (k n : ℕ) :
    roundShift k n = n / 2 ^ k + (n % 2 ^ k + (2 ^ (k - 1) - 1) + n / 2 ^ k % 2) / 2 ^ k := by
  have hn := Nat.div_add_mod n (2 ^ k)
  rw [roundShift, Nat.add_assoc, ← Nat.mul_add_div (Nat.two_pow_pos k)]
  congr 1
  omega

/-- Up to infinity no carry reaches the sign, and the code is rounded. -/
theorem fromFloat_eq_pack (x : Float32) (h : binary32.code x.toNat ≤ binary32.infinity) :
    (fromFloat x).bits.toNat =
      bfloat16.pack (binary32.negative x.toNat) (roundShift 16 (binary32.code x.toNat)) := by
  have hx := x.isLt
  rw [BinaryFormat.code, signBit_binary32, infinity_binary32] at h
  rw [fromFloat_toNat, roundShift_eq_add, BinaryFormat.pack, BinaryFormat.negative,
    BinaryFormat.code, signBit_bfloat16, signBit_binary32]
  have hhalf : x.toNat % 2 ^ 31 / 2 ^ 16 = x.toNat / 2 ^ 16 % 2 ^ 15 := by omega
  have hbit : x.toNat / 2 ^ 16 % 2 ^ 15 % 2 = x.toNat / 2 ^ 16 % 2 := by omega
  have hlow : x.toNat % 2 ^ 31 % 2 ^ 16 = x.toNat % 2 ^ 16 := by omega
  have hcarry : (x.toNat % 2 ^ 16 + (2 ^ 15 - 1) + x.toNat / 2 ^ 16 % 2) / 2 ^ 16 ≤ 1 := by omega
  rw [hhalf, hbit, hlow]
  generalize (x.toNat % 2 ^ 16 + (2 ^ 15 - 1) + x.toNat / 2 ^ 16 % 2) / 2 ^ 16 = carry at *
  split <;> simp only [decide_eq_true_eq] at * <;> omega

theorem fromFloat_finite (x : Float32) (h : binary32.IsFinite x.toNat) :
    bfloat16.RoundsTo (binary32.toRat x.toNat) (binary32.negative x.toNat)
      (fromFloat x).bits.toNat := by
  have hnearest := BinaryFormat.nearestEven_magnitude (F := binary32) (G := bfloat16) (k := 16)
    (Nat.succ_pos 15) rfl rfl (binary32.code x.toNat)
  have hle := roundShift_le (k := 16) (Nat.succ_pos 15) (binary32.code x.toNat)
  rw [← BinaryFormat.abs_toRat] at hnearest
  rw [fromFloat_eq_pack x (Nat.le_of_lt h)]
  refine .of_nearest hnearest (hle.trans ?_) ?_
  · rw [BinaryFormat.IsFinite, infinity_binary32] at h
    rw [infinity_bfloat16]
    omega
  · rw [BinaryFormat.abs_toRat]
    rfl

theorem fromFloat_infinite (x : Float32) (h : binary32.IsInfinite x.toNat) :
    bfloat16.IsInfinite (fromFloat x).bits.toNat ∧
      bfloat16.negative (fromFloat x).bits.toNat = binary32.negative x.toNat := by
  have hround : roundShift 16 binary32.infinity = bfloat16.infinity := rfl
  rw [fromFloat_eq_pack x (Nat.le_of_eq h), h, hround]
  exact ⟨BinaryFormat.code_pack _ BinaryFormat.infinity_lt,
    BinaryFormat.negative_pack _ BinaryFormat.infinity_lt⟩

theorem fromFloat_nan_iff (x : Float32) (h : binary32.IsNaN x.toNat) :
    bfloat16.IsNaN (fromFloat x).bits.toNat ↔ PayloadSurvives x := by
  have hmantissa : binary32.mantissa x.toNat = x.toNat % 2 ^ 23 := rfl
  rw [BinaryFormat.IsNaN, BinaryFormat.code, signBit_binary32, infinity_binary32] at h
  rw [BinaryFormat.IsNaN, BinaryFormat.code, signBit_bfloat16, infinity_bfloat16, fromFloat_toNat,
    PayloadSurvives, hmantissa]
  -- the exponent field is all ones, so the upper half is a sign, ones and a payload
  obtain ⟨sign, upper, low, hx, hupper, hlow⟩ : ∃ sign upper low, x.toNat =
      (sign * 2 ^ 15 + 255 * 2 ^ 7 + upper) * 2 ^ 16 + low ∧ upper < 2 ^ 7 ∧ low < 2 ^ 16 := by
    have hlt := x.isLt
    exact ⟨x.toNat / 2 ^ 31, x.toNat / 2 ^ 16 % 2 ^ 7, x.toNat % 2 ^ 16, by omega, by omega,
      by omega⟩
  have htop : x.toNat / 2 ^ 16 = sign * 2 ^ 15 + 255 * 2 ^ 7 + upper := by omega
  have hbit : x.toNat / 2 ^ 16 % 2 = upper % 2 := by omega
  have hlow' : x.toNat % 2 ^ 16 = low := by omega
  have hpayload : x.toNat % 2 ^ 23 = upper * 2 ^ 16 + low := by omega
  rw [hbit, htop, hlow', hpayload]
  clear hbit htop hlow' hpayload hmantissa h hx
  rcases Nat.lt_or_ge (low + (2 ^ 15 - 1) + upper % 2) (2 ^ 16) with hcarry | hcarry
  · rw [Nat.div_eq_of_lt hcarry]
    omega
  · have hone : (low + (2 ^ 15 - 1) + upper % 2) / 2 ^ 16 = 1 := by omega
    have hcode : (sign * 2 ^ 15 + 255 * 2 ^ 7 + upper + 1) % 2 ^ 16 % 2 ^ 15 =
        (255 * 2 ^ 7 + upper + 1) % 2 ^ 15 := by omega
    rw [hone, hcode]
    clear hcode hone
    rcases Nat.lt_or_eq_of_le (Nat.le_of_lt_succ hupper) with hlt | rfl
    · rw [Nat.mod_eq_of_lt (by omega)]
      omega
    · omega

/-- **`FromFloat` converts a pattern correctly if and only if it is not a NaN whose payload is
rounded away.** -/
theorem fromFloat_converts_iff (x : Float32) :
    binary32.Converts bfloat16 x.toNat (fromFloat x).bits.toNat ↔
      (binary32.IsNaN x.toNat → PayloadSurvives x) := by
  constructor
  · intro h hnan
    exact (fromFloat_nan_iff x hnan).mp (h.nan hnan)
  · intro h
    exact ⟨fun hnan => (fromFloat_nan_iff x hnan).mpr (h hnan), fromFloat_infinite x,
      fromFloat_finite x⟩

/-- The NaN with every payload bit set becomes a negative zero. -/
theorem fromFloat_loses_nan :
    ¬binary32.Converts bfloat16 (0x7FFFFFFF#32).toNat (fromFloat 0x7FFFFFFF#32).bits.toNat := by
  intro h
  have hnan : binary32.IsNaN (0x7FFFFFFF#32).toNat := by decide
  have hzero : (fromFloat 0x7FFFFFFF#32).bits = 0x8000#16 := by decide
  have hconverts := h.nan hnan
  rw [hzero] at hconverts
  exact absurd hconverts (by decide)

/-! ### Widening -/

theorem toFloat_toNat (b : BFloat16) : b.toFloat.toNat = b.bits.toNat * 2 ^ 16 := by
  have hb := b.bits.isLt
  rw [toFloat, BitVec.toNat_shiftLeft, BitVec.toNat_setWidth, Nat.shiftLeft_eq]
  omega

/-- `ToFloat` is exact. -/
theorem toRat_toFloat (b : BFloat16) :
    binary32.toRat b.toFloat.toNat = bfloat16.toRat b.bits.toNat := by
  have hnegative : binary32.negative b.toFloat.toNat = bfloat16.negative b.bits.toNat := by
    rw [BinaryFormat.negative, BinaryFormat.negative, toFloat_toNat, signBit_binary32,
      signBit_bfloat16]
    exact decide_eq_decide.mpr (by omega)
  have hcode : binary32.code b.toFloat.toNat = bfloat16.code b.bits.toNat * 2 ^ 16 := by
    rw [BinaryFormat.code, BinaryFormat.code, toFloat_toNat, signBit_binary32, signBit_bfloat16]
    omega
  have hmagnitude := BinaryFormat.magnitude_interpolate (F := binary32) (G := bfloat16) (k := 16)
    rfl rfl (bfloat16.code b.bits.toNat * 2 ^ 16)
  rw [Nat.mul_div_cancel _ (Nat.two_pow_pos 16), Nat.mul_mod_left, Nat.cast_zero, zero_div,
    zero_mul, add_zero] at hmagnitude
  rw [BinaryFormat.toRat, BinaryFormat.toRat, hnegative, hcode, hmagnitude]

/-- Every pattern comes back, those of NaN included. -/
theorem fromFloat_toFloat (b : BFloat16) : fromFloat b.toFloat = b := by
  have hb := b.bits.isLt
  have hbits : (fromFloat b.toFloat).bits = b.bits := by
    refine BitVec.eq_of_toNat_eq ?_
    rw [fromFloat_toNat, toFloat_toNat]
    omega
  cases b
  exact congrArg BFloat16.mk hbits

end BFloat16

end InfiniRT.Scalar
