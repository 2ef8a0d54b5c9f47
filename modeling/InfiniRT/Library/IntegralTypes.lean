import Mathlib.Data.BitVec
import Mathlib.Data.Int.Notation
import Mathlib.Tactic.Common

/-!
# Integral types and their conversions

The integral types of C++17 where `int` has 32 bits and `long` has 64.  A conversion to an unsigned
or signed type keeps the low bits, a conversion to `bool` keeps whether the value is zero.  Two
types have a common type, to which the usual arithmetic conversions bring an operand of each.
Proved:

* **`convert_unsigned`** — what a conversion gives, with `convert_signed` and `convert_bool`;
* **`hasValue_convert`** — a conversion gives a value of its type.
-/

namespace InfiniRT.Library

/-- What the platforms do not agree on. -/
structure Platform where
  charSigned : Bool
  wcharSigned : Bool
  deriving DecidableEq, Repr

/-- The integral types. -/
inductive IntegralType
  | bool
  | char
  | signedChar
  | unsignedChar
  | wchar
  | char16
  | char32
  | short
  | unsignedShort
  | int
  | unsignedInt
  | long
  | unsignedLong
  | longLong
  | unsignedLongLong
  deriving DecidableEq, Repr

namespace IntegralType

variable {P : Platform} {T U : IntegralType} {z : ℤ}

/-- The number of bits of a value. -/
def width : IntegralType → ℕ
  | .bool | .char | .signedChar | .unsignedChar => 8
  | .char16 | .short | .unsignedShort => 16
  | .wchar | .char32 | .int | .unsignedInt => 32
  | .long | .unsignedLong | .longLong | .unsignedLongLong => 64

/-- Whether a type has negative values. -/
def signed (P : Platform) : IntegralType → Bool
  | .char => P.charSigned
  | .wchar => P.wcharSigned
  | .signedChar | .short | .int | .long | .longLong => true
  | .bool | .unsignedChar | .char16 | .char32 => false
  | .unsignedShort | .unsignedInt | .unsignedLong | .unsignedLongLong => false

/-! ### The common type -/

/-- The integral promotions: to `int` where it has every value of the type. -/
def promote (P : Platform) : IntegralType → IntegralType
  | .bool | .char | .signedChar | .unsignedChar | .char16 | .short | .unsignedShort => .int
  | .wchar => if P.wcharSigned then .int else .unsignedInt
  | .char32 => .unsignedInt
  | T => T

/-- The conversion rank of a promoted type. -/
def rank : IntegralType → ℕ
  | .longLong | .unsignedLongLong => 2
  | .long | .unsignedLong => 1
  | _ => 0

/-- The unsigned type that corresponds to a promoted signed type. -/
def toUnsigned : IntegralType → IntegralType
  | .int => .unsignedInt
  | .long => .unsignedLong
  | .longLong => .unsignedLongLong
  | T => T

/-- The type of an operation on a signed and an unsigned operand. -/
def mixed (S U : IntegralType) : IntegralType :=
  if S.rank ≤ U.rank then U else if U.width < S.width then S else S.toUnsigned

/-- The usual arithmetic conversions of two promoted types. -/
def arithmetic (P : Platform) (T U : IntegralType) : IntegralType :=
  if T.signed P = U.signed P then
    if U.rank ≤ T.rank then T else U
  else if T.signed P then mixed T U else mixed U T

/-- `std::common_type_t<T, U>`: two equal types are not promoted. -/
def common (P : Platform) (T U : IntegralType) : IntegralType :=
  if T = U then T else arithmetic P (T.promote P) (U.promote P)

/-- `std::common_type_t<T, Ts...>`. -/
def commonType (P : Platform) (T : IntegralType) (Ts : List IntegralType) : IntegralType :=
  Ts.foldl (common P) T

/-! ### Conversions -/

/-- `static_cast<T>(z)`. -/
def convert (P : Platform) (T : IntegralType) (z : ℤ) : ℤ :=
  if T = .bool then
    if z = 0 then 0 else 1
  else if T.signed P then (BitVec.ofInt T.width z).toInt
  else (BitVec.ofInt T.width z).toNat

/-- A type has a value that its conversion does not change. -/
def HasValue (P : Platform) (T : IntegralType) (z : ℤ) : Prop := T.convert P z = z

instance : Decidable (HasValue P T z) := inferInstanceAs (Decidable (T.convert P z = z))

theorem convert_bool : IntegralType.bool.convert P z = if z = 0 then 0 else 1 := if_pos rfl

theorem convert_signed (hb : T ≠ .bool) (hs : T.signed P = true) :
    T.convert P z = (BitVec.ofInt T.width z).toInt := by
  rw [convert, if_neg hb, if_pos hs]

theorem convert_unsigned (hb : T ≠ .bool) (hs : T.signed P = false) :
    T.convert P z = (BitVec.ofInt T.width z).toNat := by
  rw [convert, if_neg hb, if_neg (by simp [hs])]

/-- A conversion gives a value of its type. -/
theorem hasValue_convert (P : Platform) (T : IntegralType) (z : ℤ) :
    HasValue P T (T.convert P z) := by
  unfold HasValue
  by_cases hb : T = .bool
  · subst hb
    rw [convert_bool, convert_bool]
    by_cases hz : z = 0
    · rw [if_pos hz, if_pos rfl]
    · rw [if_neg hz, if_neg (by decide)]
  · cases hs : T.signed P with
    | true =>
      rw [convert_signed hb hs, convert_signed hb hs, BitVec.ofInt_toInt]
    | false =>
      rw [convert_unsigned hb hs, convert_unsigned hb hs, BitVec.ofInt_natCast,
        BitVec.ofNat_toNat, BitVec.setWidth_eq]

end IntegralType

/-! ### Typed values -/

/-- A value together with its type. -/
structure Constant (P : Platform) where
  type : IntegralType
  value : ℤ
  hasValue : type.HasValue P value

namespace Constant

variable {P : Platform} {c c' : Constant P}

@[ext] theorem ext (ht : c.type = c'.type) (hv : c.value = c'.value) : c = c' := by
  cases c
  cases c'
  cases ht
  cases hv
  rfl

instance : DecidableEq (Constant P) := fun c c' =>
  decidable_of_iff (c.type = c'.type ∧ c.value = c'.value)
    ⟨fun h => ext h.1 h.2, fun h => h ▸ ⟨rfl, rfl⟩⟩

/-- `static_cast<T>(z)`. -/
def ofInt (P : Platform) (T : IntegralType) (z : ℤ) : Constant P :=
  ⟨T, T.convert P z, T.hasValue_convert P z⟩

/-- A value is the conversion of itself to its type. -/
theorem ofInt_type_value (c : Constant P) : ofInt P c.type c.value = c :=
  ext rfl c.hasValue

end Constant

end InfiniRT.Library
