import InfiniRT.Library.Brackets
import InfiniRT.Tensor.Rendering

/-!
# What the text of a scalar shows

`std::to_string` shows an integer in full, and of a floating-point number the sign, the kind and the
value to six decimals.  Two scalars have the same text exactly if they agree in what is shown.
Proved:

* **`Magnitude.text_injective`** — a text shows one magnitude;
* **`PrintedScalar.text_injective`** — a text shows one scalar.
-/

namespace InfiniRT.Tensor

open InfiniRT.Library.Brackets (append_inj_of_head)

/-! ### Decimal numbers -/

theorem isDigit_of_mem_toDigits {n : ℕ} {c : Char} (hc : c ∈ Nat.toDigits 10 n) :
    c.isDigit = true :=
  Nat.isDigit_of_mem_toDigits (by decide) (by decide) hc

theorem toDigits_injective {n n' : ℕ} (h : Nat.toDigits 10 n = Nat.toDigits 10 n') : n = n' := by
  rw [← Nat.ofDigitChars_ten_toDigits (n := n), h, Nat.ofDigitChars_ten_toDigits]

/-- Leading zeros do not change a number. -/
theorem ofDigitChars_padded (zeros n : ℕ) :
    Nat.ofDigitChars 10 (List.replicate zeros '0' ++ Nat.toDigits 10 n) 0 = n := by
  rw [Nat.ofDigitChars_append, Nat.ofDigitChars_replicate_zero, Nat.mul_zero,
    Nat.ofDigitChars_ten_toDigits]

/-! ### What is shown -/

/-- What is shown of an absolute value. -/
inductive Magnitude
  | whole (n : ℕ)
  | infinite
  | notANumber
  | millionths (n : ℕ)
  deriving DecidableEq, Repr

namespace Magnitude

/-- The text of an absolute value. -/
def text : Magnitude → List Char
  | whole n => Nat.toDigits 10 n
  | infinite => ['i', 'n', 'f']
  | notANumber => ['n', 'a', 'n']
  | millionths n =>
    let decimals := Nat.toDigits 10 (n % 10 ^ 6)
    Nat.toDigits 10 (n / 10 ^ 6) ++ '.' :: List.replicate (6 - decimals.length) '0' ++ decimals

/-- The characters of a text without its sign. -/
def IsBody (c : Char) : Prop := c.isDigit = true ∨ c ∈ ['.', 'i', 'n', 'f', 'a']

theorem isBody_of_mem_text {a : Magnitude} {c : Char} (hc : c ∈ a.text) : IsBody c := by
  cases a with
  | whole n => exact .inl (isDigit_of_mem_toDigits hc)
  | infinite =>
    apply Or.inr
    simp only [text, List.mem_cons, List.not_mem_nil, or_false] at hc ⊢
    tauto
  | notANumber =>
    apply Or.inr
    simp only [text, List.mem_cons, List.not_mem_nil, or_false] at hc ⊢
    tauto
  | millionths n =>
    rw [text, List.append_assoc, List.mem_append, List.cons_append, List.mem_cons,
      List.mem_append] at hc
    rcases hc with hc | rfl | hc | hc
    · exact .inl (isDigit_of_mem_toDigits hc)
    · exact .inr List.mem_cons_self
    · rw [List.eq_of_mem_replicate hc]
      exact .inl rfl
    · exact .inl (isDigit_of_mem_toDigits hc)

theorem not_isBody_of_mark : ¬ IsBody '-' ∧ ¬ IsBody '[' ∧ ¬ IsBody ']' ∧ ¬ IsBody ',' := by
  unfold IsBody
  decide

theorem text_ne_nil (a : Magnitude) : a.text ≠ [] := by
  cases a with
  | whole n => exact Nat.toDigits_ne_nil
  | infinite => exact List.cons_ne_nil _ _
  | notANumber => exact List.cons_ne_nil _ _
  | millionths n =>
    intro h
    rw [text, List.append_assoc] at h
    exact Nat.toDigits_ne_nil (List.append_eq_nil_iff.mp h).1

theorem millionths_text_inj {n n' : ℕ} (h : (millionths n).text = (millionths n').text) :
    n = n' := by
  have hpoint : ∀ {n : ℕ}, ∀ c ∈ Nat.toDigits 10 n, ¬ c = '.' := by
    intro n c hc heq
    have hdigit := isDigit_of_mem_toDigits hc
    rw [heq] at hdigit
    exact absurd hdigit (by decide)
  rw [text, text, List.append_assoc, List.append_assoc] at h
  obtain ⟨hwhole, hrest⟩ := append_inj_of_head hpoint hpoint
    (fun c hc => (Option.mem_some_iff.mp hc).symm) (fun c hc => (Option.mem_some_iff.mp hc).symm) h
  have hdecimals : n % 10 ^ 6 = n' % 10 ^ 6 := by
    have htails := congrArg (fun s => Nat.ofDigitChars 10 s.tail 0) hrest
    exact (ofDigitChars_padded _ _).symm.trans (htails.trans (ofDigitChars_padded _ _))
  have hquotient := toDigits_injective hwhole
  omega

/-- The decimal point tells the two kinds of numbers apart. -/
theorem whole_text_ne_millionths (n n' : ℕ) : (whole n).text ≠ (millionths n').text := by
  intro h
  have hmem : '.' ∈ (millionths n').text := by
    rw [text, List.append_assoc]
    exact List.mem_append_right _ List.mem_cons_self
  rw [← h] at hmem
  exact absurd (isDigit_of_mem_toDigits hmem) (by decide)

/-- A text that starts with a letter is not the text of a number. -/
theorem text_ne_cons {a : Magnitude} {c : Char} {s : List Char} (hc : c.isDigit = false)
    (ha : (∃ n, a = whole n) ∨ ∃ n, a = millionths n) : a.text ≠ c :: s := by
  have hnumber : ∀ (n : ℕ) (rest : List Char), Nat.toDigits 10 n ++ rest ≠ c :: s := by
    intro n rest h
    cases hdigits : Nat.toDigits 10 n with
    | nil => exact Nat.toDigits_ne_nil hdigits
    | cons d ds =>
      rw [hdigits] at h
      obtain ⟨rfl, -⟩ := List.cons.inj h
      have hd : d ∈ Nat.toDigits 10 n := by
        rw [hdigits]
        exact List.mem_cons_self
      rw [isDigit_of_mem_toDigits hd] at hc
      cases hc
  obtain ⟨n, rfl⟩ | ⟨n, rfl⟩ := ha
  · intro h
    exact hnumber n [] ((List.append_nil _).trans h)
  · intro h
    rw [text, List.append_assoc] at h
    exact hnumber _ _ h

theorem text_injective {a a' : Magnitude} (h : a.text = a'.text) : a = a' := by
  cases a with
  | whole n =>
    cases a' with
    | whole n' => rw [toDigits_injective h]
    | infinite => exact absurd h (text_ne_cons (by decide) (.inl ⟨n, rfl⟩))
    | notANumber => exact absurd h (text_ne_cons (by decide) (.inl ⟨n, rfl⟩))
    | millionths n' => exact absurd h (whole_text_ne_millionths n n')
  | infinite =>
    cases a' with
    | whole n' => exact absurd h.symm (text_ne_cons (by decide) (.inl ⟨n', rfl⟩))
    | infinite => rfl
    | notANumber => exact absurd h (by decide)
    | millionths n' => exact absurd h.symm (text_ne_cons (by decide) (.inr ⟨n', rfl⟩))
  | notANumber =>
    cases a' with
    | whole n' => exact absurd h.symm (text_ne_cons (by decide) (.inl ⟨n', rfl⟩))
    | infinite => exact absurd h (by decide)
    | notANumber => rfl
    | millionths n' => exact absurd h.symm (text_ne_cons (by decide) (.inr ⟨n', rfl⟩))
  | millionths n =>
    cases a' with
    | whole n' => exact absurd h.symm (whole_text_ne_millionths n' n)
    | infinite => exact absurd h (text_ne_cons (by decide) (.inr ⟨n, rfl⟩))
    | notANumber => exact absurd h (text_ne_cons (by decide) (.inr ⟨n, rfl⟩))
    | millionths n' => rw [millionths_text_inj h]

end Magnitude

/-- What is shown of a scalar. -/
structure PrintedScalar where
  negative : Bool
  magnitude : Magnitude
  deriving DecidableEq, Repr

namespace PrintedScalar

/-- The text that shows it. -/
def text (x : PrintedScalar) : List Char :=
  (if x.negative then ['-'] else []) ++ x.magnitude.text

theorem magnitude_text_ne_minus (a : Magnitude) (s : List Char) : a.text ≠ '-' :: s := by
  intro h
  have hmem : '-' ∈ a.text := by
    rw [h]
    exact List.mem_cons_self
  exact Magnitude.not_isBody_of_mark.1 (Magnitude.isBody_of_mem_text hmem)

/-- **A text shows one scalar.** -/
theorem text_injective {x x' : PrintedScalar} (h : x.text = x'.text) : x = x' := by
  obtain ⟨negative, a⟩ := x
  obtain ⟨negative', a'⟩ := x'
  cases negative with
  | true =>
    cases negative' with
    | true =>
      obtain rfl : a = a' := Magnitude.text_injective (List.append_cancel_left h)
      rfl
    | false => exact absurd h.symm (magnitude_text_ne_minus a' _)
  | false =>
    cases negative' with
    | true => exact absurd h (magnitude_text_ne_minus a _)
    | false =>
      obtain rfl : a = a' := Magnitude.text_injective h
      rfl

theorem text_ne_nil (x : PrintedScalar) : x.text ≠ [] := by
  intro h
  exact Magnitude.text_ne_nil _ (List.append_eq_nil_iff.mp h).2

theorem of_mem_text {x : PrintedScalar} {c : Char} (hc : c ∈ x.text) :
    c = '-' ∨ Magnitude.IsBody c := by
  rcases List.mem_append.mp hc with hc | hc
  · apply Or.inl
    cases hsign : x.negative with
    | true =>
      rw [hsign] at hc
      exact List.mem_singleton.mp hc
    | false =>
      rw [hsign] at hc
      cases hc
  · exact .inr (Magnitude.isBody_of_mem_text hc)

end PrintedScalar

/-! ### The scalars -/

/-- What `std::to_string` shows of an integer. -/
def printedInt (z : ℤ) : PrintedScalar := ⟨decide (z < 0), .whole z.natAbs⟩

theorem toStringInt_eq (z : ℤ) : toStringInt z = (printedInt z).text := by
  unfold toStringInt
  by_cases hz : z < 0
  · rw [if_pos hz, PrintedScalar.text, printedInt, decide_eq_true hz]
    rfl
  · rw [if_neg hz, PrintedScalar.text, printedInt, decide_eq_false hz]
    rfl

theorem printedInt_injective {z z' : ℤ} (h : printedInt z = printedInt z') : z = z' := by
  obtain ⟨hsign, habs⟩ := PrintedScalar.mk.inj h
  have habs' := Magnitude.whole.inj habs
  have hsign' := decide_eq_decide.mp hsign
  omega

/-- What `std::to_string` shows of a binary floating-point number. -/
def printedFloat (exponentBits mantissaBits bits : ℕ) : PrintedScalar :=
  let exponent := bits / 2 ^ mantissaBits % 2 ^ exponentBits
  let mantissa := bits % 2 ^ mantissaBits
  let lowest : ℤ := 2 - 2 ^ (exponentBits - 1) - mantissaBits
  let rounded (significand : ℕ) (exponent : ℤ) : Magnitude :=
    .millionths (roundHalfEven (significand * 10 ^ 6 * 2 ^ exponent.toNat) (2 ^ (-exponent).toNat))
  { negative := decide (bits / 2 ^ (exponentBits + mantissaBits) % 2 = 1)
    magnitude :=
      if exponent = 2 ^ exponentBits - 1 then
        if mantissa = 0 then .infinite else .notANumber
      else if exponent = 0 then rounded mantissa lowest
      else rounded (mantissa + 2 ^ mantissaBits) (lowest + exponent - 1) }

theorem toStringFloat_eq (exponentBits mantissaBits bits : ℕ) :
    toStringFloat exponentBits mantissaBits bits =
      (printedFloat exponentBits mantissaBits bits).text := by
  simp only [toStringFloat, printedFloat, PrintedScalar.text, decide_eq_true_eq]
  split_ifs <;> rfl

/-- What is shown of the scalar with these bits. -/
def printedScalar : DataType → ℕ → Option PrintedScalar
  | .float32, bits => some (printedFloat 8 23 bits)
  | .float64, bits => some (printedFloat 11 52 bits)
  | .int8, bits => some (printedInt (BitVec.ofNat 8 bits).toInt)
  | .int16, bits => some (printedInt (BitVec.ofNat 16 bits).toInt)
  | .int32, bits => some (printedInt (BitVec.ofNat 32 bits).toInt)
  | .int64, bits => some (printedInt (BitVec.ofNat 64 bits).toInt)
  | .uint8, bits => some (printedInt bits)
  | .uint16, bits => some (printedInt bits)
  | .uint32, bits => some (printedInt bits)
  | .uint64, bits => some (printedInt bits)
  | .float16, _ => none
  | .bfloat16, _ => none
  | .bool, _ => none

theorem toStringCase_eq {dtype : DataType} {text : ℕ → List Char}
    (h : toStringCase dtype = some text)
    (bits : ℕ) : ∃ x, printedScalar dtype bits = some x ∧ text bits = x.text := by
  cases dtype <;> cases h
  case float32 => exact ⟨_, rfl, toStringFloat_eq _ _ _⟩
  case float64 => exact ⟨_, rfl, toStringFloat_eq _ _ _⟩
  all_goals exact ⟨_, rfl, toStringInt_eq _⟩

end InfiniRT.Tensor
