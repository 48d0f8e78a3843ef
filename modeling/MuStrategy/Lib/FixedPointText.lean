import MuStrategy.Lib.DecimalText
import MuStrategy.Lib.FixedPoint

/-!
# Texts of decimals with a fixed number of fraction digits

* `FixedPoint.text` — the text of a decimal, its sign first.
* `signedDecimal?` — `Decimal(text)` of a plain text; `FixedPoint.ofText?` — the texts that are printed again as they
  are.
* `ofText?_eq_some` — these are the texts of the decimals, and no others.
-/

namespace MuStrategy.Lib

/-! ## Reading -/

/-- `Decimal(text)` of digits, or of digits with a fraction. -/
def unsignedDecimal? (cs : List Char) : Option Decimal :=
  match splitDecimal? cs with
  | some (int, fraction) => if int.isEmpty then none else some ⟨digitsValue (int ++ fraction), -fraction.length⟩
  | none => none

/-- `Decimal(text)` of a plain text: the sign, and the number without it.
Fidelity: the other texts of decimals (with an exponent, a plus, spaces, underscores, digits that are not ASCII, and
those of the special values) are never printed with `format(value, "f")`, and are refused here. -/
def signedDecimal? (text : String) : Option (Bool × Decimal) :=
  match text.toList with
  | '-' :: cs => (unsignedDecimal? cs).map fun d => (true, d)
  | cs => (unsignedDecimal? cs).map fun d => (false, d)

lemma unsignedDecimal_format (n scale : ℕ) :
    unsignedDecimal? (Decimal.format ⟨n, -(scale : ℤ)⟩) = some ⟨n, -(scale : ℤ)⟩ := by
  cases scale with
  | zero =>
      obtain ⟨hall, hvalue, hne⟩ := toDigits_digits n
      have hnonempty : (Nat.toDigits 10 n).isEmpty = false := List.isEmpty_eq_false_iff.mpr hne
      have hformat : Decimal.format ⟨n, -((0 : ℕ) : ℤ)⟩ = Nat.toDigits 10 n := Decimal.format_natural n
      rw [hformat, unsignedDecimal?, Decimal.splitDecimal_digits hall]
      dsimp only
      rw [hnonempty, if_neg Bool.false_ne_true, List.append_nil, hvalue, List.length_nil]
  | succ scale =>
      obtain ⟨hall, hvalue, hne⟩ := toDigits_digits (n / 10 ^ (scale + 1))
      obtain ⟨hfraction, hfractionValue⟩ := Decimal.fractionDigits_digits (scale + 1) n
      have hlength := Decimal.length_fractionDigits (scale + 1) n
      have hfractionNe : Decimal.fractionDigits (scale + 1) n ≠ [] := by
        rw [← List.length_pos_iff, hlength]
        omega
      have hdigits : digitsValue (Nat.toDigits 10 (n / 10 ^ (scale + 1)) ++ Decimal.fractionDigits (scale + 1) n) = n := by
        rw [Decimal.digitsValue_concat, hvalue, hfractionValue, hlength, Nat.div_add_mod']
      have hnonempty : (Nat.toDigits 10 (n / 10 ^ (scale + 1))).isEmpty = false := List.isEmpty_eq_false_iff.mpr hne
      rw [Decimal.format_fraction, unsignedDecimal?, Decimal.splitDecimal_fraction hall hfraction hfractionNe]
      dsimp only
      rw [hnonempty, if_neg Bool.false_ne_true, hdigits, hlength]

/-! ## Fixed point -/

namespace FixedPoint

variable {scale : ℕ}

/-- `format(value, "f")`. -/
def text (d : FixedPoint scale) : String :=
  String.ofList ((if d.negative then ['-'] else []) ++ Decimal.format ⟨d.coefficient, -(scale : ℤ)⟩)

/-- `value.quantize(Decimal(1).scaleb(-scale))`, half to even; the sign stays.
Fidelity: the precision is taken as enough, and the exponents as not limited. -/
def quantize (scale : ℕ) (value : Bool × Decimal) : FixedPoint scale :=
  ⟨value.1, (roundHalfEven (value.2.toRat * 10 ^ scale)).natAbs⟩

/-- The decimal of a text that is printed again as it is. -/
def ofText? (scale : ℕ) (text : String) : Option (FixedPoint scale) := do
  let value ← signedDecimal? text
  let quantized := quantize scale value
  if quantized.text = text then some quantized else none

lemma quantize_self (d : FixedPoint scale) : quantize scale (d.negative, ⟨d.coefficient, -(scale : ℤ)⟩) = d := by
  have hvalue : Decimal.toRat ⟨d.coefficient, -(scale : ℤ)⟩ * 10 ^ scale = ((d.coefficient : ℤ) : ℚ) := by
    rw [Decimal.toRat, zpow_neg, zpow_natCast, inv_mul_cancel_right₀ (by positivity), Int.cast_natCast]
  rw [quantize, hvalue, roundHalfEven_intCast, Int.natAbs_natCast]

/-- A text starts with a digit, after its sign. -/
lemma format_eq_cons (n scale : ℕ) :
    ∃ c cs, Decimal.format ⟨n, -(scale : ℤ)⟩ = c :: cs ∧ isAsciiDigit c = true := by
  have hdigits : ∀ m, ∃ c cs, Nat.toDigits 10 m = c :: cs ∧ isAsciiDigit c = true := by
    intro m
    obtain ⟨hall, -, hne⟩ := toDigits_digits m
    obtain ⟨c, cs, hcs⟩ := List.exists_cons_of_ne_nil hne
    exact ⟨c, cs, hcs, List.all_eq_true.mp hall c (hcs ▸ List.mem_cons_self)⟩
  cases scale with
  | zero =>
      obtain ⟨c, cs, hcs, hc⟩ := hdigits n
      exact ⟨c, cs, (Decimal.format_natural n).trans hcs, hc⟩
  | succ scale =>
      obtain ⟨c, cs, hcs, hc⟩ := hdigits (n / 10 ^ (scale + 1))
      exact ⟨c, _, by rw [Decimal.format_fraction, hcs, List.cons_append], hc⟩

lemma text_ne_empty (d : FixedPoint scale) : d.text ≠ "" := by
  obtain ⟨c, cs, hcs, -⟩ := format_eq_cons d.coefficient scale
  intro h
  have hlist := congrArg String.toList h
  rw [text, String.toList_ofList, hcs] at hlist
  exact absurd hlist (List.append_ne_nil_of_right_ne_nil _ (List.cons_ne_nil _ _))

/-- The text of a decimal reads as it. -/
lemma signedDecimal_text (d : FixedPoint scale) :
    signedDecimal? d.text = some (d.negative, ⟨d.coefficient, -(scale : ℤ)⟩) := by
  obtain ⟨negative, coefficient⟩ := d
  have hread := unsignedDecimal_format coefficient scale
  rw [signedDecimal?, text, String.toList_ofList]
  cases negative with
  | true =>
      change (unsignedDecimal? (Decimal.format ⟨coefficient, -(scale : ℤ)⟩)).map _ = _
      rw [hread, Option.map_some]
  | false =>
      obtain ⟨c, cs, hcs, hc⟩ := format_eq_cons coefficient scale
      rw [hcs] at hread
      simp only [Bool.false_eq_true, if_false, List.nil_append, hcs]
      split
      · rename_i hminus
        exact absurd (List.cons.inj hminus).1 (ne_minus_of_isAsciiDigit hc)
      · rw [hread, Option.map_some]

/-- **The canonical texts are the texts of the decimals.** -/
theorem ofText?_eq_some {text : String} {d : FixedPoint scale} : ofText? scale text = some d ↔ text = d.text := by
  constructor
  · intro h
    obtain ⟨value, -, h⟩ := Option.bind_eq_some_iff.mp h
    dsimp only at h
    split at h
    · rename_i hsame
      rw [← Option.some.inj h, hsame]
    · cases h
  · rintro rfl
    simp only [ofText?, signedDecimal_text, Option.bind_eq_bind, Option.bind_some, quantize_self, if_pos]

lemma ofText?_text (d : FixedPoint scale) : ofText? scale d.text = some d := ofText?_eq_some.mpr rfl

lemma text_injective : Function.Injective (@text scale) := fun a b h =>
  Option.some.inj ((ofText?_text a).symm.trans (h ▸ ofText?_text b))

/-! ## Signs -/

lemma toRat_ofRat_zero (scale : ℕ) : (ofRat scale 0).toRat = 0 := by
  rw [toRat_ofRat, zero_mul, show roundHalfEven 0 = 0 from roundHalfEven_intCast 0]
  simp

lemma toRat_ofRat_nonneg {x : ℚ} (h : 0 ≤ x) : 0 ≤ (ofRat scale x).toRat := by
  rw [← toRat_ofRat_zero scale]
  exact toRat_ofRat_mono h

lemma toRat_ofRat_nonpos {x : ℚ} (h : x ≤ 0) : (ofRat scale x).toRat ≤ 0 := by
  rw [← toRat_ofRat_zero scale]
  exact toRat_ofRat_mono h

lemma toRat_ofRat_intCast (scale : ℕ) (n : ℤ) : (ofRat scale (n : ℚ)).toRat = n := by
  have hcast : (n : ℚ) * 10 ^ scale = ((n * 10 ^ scale : ℤ) : ℚ) := by push_cast; rfl
  rw [toRat_ofRat, hcast, roundHalfEven_intCast]
  push_cast
  rw [mul_div_cancel_right₀]
  positivity

/-- What is written as positive is positive. -/
lemma pos_of_toRat_ofRat_pos {x : ℚ} (h : 0 < (ofRat scale x).toRat) : 0 < x :=
  not_le.mp fun hx => absurd h (not_lt.mpr (toRat_ofRat_nonpos hx))

/-- What is written as negative is negative. -/
lemma neg_of_toRat_ofRat_neg {x : ℚ} (h : (ofRat scale x).toRat < 0) : x < 0 :=
  not_le.mp fun hx => absurd h (not_lt.mpr (toRat_ofRat_nonneg hx))

end FixedPoint

end MuStrategy.Lib
