import Mathlib.Algebra.Order.Field.Power
import Mathlib.Data.List.DropRight
import Mathlib.Data.Rat.Cast.Order
import Mathlib.Tactic.Linarith
import Mathlib.Tactic.NormNum
import Mathlib.Tactic.Positivity
import Mathlib.Tactic.Ring

/-!
# Decimal arithmetic

Non-negative decimals as Python's `decimal` module computes with them: a coefficient and an exponent,
and arithmetic that rounds half to even when a coefficient has more digits than the context allows.

* `Decimal.add`, `sub`, `mul`, `div` — arithmetic in a context of `prec` digits. Addition and
  subtraction of numbers with at most `scale` fraction digits are exact as long as the result has
  at most `prec` digits (`toRat_add`, `toRat_sub`).
* `Decimal.format` — `format(value, "f")`; `Decimal.number` — the same without trailing fraction
  zeros; `Decimal.ofText?` — `Decimal(text)` of a plain text.
* `toRat_ofText_number` — a printed decimal reads back as the same number.
-/

namespace MuStrategy.Lib

/-- A non-negative decimal `coefficient * 10 ^ exponent`. -/
structure Decimal where
  coefficient : ℕ
  exponent : ℤ
  deriving DecidableEq

/-- The decimal digits of the character set: `unicodedata.decimal`, which `\d` and `Decimal` accept. -/
class DecimalDigits where
  /-- The digit a character stands for. -/
  digit? : Char → Option ℕ
  /-- The ASCII digits are digits. -/
  ascii : ∀ d < 10, digit? (Nat.digitChar d) = some d
  /-- A digit is a number below ten. -/
  lt_ten : ∀ c d, digit? c = some d → d < 10

namespace Decimal

/-- The number. -/
def toRat (d : Decimal) : ℚ := d.coefficient * (10 : ℚ) ^ d.exponent

/-- `Decimal(0)`. -/
def zero : Decimal := ⟨0, 0⟩

/-! ## Arithmetic -/

/-- `len(str(n))`. -/
def digitCount (n : ℕ) : ℕ := (Nat.toDigits 10 n).length

/-- Drop `k` digits, rounding half to even. -/
def roundShift (n k : ℕ) : ℕ :=
  let q := n / 10 ^ k
  let r := n % 10 ^ k
  if 10 ^ k < 2 * r ∨ (2 * r = 10 ^ k ∧ q % 2 = 1) then q + 1 else q

/-- Round to the precision of the context. -/
def fix (prec : ℕ) (d : Decimal) : Decimal :=
  let excess := digitCount d.coefficient - prec
  let c := roundShift d.coefficient excess
  if 10 ^ prec ≤ c then ⟨c / 10, d.exponent + excess + 1⟩ else ⟨c, d.exponent + excess⟩

/-- The coefficient at a smaller exponent. -/
def coefficientAt (e : ℤ) (d : Decimal) : ℕ := d.coefficient * 10 ^ (d.exponent - e).toNat

/-- `a + b`. -/
def add (prec : ℕ) (a b : Decimal) : Decimal :=
  let e := min a.exponent b.exponent
  fix prec ⟨coefficientAt e a + coefficientAt e b, e⟩

/-- `a - b`, where `b ≤ a`. -/
def sub (prec : ℕ) (a b : Decimal) : Decimal :=
  let e := min a.exponent b.exponent
  fix prec ⟨coefficientAt e a - coefficientAt e b, e⟩

/-- `a * b`. -/
def mul (prec : ℕ) (a b : Decimal) : Decimal :=
  fix prec ⟨a.coefficient * b.coefficient, a.exponent + b.exponent⟩

/-- Move an exact quotient towards its ideal exponent. -/
def towardsIdeal (ideal : ℤ) : ℕ → Decimal → Decimal
  | 0, d => d
  | fuel + 1, d =>
      if d.exponent < ideal ∧ d.coefficient % 10 = 0 then
        towardsIdeal ideal fuel ⟨d.coefficient / 10, d.exponent + 1⟩
      else d

/-- `a / b`, where `b ≠ 0`. -/
def div (prec : ℕ) (a b : Decimal) : Decimal :=
  let ideal := a.exponent - b.exponent
  if a.coefficient = 0 then ⟨0, ideal⟩
  else
    let shift : ℤ := digitCount b.coefficient - digitCount a.coefficient + prec + 1
    let n := a.coefficient * 10 ^ shift.toNat
    let m := b.coefficient * 10 ^ (-shift).toNat
    let c := n / m
    let e := ideal - shift
    if n % m ≠ 0 then fix prec ⟨if c % 5 = 0 then c + 1 else c, e⟩
    else fix prec (towardsIdeal ideal shift.toNat ⟨c, e⟩)

lemma fix_of_lt {prec : ℕ} (hprec : 0 < prec) {d : Decimal} (h : d.coefficient < 10 ^ prec) :
    fix prec d = d := by
  have hcount : digitCount d.coefficient - prec = 0 :=
    Nat.sub_eq_zero_of_le ((Nat.length_toDigits_le_iff (by omega) hprec).mpr h)
  have hround : roundShift d.coefficient 0 = d.coefficient := by
    simp [roundShift, Nat.mod_one]
  simp [fix, hcount, hround, Nat.not_le.mpr h]

lemma toRat_nonneg (d : Decimal) : 0 ≤ d.toRat :=
  mul_nonneg (Nat.cast_nonneg _) (zpow_nonneg (by norm_num) _)

lemma toRat_eq_zero {d : Decimal} : d.toRat = 0 ↔ d.coefficient = 0 := by
  have hpow : (10 : ℚ) ^ d.exponent ≠ 0 := zpow_ne_zero _ (by norm_num)
  rw [toRat, mul_eq_zero, or_iff_left hpow, Nat.cast_eq_zero]

/-- Numbers with at most `scale` fraction digits. -/
structure HasScale (scale : ℕ) (d : Decimal) : Prop where
  lower : -(scale : ℤ) ≤ d.exponent
  upper : d.exponent ≤ 0

section exact

variable {scale prec : ℕ} {a b : Decimal}

lemma toRat_coefficientAt {e : ℤ} {d : Decimal} (h : e ≤ d.exponent) :
    (coefficientAt e d : ℚ) * (10 : ℚ) ^ e = d.toRat := by
  have hpow : ((10 : ℚ) ^ (d.exponent - e).toNat) = (10 : ℚ) ^ (d.exponent - e) := by
    rw [← zpow_natCast, Int.toNat_of_nonneg (by omega)]
  rw [coefficientAt, Nat.cast_mul, Nat.cast_pow, Nat.cast_ofNat, hpow, mul_assoc,
    ← zpow_add₀ (by norm_num)]
  simp [toRat]

/-- A coefficient that is a bounded number at a bounded scale fits the context. -/
lemma coefficient_lt {e : ℤ} {c : ℕ} (he : -(scale : ℤ) ≤ e)
    (h : (c : ℚ) * (10 : ℚ) ^ e * 10 ^ scale < 10 ^ prec) : c < 10 ^ prec := by
  have hone : (1 : ℚ) ≤ (10 : ℚ) ^ (e + scale) := one_le_zpow₀ (by norm_num) (by omega)
  have hsplit : (c : ℚ) * (10 : ℚ) ^ e * 10 ^ scale = c * (10 : ℚ) ^ (e + scale) := by
    rw [zpow_add₀ (by norm_num), zpow_natCast, mul_assoc]
  have hle : (c : ℚ) ≤ c * (10 : ℚ) ^ (e + scale) := le_mul_of_one_le_right (Nat.cast_nonneg c) hone
  rw [hsplit] at h
  exact_mod_cast lt_of_le_of_lt hle h

/-- A sum that fits the context is exact. -/
lemma toRat_add (hprec : 0 < prec) (ha : HasScale scale a) (hb : HasScale scale b)
    (h : (a.toRat + b.toRat) * 10 ^ scale < 10 ^ prec) :
    (add prec a b).toRat = a.toRat + b.toRat ∧ HasScale scale (add prec a b) := by
  have hvalue : ((coefficientAt (min a.exponent b.exponent) a +
      coefficientAt (min a.exponent b.exponent) b : ℕ) : ℚ) *
        (10 : ℚ) ^ (min a.exponent b.exponent) = a.toRat + b.toRat := by
    rw [Nat.cast_add, add_mul, toRat_coefficientAt (min_le_left _ _),
      toRat_coefficientAt (min_le_right _ _)]
  have hlower : -(scale : ℤ) ≤ min a.exponent b.exponent := le_min ha.lower hb.lower
  have hfix : add prec a b = ⟨_, _⟩ :=
    fix_of_lt hprec (coefficient_lt hlower (by rw [hvalue]; exact h))
  rw [hfix]
  exact ⟨hvalue, hlower, (min_le_left _ _).trans ha.upper⟩

/-- A difference that fits the context is exact. -/
lemma toRat_sub (hprec : 0 < prec) (ha : HasScale scale a) (hb : HasScale scale b)
    (hle : b.toRat ≤ a.toRat) (h : a.toRat * 10 ^ scale < 10 ^ prec) :
    (sub prec a b).toRat = a.toRat - b.toRat ∧ HasScale scale (sub prec a b) := by
  have hpos : (0 : ℚ) < (10 : ℚ) ^ (min a.exponent b.exponent) := zpow_pos (by norm_num) _
  have hcoef : coefficientAt (min a.exponent b.exponent) b ≤
      coefficientAt (min a.exponent b.exponent) a := by
    rw [← toRat_coefficientAt (min_le_left a.exponent b.exponent),
      ← toRat_coefficientAt (min_le_right a.exponent b.exponent)] at hle
    exact_mod_cast le_of_mul_le_mul_right hle hpos
  have hvalue : ((coefficientAt (min a.exponent b.exponent) a -
      coefficientAt (min a.exponent b.exponent) b : ℕ) : ℚ) *
        (10 : ℚ) ^ (min a.exponent b.exponent) = a.toRat - b.toRat := by
    rw [Nat.cast_sub hcoef, sub_mul, toRat_coefficientAt (min_le_left _ _),
      toRat_coefficientAt (min_le_right _ _)]
  have hb0 : 0 ≤ b.toRat := toRat_nonneg b
  have hlower : -(scale : ℤ) ≤ min a.exponent b.exponent := le_min ha.lower hb.lower
  have hbound : (a.toRat - b.toRat) * 10 ^ scale < 10 ^ prec :=
    lt_of_le_of_lt (mul_le_mul_of_nonneg_right (by linarith) (by positivity)) h
  have hfix : sub prec a b = ⟨_, _⟩ :=
    fix_of_lt hprec (coefficient_lt hlower (by rw [hvalue]; exact hbound))
  rw [hfix]
  exact ⟨hvalue, hlower, (min_le_left _ _).trans ha.upper⟩

end exact

/-! ## Text -/

/-- The last `scale` digits of `n`. -/
def fractionDigits : ℕ → ℕ → List Char
  | 0, _ => []
  | scale + 1, n => fractionDigits scale (n / 10) ++ [Nat.digitChar (n % 10)]

/-- `format(value, "f")`. -/
def format (d : Decimal) : List Char :=
  if 0 ≤ d.exponent then Nat.toDigits 10 (d.coefficient * 10 ^ d.exponent.toNat)
  else
    let scale := (-d.exponent).toNat
    Nat.toDigits 10 (d.coefficient / 10 ^ scale) ++ '.' :: fractionDigits scale d.coefficient

/-- `format(value, "f")` without the zeros at the end of the fraction. -/
def number (d : Decimal) : List Char :=
  let text := format d
  if text.contains '.' then (text.rdropWhile (· == '0')).rdropWhile (· == '.') else text

section text

variable [DecimalDigits]

/-- Read digits after a number. -/
def readDigits (n : ℕ) (cs : List Char) : Option ℕ :=
  cs.foldlM (fun n c => (DecimalDigits.digit? c).map fun d => 10 * n + d) n

/-- `Decimal(text)` of digits, or of digits with a fraction. -/
def ofText? (cs : List Char) : Option Decimal :=
  let int := cs.takeWhile (· != '.')
  match cs.dropWhile (· != '.') with
  | [] => (readDigits 0 int).map fun n => ⟨n, 0⟩
  | _ :: fraction => (readDigits 0 (int ++ fraction)).map fun n => ⟨n, -fraction.length⟩

lemma readDigits_append (n : ℕ) (cs cs' : List Char) :
    readDigits n (cs ++ cs') = (readDigits n cs).bind fun m => readDigits m cs' := by
  unfold readDigits
  rw [List.foldlM_append]
  rfl

lemma readDigits_digit {n d : ℕ} (hd : d < 10) :
    readDigits n [Nat.digitChar d] = some (10 * n + d) := by
  simp [readDigits, DecimalDigits.ascii d hd]

lemma readDigits_toDigits (n : ℕ) : readDigits 0 (Nat.toDigits 10 n) = some n := by
  induction n using Nat.strong_induction_on with
  | _ n ih =>
      rw [Nat.toDigits_eq_if (by omega)]
      split
      · rename_i hn
        rw [readDigits_digit hn, Nat.mul_zero, Nat.zero_add]
      · rename_i hn
        rw [readDigits_append, ih (n / 10) (by omega), Option.bind_some,
          readDigits_digit (Nat.mod_lt _ (by omega))]
        congr 1
        omega

lemma readDigits_fractionDigits (scale m n : ℕ) :
    readDigits m (fractionDigits scale n) = some (m * 10 ^ scale + n % 10 ^ scale) := by
  induction scale generalizing n with
  | zero => simp [fractionDigits, readDigits, Nat.mod_one]
  | succ scale ih =>
      rw [fractionDigits, readDigits_append, ih, Option.bind_some,
        readDigits_digit (Nat.mod_lt _ (by omega)), pow_succ', Nat.mod_mul]
      congr 1
      ring

omit [DecimalDigits] in
lemma length_fractionDigits (scale n : ℕ) : (fractionDigits scale n).length = scale := by
  induction scale generalizing n with
  | zero => rfl
  | succ scale ih => rw [fractionDigits, List.length_append, ih, List.length_singleton]

/-- Reading more digits does not make the number smaller. -/
lemma le_readDigits {n m : ℕ} {cs : List Char} (h : readDigits n cs = some m) : n ≤ m := by
  induction cs generalizing n with
  | nil =>
      obtain rfl := Option.some.inj h
      exact le_rfl
  | cons c cs ih =>
      rw [readDigits, List.foldlM_cons] at h
      obtain ⟨n', hn', h⟩ := Option.bind_eq_some_iff.mp h
      obtain ⟨d, -, rfl⟩ := Option.map_eq_some_iff.mp hn'
      have := ih h
      omega

/-- A number read from `k` digits has at most `k` digits. -/
lemma readDigits_lt {n m : ℕ} {cs : List Char} (h : readDigits n cs = some m) :
    m < (n + 1) * 10 ^ cs.length := by
  induction cs generalizing n with
  | nil =>
      obtain rfl := Option.some.inj h
      simp
  | cons c cs ih =>
      rw [readDigits, List.foldlM_cons] at h
      obtain ⟨n', hn', h⟩ := Option.bind_eq_some_iff.mp h
      obtain ⟨d, hd, rfl⟩ := Option.map_eq_some_iff.mp hn'
      have hlt := DecimalDigits.lt_ten c d hd
      have hm := ih h
      have hle : (10 * n + d + 1) * 10 ^ cs.length ≤ (n + 1) * 10 * 10 ^ cs.length :=
        Nat.mul_le_mul_right _ (by omega)
      rw [List.length_cons, pow_succ']
      calc m < (10 * n + d + 1) * 10 ^ cs.length := hm
        _ ≤ (n + 1) * 10 * 10 ^ cs.length := hle
        _ = (n + 1) * (10 * 10 ^ cs.length) := by ring

omit [DecimalDigits] in
/-- The text of a positive number starts with a digit other than zero. -/
lemma toDigits_eq_cons {n : ℕ} (hn : 0 < n) : ∃ d cs, Nat.toDigits 10 n = Nat.digitChar d :: cs ∧
    0 < d ∧ d < 10 ∧ ∀ c ∈ cs, ∃ e < 10, c = Nat.digitChar e := by
  induction n using Nat.strong_induction_on with
  | _ n ih =>
      rw [Nat.toDigits_eq_if (by omega)]
      split
      · rename_i hlt
        exact ⟨n, [], rfl, hn, hlt, by simp⟩
      · rename_i hge
        obtain ⟨d, cs, hcs, hpos, hlt, hall⟩ := ih (n / 10) (by omega) (by omega)
        refine ⟨d, cs ++ [Nat.digitChar (n % 10)], by rw [hcs]; rfl, hpos, hlt, fun c hc => ?_⟩
        rcases List.mem_append.mp hc with hc | hc
        · exact hall c hc
        · exact ⟨n % 10, Nat.mod_lt _ (by omega), by simpa using hc⟩

omit [DecimalDigits] in
lemma mem_fractionDigits {scale n : ℕ} : ∀ c ∈ fractionDigits scale n, ∃ e < 10, c = Nat.digitChar e := by
  induction scale generalizing n with
  | zero => simp [fractionDigits]
  | succ scale ih =>
      intro c hc
      rcases List.mem_append.mp hc with hc | hc
      · exact ih c hc
      · exact ⟨n % 10, Nat.mod_lt _ (by omega), by simpa using hc⟩

/-! ## What is printed reads back -/

omit [DecimalDigits] in
lemma digitChar_ne_point {d : ℕ} (hd : d < 10) : Nat.digitChar d ≠ '.' := by
  intro h
  have hdigit : (Nat.digitChar d).isDigit = true := by simpa using hd
  rw [h] at hdigit
  revert hdigit
  decide

omit [DecimalDigits] in
lemma toDigits_ne_point (n : ℕ) : ∀ c ∈ Nat.toDigits 10 n, c ≠ '.' := by
  rintro c hc rfl
  have h := Nat.isDigit_of_mem_toDigits (by omega) (by omega) hc
  revert h
  decide

omit [DecimalDigits] in
/-- The text of a number without fraction. -/
lemma format_natural (n : ℕ) : format ⟨n, 0⟩ = Nat.toDigits 10 n := by simp [format]

omit [DecimalDigits] in
/-- The text of a number with a fraction. -/
lemma format_fraction (n scale : ℕ) : format ⟨n, -((scale + 1 : ℕ) : ℤ)⟩ =
    Nat.toDigits 10 (n / 10 ^ (scale + 1)) ++ '.' :: fractionDigits (scale + 1) n := by
  have hneg : ¬ (0 : ℤ) ≤ -((scale + 1 : ℕ) : ℤ) := by omega
  have hnat : (- -((scale + 1 : ℕ) : ℤ)).toNat = scale + 1 := by omega
  simp only [format, hneg, if_false, hnat]

omit [DecimalDigits] in
/-- Stripping a text with a fraction gives the text of the same number with as few fraction digits
as possible. -/
lemma strip_fraction (scale n : ℕ) : ∃ n' scale', scale' ≤ scale ∧
    n = n' * 10 ^ (scale - scale') ∧ (scale' = 0 ∨ n' % 10 ≠ 0) ∧
    ((Nat.toDigits 10 (n / 10 ^ scale) ++ '.' :: fractionDigits scale n).rdropWhile
      (· == '0')).rdropWhile (· == '.') = format ⟨n', -(scale' : ℤ)⟩ := by
  induction scale generalizing n with
  | zero =>
      refine ⟨n, 0, le_rfl, by simp, .inl rfl, ?_⟩
      have hlast : (Nat.toDigits 10 n).rdropWhile (· == '.') = Nat.toDigits 10 n := by
        refine List.rdropWhile_eq_self_iff.mpr fun hne => ?_
        simpa using toDigits_ne_point n _ (List.getLast_mem hne)
      rw [pow_zero, Nat.div_one, fractionDigits, List.rdropWhile_concat_neg _ _ _ (by decide),
        List.rdropWhile_concat_pos _ _ _ (by decide), hlast]
      exact (format_natural n).symm
  | succ scale ih =>
      by_cases hzero : n % 10 = 0
      · obtain ⟨n', scale', hle, hn, hmin, htext⟩ := ih (n / 10)
        refine ⟨n', scale', by omega, ?_, hmin, ?_⟩
        · have : n = 10 * (n / 10) := by omega
          rw [this, hn, show scale + 1 - scale' = scale - scale' + 1 by omega, pow_succ]
          ring
        · rw [fractionDigits, ← List.cons_append, ← List.append_assoc, hzero,
            List.rdropWhile_concat_pos _ _ _ (by decide), ← htext, Nat.div_div_eq_div_mul, pow_succ']
      · refine ⟨n, scale + 1, le_rfl, by simp, .inr hzero, ?_⟩
        have hd : n % 10 < 10 := Nat.mod_lt _ (by omega)
        rw [format_fraction, fractionDigits, ← List.cons_append, ← List.append_assoc,
          List.rdropWhile_concat_neg _ _ _ (by simpa using hzero),
          List.rdropWhile_concat_neg _ _ _ (by simp [digitChar_ne_point hd])]

omit [DecimalDigits] in
/-- The text `number` prints is the text of the same number with as few fraction digits as
possible. -/
lemma number_eq_format (scale n : ℕ) : ∃ n' scale', scale' ≤ scale ∧
    n = n' * 10 ^ (scale - scale') ∧ (scale' = 0 ∨ n' % 10 ≠ 0) ∧
    number ⟨n, -(scale : ℤ)⟩ = format ⟨n', -(scale' : ℤ)⟩ := by
  cases scale with
  | zero =>
      refine ⟨n, 0, le_rfl, by simp, .inl rfl, ?_⟩
      have hpoint : '.' ∉ Nat.toDigits 10 n := fun h => toDigits_ne_point n _ h rfl
      rw [number]
      simp [format_natural, hpoint]
  | succ scale =>
      obtain ⟨n', scale', hle, hn, hmin, htext⟩ := strip_fraction (scale + 1) n
      refine ⟨n', scale', hle, hn, hmin, ?_⟩
      rw [number, format_fraction, ← htext]
      simp

/-- A text of digits reads as its number. -/
lemma ofText_format_natural (n : ℕ) : ofText? (format ⟨n, 0⟩) = some ⟨n, 0⟩ := by
  have hall : ∀ c ∈ Nat.toDigits 10 n, (c != '.') = true := by
    intro c hc
    simpa using toDigits_ne_point n c hc
  rw [format_natural, ofText?, List.dropWhile_eq_nil_iff.mpr hall, List.takeWhile_eq_self_iff.mpr hall]
  simp [readDigits_toDigits]

/-- A text with a fraction reads as its number. -/
lemma ofText_format_fraction (n scale : ℕ) :
    ofText? (format ⟨n, -((scale + 1 : ℕ) : ℤ)⟩) = some ⟨n, -((scale + 1 : ℕ) : ℤ)⟩ := by
  have hall : ∀ c ∈ Nat.toDigits 10 (n / 10 ^ (scale + 1)), (c != '.') = true := by
    intro c hc
    simpa using toDigits_ne_point _ c hc
  have hvalue : n / 10 ^ (scale + 1) * 10 ^ (scale + 1) + n % 10 ^ (scale + 1) = n := by
    rw [mul_comm, Nat.div_add_mod]
  rw [format_fraction, ofText?, List.dropWhile_append_of_pos hall, List.takeWhile_append_of_pos hall]
  simp [readDigits_append, readDigits_toDigits, readDigits_fractionDigits, hvalue,
    length_fractionDigits]

lemma ofText_format (n scale : ℕ) : ofText? (format ⟨n, -(scale : ℤ)⟩) = some ⟨n, -(scale : ℤ)⟩ := by
  cases scale with
  | zero => exact ofText_format_natural n
  | succ scale => exact ofText_format_fraction n scale

omit [DecimalDigits] in
/-- Fewer fraction digits, the same number. -/
lemma toRat_scale {n n' scale scale' : ℕ} (hle : scale' ≤ scale)
    (hn : n = n' * 10 ^ (scale - scale')) :
    (⟨n, -(scale : ℤ)⟩ : Decimal).toRat = (⟨n', -(scale' : ℤ)⟩ : Decimal).toRat := by
  have hsplit : (scale : ℤ) = (scale - scale' : ℕ) + scale' := by omega
  rw [toRat, toRat, hn, Nat.cast_mul, Nat.cast_pow, Nat.cast_ofNat, mul_assoc]
  congr 1
  rw [← zpow_natCast, ← zpow_add₀ (by norm_num)]
  change (10 : ℚ) ^ _ = (10 : ℚ) ^ _
  congr 1
  simp only
  omega

/-- **A printed decimal reads back as the same number.** -/
theorem toRat_ofText_number {scale : ℕ} {d : Decimal} (hd : HasScale scale d) :
    (ofText? (number d)).map toRat = some d.toRat := by
  obtain ⟨n, e⟩ := d
  obtain ⟨k, rfl⟩ : ∃ k : ℕ, e = -(k : ℤ) := ⟨(-e).toNat, by have := hd.upper; simp only at this; omega⟩
  obtain ⟨n', k', hle, hn, -, htext⟩ := number_eq_format k n
  rw [htext, ofText_format, Option.map_some, toRat_scale hle hn]

end text

end Decimal

end MuStrategy.Lib
