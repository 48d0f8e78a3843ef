import Mathlib.Data.Int.Log
import MuStrategy.Lib.FixedPoint

/-!
# Rounding a rounded number

A number is rounded to some significant digits, and the result to some decimals. With enough digits the decimals are
those of the number itself.

* `roundDigits` — the result of an operation of so many significant digits; `roundDigits_exact`, `abs_roundDigits_sub_le`.
* `roundHalfEven_eq_of_near` — numbers with no half-way point between them round alike.
* `quantize_roundDigits` — a fraction is not rounded twice.
-/

namespace MuStrategy.Lib

/-! ## Nearest integers -/

/-- The nearest integer, where there is one. -/
lemma roundHalfEven_eq_of_lt {x : ℚ} {n : ℤ} (h : |x - n| < 1 / 2) : roundHalfEven x = n := by
  have hnear := abs_roundHalfEven_sub_le x
  rw [abs_le] at hnear
  rw [abs_lt] at h
  have hlow : (roundHalfEven x : ℚ) < n + 1 := by linarith
  have hhigh : (n : ℚ) < roundHalfEven x + 1 := by linarith
  have hlow' : roundHalfEven x < n + 1 := by exact_mod_cast hlow
  have hhigh' : n < roundHalfEven x + 1 := by exact_mod_cast hhigh
  omega

/-- **Near fractions round alike.** A number that is no half-way point is as far from all of them as its denominator
says. -/
theorem roundHalfEven_eq_of_near {x y : ℚ} {d : ℕ} {m : ℤ} (hd : 0 < d) (hm : x * d = m)
    (hnear : |y - x| * (2 * d) < 1) (hhalf : ∀ j : ℤ, 2 * x = j → y = x) : roundHalfEven y = roundHalfEven x := by
  by_cases hpoint : ∃ j : ℤ, 2 * x = j
  · obtain ⟨j, hj⟩ := hpoint
    rw [hhalf j hj]
  · have hdpos : (0 : ℚ) < 2 * d := by positivity
    obtain ⟨n, hn⟩ : ∃ n, n = roundHalfEven x := ⟨_, rfl⟩
    have hround : |x - n| ≤ 1 / 2 := by
      rw [abs_sub_comm, hn]
      exact abs_roundHalfEven_sub_le x
    -- the distance to the nearest integer is a fraction, and not one half
    obtain ⟨k, hk⟩ : ∃ k : ℤ, |x - n| * (2 * d) = k := by
      refine ⟨|2 * (m - n * d)|, ?_⟩
      push_cast
      rw [← hm, show 2 * (x * d - n * d) = (x - n) * (2 * d) by ring, abs_mul, abs_of_pos hdpos]
    have hne : |x - n| ≠ 1 / 2 := by
      intro heq
      rcases abs_eq (by norm_num : (0 : ℚ) ≤ 1 / 2) |>.mp heq with hside | hside
      · exact hpoint ⟨2 * n + 1, by push_cast; linarith⟩
      · exact hpoint ⟨2 * n - 1, by push_cast; linarith⟩
    have hlt : |x - n| * (2 * d) < d := by
      have := mul_lt_mul_of_pos_right (lt_of_le_of_ne hround hne) hdpos
      linarith
    have hgap : |x - n| * (2 * d) ≤ d - 1 := by
      rw [hk] at hlt ⊢
      have hint : k < (d : ℤ) := by exact_mod_cast hlt
      have hle : k ≤ (d : ℤ) - 1 := by omega
      exact_mod_cast hle
    rw [← hn]
    refine roundHalfEven_eq_of_lt ?_
    have htriangle : |y - n| ≤ |y - x| + |x - n| := abs_sub_le y x n
    have hsum : |y - n| * (2 * d) < 1 / 2 * (2 * d) := by
      calc |y - n| * (2 * d) ≤ (|y - x| + |x - n|) * (2 * d) := mul_le_mul_of_nonneg_right htriangle hdpos.le
        _ = |y - x| * (2 * d) + |x - n| * (2 * d) := add_mul _ _ _
        _ < 1 + (d - 1) := add_lt_add_of_lt_of_le hnear hgap
        _ = 1 / 2 * (2 * d) := by ring
    exact lt_of_mul_lt_mul_right hsum hdpos.le

/-! ## Significant digits -/

/-- The exponent of the last of the digits that are kept. -/
def lastDigit (prec : ℕ) (x : ℚ) : ℤ := Int.log 10 |x| + 1 - prec

/-- The result of an operation in a context of so many digits, of its exact result.
Fidelity: the exponents are not limited. -/
def roundDigits (prec : ℕ) (x : ℚ) : ℚ :=
  if x = 0 then 0 else roundHalfEven (x / 10 ^ lastDigit prec x) * 10 ^ lastDigit prec x

example : roundDigits 28 (2 / 3) = 0.6666666666666666666666666667 := by decide +kernel

/-- A number of few digits is returned as it is. -/
lemma roundDigits_exact {prec k : ℕ} {x : ℚ} {m : ℤ} (hm : x * 10 ^ k = m) (hlt : |x| * 10 ^ k < 10 ^ prec) :
    roundDigits prec x = x := by
  unfold roundDigits
  split
  · rename_i hzero
    exact hzero.symm
  · rename_i hne
    have hpos : 0 < |x| := abs_pos.mpr hne
    -- the last digit that is kept is not before the last one there is
    have hlast : lastDigit prec x ≤ -(k : ℤ) := by
      have hsize : |x| < ((10 : ℕ) : ℚ) ^ ((prec : ℤ) - k) := by
        rw [Nat.cast_ofNat, zpow_sub₀ (by norm_num), zpow_natCast, zpow_natCast, lt_div_iff₀ (by positivity)]
        exact hlt
      have hlog := (Int.lt_zpow_iff_log_lt (show 1 < 10 by omega) hpos).mp hsize
      unfold lastDigit
      omega
    obtain ⟨j, hj⟩ : ∃ j : ℕ, lastDigit prec x = -((k + j : ℕ) : ℤ) := ⟨(-(lastDigit prec x) - k).toNat, by omega⟩
    have hint : x / (10 : ℚ) ^ lastDigit prec x = ((m * 10 ^ j : ℤ) : ℚ) := by
      rw [hj, zpow_neg, zpow_natCast, div_inv_eq_mul, pow_add, ← mul_assoc, hm]
      push_cast
      rfl
    rw [hint, roundHalfEven_intCast, ← hint, div_mul_cancel₀]
    exact zpow_ne_zero _ (by norm_num)

lemma roundDigits_nonneg {prec : ℕ} {x : ℚ} (hx : 0 ≤ x) : 0 ≤ roundDigits prec x := by
  have hunit : (0 : ℚ) < 10 ^ lastDigit prec x := zpow_pos (by norm_num) _
  unfold roundDigits
  split
  · exact le_rfl
  · refine mul_nonneg ?_ hunit.le
    exact_mod_cast roundHalfEven_nonneg (div_nonneg hx hunit.le)

/-- A number that is at most one is returned with an error of its last digit. -/
lemma abs_roundDigits_sub_le {prec : ℕ} {x : ℚ} (hx : |x| ≤ 1) : |roundDigits prec x - x| * (2 * 10 ^ prec) ≤ 10 := by
  unfold roundDigits
  split
  · rename_i hzero
    rw [hzero, sub_zero, abs_zero, zero_mul]
    norm_num
  · rename_i hne
    have hunit : (0 : ℚ) < 10 ^ lastDigit prec x := zpow_pos (by norm_num) _
    have hnear := abs_roundHalfEven_sub_le (x / 10 ^ lastDigit prec x)
    have hscaled : (roundHalfEven (x / 10 ^ lastDigit prec x) : ℚ) * 10 ^ lastDigit prec x - x =
        (roundHalfEven (x / 10 ^ lastDigit prec x) - x / 10 ^ lastDigit prec x) * 10 ^ lastDigit prec x := by
      rw [sub_mul, div_mul_cancel₀ _ hunit.ne']
    have hlog : Int.log 10 |x| ≤ 0 := by
      have hlow := Int.zpow_log_le_self (show 1 < 10 by omega) (abs_pos.mpr hne)
      by_contra hpos
      have hone : (1 : ℚ) < ((10 : ℕ) : ℚ) ^ Int.log 10 |x| := one_lt_zpow₀ (by norm_num) (not_le.mp hpos)
      linarith
    have hsmall : (10 : ℚ) ^ lastDigit prec x * 10 ^ prec ≤ 10 := by
      rw [← zpow_natCast, ← zpow_add₀ (by norm_num)]
      calc (10 : ℚ) ^ (lastDigit prec x + prec) ≤ 10 ^ (1 : ℤ) :=
            zpow_le_zpow_right₀ (by norm_num) (by unfold lastDigit; omega)
        _ = 10 := zpow_one _
    rw [hscaled, abs_mul, abs_of_pos hunit]
    calc _ ≤ 1 / 2 * (10 : ℚ) ^ lastDigit prec x * (2 * 10 ^ prec) := by gcongr
      _ = (10 : ℚ) ^ lastDigit prec x * 10 ^ prec := by ring
      _ ≤ 10 := hsmall

/-- **A fraction is not rounded twice**: with more digits than its denominator and the decimals have, the decimals of a
rounded fraction are those of the fraction. -/
theorem quantize_roundDigits {scale prec w n : ℕ} (hw : w ≤ n) (hn : 0 < n) (hprec : n * 10 ^ (scale + 1) < 10 ^ prec) :
    roundHalfEven (roundDigits prec (w / n) * 10 ^ scale) = roundHalfEven ((w / n : ℚ) * 10 ^ scale) := by
  have hnpos : (0 : ℚ) < n := by exact_mod_cast hn
  have hpow : (0 : ℚ) < 10 ^ scale := by positivity
  have hone : |(w / n : ℚ)| ≤ 1 := by
    rw [abs_of_nonneg (by positivity), div_le_one hnpos]
    exact_mod_cast hw
  have hdigits : (n : ℚ) * 10 ^ (scale + 1) < 10 ^ prec := by exact_mod_cast hprec
  have herror := @abs_roundDigits_sub_le prec _ hone
  refine roundHalfEven_eq_of_near (d := n) (m := w * 10 ^ scale) hn ?_ ?_ fun j hj => ?_
  · push_cast
    field_simp
  · rw [← sub_mul, abs_mul, abs_of_pos hpow]
    have hprecPos : (0 : ℚ) < 10 ^ prec := by positivity
    have hsmall : |roundDigits prec (w / n) - w / n| * 10 ^ scale * (2 * n) * 10 ^ prec ≤ n * 10 ^ (scale + 1) := by
      calc _ = |roundDigits prec (w / n) - w / n| * (2 * 10 ^ prec) * (n * 10 ^ scale) := by ring
        _ ≤ 10 * (n * 10 ^ scale) := mul_le_mul_of_nonneg_right herror (by positivity)
        _ = n * 10 ^ (scale + 1) := by ring
    refine lt_of_mul_lt_mul_right ?_ hprecPos.le
    rw [one_mul]
    exact hsmall.trans_lt hdigits
  · -- a half-way point has one decimal more
    congr 1
    refine @roundDigits_exact prec (scale + 1) _ (5 * j) ?_ ?_
    · push_cast
      rw [← hj]
      ring
    · have honeLe : (1 : ℚ) ≤ n := by exact_mod_cast hn
      calc |(w / n : ℚ)| * 10 ^ (scale + 1) ≤ n * 10 ^ (scale + 1) :=
            mul_le_mul_of_nonneg_right (hone.trans honeLe) (by positivity)
        _ < 10 ^ prec := hdigits

end MuStrategy.Lib
