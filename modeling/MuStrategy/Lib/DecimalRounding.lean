import Mathlib.Data.Int.Log
import MuStrategy.Lib.DecimalContext
import MuStrategy.Lib.FixedPoint

/-!
# Results of decimal operations, with a sign

An operation of a context has an exact result, and returns it with as many digits as the context keeps.

* `Context.round` — the number returned for an exact result, half to even.
* `Context.round_near` — it is near.
-/

namespace MuStrategy.Lib.Decimal

namespace Context

/-- The exponent of the last digit that is kept of a number that is not zero. -/
def lastExponent (ctx : Context) (x : ℚ) : ℤ := max (Int.log 10 |x| + 1 - ctx.prec) ctx.etiny

/-- The number that an operation returns, of its exact result. Underflow is not trapped. -/
def round (ctx : Context) (x : ℚ) : Except Signal ℚ :=
  if x = 0 then pure 0
  else
    let rounded := roundHalfEven (x / 10 ^ ctx.lastExponent x) * (10 : ℚ) ^ ctx.lastExponent x
    if ctx.emax < Int.log 10 |rounded| then throw .overflow else pure rounded

example : default.round (2 / 3) = .ok 0.6666666666666666666666666667 := by decide +kernel

example : default.round (-12345678901234567890123456785) = .ok (-12345678901234567890123456780) := by decide +kernel

/-- What is returned is near: within half a unit of the last digit. -/
lemma abs_rounded_sub_le (ctx : Context) (x : ℚ) :
    |roundHalfEven (x / 10 ^ ctx.lastExponent x) * (10 : ℚ) ^ ctx.lastExponent x - x| ≤
      10 ^ ctx.lastExponent x / 2 := by
  have hpos : (0 : ℚ) < 10 ^ ctx.lastExponent x := zpow_pos (by norm_num) _
  have hnear := abs_roundHalfEven_sub_le (x / 10 ^ ctx.lastExponent x)
  have hscaled : (roundHalfEven (x / 10 ^ ctx.lastExponent x) : ℚ) * 10 ^ ctx.lastExponent x - x =
      (roundHalfEven (x / 10 ^ ctx.lastExponent x) - x / 10 ^ ctx.lastExponent x) * 10 ^ ctx.lastExponent x := by
    rw [sub_mul, div_mul_cancel₀ _ hpos.ne']
  rw [hscaled, abs_mul, abs_of_pos hpos]
  calc _ ≤ 1 / 2 * (10 : ℚ) ^ ctx.lastExponent x := mul_le_mul_of_nonneg_right hnear hpos.le
    _ = _ := by ring

/-- The last digit of a number in the default context. -/
lemma default_lastExponent_le {x : ℚ} (hx : x ≠ 0) :
    (10 : ℚ) ^ default.lastExponent x ≤ (|x| + 1) * 10 ^ (-27 : ℤ) := by
  have hpos : 0 < |x| := abs_pos.mpr hx
  have hunit : (0 : ℚ) < 10 ^ (-27 : ℤ) := zpow_pos (by norm_num) _
  rcases max_choice (Int.log 10 |x| + 1 - (default.prec : ℤ)) default.etiny with hmax | hmax
  · have hlow := Int.zpow_log_le_self (show 1 < 10 by omega) hpos
    rw [Nat.cast_ofNat] at hlow
    rw [lastExponent, hmax, show Int.log 10 |x| + 1 - (default.prec : ℤ) = Int.log 10 |x| + -27 by
      simp only [default]
      omega, zpow_add₀ (by norm_num)]
    exact mul_le_mul_of_nonneg_right (by linarith) hunit.le
  · have htiny : (10 : ℚ) ^ default.etiny ≤ 10 ^ (-27 : ℤ) := by
      refine zpow_le_zpow_right₀ (by norm_num) ?_
      simp only [etiny, default]
      omega
    rw [lastExponent, hmax]
    nlinarith

lemma log_le_of_lt {r : ℚ} {n : ℕ} (h : |r| < 10 ^ n) : Int.log 10 |r| ≤ n := by
  rcases (abs_nonneg r).eq_or_lt with hzero | hpos
  · rw [← hzero, Int.log_zero_right]
    omega
  · refine (Int.lt_zpow_iff_log_lt (show 1 < 10 by omega) hpos).mp ?_ |>.le
    rwa [Nat.cast_ofNat, zpow_natCast]

/-- **The default context is near**, and does not overflow at ordinary numbers. -/
theorem round_near {x : ℚ} (hx : |x| ≤ 10 ^ 20) :
    ∃ y, default.round x = .ok y ∧ |y - x| ≤ (|x| + 1) / 10 ^ 27 := by
  by_cases hzero : x = 0
  · exact ⟨0, by rw [round, if_pos hzero]; rfl, by rw [hzero]; norm_num⟩
  have hnear := (abs_rounded_sub_le default x).trans
    (div_le_self (zpow_pos (by norm_num) _).le (by norm_num : (1 : ℚ) ≤ 2))
  have hbound := hnear.trans (default_lastExponent_le hzero)
  rw [zpow_neg, ← div_eq_mul_inv] at hbound
  norm_cast at hbound
  refine ⟨_, ?_, by exact_mod_cast hbound⟩
  rw [round, if_neg hzero]
  dsimp only
  rw [if_neg]
  · rfl
  · have hsize : |roundHalfEven (x / 10 ^ default.lastExponent x) * (10 : ℚ) ^ default.lastExponent x| < 10 ^ 21 := by
      have htriangle := abs_sub_abs_le_abs_sub
        (roundHalfEven (x / 10 ^ default.lastExponent x) * (10 : ℚ) ^ default.lastExponent x) x
      have hsmall : (|x| + 1) / 10 ^ 27 ≤ 1 := by
        rw [div_le_one (by norm_num)]
        linarith
      norm_cast at hbound htriangle hsmall ⊢
      have : (10 : ℚ) ^ 20 + 1 < 10 ^ 21 := by norm_num
      linarith
    have hlog := log_le_of_lt hsize
    simp only [default, not_lt] at hlog ⊢
    omega

end Context

end MuStrategy.Lib.Decimal
