import Mathlib
import MuStrategy.Lib.Number

/-!
# Decimals with a fixed number of fraction digits

What `quantize` makes of a number: a coefficient, at so many decimals, and a sign that zero has too.

* `FixedPoint.ofRat` — `quantize`, half to even.
* `roundHalfEven_mono`, `abs_roundHalfEven_sub_le` — rounding keeps the order, and is near.
* `toRat_ofRat_mono` — so do the decimals that are written.
-/

namespace MuStrategy.Lib

/-! ## Rounding -/

lemma floor_le_roundHalfEven (x : ℚ) : ⌊x⌋ ≤ roundHalfEven x := by
  unfold roundHalfEven
  split_ifs <;> omega

lemma roundHalfEven_le_floor_add_one (x : ℚ) : roundHalfEven x ≤ ⌊x⌋ + 1 := by
  unfold roundHalfEven
  split_ifs <;> omega

/-- **Rounding keeps the order.** -/
theorem roundHalfEven_mono : Monotone roundHalfEven := by
  intro x y hxy
  rcases (Int.floor_mono hxy).lt_or_eq with hfloor | hfloor
  · exact (roundHalfEven_le_floor_add_one x).trans (Int.add_one_le_iff.mpr hfloor |>.trans (floor_le_roundHalfEven y))
  · -- between the same integers, the greater one has the greater fraction
    have hfraction : x - ⌊x⌋ ≤ y - ⌊y⌋ := by
      rw [hfloor]
      exact sub_le_sub_right hxy _
    unfold roundHalfEven
    rw [hfloor] at hfraction ⊢
    split_ifs <;> first | omega | linarith

lemma roundHalfEven_intCast (n : ℤ) : roundHalfEven n = n := by
  unfold roundHalfEven
  rw [Int.floor_intCast, sub_self, if_pos (by norm_num)]

/-- Rounding is near. -/
lemma abs_roundHalfEven_sub_le (x : ℚ) : |(roundHalfEven x : ℚ) - x| ≤ 1 / 2 := by
  have hlow := Int.floor_le x
  have hhigh := Int.lt_floor_add_one x
  unfold roundHalfEven
  rw [abs_le]
  split_ifs <;> push_cast <;> constructor <;> linarith

lemma roundHalfEven_nonneg {x : ℚ} (h : 0 ≤ x) : 0 ≤ roundHalfEven x := by
  have hmono := roundHalfEven_mono h
  rwa [show roundHalfEven 0 = 0 from roundHalfEven_intCast 0] at hmono

lemma roundHalfEven_nonpos {x : ℚ} (h : x ≤ 0) : roundHalfEven x ≤ 0 := by
  have hmono := roundHalfEven_mono h
  rwa [show roundHalfEven 0 = 0 from roundHalfEven_intCast 0] at hmono

/-! ## Fixed point -/

/-- A decimal with `scale` fraction digits. Zero has a sign. -/
structure FixedPoint (scale : ℕ) where
  negative : Bool
  coefficient : ℕ
  deriving DecidableEq

namespace FixedPoint

variable {scale : ℕ}

/-- The number. -/
def toRat (d : FixedPoint scale) : ℚ :=
  (if d.negative then -(d.coefficient : ℚ) else d.coefficient) / 10 ^ scale

/-- `quantize(Decimal(1).scaleb(-scale), ROUND_HALF_EVEN)`. -/
def ofRat (scale : ℕ) (x : ℚ) : FixedPoint scale := ⟨decide (x < 0), (roundHalfEven (x * 10 ^ scale)).natAbs⟩

/-- The number that is written. -/
lemma toRat_ofRat (x : ℚ) : (ofRat scale x).toRat = (roundHalfEven (x * 10 ^ scale) : ℚ) / 10 ^ scale := by
  have hpow : (0 : ℚ) < 10 ^ scale := by positivity
  unfold toRat ofRat
  congr 1
  by_cases hx : x < 0
  · have hround := roundHalfEven_nonpos (mul_nonpos_of_nonpos_of_nonneg hx.le hpow.le)
    rw [if_pos (decide_eq_true hx), Nat.cast_natAbs, abs_of_nonpos hround]
    push_cast
    ring
  · have hround := roundHalfEven_nonneg (mul_nonneg (not_lt.mp hx) hpow.le)
    rw [if_neg (by simpa using hx), Nat.cast_natAbs, abs_of_nonneg hround]

/-- **Writing keeps the order.** -/
theorem toRat_ofRat_mono : Monotone fun x => (ofRat scale x).toRat := by
  intro x y hxy
  have hpow : (0 : ℚ) < 10 ^ scale := by positivity
  dsimp only
  rw [toRat_ofRat, toRat_ofRat]
  refine div_le_div_of_nonneg_right ?_ hpow.le
  exact Int.cast_le.mpr (roundHalfEven_mono (mul_le_mul_of_nonneg_right hxy hpow.le))

/-- What is written is near. -/
lemma abs_toRat_ofRat_sub_le (x : ℚ) : |(ofRat scale x).toRat - x| ≤ 1 / 2 / 10 ^ scale := by
  have hpow : (0 : ℚ) < 10 ^ scale := by positivity
  rw [toRat_ofRat, div_sub' hpow.ne', abs_div, abs_of_pos hpow, mul_comm (10 ^ scale) x]
  exact div_le_div_of_nonneg_right (abs_roundHalfEven_sub_le _) hpow.le

end FixedPoint

end MuStrategy.Lib
