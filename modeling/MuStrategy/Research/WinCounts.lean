import Mathlib.Data.Int.LeastGreatest
import Mathlib.Data.List.Sort
import Mathlib.Order.Bounds.Basic
import MuStrategy.Lib.DecimalContext
import MuStrategy.Lib.DoubleRounding
import MuStrategy.Lib.FixedPointText

/-!
# Win counts of a win rate

A win rate is published with eight decimals. The counts of wins that it may stand for are searched among a few: the ends
of the range, and the neighbours of the ends of the interval that is rounded to the rate.

* `compatibleWinCountBounds` — the least and the greatest count that were found.
* `mem_candidates_of_least`, `mem_candidates_of_greatest` — no count outside the few is the least or the greatest.
* `bounds_iff` — so they are the least and the greatest of all counts.
-/

namespace MuStrategy.Research

open Lib

/-! ## The search -/

/-- Source: `research/candidate_conclusions.py` `format_candidate_metric`, of a float that is exact. -/
def formatCandidateMetric (value : ℚ) : String := (FixedPoint.ofRat 8 value).text

/-- `max(28, len(str(count)) + 20)`. -/
def countPrecision (count : ℕ) : ℕ := max 28 (Decimal.digitCount count + 20)

/-- `(Decimal(numerator) / Decimal(denominator)).quantize(STRATEGY_LADDER_METRIC_QUANTUM)`. -/
def quantizedQuotient (prec numerator denominator : ℕ) : FixedPoint 8 :=
  .ofRat 8 (roundDigits prec (numerator / denominator))

/-- Source: `research/candidate_conclusions.py` `_quantized_fraction`: no denominator raises. -/
def quantizedFraction? (numerator denominator : ℕ) : Option (FixedPoint 8) :=
  if denominator = 0 then none
  else some (quantizedQuotient (countPrecision (max numerator denominator)) numerator denominator)

/-- `lower_estimate` and `upper_estimate`. -/
def winEstimates (winRate : FixedPoint 8) (tradeCount : ℕ) : List ℚ :=
  let prec := countPrecision tradeCount
  let halfUnit : ℚ := 0.000000005
  [winRate.toRat - halfUnit, winRate.toRat + halfUnit].map fun bound =>
    roundDigits prec (roundDigits prec bound * tradeCount)

/-- `candidates`. -/
def winCountCandidates (winRate : FixedPoint 8) (tradeCount : ℕ) (minimum maximum : ℤ) : List ℤ :=
  minimum :: maximum :: (winEstimates winRate tradeCount).flatMap fun estimate =>
    (List.range 5).map fun (offset : ℕ) => ⌊estimate⌋ - 2 + offset

/-- Source: `research/candidate_conclusions.py` `_compatible_win_count_bounds`.
The texts of win rates are canonical here, so they are compared by their decimals. -/
def compatibleWinCountBounds (winRate : FixedPoint 8) (tradeCount : ℕ) (minimum : ℤ := 0) (maximum : Option ℤ := none) :
    Option (ℤ × ℤ) :=
  let low := max 0 minimum
  let high := min (tradeCount : ℤ) (maximum.getD tradeCount)
  if high < low then none
  else if tradeCount = 0 then
    if low = 0 ∧ high = 0 ∧ winRate = .ofRat 8 0 then some (0, 0) else none
  else
    let candidates := (winCountCandidates winRate tradeCount low high).dedup.insertionSort (· ≤ ·)
    let compatible := candidates.filter fun winCount =>
      low ≤ winCount && winCount ≤ high &&
        quantizedQuotient (countPrecision tradeCount) winCount.toNat tradeCount = winRate
    match compatible.head?, compatible.getLast? with
    | some least, some greatest => some (least, greatest)
    | _, _ => none

/-- Source: `research/candidate_conclusions.py` `_has_compatible_win_count`. -/
def hasCompatibleWinCount (winRate : FixedPoint 8) (tradeCount : ℕ) (minimum : ℤ := 0) (maximum : Option ℤ := none) :
    Bool :=
  (compatibleWinCountBounds winRate tradeCount minimum maximum).isSome

/-! ## The counts -/

/-- The counts of wins in a range that have a win rate. -/
def compatibleWinCounts (winRate : FixedPoint 8) (tradeCount : ℕ) (minimum : ℤ) (maximum : Option ℤ) : Set ℤ :=
  {winCount | max 0 minimum ≤ winCount ∧ winCount ≤ min (tradeCount : ℤ) (maximum.getD tradeCount) ∧
    FixedPoint.ofRat 8 (winCount / tradeCount) = winRate}

lemma mul_lt_pow_countPrecision (count : ℕ) : count * 10 ^ (8 + 1) < 10 ^ countPrecision count := by
  have hlt := Decimal.lt_pow_digitCount count
  calc count * 10 ^ (8 + 1) < 10 ^ Decimal.digitCount count * 10 ^ 20 :=
        Nat.mul_lt_mul_of_lt_of_le hlt (by norm_num) (by positivity)
    _ = 10 ^ (Decimal.digitCount count + 20) := (pow_add _ _ _).symm
    _ ≤ 10 ^ countPrecision count := Nat.pow_le_pow_right (by omega) (le_max_right _ _)

/-- **A quotient is not rounded twice.** -/
lemma quantizedQuotient_eq {prec numerator denominator : ℕ} (hle : numerator ≤ denominator) (hpos : 0 < denominator)
    (hprec : denominator * 10 ^ (8 + 1) < 10 ^ prec) :
    quantizedQuotient prec numerator denominator = .ofRat 8 (numerator / denominator) := by
  have hround := @quantize_roundDigits 8 prec _ _ hle hpos hprec
  have hexact : (0 : ℚ) ≤ numerator / denominator := by positivity
  have hrounded := @roundDigits_nonneg prec _ hexact
  rw [quantizedQuotient, FixedPoint.ofRat, FixedPoint.ofRat, hround, decide_eq_false (not_lt.mpr hrounded),
    decide_eq_false (not_lt.mpr hexact)]

section counts

variable {winRate : FixedPoint 8} {tradeCount : ℕ} {minimum : ℤ} {maximum : Option ℤ} {winCount : ℤ}

/-- A rate is near the fraction it is rounded of. -/
lemma near_of_ofRat {x : ℚ} (h : FixedPoint.ofRat 8 x = winRate) : |x - winRate.toRat| ≤ 0.000000005 := by
  have hnear := @FixedPoint.abs_toRat_ofRat_sub_le 8 x
  rw [h, abs_sub_comm] at hnear
  norm_num at hnear ⊢
  exact hnear

/-- What is nearer than half a unit is rounded to the rate. -/
lemma ofRat_of_near {x : ℚ} (hx : 0 ≤ x) (hsign : winRate.negative = false) (h : |x - winRate.toRat| < 0.000000005) :
    FixedPoint.ofRat 8 x = winRate := by
  obtain ⟨negative, coefficient⟩ := winRate
  obtain rfl : negative = false := hsign
  have hvalue : (⟨false, coefficient⟩ : FixedPoint 8).toRat = coefficient / 10 ^ 8 := rfl
  have hnear : |x * 10 ^ 8 - ((coefficient : ℤ) : ℚ)| < 1 / 2 := by
    rw [hvalue, abs_lt] at h
    rw [abs_lt, Int.cast_natCast]
    norm_num at h ⊢
    constructor <;> linarith
  rw [FixedPoint.ofRat, roundHalfEven_eq_of_lt hnear, decide_eq_false (not_lt.mpr hx), Int.natAbs_natCast]

/-- A rate of wins is no loss, and no more than all. -/
lemma rate_bounds (hcount : 0 < tradeCount) (hmem : winCount ∈ compatibleWinCounts winRate tradeCount minimum maximum) :
    winRate.negative = false ∧ 0 ≤ winRate.toRat ∧ winRate.toRat ≤ 1 := by
  obtain ⟨hlow, hhigh, hrate⟩ := hmem
  have hpos : (0 : ℚ) < tradeCount := by exact_mod_cast hcount
  have hnonneg : (0 : ℚ) ≤ winCount := by exact_mod_cast (le_max_left _ _).trans hlow
  have hle : (winCount : ℚ) ≤ tradeCount := by exact_mod_cast hhigh.trans (min_le_left _ _)
  have hfraction : (0 : ℚ) ≤ winCount / tradeCount := div_nonneg hnonneg hpos.le
  have hone := FixedPoint.toRat_ofRat_intCast 8 1
  push_cast at hone
  rw [← hrate]
  refine ⟨decide_eq_false (not_lt.mpr hfraction), FixedPoint.toRat_ofRat_nonneg hfraction, ?_⟩
  rw [← hone]
  exact FixedPoint.toRat_ofRat_mono ((div_le_one hpos).mpr hle)

/-- **The estimates are exact.** -/
lemma winEstimates_eq (hcount : 0 < tradeCount) (hlow : 0 ≤ winRate.toRat) (hhigh : winRate.toRat ≤ 1) :
    winEstimates winRate tradeCount =
      [(winRate.toRat - 0.000000005) * tradeCount, (winRate.toRat + 0.000000005) * tradeCount] := by
  have hprec := mul_lt_pow_countPrecision tradeCount
  have hprecQ : (tradeCount : ℚ) * 10 ^ (8 + 1) < 10 ^ countPrecision tradeCount := by exact_mod_cast hprec
  have hone : (1 : ℚ) ≤ tradeCount := by exact_mod_cast hcount
  -- nine decimals, and no more than two whole units
  have hwide : (2 * tradeCount : ℚ) * 10 ^ 9 < 10 ^ countPrecision tradeCount := by
    have hlt := Decimal.lt_pow_digitCount tradeCount
    have hdigits : (2 * tradeCount) * 10 ^ 9 < 10 ^ countPrecision tradeCount := by
      calc (2 * tradeCount) * 10 ^ 9 = tradeCount * (2 * 10 ^ 9) := by ring
        _ < 10 ^ Decimal.digitCount tradeCount * 10 ^ 20 :=
            Nat.mul_lt_mul_of_lt_of_le hlt (by norm_num) (by positivity)
        _ = 10 ^ (Decimal.digitCount tradeCount + 20) := (pow_add _ _ _).symm
        _ ≤ 10 ^ countPrecision tradeCount := Nat.pow_le_pow_right (by omega) (le_max_right _ _)
    exact_mod_cast hdigits
  have hexact : ∀ (bound : ℚ) (m : ℤ), bound * 10 ^ 9 = m → |bound| ≤ 2 →
      roundDigits (countPrecision tradeCount) (roundDigits (countPrecision tradeCount) bound * tradeCount) =
        bound * tradeCount := by
    intro bound m hm hbound
    have hfirst : roundDigits (countPrecision tradeCount) bound = bound := by
      refine roundDigits_exact hm (lt_of_le_of_lt ?_ hwide)
      refine mul_le_mul_of_nonneg_right ?_ (by norm_num)
      linarith
    rw [hfirst]
    refine @roundDigits_exact _ 9 _ (m * tradeCount) ?_ (lt_of_le_of_lt ?_ hwide)
    · push_cast
      rw [← hm]
      ring
    · rw [abs_mul, abs_of_pos (by linarith : (0 : ℚ) < tradeCount)]
      exact mul_le_mul_of_nonneg_right (mul_le_mul_of_nonneg_right hbound (by linarith)) (by norm_num)
  obtain ⟨c, hc⟩ : ∃ c : ℤ, winRate.toRat * 10 ^ 8 = c := by
    refine ⟨if winRate.negative then -winRate.coefficient else winRate.coefficient, ?_⟩
    rw [FixedPoint.toRat, div_mul_cancel₀ _ (by positivity)]
    split <;> push_cast <;> rfl
  rw [winEstimates, List.map_cons, List.map_singleton,
    hexact (winRate.toRat - 0.000000005) (10 * c - 5) (by push_cast; rw [← hc]; norm_num; ring)
      (abs_le.mpr ⟨by norm_num; linarith, by norm_num; linarith⟩),
    hexact (winRate.toRat + 0.000000005) (10 * c + 5) (by push_cast; rw [← hc]; norm_num; ring)
      (abs_le.mpr ⟨by norm_num; linarith, by norm_num; linarith⟩)]

/-- A count next to an estimate is a candidate. -/
lemma mem_candidates_of_floor {low high : ℤ} {estimate : ℚ} (h : estimate ∈ winEstimates winRate tradeCount)
    (hlow : ⌊estimate⌋ - 2 ≤ winCount) (hhigh : winCount ≤ ⌊estimate⌋ + 2) :
    winCount ∈ winCountCandidates winRate tradeCount low high := by
  refine List.mem_cons_of_mem _ (List.mem_cons_of_mem _ (List.mem_flatMap.mpr ⟨estimate, h, ?_⟩))
  exact List.mem_map.mpr ⟨(winCount - (⌊estimate⌋ - 2)).toNat, List.mem_range.mpr (by omega), by omega⟩

/-- The step between neighbours: if one has the rate and the other has not, the other is outside of the interval. -/
lemma half_le_of_not_rate (hcount : 0 < tradeCount) {other : ℤ} (hother : 0 ≤ other)
    (hsign : winRate.negative = false) (hnot : FixedPoint.ofRat 8 (other / tradeCount) ≠ winRate) :
    0.000000005 ≤ |(other / tradeCount : ℚ) - winRate.toRat| := by
  by_contra hnear
  have hnonneg : (0 : ℚ) ≤ other / tradeCount := by
    have : (0 : ℚ) ≤ other := by exact_mod_cast hother
    positivity
  exact hnot (ofRat_of_near hnonneg hsign (not_le.mp hnear))

/-- **The least count is a candidate.** -/
lemma mem_candidates_of_least (hcount : 0 < tradeCount)
    (h : IsLeast (compatibleWinCounts winRate tradeCount minimum maximum) winCount) :
    winCount ∈ winCountCandidates winRate tradeCount (max 0 minimum) (min tradeCount (maximum.getD tradeCount)) := by
  obtain ⟨hmem, hleast⟩ := h
  obtain ⟨hsign, hlow, hhigh⟩ := rate_bounds hcount hmem
  obtain ⟨hmin, hmax, hrate⟩ := hmem
  rcases hmin.eq_or_lt with hfirst | hafter
  · rw [← hfirst]
    exact List.mem_cons_self
  · -- the count before it has not the rate, so the lower estimate is between them
    have hpos : (0 : ℚ) < tradeCount := by exact_mod_cast hcount
    have hnot : FixedPoint.ofRat 8 (((winCount - 1 : ℤ) : ℚ) / tradeCount) ≠ winRate := by
      intro hprev
      have := hleast ⟨by omega, by omega, hprev⟩
      omega
    have hfar := half_le_of_not_rate hcount (by omega) hsign hnot
    have hnear := abs_le.mp (near_of_ofRat hrate)
    have hstep : ((winCount - 1 : ℤ) : ℚ) / tradeCount < winCount / tradeCount := by
      refine div_lt_div_of_pos_right ?_ hpos
      exact_mod_cast (by omega : winCount - 1 < winCount)
    have hbelow : ((winCount - 1 : ℤ) : ℚ) / tradeCount ≤ winRate.toRat - 0.000000005 := by
      rcases le_abs.mp hfar with hside | hside
      · linarith [hnear.2]
      · linarith
    have hprevious : ((winCount - 1 : ℤ) : ℚ) ≤ (winRate.toRat - 0.000000005) * tradeCount :=
      (div_le_iff₀ hpos).mp hbelow
    have hthis : (winRate.toRat - 0.000000005) * tradeCount ≤ winCount :=
      (le_div_iff₀ hpos).mp (by linarith [hnear.1])
    have hfloor := Int.le_floor.mpr hprevious
    have hfloor' : ⌊(winRate.toRat - 0.000000005) * tradeCount⌋ ≤ winCount := by
      exact_mod_cast (Int.floor_le _).trans hthis
    refine mem_candidates_of_floor (?_ : (winRate.toRat - 0.000000005) * tradeCount ∈ _) (by omega) (by omega)
    rw [winEstimates_eq hcount hlow hhigh]
    exact List.mem_cons_self

/-- **The greatest count is a candidate.** -/
lemma mem_candidates_of_greatest (hcount : 0 < tradeCount)
    (h : IsGreatest (compatibleWinCounts winRate tradeCount minimum maximum) winCount) :
    winCount ∈ winCountCandidates winRate tradeCount (max 0 minimum) (min tradeCount (maximum.getD tradeCount)) := by
  obtain ⟨hmem, hgreatest⟩ := h
  obtain ⟨hsign, hlow, hhigh⟩ := rate_bounds hcount hmem
  obtain ⟨hmin, hmax, hrate⟩ := hmem
  rcases hmax.eq_or_lt with hlast | hbefore
  · rw [hlast]
    exact List.mem_cons_of_mem _ List.mem_cons_self
  · -- the count after it has not the rate, so the upper estimate is between them
    have hpos : (0 : ℚ) < tradeCount := by exact_mod_cast hcount
    have hnot : FixedPoint.ofRat 8 (((winCount + 1 : ℤ) : ℚ) / tradeCount) ≠ winRate := by
      intro hnext
      have := hgreatest ⟨by omega, by omega, hnext⟩
      omega
    have hfar := half_le_of_not_rate hcount (by omega) hsign hnot
    have hnear := abs_le.mp (near_of_ofRat hrate)
    have hstep : (winCount : ℚ) / tradeCount < ((winCount + 1 : ℤ) : ℚ) / tradeCount := by
      refine div_lt_div_of_pos_right ?_ hpos
      exact_mod_cast (by omega : winCount < winCount + 1)
    have habove : winRate.toRat + 0.000000005 ≤ ((winCount + 1 : ℤ) : ℚ) / tradeCount := by
      rcases le_abs.mp hfar with hside | hside
      · linarith
      · linarith [hnear.1]
    have hnext : (winRate.toRat + 0.000000005) * tradeCount ≤ ((winCount + 1 : ℤ) : ℚ) := (le_div_iff₀ hpos).mp habove
    have hthis : (winCount : ℚ) ≤ (winRate.toRat + 0.000000005) * tradeCount :=
      (div_le_iff₀ hpos).mp (by linarith [hnear.2])
    have hfloor := Int.le_floor.mpr hthis
    have hfloor' : ⌊(winRate.toRat + 0.000000005) * tradeCount⌋ ≤ winCount + 1 := by
      exact_mod_cast (Int.floor_le _).trans hnext
    refine mem_candidates_of_floor (?_ : (winRate.toRat + 0.000000005) * tradeCount ∈ _) (by omega) (by omega)
    rw [winEstimates_eq hcount hlow hhigh]
    exact List.mem_cons_of_mem _ List.mem_cons_self

/-! ## What is found -/

lemma head_le_of_sorted {xs : List ℤ} (hsorted : xs.Pairwise (· ≤ ·)) {a : ℤ} (ha : xs.head? = some a) :
    a ∈ xs ∧ ∀ x ∈ xs, a ≤ x := by
  obtain ⟨rest, rfl⟩ := List.head?_eq_some_iff.mp ha
  exact ⟨List.mem_cons_self, List.forall_mem_cons.mpr ⟨le_rfl, (List.pairwise_cons.mp hsorted).1⟩⟩

lemma le_getLast_of_sorted {xs : List ℤ} (hsorted : xs.Pairwise (· ≤ ·)) {b : ℤ} (hb : xs.getLast? = some b) :
    b ∈ xs ∧ ∀ x ∈ xs, x ≤ b := by
  obtain ⟨init, rfl⟩ := List.getLast?_eq_some_iff.mp hb
  refine ⟨List.mem_append_right _ List.mem_cons_self, fun x hx => ?_⟩
  rcases List.mem_append.mp hx with hx | hx
  · exact (List.pairwise_append.mp hsorted).2.2 x hx b List.mem_cons_self
  · exact (List.mem_singleton.mp hx).le

/-- A range with a count of the rate has a least and a greatest one. -/
lemma exists_least_greatest (h : (compatibleWinCounts winRate tradeCount minimum maximum).Nonempty) :
    ∃ least greatest, IsLeast (compatibleWinCounts winRate tradeCount minimum maximum) least ∧
      IsGreatest (compatibleWinCounts winRate tradeCount minimum maximum) greatest := by
  obtain ⟨least, hleast, hleast'⟩ := Int.exists_least_of_bdd
    (P := fun z => z ∈ compatibleWinCounts winRate tradeCount minimum maximum) ⟨_, fun z hz => hz.1⟩ h
  obtain ⟨greatest, hgreatest, hgreatest'⟩ := Int.exists_greatest_of_bdd
    (P := fun z => z ∈ compatibleWinCounts winRate tradeCount minimum maximum) ⟨_, fun z hz => hz.2.1⟩ h
  exact ⟨least, greatest, ⟨hleast, hleast'⟩, ⟨hgreatest, hgreatest'⟩⟩

/-- **The bounds are the least and the greatest count.** -/
lemma bounds_eq_some_iff {least greatest : ℤ} :
    compatibleWinCountBounds winRate tradeCount minimum maximum = some (least, greatest) ↔
      IsLeast (compatibleWinCounts winRate tradeCount minimum maximum) least ∧
        IsGreatest (compatibleWinCounts winRate tradeCount minimum maximum) greatest := by
  unfold compatibleWinCountBounds
  dsimp only
  by_cases hrange : min (tradeCount : ℤ) (maximum.getD tradeCount) < max 0 minimum
  · rw [if_pos hrange]
    refine ⟨fun h => (by cases h), fun h => ?_⟩
    obtain ⟨⟨hlow, hhigh, -⟩, -⟩ := h.1
    exact absurd (hlow.trans hhigh) (not_le.mpr hrange)
  rw [if_neg hrange]
  by_cases hzero : tradeCount = 0
  · -- without trades no trade was won
    subst hzero
    have hlow : max 0 minimum = 0 := by omega
    have hhigh : min ((0 : ℕ) : ℤ) (maximum.getD (0 : ℕ)) = 0 := by omega
    have hmem : ∀ w, w ∈ compatibleWinCounts winRate 0 minimum maximum ↔ w = 0 ∧ winRate = .ofRat 8 0 := by
      intro w
      constructor
      · rintro ⟨hw, hw', hrate⟩
        rw [Nat.cast_zero, div_zero] at hrate
        exact ⟨by omega, hrate.symm⟩
      · rintro ⟨rfl, hrate⟩
        exact ⟨hlow.le, hhigh.ge, by rw [Nat.cast_zero, div_zero, hrate]⟩
    rw [if_pos rfl, hlow, hhigh]
    constructor
    · intro h
      split at h
      · rename_i hrate
        obtain ⟨rfl, rfl⟩ := Prod.mk.inj (Option.some.inj h)
        have hself := (hmem 0).mpr ⟨rfl, hrate.2.2⟩
        exact ⟨⟨hself, fun w hw => ((hmem w).mp hw).1.ge⟩, ⟨hself, fun w hw => ((hmem w).mp hw).1.le⟩⟩
      · cases h
    · rintro ⟨hleast, hgreatest⟩
      obtain ⟨rfl, hrate⟩ := (hmem _).mp hleast.1
      obtain ⟨rfl, -⟩ := (hmem _).mp hgreatest.1
      rw [if_pos ⟨rfl, rfl, hrate⟩]
  rw [if_neg hzero]
  have hcount : 0 < tradeCount := Nat.pos_of_ne_zero hzero
  obtain ⟨compatible, hcompatible⟩ : ∃ compatible, compatible =
      ((winCountCandidates winRate tradeCount (max 0 minimum) (min tradeCount (maximum.getD tradeCount))).dedup.insertionSort
        (· ≤ ·)).filter fun winCount => max 0 minimum ≤ winCount && winCount ≤ min (tradeCount : ℤ) (maximum.getD tradeCount) &&
          quantizedQuotient (countPrecision tradeCount) winCount.toNat tradeCount = winRate := ⟨_, rfl⟩
  rw [← hcompatible]
  have hsorted : compatible.Pairwise (· ≤ ·) := hcompatible ▸ (List.pairwise_insertionSort _ _).filter _
  have hmem : ∀ w, w ∈ compatible ↔
      w ∈ winCountCandidates winRate tradeCount (max 0 minimum) (min tradeCount (maximum.getD tradeCount)) ∧
        w ∈ compatibleWinCounts winRate tradeCount minimum maximum := by
    intro w
    rw [hcompatible, List.mem_filter, (List.perm_insertionSort _ _).mem_iff, List.mem_dedup]
    refine and_congr_right fun _ => ?_
    simp only [Bool.and_eq_true, decide_eq_true_eq, compatibleWinCounts, Set.mem_ofPred_eq, and_assoc]
    refine and_congr_right fun hlow => and_congr_right fun hhigh => ?_
    obtain ⟨n, rfl⟩ : ∃ n : ℕ, w = n := ⟨w.toNat, by omega⟩
    rw [Int.toNat_natCast, Int.cast_natCast,
      quantizedQuotient_eq (by omega) hcount (mul_lt_pow_countPrecision tradeCount)]
  have hin : ∀ {w}, IsLeast (compatibleWinCounts winRate tradeCount minimum maximum) w ∨
      IsGreatest (compatibleWinCounts winRate tradeCount minimum maximum) w → w ∈ compatible := by
    rintro w (h | h)
    · exact (hmem w).mpr ⟨mem_candidates_of_least hcount h, h.1⟩
    · exact (hmem w).mpr ⟨mem_candidates_of_greatest hcount h, h.1⟩
  cases hhead : compatible.head? with
  | none =>
      have hnil := List.head?_eq_none_iff.mp hhead
      refine ⟨fun h => (by cases h), fun h => ?_⟩
      exact absurd (hnil ▸ hin (Or.inl h.1)) List.not_mem_nil
  | some a =>
      obtain ⟨ha, ha'⟩ := head_le_of_sorted hsorted hhead
      cases hlast : compatible.getLast? with
      | none =>
          rw [List.getLast?_eq_none_iff.mp hlast] at ha
          exact absurd ha List.not_mem_nil
      | some b =>
          obtain ⟨hb, hb'⟩ := le_getLast_of_sorted hsorted hlast
          obtain ⟨l, g, hl, hg⟩ := exists_least_greatest ⟨a, ((hmem a).mp ha).2⟩
          have hal : a = l := le_antisymm (ha' l (hin (Or.inl hl))) (hl.2 ((hmem a).mp ha).2)
          have hbg : b = g := le_antisymm (hg.2 ((hmem b).mp hb).2) (hb' g (hin (Or.inr hg)))
          dsimp only
          rw [Option.some.injEq, Prod.mk.injEq, hal, hbg]
          exact ⟨fun h => h.1 ▸ h.2 ▸ ⟨hl, hg⟩, fun h => ⟨hl.unique h.1, hg.unique h.2⟩⟩

/-- No bounds are found if there is no count. -/
lemma bounds_eq_none_iff : compatibleWinCountBounds winRate tradeCount minimum maximum = none ↔
    compatibleWinCounts winRate tradeCount minimum maximum = ∅ := by
  rw [← Set.not_nonempty_iff_eq_empty, Option.eq_none_iff_forall_ne_some]
  constructor
  · intro h hnonempty
    obtain ⟨least, greatest, hleast, hgreatest⟩ := exists_least_greatest hnonempty
    exact h _ (bounds_eq_some_iff.mpr ⟨hleast, hgreatest⟩)
  · rintro h ⟨least, greatest⟩ hfound
    exact h ⟨least, (bounds_eq_some_iff.mp hfound).1.1⟩

/-- A count of the rate in the range is found. -/
lemma hasCompatibleWinCount_of_mem (h : winCount ∈ compatibleWinCounts winRate tradeCount minimum maximum) :
    hasCompatibleWinCount winRate tradeCount minimum maximum = true := by
  obtain ⟨least, greatest, hleast, hgreatest⟩ := exists_least_greatest ⟨winCount, h⟩
  rw [hasCompatibleWinCount, bounds_eq_some_iff.mpr ⟨hleast, hgreatest⟩]
  rfl

/-- **The search finds exactly the counts that there are**: its bounds are the least and the greatest count of wins in
the range that is published with the win rate, and it finds none if there is none. -/
theorem win_count_search_exact (winRate : FixedPoint 8) (tradeCount : ℕ) (minimum : ℤ) (maximum : Option ℤ) :
    (∀ least greatest, compatibleWinCountBounds winRate tradeCount minimum maximum = some (least, greatest) ↔
      IsLeast (compatibleWinCounts winRate tradeCount minimum maximum) least ∧
        IsGreatest (compatibleWinCounts winRate tradeCount minimum maximum) greatest) ∧
    (hasCompatibleWinCount winRate tradeCount minimum maximum = true ↔
      ∃ winCount : ℤ, max 0 minimum ≤ winCount ∧ winCount ≤ min (tradeCount : ℤ) (maximum.getD tradeCount) ∧
        formatCandidateMetric (winCount / tradeCount) = winRate.text) := by
  refine ⟨fun _ _ => bounds_eq_some_iff, ⟨fun h => ?_, fun h => ?_⟩⟩
  · obtain ⟨⟨least, greatest⟩, hfound⟩ := Option.isSome_iff_exists.mp h
    obtain ⟨⟨hlow, hhigh, hrate⟩, -⟩ := (bounds_eq_some_iff.mp hfound).1
    exact ⟨least, hlow, hhigh, congrArg FixedPoint.text hrate⟩
  · obtain ⟨winCount, hlow, hhigh, htext⟩ := h
    exact hasCompatibleWinCount_of_mem ⟨hlow, hhigh, FixedPoint.text_injective htext⟩

example : compatibleWinCountBounds (.ofRat 8 (2 / 3)) 3 = some (2, 2) := by decide +kernel

end counts

end MuStrategy.Research
