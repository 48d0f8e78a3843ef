import MuStrategy.Lib.Text
import MuStrategy.TrustedData.Aggregation

/-!
# Validation of candles

* `normalizeAndValidateCandles` — the candles in order, and whether they are on their grid, without a gap, with prices
  that fit each other and the candle before.
* `validateBuiltNativeCandles` — whether the parents that were built and the native ones are the same.
* `ValidCandles`, `normalizeAndValidateCandles_ok` — what valid candles are; a piece of them is valid too.
* `SameParents`, `validateBuiltNativeCandles_ok` — what validated parents are.
-/

namespace MuStrategy.TrustedData

open Lib

variable {F : Type} [Number F]

/-- What the checks ask of a `float` beyond arithmetic. -/
class FloatChecks (F : Type) where
  /-- `math.isfinite(x)`. -/
  isFinite : F → Bool
  /-- `f"{x:.2f}"`. -/
  fixed2 : F → String

export FloatChecks (isFinite fixed2)

/-! ## Reports -/

/-- Source: `contracts.py` `HealthReason`. -/
inductive HealthReason where
  | ok
  | notPublished
  | cacheMissing
  | cacheReadFailed
  | empty
  | refreshFailed
  | incrementalRefreshFailed
  | manifestMissing
  | malformedManifest
  | manifestBlocked
  | runFailed
  | runDegraded
  | manifestInvalid
  | manifestStale
  | freshnessUnknown
  | staleByClock
  | futureTimestamp
  | builtEmpty
  | nativeEmpty
  | builtSampleCountBelowMinimum
  | nativeSampleCountBelowMinimum
  | timestampMisaligned
  | timestampGap
  | missingInBuilt
  | missingInNative
  | ohlcvMismatch
  | ohlcvInvalid
  | continuityGap
  | cacheContentMismatch
  | insufficientCoverage
  deriving DecidableEq

/-- A gap between two candles. -/
structure TimestampGap where
  previousTimestampMs : ℤ
  currentTimestampMs : ℤ
  expectedIntervalMs : ℕ
  actualIntervalMs : ℤ
  missingCount : ℤ
  deriving DecidableEq

/-- A value that was built and is not the native one. -/
structure ValueMismatch (F : Type) where
  timestampMs : ℤ
  field : String
  built : F
  native : F

/-- Source: `contracts.py` `ValidationReport`. -/
structure ValidationReport (F : Type) where
  ok : Bool
  reason : HealthReason
  missingInBuilt : List ℤ := []
  missingInNative : List ℤ := []
  misalignedTimestamps : List ℤ := []
  timestampGaps : List TimestampGap := []
  valueMismatches : List (ValueMismatch F) := []
  warnings : List String := []

/-! ## Candles -/

section candles

variable [FloatChecks F]

/-- Source: `validation.py` `_is_finite_positive`. -/
def isFinitePositive (value : F) : Bool := isFinite value && 0 < value

/-- Source: `validation.py` `_is_finite_non_negative`. -/
def isFiniteNonNegative (value : F) : Bool := isFinite value && 0 ≤ value

/-- The checks of one candle. Source: `validation.py` `normalize_and_validate_candles`. -/
def validOhlcv (candle : Candle F) : Bool :=
  [candle.openPrice, candle.high, candle.low, candle.closePrice].all isFinitePositive &&
    isFiniteNonNegative candle.volume &&
    !(candle.high < pyMax candle.openPrice candle.closePrice || pyMin candle.openPrice candle.closePrice < candle.low ||
      candle.volume < 0)

/-- The open of a candle is within two percent of the close before. -/
def continuous (previous current : Candle F) : Bool :=
  isZero previous.closePrice || !((0.02 : F) < pyAbs (current.openPrice / previous.closePrice - 1))

/-- The candles and the ones that follow them. -/
def adjacent (candles : List (Candle F)) : List (Candle F × Candle F) := candles.zip candles.tail

/-- The gap after a candle. -/
def gapOf (intervalMs : ℕ) (pair : Candle F × Candle F) : TimestampGap where
  previousTimestampMs := pair.1.openTimeMs
  currentTimestampMs := pair.2.openTimeMs
  expectedIntervalMs := intervalMs
  actualIntervalMs := pair.2.openTimeMs - pair.1.openTimeMs
  missingCount := max 0 ((pair.2.openTimeMs - pair.1.openTimeMs) / intervalMs - 1)

/-- The report on candles in order; at most 20 gaps. Source: `validation.py` `normalize_and_validate_candles`. -/
def reportOn (ordered : List (Candle F)) (intervalMs : ℕ) : ValidationReport F :=
  let misaligned := (ordered.map Candle.openTimeMs).filter fun t => t % (intervalMs : ℤ) ≠ 0
  let gaps := (adjacent ordered).filter fun pair => pair.2.openTimeMs - pair.1.openTimeMs ≠ (intervalMs : ℤ)
  if misaligned ≠ [] then
    { ok := false, reason := .timestampMisaligned, misalignedTimestamps := misaligned }
  else if gaps ≠ [] then
    { ok := false, reason := .timestampGap, timestampGaps := (gaps.map (gapOf intervalMs)).take 20 }
  else if !ordered.all validOhlcv then { ok := false, reason := .ohlcvInvalid }
  else if !(adjacent ordered).all fun pair => continuous pair.1 pair.2 then { ok := false, reason := .continuityGap }
  else { ok := true, reason := .ok }

/-- Source: `validation.py` `normalize_and_validate_candles`. -/
def normalizeAndValidateCandles (candles : List (Candle F)) (interval : String) :
    Except StoreError (List (Candle F) × ValidationReport F) :=
  match dedupeCandles candles with
  | [] => pure ([], { ok := false, reason := .empty })
  | first :: rest => do
      let intervalMs ← intervalToMs interval
      require (intervalMs ≠ 0) (.value "integer modulo by zero")
      pure (first :: rest, reportOn (first :: rest) intervalMs)

/-! ## Parents -/

/-- `math.isclose(a, b, rel_tol=1e-8, abs_tol=1e-8)`. -/
def isClose (a b : F) : Bool :=
  sameNumber a b || (isFinite a && isFinite b &&
    pyAbs (a - b) ≤ pyMax ((1e-8 : F) * pyMax (pyAbs a) (pyAbs b)) (1e-8 : F))

/-- The candle of a time. -/
def candleAt (candles : List (Candle F)) (t : ℤ) : Option (Candle F) :=
  (dedupeCandles candles).find? fun candle => candle.openTimeMs = t

/-- The values of two candles that are not close. -/
def mismatches (built native : Candle F) : List (ValueMismatch F) :=
  ([("open", Candle.openPrice), ("high", Candle.high), ("low", Candle.low), ("close", Candle.closePrice),
      ("volume", Candle.volume)].filter fun field => !isClose (field.2 built) (field.2 native)).map fun field =>
    ⟨built.openTimeMs, field.1, field.2 built, field.2 native⟩

/-- The mismatches of a time at which there are two candles. -/
def mismatchesAt (built native : List (Candle F)) (t : ℤ) : List (ValueMismatch F) :=
  match candleAt built t, candleAt native t with
  | some b, some n => mismatches b n
  | _, _ => []

/-- Source: `validation.py` `validate_built_native_candles`, with its default limits. -/
def validateBuiltNativeCandles (built native : List (Candle F)) (interval : String) :
    Except StoreError (ValidationReport F) :=
  if built = [] then pure { ok := false, reason := .builtEmpty }
  else if native = [] then pure { ok := false, reason := .nativeEmpty }
  else if built.length < 1 then pure { ok := false, reason := .builtSampleCountBelowMinimum }
  else if native.length < 1 then pure { ok := false, reason := .nativeSampleCountBelowMinimum }
  else do
    let intervalMs ← intervalToMs interval
    require (intervalMs ≠ 0) (.value "integer modulo by zero")
    let builtTimes := byKey id (built.map Candle.openTimeMs)
    let nativeTimes := byKey id (native.map Candle.openTimeMs)
    let misaligned := (byKey id ((native ++ built).map Candle.openTimeMs)).filter fun t => t % (intervalMs : ℤ) ≠ 0
    let missingInBuilt := nativeTimes.filter (· ∉ builtTimes)
    let missingInNative := builtTimes.filter (· ∉ nativeTimes)
    let valueMismatches := builtTimes.flatMap (mismatchesAt built native)
    if misaligned ≠ [] then
      pure { ok := false, reason := .timestampMisaligned, misalignedTimestamps := misaligned }
    else if missingInBuilt ≠ [] then
      pure { ok := false, reason := .missingInBuilt, missingInBuilt := missingInBuilt }
    else if missingInNative ≠ [] then
      pure { ok := false, reason := .missingInNative, missingInNative := missingInNative }
    else if !valueMismatches.isEmpty then
      pure { ok := false, reason := .ohlcvMismatch, valueMismatches := valueMismatches.take 20 }
    else pure { ok := true, reason := .ok }

/-! ## Valid candles -/

/-- Candles on the grid of an interval without a gap, each valid and each close to the one before. -/
structure ValidCandles (candles : List (Candle F)) (intervalMs : ℕ) : Prop where
  ne : candles ≠ []
  grid : OnGrid intervalMs Candle.openTimeMs candles
  ohlcv : ∀ candle ∈ candles, validOhlcv candle = true
  continuous : candles.IsChain fun previous current => continuous previous current = true

variable {candles part : List (Candle F)} {interval : String} {intervalMs : ℕ}

/-- **A piece of valid candles is valid.** -/
lemma ValidCandles.piece (h : ValidCandles candles intervalMs) (hsub : part <:+: candles) (hne : part ≠ []) :
    ValidCandles part intervalMs where
  ne := hne
  grid := h.grid.piece hsub
  ohlcv := fun candle hcandle => h.ohlcv candle (hsub.subset hcandle)
  continuous := List.IsChain.infix h.continuous hsub

omit [Number F] [FloatChecks F] in
/-- A relation of all neighbours. -/
lemma forall_adjacent {R : Candle F → Candle F → Prop} :
    (∀ pair ∈ adjacent candles, R pair.1 pair.2) ↔ candles.IsChain R := by
  induction candles with
  | nil => exact iff_of_true (fun pair hpair => by cases hpair) .nil
  | cons first rest ih =>
      cases rest with
      | nil => exact iff_of_true (fun pair hpair => by cases hpair) (.singleton first)
      | cons second rest =>
          have hsplit : adjacent (first :: second :: rest) = (first, second) :: adjacent (second :: rest) := rfl
          rw [hsplit, List.forall_mem_cons, ih, List.isChain_cons_cons]

/-- The report on candles in order is fine exactly if they are valid. -/
lemma reportOn_ok (hne : candles ≠ []) :
    (reportOn candles intervalMs).ok = true ↔ ValidCandles candles intervalMs := by
  have haligned : ((candles.map Candle.openTimeMs).filter fun t => t % (intervalMs : ℤ) ≠ 0) = [] ↔
      ∀ candle ∈ candles, (intervalMs : ℤ) ∣ candle.openTimeMs := by
    rw [List.filter_eq_nil_iff, List.forall_mem_map]
    refine forall₂_congr fun candle _ => ?_
    rw [decide_eq_true_eq, not_not, Int.dvd_iff_emod_eq_zero]
  have hgaps : ((adjacent candles).filter fun pair =>
      pair.2.openTimeMs - pair.1.openTimeMs ≠ (intervalMs : ℤ)) = [] ↔
        candles.IsChain fun a b => b.openTimeMs = a.openTimeMs + (intervalMs : ℤ) := by
    rw [← forall_adjacent, List.filter_eq_nil_iff]
    refine forall₂_congr fun pair _ => ?_
    rw [decide_eq_true_eq, not_not, sub_eq_iff_eq_add, add_comm]
  have hcontinuous : ((adjacent candles).all fun pair => continuous pair.1 pair.2) = true ↔
      candles.IsChain fun previous current => continuous previous current = true := by
    rw [← forall_adjacent, List.all_eq_true]
  unfold reportOn
  by_cases hmisaligned : ((candles.map Candle.openTimeMs).filter fun t => t % (intervalMs : ℤ) ≠ 0) = []
  · by_cases hgap : ((adjacent candles).filter fun pair =>
        pair.2.openTimeMs - pair.1.openTimeMs ≠ (intervalMs : ℤ)) = []
    · by_cases hohlcv : candles.all validOhlcv = true
      · by_cases hjump : ((adjacent candles).all fun pair => continuous pair.1 pair.2) = true
        · simp only [hmisaligned, hgap, hohlcv, hjump, ne_eq, not_true, if_false, Bool.not_true, Bool.false_eq_true]
          exact iff_of_true trivial ⟨hne, ⟨haligned.mp hmisaligned, hgaps.mp hgap⟩, List.all_eq_true.mp hohlcv,
            hcontinuous.mp hjump⟩
        · simp only [hmisaligned, hgap, hohlcv, hjump, ne_eq, not_true, if_false, Bool.not_true, Bool.false_eq_true]
          exact iff_of_false Bool.false_ne_true fun h => hjump (hcontinuous.mpr h.continuous)
      · simp only [hmisaligned, hgap, hohlcv, ne_eq, not_true, if_false, Bool.not_false, if_true]
        exact iff_of_false Bool.false_ne_true fun h => hohlcv (List.all_eq_true.mpr h.ohlcv)
    · simp only [hmisaligned, hgap, ne_eq, not_true, if_false, not_false_eq_true, if_true]
      exact iff_of_false Bool.false_ne_true fun h => hgap (hgaps.mpr h.grid.steps)
  · simp only [hmisaligned, ne_eq, not_false_eq_true, if_true]
    exact iff_of_false Bool.false_ne_true fun h => hmisaligned (haligned.mpr h.grid.aligned)

/-- The candles in order, and the report on them. -/
lemma normalizeAndValidateCandles_eq (hwidth : intervalToMs interval = .ok intervalMs) (hpos : intervalMs ≠ 0) :
    normalizeAndValidateCandles candles interval = .ok (dedupeCandles candles,
      if dedupeCandles candles = [] then { ok := false, reason := .empty }
      else reportOn (dedupeCandles candles) intervalMs) := by
  unfold normalizeAndValidateCandles
  cases dedupeCandles candles with
  | nil => rfl
  | cons first rest =>
      dsimp only
      rw [hwidth, ok_bind, decide_eq_true hpos, require_true, ok_bind, if_neg (List.cons_ne_nil first rest)]
      rfl

/-- **Candles pass exactly if they are valid** in their order. -/
lemma normalizeAndValidateCandles_ok (candles : List (Candle F)) (hwidth : intervalToMs interval = .ok intervalMs) (hpos : intervalMs ≠ 0) :
    ∃ report, normalizeAndValidateCandles candles interval = .ok (dedupeCandles candles, report) ∧
      (report.ok = true ↔ ValidCandles (dedupeCandles candles) intervalMs) := by
  refine ⟨_, normalizeAndValidateCandles_eq hwidth hpos, ?_⟩
  by_cases hne : dedupeCandles candles = []
  · rw [if_pos hne]
    exact iff_of_false Bool.false_ne_true fun h => h.ne hne
  · rw [if_neg hne]
    exact reportOn_ok hne

/-! ## The same parents -/

variable {built native : List (Candle F)}

/-- Parents on their grid, at the same times, with close values. -/
structure SameParents (built native : List (Candle F)) (intervalMs : ℕ) : Prop where
  ne : built ≠ []
  aligned : ∀ candle ∈ built, (intervalMs : ℤ) ∣ candle.openTimeMs
  times : ∀ t, t ∈ built.map Candle.openTimeMs ↔ t ∈ native.map Candle.openTimeMs
  values : ∀ t, mismatchesAt built native t = []

omit [Number F] [FloatChecks F] in
lemma mem_times {t : ℤ} : t ∈ byKey id (built.map Candle.openTimeMs) ↔ t ∈ built.map Candle.openTimeMs := by
  obtain ⟨-, hsub, hcovers⟩ := byKey_spec (id : ℤ → ℤ) (built.map Candle.openTimeMs)
  refine ⟨hsub t, fun ht => ?_⟩
  obtain ⟨s, hs, hkey⟩ := hcovers t ht
  rwa [← show s = t from hkey]

omit [Number F] [FloatChecks F] in
/-- A time without a candle. -/
lemma candleAt_none {t : ℤ} (h : t ∉ candles.map Candle.openTimeMs) : candleAt candles t = none := by
  refine List.find?_eq_none.mpr fun candle hcandle => ?_
  rw [decide_eq_true_eq]
  rintro rfl
  exact h (List.mem_map_of_mem ((byKey_spec Candle.openTimeMs candles).2.1 candle hcandle))

/-- **Parents are validated exactly if they are the same.** -/
lemma validateBuiltNativeCandles_ok (built native : List (Candle F))
    (hwidth : intervalToMs interval = .ok intervalMs) (hpos : intervalMs ≠ 0) :
    ∃ report, validateBuiltNativeCandles built native interval = .ok report ∧
      (report.ok = true ↔ SameParents built native intervalMs) := by
  unfold validateBuiltNativeCandles
  by_cases hbuilt : built = []
  · rw [if_pos hbuilt]
    exact ⟨_, rfl, iff_of_false Bool.false_ne_true fun h => h.ne hbuilt⟩
  rw [if_neg hbuilt]
  by_cases hnative : native = []
  · rw [if_pos hnative]
    refine ⟨_, rfl, iff_of_false Bool.false_ne_true fun h => ?_⟩
    obtain ⟨first, rest, rfl⟩ := List.exists_cons_of_ne_nil hbuilt
    have hin := (h.times first.openTimeMs).mp (List.mem_map_of_mem List.mem_cons_self)
    rw [hnative] at hin
    cases hin
  rw [if_neg hnative, if_neg (not_lt.mpr (List.length_pos_iff.mpr hbuilt)),
    if_neg (not_lt.mpr (List.length_pos_iff.mpr hnative)), hwidth, ok_bind, decide_eq_true hpos, require_true, ok_bind]
  dsimp only
  have haligned : ((byKey id ((native ++ built).map Candle.openTimeMs)).filter fun t =>
      t % (intervalMs : ℤ) ≠ 0) = [] ↔ ∀ t, t ∈ (native ++ built).map Candle.openTimeMs → (intervalMs : ℤ) ∣ t := by
    rw [List.filter_eq_nil_iff]
    refine forall_congr' fun t => ?_
    rw [mem_times, decide_eq_true_eq, not_not, Int.dvd_iff_emod_eq_zero]
  have hmissing : ∀ xs ys : List (Candle F), ((byKey id (xs.map Candle.openTimeMs)).filter
      (· ∉ byKey id (ys.map Candle.openTimeMs))) = [] ↔
        ∀ t, t ∈ xs.map Candle.openTimeMs → t ∈ ys.map Candle.openTimeMs := by
    intro xs ys
    rw [List.filter_eq_nil_iff]
    refine forall_congr' fun t => ?_
    rw [mem_times, decide_eq_true_eq, not_not, mem_times]
  have hvalues : ((byKey id (built.map Candle.openTimeMs)).flatMap (mismatchesAt built native)).isEmpty = true ↔
      ∀ t, mismatchesAt built native t = [] := by
    rw [List.isEmpty_iff, List.flatMap_eq_nil_iff]
    refine forall_congr' fun t => ?_
    rw [mem_times]
    refine ⟨fun h => ?_, fun h _ => h⟩
    by_cases ht : t ∈ built.map Candle.openTimeMs
    · exact h ht
    · rw [mismatchesAt, candleAt_none ht]
  split
  · rename_i hmisaligned
    refine ⟨_, rfl, iff_of_false Bool.false_ne_true fun h => hmisaligned (haligned.mpr fun t ht => ?_)⟩
    rw [List.map_append, List.mem_append, ← h.times, or_self] at ht
    obtain ⟨candle, hcandle, rfl⟩ := List.mem_map.mp ht
    exact h.aligned candle hcandle
  · rename_i hgrid
    split
    · rename_i hbuilts
      exact ⟨_, rfl, iff_of_false Bool.false_ne_true fun h =>
        hbuilts ((hmissing native built).mpr fun t => (h.times t).mpr)⟩
    · rename_i hbuilts
      split
      · rename_i hnatives
        exact ⟨_, rfl, iff_of_false Bool.false_ne_true fun h =>
          hnatives ((hmissing built native).mpr fun t => (h.times t).mp)⟩
      · rename_i hnatives
        rw [not_not] at hgrid hbuilts hnatives
        split
        · rename_i hmismatch
          rw [Bool.not_eq_true'] at hmismatch
          refine ⟨_, rfl, iff_of_false Bool.false_ne_true fun h => ?_⟩
          rw [hvalues.mpr h.values] at hmismatch
          cases hmismatch
        · rename_i hmatch
          rw [Bool.not_eq_true', Bool.not_eq_false] at hmatch
          refine ⟨_, rfl, iff_of_true rfl ⟨hbuilt, fun candle hcandle => ?_, fun t => ?_, hvalues.mp hmatch⟩⟩
          · exact haligned.mp hgrid _ (List.mem_map_of_mem (List.mem_append_right native hcandle))
          · exact ⟨(hmissing built native).mp hnatives t, (hmissing native built).mp hbuilts t⟩

omit [Number F] [FloatChecks F] in
/-- The candle of a time among the candles of some times. -/
lemma candleAt_filter (h : Increasing Candle.openTimeMs candles) (p : ℤ → Bool) {t : ℤ} (hp : p t = true) :
    candleAt (candles.filter fun candle => p candle.openTimeMs) t = candleAt candles t := by
  rw [candleAt, candleAt, dedupeCandles_of_increasing h, dedupeCandles_of_increasing (h.filter _), List.find?_filter]
  congr 1
  funext candle
  by_cases ht : candle.openTimeMs = t
  · simp [ht, hp]
  · simp [ht]

/-- **The same parents are the same at some of their times.** -/
lemma SameParents.filter (h : SameParents built native intervalMs) (hbuilt : Increasing Candle.openTimeMs built)
    (hnative : Increasing Candle.openTimeMs native) (p : ℤ → Bool)
    (hne : (built.filter fun candle => p candle.openTimeMs) ≠ []) :
    SameParents (built.filter fun candle => p candle.openTimeMs) (native.filter fun candle => p candle.openTimeMs)
      intervalMs := by
  have hmem : ∀ (xs : List (Candle F)) (t : ℤ),
      t ∈ (xs.filter fun candle => p candle.openTimeMs).map Candle.openTimeMs ↔
        t ∈ xs.map Candle.openTimeMs ∧ p t = true := by
    intro xs t
    rw [List.mem_map, List.mem_map]
    constructor
    · rintro ⟨candle, hcandle, rfl⟩
      obtain ⟨hcandle, hp⟩ := List.mem_filter.mp hcandle
      exact ⟨⟨candle, hcandle, rfl⟩, hp⟩
    · rintro ⟨⟨candle, hcandle, rfl⟩, hp⟩
      exact ⟨candle, List.mem_filter.mpr ⟨hcandle, hp⟩, rfl⟩
  refine ⟨hne, fun candle hcandle => h.aligned candle (List.mem_filter.mp hcandle).1, fun t => ?_, fun t => ?_⟩
  · rw [hmem, hmem, h.times]
  · by_cases hp : p t = true
    · rw [mismatchesAt, candleAt_filter hbuilt p hp, candleAt_filter hnative p hp]
      exact h.values t
    · have hnone : t ∉ (built.filter fun candle => p candle.openTimeMs).map Candle.openTimeMs := fun ht =>
        hp ((hmem built t).mp ht).2
      rw [mismatchesAt, candleAt_none hnone]

end candles

end MuStrategy.TrustedData
