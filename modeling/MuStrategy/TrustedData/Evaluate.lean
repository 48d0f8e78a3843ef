import Mathlib.Data.List.DropRight
import MuStrategy.TrustedData.Validation

/-!
# The health of a bundle of candles

A request is about the last days of some intervals. Its candles are cut to a window and validated; the candles that are
stored are validated as well, and their report overrides.

* `validatePhysicalCandleBundle` — the reports on what is stored.
* `pruneCandleBundle`, `evaluateDataset` — the window, and the health of an interval in it.
* `applyBuiltNativeValidation`, `applyRequestedCoverageGate`, `applyPhysicalValidationGate` — what overrides the health.
* `evaluateCandleBundle` — all of it.
-/

namespace MuStrategy.TrustedData

open Lib

variable {F : Type} [Number F] [FloatChecks F]

/-! ## Health -/

/-- Source: `contracts.py` `AvailabilityState`. -/
inductive AvailabilityState where
  | available
  | missing
  deriving DecidableEq

/-- Source: `contracts.py` `IntegrityState`. -/
inductive IntegrityState where
  | valid
  | invalid
  | unknown
  deriving DecidableEq

/-- Source: `contracts.py` `FreshnessState`. -/
inductive FreshnessState where
  | fresh
  | stale
  | unknown
  deriving DecidableEq

/-- The health of an interval. Source: `contracts.py` `DatasetHealth`, but for its key. -/
structure DatasetHealth (F : Type) where
  availability : AvailabilityState
  integrity : IntegrityState
  freshness : FreshnessState
  reasons : List HealthReason
  rows : ℕ
  firstTimestampMs : Option ℤ
  lastTimestampMs : Option ℤ
  sourceFile : String
  validation : Option (ValidationReport F)
  updatedAtMs : ℤ
  errorType : Option String
  message : Option String
  warnings : List String
  contentSha256 : Option String := none
  requestedDays : Option ℤ := none
  effectiveDays : Option F := none
  coverageState : Option String := none

/-- Source: `contracts.py` `DatasetHealth.primary_reason`. -/
def DatasetHealth.primaryReason (health : DatasetHealth F) : HealthReason := health.reasons.headD .ok

/-- What an interval is evaluated from. Source: `evaluate.py` `DatasetEvaluationSeed`, but for its key. -/
structure DatasetEvaluationSeed (F : Type) where
  sourceFile : String
  candles : List (Candle F)
  prefailedReason : Option HealthReason := none
  emptyPrefailedReason : Option HealthReason := none
  prefailedAvailability : Option AvailabilityState := none
  prefailedFreshness : FreshnessState := .stale
  exceptionReason : Option HealthReason := none
  emptyValidationReason : Option HealthReason := none
  errorType : Option String := none
  message : Option String := none
  warnings : List String := []

/-- The options of an evaluation. -/
structure EvaluationOptions where
  nowMs : ℤ
  /-- `FreshnessPolicy.max_staleness_bars`. -/
  maxStalenessBars : ℤ
  retainInvalidCandlesForReasons : List HealthReason := []
  allowTimestampGapBuiltNativeInputs : Bool := false

/-- The health of an interval: what `make_dataset_health` reads off its seed and its candles.
Source: `evaluate.py` `make_dataset_health`. -/
def makeDatasetHealth (seed : DatasetEvaluationSeed F) (candles : List (Candle F)) (nowMs : ℤ)
    (availability : AvailabilityState) (integrity : IntegrityState) (freshness : FreshnessState) (reason : HealthReason)
    (validation : Option (ValidationReport F)) : DatasetHealth F where
  availability := availability
  integrity := integrity
  freshness := freshness
  reasons := [reason]
  rows := candles.length
  firstTimestampMs := candles.head?.map Candle.openTimeMs
  lastTimestampMs := candles.getLast?.map Candle.openTimeMs
  sourceFile := seed.sourceFile
  validation := validation
  updatedAtMs := nowMs
  errorType := seed.errorType
  message := seed.message
  warnings := seed.warnings

/-- `AVAILABLE if candles else MISSING`. -/
def availabilityOf (candles : List (Candle F)) : AvailabilityState :=
  if candles.isEmpty then .missing else .available

/-! ## What is stored -/

/-- `str(exc)`. -/
def StoreError.text : StoreError → String
  | .value text | .schema text | .correction text => text

/-- The comparison of the parents that are built from candles with the native ones, and the native ones it is about. -/
def builtNativeReport (five native : List (Candle F)) (interval : String) :
    Except StoreError (List (Candle F) × ValidationReport F) :=
  match aggregateCandles five interval "okx_native" with
  | .error error => pure (native, { ok := false, reason := .ohlcvInvalid, warnings := [error.text] })
  | .ok built => do
      let built ← clipParentCandlesToCompleteBaseWindow built five interval
      let comparedNative ← clipParentCandlesToCompleteBaseWindow native five interval
      let report ← validateBuiltNativeCandles built comparedNative interval
      pure (comparedNative, report)

/-- The candles and reports of a bundle, by interval. -/
abbrev Reports (F : Type) := String → Option (List (Candle F) × ValidationReport F)

/-- The reports on the candles of the intervals. -/
def normalizeBundle (raw : String → List (Candle F)) : List String → Except StoreError (Reports F)
  | [] => pure fun _ => none
  | interval :: intervals => do
      let first ← normalizeAndValidateCandles (raw interval) interval
      let rest ← normalizeBundle raw intervals
      pure (Function.update rest interval (some first))

/-- A parent interval is compared with the base, if both are fine. -/
def comparePhysical (five : List (Candle F)) (reports : Reports F) (interval : String) :
    Except StoreError (Reports F) :=
  match reports interval with
  | some (native, report) =>
      if report.ok then do
        let compared ← builtNativeReport five native interval
        pure (Function.update reports interval (some compared))
      else pure reports
  | none => pure reports

/-- A parent interval is not fine if the base is not. -/
def blockPhysical (base : ValidationReport F) (reports : Reports F) (interval : String) : Reports F :=
  match reports interval with
  | some (native, report) =>
      if report.ok then
        Function.update reports interval (some (native, { ok := false, reason := base.reason, warnings :=
          ["physical 5m validation failed; built/native validation is unavailable"] }))
      else reports
  | none => reports

/-- Source: `evaluate.py` `validate_physical_candle_bundle`. -/
def validatePhysicalCandleBundle (intervals : List String) (raw : String → List (Candle F)) :
    Except StoreError (Reports F) := do
  let reports ← normalizeBundle raw intervals
  match reports "5m" with
  | none => pure reports
  | some (five, report) =>
      if !report.ok then pure (["15m", "1h"].foldl (blockPhysical report) reports)
      else if five.isEmpty then pure reports
      else ["15m", "1h"].foldlM (comparePhysical five) reports

/-! ## The window -/

/-- `DAY_MS`. -/
def dayMs : ℤ := 86400000

/-- The end of the window. Source: `windowing.py` `resolve_shared_window`. -/
def resolveSharedWindow (intervals : List String) (raw : String → List (Candle F)) : Option ℤ :=
  match (raw "5m").map Candle.openTimeMs with
  | [] => ((intervals.flatMap raw).map Candle.openTimeMs).max?
  | first :: rest => (first :: rest).max?

/-- Source: `cache.py` `prune_candles_to_window`. -/
def pruneCandlesToWindow (candles : List (Candle F)) (days : ℤ) (endTimeMs : Option ℤ) : List (Candle F) :=
  match endTimeMs.or (candles.map Candle.openTimeMs).max? with
  | none => []
  | some time => (dedupeCandles candles).filter fun bar =>
      time - days * dayMs ≤ bar.openTimeMs && bar.openTimeMs ≤ time

/-- The candles of the window. Parents are cut to the window of the base. Source: `windowing.py` `prune_candle_bundle`
and `evaluate.py` `evaluate_candle_bundle`. -/
def logicalCandles (raw : String → List (Candle F)) (days : ℤ) (endTimeMs : Option ℤ) (interval : String) :
    Except StoreError (List (Candle F)) :=
  let pruned := pruneCandlesToWindow (raw interval) days endTimeMs
  let logicalFive := pruneCandlesToWindow (raw "5m") days endTimeMs
  if !logicalFive.isEmpty && (interval = "15m" || interval = "1h") then
    clipParentCandlesToCompleteBaseWindow pruned logicalFive interval
  else pure pruned

/-! ## An interval -/

/-- Source: `policy.py` `FreshnessPolicy.assess`. -/
def assessFreshness (options : EvaluationOptions) (interval : String) (lastConfirmedOpenTimeMs : Option ℤ) :
    Except StoreError (FreshnessState × HealthReason) :=
  match lastConfirmedOpenTimeMs with
  | none => pure (.stale, .cacheMissing)
  | some time => do
      let intervalMs ← intervalToMs interval
      let ageMs := options.nowMs - time
      if ageMs < 0 then pure (.unknown, .futureTimestamp)
      else if intervalMs * max 1 options.maxStalenessBars < ageMs then pure (.stale, .staleByClock)
      else pure (.fresh, .ok)

/-- `type(exc).__name__`. -/
def StoreError.typeName : StoreError → String
  | .value _ => "ValueError"
  | .schema _ => "ManifestSchemaError"
  | .correction _ => "SegmentCorrectionError"

/-- Source: `evaluate.py` `exception_failure`. -/
def exceptionFailure (error : StoreError) : String × String :=
  let message := String.ofList ((error.text.toList.dropWhile isSpace).rdropWhile isSpace)
  (error.typeName, if message = "" then error.typeName else message)

/-- The health and the candles of an interval whose checks return. -/
def checkDataset (options : EvaluationOptions) (seed : DatasetEvaluationSeed F) (interval : String)
    (candles : List (Candle F)) : Except StoreError (DatasetHealth F × List (Candle F)) := do
  let (normalized, validation) ← normalizeAndValidateCandles candles interval
  if !validation.ok then
    let reason := if normalized.isEmpty then seed.emptyValidationReason.getD validation.reason else validation.reason
    pure (makeDatasetHealth seed normalized options.nowMs (availabilityOf normalized) .invalid .stale reason
        (some validation),
      if validation.reason ∈ options.retainInvalidCandlesForReasons then normalized else [])
  else
    let freshness ← assessFreshness options interval (normalized.getLast?.map Candle.openTimeMs)
    pure (makeDatasetHealth seed normalized options.nowMs .available .valid freshness.1 freshness.2 (some validation),
      normalized)

/-- An interval, on its own. Source: `evaluate.py` `evaluate_candle_bundle`, its first loop without hooks. -/
def evaluateDataset (options : EvaluationOptions) (seed : DatasetEvaluationSeed F) (interval : String)
    (candles : List (Candle F)) : DatasetHealth F × List (Candle F) :=
  match seed.prefailedReason.or (if candles.isEmpty then seed.emptyPrefailedReason else none) with
  | some reason =>
      (makeDatasetHealth seed candles options.nowMs (seed.prefailedAvailability.getD (availabilityOf candles)) .invalid
        seed.prefailedFreshness reason none, [])
  | none =>
      match checkDataset options seed interval candles with
      | .ok result => result
      | .error error =>
          let failure := exceptionFailure error
          ({ makeDatasetHealth seed candles options.nowMs (availabilityOf candles) .invalid .stale
              (seed.exceptionReason.getD .refreshFailed) none with
              errorType := some failure.1, message := some failure.2 }, [])

/-! ## The gates -/

/-- The health and the candles of the intervals. Source: `evaluate.py` `DatasetEvaluationResult`. -/
structure Evaluation (F : Type) where
  health : String → Option (DatasetHealth F)
  candles : String → List (Candle F)

/-- The health of an interval becomes another one, and its candles go or stay. -/
def Evaluation.override (e : Evaluation F) (interval : String) (health : DatasetHealth F) (keep : Bool) :
    Evaluation F where
  health := Function.update e.health interval (some health)
  candles := if keep then e.candles else Function.update e.candles interval []

/-- Source: `evaluate.py` `_has_validation_inputs`. -/
def hasValidationInputs (health : DatasetHealth F) (allowTimestampGapInputs : Bool) : Bool :=
  (health.availability = .available && health.integrity = .valid && 0 < health.rows) ||
    (allowTimestampGapInputs && health.availability = .available && 0 < health.rows &&
      health.validation.any fun report => report.reason = .timestampGap)

/-- The comparison of a parent interval. -/
def compareLogical (options : EvaluationOptions) (e : Evaluation F) (interval : String) :
    Except StoreError (Evaluation F) :=
  match e.health interval with
  | none => pure e
  | some nativeHealth =>
      if hasValidationInputs nativeHealth options.allowTimestampGapBuiltNativeInputs then do
        let (_, report) ← builtNativeReport (e.candles "5m") (e.candles interval) interval
        if report.ok && nativeHealth.integrity ≠ .valid then pure e
        else
          pure (e.override interval
            { nativeHealth with
              integrity := if report.ok then .valid else .invalid
              freshness := if report.ok then nativeHealth.freshness else .stale
              reasons := [if report.ok then nativeHealth.primaryReason else report.reason]
              validation := some report } report.ok)
      else pure e

/-- Source: `evaluate.py` `apply_built_native_validation`. -/
def applyBuiltNativeValidation (options : EvaluationOptions) (e : Evaluation F) : Except StoreError (Evaluation F) :=
  if (e.health "5m").any fun base => hasValidationInputs base options.allowTimestampGapBuiltNativeInputs then
    ["15m", "1h"].foldlM (compareLogical options) e
  else pure e

/-- Source: `windowing.py` `CoverageAssessment`, as far as it is read. -/
structure CoverageAssessment (F : Type) where
  requestedDays : ℤ
  effectiveDays : Option F
  coverageState : String

/-- Source: `windowing.py` `assess_requested_coverage`. -/
def assessRequestedCoverage (candles : List (Candle F)) (interval : String) (requestedDays : ℤ)
    (windowEndTimeMs : Option ℤ) : Except StoreError (CoverageAssessment F) :=
  match windowEndTimeMs, candles.head?, candles.getLast? with
  | some time, some first, some last => do
      let intervalMs ← intervalToMs interval
      let covered := decide (first.openTimeMs ≤ time - requestedDays * dayMs + intervalMs)
      let effectiveDays : F := pyMax 0 (((last.openTimeMs - first.openTimeMs).toNat : F) / 86400000)
      pure ⟨requestedDays, some effectiveDays, if covered then "complete" else "partial_available_history"⟩
  | _, _, _ => pure ⟨requestedDays, none, "complete"⟩

/-- Source: `evaluate.py` `_coverage_warning`. -/
def coverageWarning (coverage : CoverageAssessment F) : Option String :=
  if coverage.coverageState = "partial_available_history" then
    coverage.effectiveDays.map fun days => "partial_available_history:requested_days=" ++
      toString coverage.requestedDays ++ ":effective_days=" ++ fixed2 days
  else none

/-- The coverage of a valid interval is noted. -/
def noteCoverage (days : ℤ) (windowEndTimeMs : Option ℤ) (e : Evaluation F) (interval : String) :
    Except StoreError (Evaluation F) :=
  match e.health interval with
  | none => pure e
  | some health =>
      if (e.candles interval).isEmpty || health.availability ≠ .available || health.integrity ≠ .valid then pure e
      else do
        let coverage ← assessRequestedCoverage (e.candles interval) interval days windowEndTimeMs
        let warning := (coverageWarning coverage).filter fun text => text ∉ health.warnings
        pure (e.override interval
          { health with
            requestedDays := some coverage.requestedDays
            effectiveDays := coverage.effectiveDays
            coverageState := some coverage.coverageState
            warnings := health.warnings ++ warning.toList } true)

/-- Source: `evaluate.py` `apply_requested_coverage_gate`. -/
def applyRequestedCoverageGate (intervals : List String) (days : ℤ) (windowEndTimeMs : Option ℤ) (e : Evaluation F) :
    Except StoreError (Evaluation F) :=
  intervals.foldlM (noteCoverage days windowEndTimeMs) e

/-- An interval whose stored candles are not fine is not valid. -/
def overridePhysical (reports : Reports F) (e : Evaluation F) (interval : String) : Evaluation F :=
  match e.health interval, reports interval with
  | some health, some (_, report) =>
      if report.ok || health.availability ≠ .available || health.integrity ≠ .valid then e
      else
        e.override interval
          { health with
            integrity := .invalid
            freshness := .stale
            reasons := [report.reason]
            validation := some report } false
  | _, _ => e

/-- Source: `evaluate.py` `apply_physical_validation_gate`. -/
def applyPhysicalValidationGate (intervals : List String) (reports : Reports F) (e : Evaluation F) : Evaluation F :=
  intervals.foldl (overridePhysical reports) e

/-! ## All of it -/

/-- The intervals, each on its own. -/
def evaluateDatasets (options : EvaluationOptions) (seeds : String → DatasetEvaluationSeed F)
    (logical : String → Except StoreError (List (Candle F))) : List String → Except StoreError (Evaluation F)
  | [] => pure ⟨fun _ => none, fun _ => []⟩
  | interval :: intervals => do
      let candles ← logical interval
      let rest ← evaluateDatasets options seeds logical intervals
      let result := evaluateDataset options (seeds interval) interval candles
      pure ⟨Function.update rest.health interval (some result.1), Function.update rest.candles interval result.2⟩

/-- The candles that are stored for the intervals. -/
def rawCandles (intervals : List String) (seeds : String → DatasetEvaluationSeed F) (interval : String) :
    List (Candle F) :=
  if interval ∈ intervals then (seeds interval).candles else []

/-- Source: `evaluate.py` `evaluate_candle_bundle`, without hooks. -/
def evaluateCandleBundle (intervals : List String) (seeds : String → DatasetEvaluationSeed F) (days : ℤ)
    (options : EvaluationOptions) : Except StoreError (Evaluation F) := do
  let raw := rawCandles intervals seeds
  let reports ← validatePhysicalCandleBundle intervals raw
  let endTimeMs := resolveSharedWindow intervals raw
  let evaluated ← evaluateDatasets options seeds (logicalCandles raw days endTimeMs) intervals
  let compared ← applyBuiltNativeValidation options evaluated
  let covered ← applyRequestedCoverageGate intervals days endTimeMs compared
  pure (applyPhysicalValidationGate intervals reports covered)

end MuStrategy.TrustedData
