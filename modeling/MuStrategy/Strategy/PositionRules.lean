import MuStrategy.Strategy.Signals

/-!
# Position rules

The rules of an open position: when a pyramid add is planned, and where its stop goes.

* `PositionStateSnapshot` — what the rules read of a position; it has a fill.
* `decidePyramidAdd` — the add that a closed bar confirms.
* `tightenStop` — the stop after a bar, by the mode that the regime selects.
* `tightenStop_congr` — the stop depends on the candles up to its bar only.
-/

namespace MuStrategy.Strategy

open Lib TrustedData

variable {F : Type} [Number F]

/-! ## Snapshots -/

/-- Source: `position_rules.py` `PositionFillSnapshot`. -/
structure PositionFillSnapshot (F : Type) where
  timeMs : ℤ
  price : F
  units : F

/-- Source: `position_rules.py` `_fills_entry_price`. -/
def fillsEntryPrice (fills : List (PositionFillSnapshot F)) : F :=
  let units := Number.sum (fills.map PositionFillSnapshot.units)
  if isZero units then 0 else Number.sum (fills.map fun fill => fill.price * fill.units) / units

/-- Source: `position_rules.py` `PositionStateSnapshot`. -/
structure PositionStateSnapshot (F : Type) where
  fills : List (PositionFillSnapshot F)
  fills_ne : fills ≠ []
  stopPrice : F
  entryAnchor : F
  initialStopPrice : F
  maxStage : ℕ
  stopTransitionFillCount : ℕ
  stopTransitionStart : F

namespace PositionStateSnapshot

variable (position : PositionStateSnapshot F)

/-- `position.fills[0]`. -/
def firstFill : PositionFillSnapshot F := position.fills.head position.fills_ne

/-- `position.fills[-1]`. -/
def lastFill : PositionFillSnapshot F := position.fills.getLast position.fills_ne

/-- Source: `position_rules.py` `PositionStateSnapshot.entry_price`. -/
def entryPrice : F := fillsEntryPrice position.fills

/-- `position.initial_stop_price or position.stop_price`. -/
def initialStop : F := orElse position.initialStopPrice position.stopPrice

end PositionStateSnapshot

/-! ## Pyramid adds -/

/-- The details of an add. Source: `position_rules.py` `PyramidAddDecision`, with `should_add`. -/
structure PyramidAddDecision (F : Type) where
  stage : ℕ
  referencePrice : F
  marginFraction : F
  triggerPrice : F
  availableAtMs : ℤ

/-- The add a closed bar confirms, if any. Stages are counted from one.
Source: `position_rules.py` `decide_pyramid_add`. -/
def decidePyramidAdd [Eastern] (position : PositionStateSnapshot F) (candle : Candle F)
    (rsiValue macdHist previousMacdHist : F) (regime : String) (config : StrategyConfig F) :
    Except StrategyError (Option (PyramidAddDecision F)) := do
  let nextStage := position.maxStage + 1
  if config.marginSteps.length < nextStage then pure none
  else if !(← isPreferredUsCashWindow candle.openTimeMs config) then pure none
  else
    let threshold ← at? config.addThresholds (nextStage - 2)
    let triggerPrice := position.entryAnchor * (1 + threshold)
    if candle.high < triggerPrice then pure none
    else if rsiValue < config.rsiAddFloor ∨ macdHist < previousMacdHist then pure none
    else if 3 ≤ nextStage ∧ regime ≠ config.fullSizeRegime then pure none
    else
      let marginFraction ← at? config.marginSteps (nextStage - 1)
      pure (some ⟨nextStage, pyMax candle.openPrice triggerPrice, marginFraction, triggerPrice,
        candle.openTimeMs + 900000⟩)

/-! ## Stops -/

/-- Source: `position_rules.py` `StopTighteningOutcome`. -/
structure StopTighteningOutcome (F : Type) where
  stopPrice : F
  transitionFillCount : ℕ
  transitionStart : F

/-- Source: `position_rules.py` `_resolved_stop_tightening`. -/
def resolvedStopTightening (regime : String) (config : StrategyConfig F) : StopTightening :=
  match if regime = "yellow" then config.yellowStopTightening else none with
  | some mode => mode
  | none =>
      match if regime = "green" then config.greenStopTightening else none with
      | some mode => mode
      | none =>
          match config.stopTightening with
          | .greenWide => if regime = "green" then .wide else .baseline
          | .halfProtectGreenWide => if regime = "green" then .wide else .halfProtect
          | mode => mode

section stops

variable (position : PositionStateSnapshot F) (index : ℕ) (candles : List (Candle F)) (config : StrategyConfig F)

/-- `f higherLow` of the recent higher low, if there is one and it is not zero. -/
def raiseToHigherLow (stop : F) (f : F → F) : F :=
  match recentHigherLow candles index with
  | none => stop
  | some higherLow => if isZero higherLow then stop else f higherLow

/-- Source: `position_rules.py` `_tighten_stop_baseline`. -/
def tightenStopBaseline : F :=
  let stop := position.stopPrice
  let stop := if 2 ≤ position.maxStage then pyMax stop position.firstFill.price else stop
  let stop := if 3 ≤ position.maxStage then pyMax stop position.entryPrice else stop
  if 4 ≤ position.maxStage then
    raiseToHigherLow index candles stop fun higherLow => pyMax stop (higherLow * (1 - config.stopBufferPct))
  else stop

/-- Source: `position_rules.py` `_tighten_stop_half_protect`. -/
def tightenStopHalfProtect : F :=
  let initialStop := position.initialStop
  let firstEntry := position.firstFill.price
  let stop := position.stopPrice
  let stop := if 2 ≤ position.maxStage then pyMax stop ((initialStop + firstEntry) / 2) else stop
  let stop := if 3 ≤ position.maxStage then pyMax stop firstEntry else stop
  if 4 ≤ position.maxStage then
    raiseToHigherLow index candles stop fun higherLow =>
      pyMax (pyMax stop position.entryPrice) (higherLow * (1 - config.stopBufferPct))
  else stop

/-- Source: `position_rules.py` `_tighten_stop_green_wide`. -/
def tightenStopGreenWide : F :=
  let initialStop := position.initialStop
  let firstEntry := position.firstFill.price
  let stop := position.stopPrice
  let stop := if 2 ≤ position.maxStage then pyMax stop ((initialStop + firstEntry) / 2) else stop
  let stop := if 3 ≤ position.maxStage then pyMax stop firstEntry else stop
  if 4 ≤ position.maxStage then
    raiseToHigherLow index candles stop fun higherLow =>
      pyMax (pyMax stop firstEntry) (higherLow * (1 - config.greenWideStopBufferPct))
  else stop

/-- Source: `position_rules.py` `_baseline_stop_target`. -/
def baselineStopTarget : F :=
  let target := position.initialStop
  let target := if 2 ≤ position.maxStage then pyMax target position.firstFill.price else target
  let target := if 3 ≤ position.maxStage then pyMax target position.entryPrice else target
  if 4 ≤ position.maxStage then
    raiseToHigherLow index candles target fun higherLow => pyMax target (higherLow * (1 - config.stopBufferPct))
  else target

/-- Source: `position_rules.py` `_previous_baseline_stop_target`. -/
def previousBaselineStopTarget : F :=
  if position.maxStage ≤ 2 then position.initialStop
  else if position.maxStage = 3 then position.firstFill.price
  else fillsEntryPrice position.fills.dropLast

/-- Source: `position_rules.py` `_fill_index`. -/
def fillIndex (fillTimeMs : ℤ) : Except StrategyError ℕ :=
  orThrow (candles.findIdx? fun candle => candle.openTimeMs = fillTimeMs)
    (.value ("fill timestamp " ++ intText fillTimeMs ++ " is not present in candles"))

/-- Source: `position_rules.py` `_stop_transition_progress`. -/
def stopTransitionProgress : Except StrategyError F :=
  if config.stopTransitionBars ≤ 0 then pure 1
  else do
    let filled ← fillIndex candles position.lastFill.timeMs
    let elapsed := index - filled
    pure (pyMin 1 ((elapsed : F) / (config.stopTransitionBars.toNat : F)))

/-- Source: `position_rules.py` `_apply_stop_transition_curve`. -/
def applyStopTransitionCurve (progress : F) : StopTransitionCurve → Except StrategyError F
  | .linear => pure progress
  | .slowStart => pure (progress * progress)
  | .fastStart => pure (1 - (1 - progress) * (1 - progress))
  | .smooth => pure (3 * progress * progress - 2 * progress * progress * progress)
  | .unsupported value => throw (.value ("unsupported stop_transition_curve: " ++ value))

/-- Source: `position_rules.py` `_interpolate`. -/
def interpolate (start target progress : F) : F := start + (target - start) * progress

/-- Source: `position_rules.py` `_tighten_stop_delayed_baseline`. -/
def tightenStopDelayedBaseline (transitionStart : F) : Except StrategyError F := do
  let progress ← stopTransitionProgress position index candles config
  let progress ← applyStopTransitionCurve progress config.stopTransitionCurve
  let start := orElse transitionStart (previousBaselineStopTarget position)
  let target := baselineStopTarget position index candles config
  pure (pyMax position.stopPrice (interpolate start target progress))

/-- Source: `position_rules.py` `tighten_stop`. -/
def tightenStop (candle : Candle F) (regime : String) : Except StrategyError (StopTighteningOutcome F) := do
  require (candles[index]?.any fun current => current.openTimeMs = candle.openTimeMs)
    (.value "current candle must match candles[index]")
  let keep (stop : F) : StopTighteningOutcome F :=
    ⟨stop, position.stopTransitionFillCount, position.stopTransitionStart⟩
  match resolvedStopTightening regime config with
  | .baseline => pure (keep (tightenStopBaseline position index candles config))
  | .halfProtect => pure (keep (tightenStopHalfProtect position index candles config))
  | .wide => pure (keep (tightenStopGreenWide position index candles config))
  | .delayedBaseline =>
      let restarted := position.stopTransitionFillCount ≠ position.fills.length
      let fillCount := if restarted then position.fills.length else position.stopTransitionFillCount
      let start := if restarted then position.stopPrice else position.stopTransitionStart
      let stop ← tightenStopDelayedBaseline position index candles config start
      pure ⟨stop, fillCount, start⟩
  | mode => throw (.value ("unsupported stop_tightening: " ++ mode.value))

end stops

/-! ## The stop reads the candles up to its bar -/

variable {candles others : List (Candle F)} {n index : ℕ}

omit [Number F] in
/-- The bar of a fill among the first `n` candles is found there. -/
lemma fillIndex_congr {timeMs : ℤ} (htake : candles.take n = others.take n)
    (hfilled : timeMs ∈ (candles.take n).map Candle.openTimeMs) : fillIndex candles timeMs = fillIndex others timeMs := by
  have hfound : ((candles.take n).findIdx? fun candle => candle.openTimeMs = timeMs).isSome := by
    rw [List.findIdx?_isSome, List.any_eq_true]
    obtain ⟨candle, hmem, htime⟩ := List.mem_map.mp hfilled
    exact ⟨candle, hmem, decide_eq_true htime⟩
  have hinitial : ∀ all : List (Candle F), all.take n = candles.take n →
      fillIndex all timeMs = fillIndex (candles.take n) timeMs := by
    intro all hall
    rw [fillIndex, ← List.take_append_drop n all, hall, List.findIdx?_append]
    obtain ⟨i, hi⟩ := Option.isSome_iff_exists.mp hfound
    rw [hi, fillIndex, hi]
    rfl
  rw [hinitial candles rfl, hinitial others htake.symm]

/-- **The stop depends on the candles up to its bar.** -/
theorem tightenStop_congr {position : PositionStateSnapshot F} {config : StrategyConfig F} (hindex : index < n)
    (htake : candles.take n = others.take n)
    (hfilled : position.lastFill.timeMs ∈ (candles.take n).map Candle.openTimeMs) (candle : Candle F)
    (regime : String) :
    tightenStop position index candles config candle regime =
      tightenStop position index others config candle regime := by
  have hcurrent : candles[index]? = others[index]? := by
    rw [← List.getElem?_take_of_lt hindex, htake, List.getElem?_take_of_lt hindex]
  have hlow := recentHigherLow_congr (Nat.le_of_lt hindex) htake
  unfold tightenStop tightenStopDelayedBaseline stopTransitionProgress tightenStopBaseline tightenStopHalfProtect
    tightenStopGreenWide baselineStopTarget raiseToHigherLow
  rw [hcurrent, hlow, fillIndex_congr htake hfilled]

end MuStrategy.Strategy
