import Mathlib.Algebra.BigOperators.Ring.List
import Mathlib.Tactic.Ring
import MuStrategy.Backtest.RunBacktest

/-!
# Decisions and sizes

The walk decides by prices. Of the sizes of an open position its decisions see ratios only: the average entry price is
the same when all units are multiplied, and no decision reads a notional, a fee or the fee rate.

* `PositionStateSnapshot.scaleUnits`, `tightenStop_scaleUnits` — a snapshot with its units multiplied, and its stop.
* `Rescaling` — fills of another size and fee rate; `Rescaling.position` — a position with such fills.
* `riskExit_rescale`, `executePyramidAdd_rescale`, `tightenPositionStop_rescale`, `planPyramidAdd_rescale` — the
  decisions on a rescaled position.
-/

namespace MuStrategy.Strategy

open Lib TrustedData

/-! ## Snapshots -/

section snapshots

variable {ratio : ℚ} (position : PositionStateSnapshot ℚ)

/-- The fills with their units multiplied. -/
def scaledFills (ratio : ℚ) (fills : List (PositionFillSnapshot ℚ)) : List (PositionFillSnapshot ℚ) :=
  fills.map fun fill => { fill with units := ratio * fill.units }

/-- The snapshot with its units multiplied. -/
def PositionStateSnapshot.scaleUnits (ratio : ℚ) : PositionStateSnapshot ℚ :=
  { position with
    fills := scaledFills ratio position.fills
    fills_ne := fun h => position.fills_ne (List.map_eq_nil_iff.mp h) }

lemma isZero_mul (hratio : ratio ≠ 0) (x : ℚ) : isZero (ratio * x) = isZero x := by
  rw [Bool.eq_iff_iff, isZero_eq_true, isZero_eq_true, mul_eq_zero, or_iff_right hratio]

/-- **The average price is one of ratios.** -/
lemma fillsEntryPrice_scaled (hratio : ratio ≠ 0) (fills : List (PositionFillSnapshot ℚ)) :
    fillsEntryPrice (scaledFills ratio fills) = fillsEntryPrice fills := by
  have hunits : Number.sum ((scaledFills ratio fills).map PositionFillSnapshot.units) =
      ratio * Number.sum (fills.map PositionFillSnapshot.units) := by
    change ((scaledFills ratio fills).map _).sum = ratio * (fills.map _).sum
    rw [scaledFills, List.map_map, ← List.sum_map_mul_left]
    rfl
  have hcost : Number.sum ((scaledFills ratio fills).map fun fill => fill.price * fill.units) =
      ratio * Number.sum (fills.map fun fill => fill.price * fill.units) := by
    change ((scaledFills ratio fills).map _).sum = ratio * (fills.map _).sum
    rw [scaledFills, List.map_map, ← List.sum_map_mul_left]
    simp only [Function.comp_def, mul_left_comm]
  unfold fillsEntryPrice
  rw [hunits, hcost]
  dsimp only
  rw [isZero_mul hratio, mul_div_mul_left _ _ hratio]

lemma entryPrice_scaleUnits (hratio : ratio ≠ 0) : (position.scaleUnits ratio).entryPrice = position.entryPrice :=
  fillsEntryPrice_scaled hratio position.fills

lemma firstFill_scaleUnits : (position.scaleUnits ratio).firstFill.price = position.firstFill.price := by
  simp only [PositionStateSnapshot.firstFill, PositionStateSnapshot.scaleUnits, scaledFills, List.head_map]

lemma lastFill_scaleUnits : (position.scaleUnits ratio).lastFill.timeMs = position.lastFill.timeMs := by
  simp only [PositionStateSnapshot.lastFill, PositionStateSnapshot.scaleUnits, scaledFills, List.getLast_map]

lemma length_scaleUnits : (position.scaleUnits ratio).fills.length = position.fills.length :=
  List.length_map _

lemma previousBaselineStopTarget_scaleUnits (hratio : ratio ≠ 0) :
    previousBaselineStopTarget (position.scaleUnits ratio) = previousBaselineStopTarget position := by
  have hearlier : fillsEntryPrice (position.scaleUnits ratio).fills.dropLast = fillsEntryPrice position.fills.dropLast := by
    change fillsEntryPrice (scaledFills ratio position.fills).dropLast = _
    rw [scaledFills, ← List.map_dropLast]
    exact fillsEntryPrice_scaled hratio _
  unfold previousBaselineStopTarget
  rw [hearlier, firstFill_scaleUnits]
  rfl

variable (index : ℕ) (candles : List (Candle ℚ)) (config : StrategyConfig ℚ)

lemma baselineStopTarget_scaleUnits (hratio : ratio ≠ 0) :
    baselineStopTarget (position.scaleUnits ratio) index candles config =
      baselineStopTarget position index candles config := by
  unfold baselineStopTarget
  rw [entryPrice_scaleUnits position hratio, firstFill_scaleUnits]
  rfl

lemma tightenStopDelayedBaseline_scaleUnits (hratio : ratio ≠ 0) (transitionStart : ℚ) :
    tightenStopDelayedBaseline (position.scaleUnits ratio) index candles config transitionStart =
      tightenStopDelayedBaseline position index candles config transitionStart := by
  unfold tightenStopDelayedBaseline stopTransitionProgress
  rw [lastFill_scaleUnits, previousBaselineStopTarget_scaleUnits position hratio,
    baselineStopTarget_scaleUnits position index candles config hratio]
  rfl

/-- **A stop depends on units through the average price only.** -/
theorem tightenStop_scaleUnits (hratio : ratio ≠ 0) (candle : Candle ℚ) (regime : String) :
    tightenStop (position.scaleUnits ratio) index candles config candle regime =
      tightenStop position index candles config candle regime := by
  unfold tightenStop tightenStopBaseline tightenStopHalfProtect tightenStopGreenWide
  rw [entryPrice_scaleUnits position hratio, firstFill_scaleUnits, length_scaleUnits]
  simp only [tightenStopDelayedBaseline_scaleUnits position index candles config hratio]
  rfl

end snapshots

end MuStrategy.Strategy

namespace MuStrategy.Backtest

open Lib TrustedData Strategy

/-! ## Fee rates -/

/-- The configuration with another fee rate. -/
def withFee (config : StrategyConfig ℚ) (feeRate : ℚ) : StrategyConfig ℚ := { config with feeRate := feeRate }

/-- The inputs with another fee rate. -/
def Inputs.withFee (run : Inputs ℚ) (feeRate : ℚ) : Inputs ℚ := { run with config := Backtest.withFee run.config feeRate }

/-! ## Rescaled positions -/

/-- A change of the size of fills, from one fee rate to another: notional and units are multiplied, and the fee of a
fill that was made at the first rate is the one of the second. -/
structure Rescaling (feeRate otherRate : ℚ) where
  ratio : ℚ
  ratio_ne : ratio ≠ 0
  fee : Fill ℚ → ℚ
  fee_made : ∀ fill : Fill ℚ, fill.fee = fill.notional * feeRate → fee fill = ratio * fill.notional * otherRate

namespace Rescaling

variable {feeRate otherRate : ℚ} (k : Rescaling feeRate otherRate)

/-- A fill of another size. -/
def fill (fill : Fill ℚ) : Fill ℚ :=
  { fill with notional := k.ratio * fill.notional, units := k.ratio * fill.units, fee := k.fee fill }

/-- A position with fills of another size. -/
def position (position : OpenPosition ℚ) : OpenPosition ℚ :=
  { position with
    fills := position.fills.map k.fill
    fills_ne := fun h => position.fills_ne (List.map_eq_nil_iff.mp h) }

lemma unitsOf_map (fills : List (Fill ℚ)) : unitsOf (fills.map k.fill) = k.ratio * unitsOf fills := by
  change ((fills.map k.fill).map Fill.units).sum = k.ratio * (fills.map Fill.units).sum
  rw [List.map_map, ← List.sum_map_mul_left]
  rfl

lemma gainOf_map (fills : List (Fill ℚ)) (price : ℚ) : gainOf (fills.map k.fill) price = k.ratio * gainOf fills price := by
  change ((fills.map k.fill).map _).sum = k.ratio * (fills.map _).sum
  rw [List.map_map, ← List.sum_map_mul_left]
  simp only [Function.comp_def, Rescaling.fill, mul_left_comm]

variable (p : OpenPosition ℚ)

/-- The snapshot of a rescaled position. -/
lemma positionSnapshot_position : positionSnapshot (k.position p) = (positionSnapshot p).scaleUnits k.ratio := by
  simp only [positionSnapshot, position, PositionStateSnapshot.scaleUnits, scaledFills, List.map_map,
    Function.comp_def, Rescaling.fill]

lemma entryPrice_position : (k.position p).entryPrice = p.entryPrice := by
  have hcost : Number.sum ((p.fills.map k.fill).map fun fill => fill.price * fill.units) =
      k.ratio * Number.sum (p.fills.map fun fill => fill.price * fill.units) := by
    change ((p.fills.map k.fill).map _).sum = k.ratio * (p.fills.map _).sum
    rw [List.map_map, ← List.sum_map_mul_left]
    simp only [Function.comp_def, Rescaling.fill, mul_left_comm]
  have hunits : (k.position p).units = k.ratio * p.units := k.unitsOf_map p.fills
  unfold OpenPosition.entryPrice
  rw [hunits, isZero_mul k.ratio_ne]
  change (if isZero p.units then 0 else Number.sum ((p.fills.map k.fill).map fun fill => fill.price * fill.units) /
    (k.ratio * p.units)) = _
  rw [hcost, mul_div_mul_left _ _ k.ratio_ne]

lemma firstFill_position : (k.position p).firstFill.timeMs = p.firstFill.timeMs := by
  simp only [OpenPosition.firstFill, position, List.head_map, Rescaling.fill]

lemma lastFill_position : (k.position p).lastFill.price = p.lastFill.price := by
  simp only [OpenPosition.lastFill, position, List.getLast_map, Rescaling.fill]

lemma length_position : (k.position p).fills.length = p.fills.length := List.length_map _

end Rescaling

/-! ## Entries -/

/-- The position of an entry at a price. Source: `backtest.py` `run_backtest`, the `OpenPosition` of an entry. -/
def boughtPosition (config : StrategyConfig ℚ) (price : ℚ) (fill : Fill ℚ) : OpenPosition ℚ where
  fills := [fill]
  fills_ne := List.cons_ne_nil _ _
  stopPrice := price * (1 - config.initialStopPct)
  entryAnchor := price
  initialStopPrice := price * (1 - config.initialStopPct)
  maxStage := 1
  stopTransitionFillCount := 0
  stopTransitionStart := 0
  pendingAdd := none

/-- A state that holds the position of an entry, with the sample of its fill. -/
def boughtState (config : StrategyConfig ℚ) (candle : Candle ℚ) (price : ℚ) (s : BacktestState ℚ) (fill : Fill ℚ) :
    BacktestState ℚ :=
  { s with position := some (boughtPosition config price fill), pendingEntry := none }.sample candle.openTimeMs price

/-- An entry is its fill and the risk check of its bar. -/
lemma enter_eq [Eastern] (run : Inputs ℚ) (candle : Candle ℚ) (price : ℚ) (s : BacktestState ℚ) :
    enter run candle price s = (do
      let margin ← at? run.config.marginSteps 0
      let fill ← makeFill candle.openTimeMs price margin s.equity run.config
      let exit ← exitOnRisk run candle (boughtPosition run.config price fill) .initialStop
        (boughtState run.config candle price s fill)
      pure exit.2) := rfl

/-! ## Decisions -/

section decisions

variable [Eastern] {run : Inputs ℚ} {otherRate : ℚ} (k : Rescaling run.config.feeRate otherRate)
  (index : ℕ) (candle : Candle ℚ) (position : OpenPosition ℚ)

omit [Eastern] in
/-- A fill made with rescaled equity. -/
lemma makeFill_rescale (timeMs : ℤ) (price margin equity : ℚ) :
    makeFill timeMs price margin (k.ratio * equity) (withFee run.config otherRate) =
      k.fill <$> makeFill timeMs price margin equity run.config := by
  unfold makeFill
  cases isZero price with
  | true => rfl
  | false =>
      have hnotional : k.ratio * equity * margin * run.config.leverage =
          k.ratio * (equity * margin * run.config.leverage) := by ring
      have hfee := k.fee_made ⟨timeMs, price, margin, equity * margin * run.config.leverage,
        equity * margin * run.config.leverage / price, equity * margin * run.config.leverage * run.config.feeRate⟩ rfl
      refine congrArg Except.ok ?_
      dsimp only [withFee, Rescaling.fill]
      rw [hfee, hnotional, mul_div_assoc k.ratio]

omit [Eastern] in
lemma liquidationRiskPrice_rescale :
    liquidationRiskPrice (k.position position) (withFee run.config otherRate) =
      liquidationRiskPrice position run.config := by
  unfold liquidationRiskPrice
  rw [k.entryPrice_position]
  rfl

/-- **The risk check of a bar is one of prices.** -/
theorem riskExit_rescale (reason : ExitReason) :
    riskExit (run.withFee otherRate) candle (k.position position) reason = riskExit run candle position reason := by
  unfold riskExit hasNonSessionLiquidationRisk
  simp only [Inputs.withFee, liquidationRiskPrice_rescale k position]
  rfl

lemma pyramidAddPrice_rescale (plan : PendingPyramidAdd ℚ) :
    pyramidAddPrice (run.withFee otherRate) index candle (k.position position) plan =
      pyramidAddPrice run index candle position plan := by
  unfold pyramidAddPrice
  rw [k.positionSnapshot_position]
  rfl

/-- **An add of a rescaled position is a rescaled add.** -/
theorem executePyramidAdd_rescale (equity : ℚ) :
    executePyramidAdd (run.withFee otherRate) index candle (k.ratio * equity) (k.position position) =
      k.position <$> executePyramidAdd run index candle equity position := by
  unfold executePyramidAdd
  dsimp only [Rescaling.position]
  cases position.pendingAdd with
  | none => rfl
  | some plan =>
      have hprice := pyramidAddPrice_rescale k index candle { position with pendingAdd := none } plan
      dsimp only [Rescaling.position] at hprice ⊢
      rw [hprice, map_bind]
      refine bind_congr fun price => ?_
      cases price with
      | none => rfl
      | some price =>
          dsimp only
          rw [map_bind]
          change (makeFill _ _ _ (k.ratio * equity) (withFee run.config otherRate) >>= _) = _
          rw [makeFill_rescale, bind_map_left]
          refine bind_congr fun fill => congrArg Except.ok ?_
          simp only [Rescaling.position, List.map_append, List.map_singleton]

omit [Eastern] in
theorem tightenPositionStop_rescale :
    tightenPositionStop (run.withFee otherRate) index candle (k.position position) =
      k.position <$> tightenPositionStop run index candle position := by
  have hstop := tightenStop_scaleUnits (positionSnapshot position) index run.candles run.config k.ratio_ne candle
    (run.regimeAt candle)
  unfold tightenPositionStop
  rw [k.positionSnapshot_position, map_bind]
  change (tightenStop _ index run.candles run.config candle (run.regimeAt candle) >>= _) = _
  rw [hstop]
  rfl

theorem planPyramidAdd_rescale :
    planPyramidAdd (run.withFee otherRate) index candle (k.position position) =
      k.position <$> planPyramidAdd run index candle position := by
  unfold planPyramidAdd
  simp only [k.positionSnapshot_position, map_bind]
  rfl

end decisions

end MuStrategy.Backtest
