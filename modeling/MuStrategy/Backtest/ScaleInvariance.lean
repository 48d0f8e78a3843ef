import MuStrategy.Backtest.Rescaling
import MuStrategy.Lib.Lockstep

/-!
# Scale invariance

In exact arithmetic a run with `c` times the starting equity is the run with all its sizes multiplied by `c`.

* `Fill.scale`, `Trade.scale`, `BacktestResult.scale` — sizes multiplied: notional, units, fees, results and samples.
* `BacktestState.scale`, `barStep_scale` — one bar of a scaled state is the scaled bar.
* `runBacktest_scale` — a whole run.
-/

namespace MuStrategy.Backtest

open Lib TrustedData Strategy

/-! ## Sizes -/

/-- A fill of `c` times the size. -/
def Fill.scale (c : ℚ) (fill : Fill ℚ) : Fill ℚ :=
  { fill with notional := c * fill.notional, units := c * fill.units, fee := c * fill.fee }

/-- A trade of `c` times the size: its prices, times, stage and return on margin stay. -/
def Trade.scale (c : ℚ) (trade : Trade ℚ) : Trade ℚ :=
  { trade with fills := trade.fills.map (Fill.scale c), pnl := c * trade.pnl, fees := c * trade.fees }

/-- Samples of `c` times the equity. -/
def scaleCurve (c : ℚ) (curve : List (ℤ × ℚ)) : List (ℤ × ℚ) := curve.map fun sample => (sample.1, c * sample.2)

/-- A result of `c` times the size. -/
def BacktestResult.scale (c : ℚ) (result : BacktestResult ℚ) : BacktestResult ℚ where
  startingEquity := c * result.startingEquity
  endingEquity := c * result.endingEquity
  trades := result.trades.map (Trade.scale c)
  equityCurve := scaleCurve c result.equityCurve

/-- A position of `c` times the size. -/
def OpenPosition.scale (c : ℚ) (position : OpenPosition ℚ) : OpenPosition ℚ :=
  { position with
    fills := position.fills.map (Fill.scale c)
    fills_ne := fun h => position.fills_ne (List.map_eq_nil_iff.mp h) }

/-- A state of `c` times the size. -/
def BacktestState.scale (c : ℚ) (s : BacktestState ℚ) : BacktestState ℚ where
  equity := c * s.equity
  equityCurve := scaleCurve c s.equityCurve
  trades := s.trades.map (Trade.scale c)
  position := s.position.map (OpenPosition.scale c)
  pendingEntry := s.pendingEntry

/-- Scaling keeps the fee rate: a fee is scaled with its notional. -/
def scaling (feeRate : ℚ) {c : ℚ} (hc : c ≠ 0) : Rescaling feeRate feeRate where
  ratio := c
  ratio_ne := hc
  fee fill := c * fill.fee
  fee_made fill h := by rw [h, mul_assoc]

/-! ## Accounts -/

section accounts

variable {c : ℚ} {s : BacktestState ℚ} {position : OpenPosition ℚ}

lemma feesOf_scale (fills : List (Fill ℚ)) : feesOf (fills.map (Fill.scale c)) = c * feesOf fills := by
  change ((fills.map (Fill.scale c)).map Fill.fee).sum = c * (fills.map Fill.fee).sum
  rw [List.map_map, ← List.sum_map_mul_left]
  rfl

lemma gainOf_scale (hc : c ≠ 0) (fills : List (Fill ℚ)) (price : ℚ) :
    gainOf (fills.map (Fill.scale c)) price = c * gainOf fills price :=
  (scaling 0 hc).gainOf_map fills price

lemma markedEquity_scale (hc : c ≠ 0) (equity mark : ℚ) (position : Option (OpenPosition ℚ)) :
    markedEquity (c * equity) (position.map (OpenPosition.scale c)) mark = c * markedEquity equity position mark := by
  cases position with
  | none => rfl
  | some position =>
      change c * equity + gainOf (position.fills.map (Fill.scale c)) mark - feesOf (position.fills.map (Fill.scale c)) =
        c * (equity + gainOf position.fills mark - feesOf position.fills)
      rw [gainOf_scale hc, feesOf_scale]
      ring

lemma scaleCurve_concat (curve : List (ℤ × ℚ)) (timeMs : ℤ) (value : ℚ) :
    scaleCurve c (curve ++ [(timeMs, value)]) = scaleCurve c curve ++ [(timeMs, c * value)] := by
  rw [scaleCurve, List.map_append]
  rfl

lemma sample_scale (hc : c ≠ 0) (timeMs : ℤ) (mark : ℚ) :
    (s.scale c).sample timeMs mark = (s.sample timeMs mark).scale c := by
  have hmarked := markedEquity_scale hc s.equity mark s.position
  simp only [BacktestState.sample, BacktestState.scale, hmarked, scaleCurve_concat]

lemma recordClose_scale (hc : c ≠ 0) (candle : Candle ℚ) : (s.scale c).recordClose candle = (s.recordClose candle).scale c :=
  sample_scale hc candle.openTimeMs candle.closePrice

/-- A return on margin is a ratio. -/
lemma returnOnMargin_scale (hc : c ≠ 0) (netPnl leverage : ℚ) (fills : List (Fill ℚ)) :
    returnOnMargin (c * netPnl) (fills.map (Fill.scale c)) leverage = returnOnMargin netPnl fills leverage := by
  have hmargin : Number.sum ((fills.map (Fill.scale c)).map Fill.notional) = c * Number.sum (fills.map Fill.notional) := by
    change ((fills.map (Fill.scale c)).map Fill.notional).sum = c * (fills.map Fill.notional).sum
    rw [List.map_map, ← List.sum_map_mul_left]
    rfl
  have hempty : (fills.map (Fill.scale c)).isEmpty = fills.isEmpty := List.isEmpty_map
  unfold returnOnMargin
  rw [hmargin, hempty]
  dsimp only
  rw [mul_div_assoc, isZero_mul hc, mul_div_mul_left _ _ hc]

lemma closePosition_scale (hc : c ≠ 0) (position : OpenPosition ℚ) (candle : Candle ℚ) (exitPrice equity : ℚ) (reason : ExitReason)
    (config : StrategyConfig ℚ) :
    closePosition (position.scale c) candle exitPrice (c * equity) reason config =
      (c * (closePosition position candle exitPrice equity reason config).1,
        (closePosition position candle exitPrice equity reason config).2.scale c) := by
  have hgain : gainOf (position.scale c).fills exitPrice = c * gainOf position.fills exitPrice :=
    gainOf_scale hc position.fills exitPrice
  have hfees : (position.scale c).fees = c * position.fees := feesOf_scale position.fills
  have hunits : (position.scale c).units = c * position.units := (scaling 0 hc).unitsOf_map position.fills
  have hnet : c * gainOf position.fills exitPrice - c * position.fees - exitPrice * (c * position.units) * config.feeRate =
      c * (gainOf position.fills exitPrice - position.fees - exitPrice * position.units * config.feeRate) := by ring
  have hpaid : c * position.fees + exitPrice * (c * position.units) * config.feeRate =
      c * (position.fees + exitPrice * position.units * config.feeRate) := by ring
  have hfirst : (position.scale c).firstFill.timeMs = position.firstFill.timeMs := (scaling 0 hc).firstFill_position position
  have hentry : (position.scale c).entryPrice = position.entryPrice := (scaling 0 hc).entryPrice_position position
  have hreturn := returnOnMargin_scale hc
    (gainOf position.fills exitPrice - position.fees - exitPrice * position.units * config.feeRate) config.leverage
    position.fills
  unfold closePosition
  dsimp only
  rw [hgain, hfees, hunits, hnet, hpaid, hfirst, hentry]
  change (_, Trade.mk _ _ _ _ (position.fills.map (Fill.scale c)) _ _
    (returnOnMargin _ (position.fills.map (Fill.scale c)) config.leverage) _ _) = _
  rw [hreturn, ← mul_add]
  rfl

lemma settle_scale (hc : c ≠ 0) (candle : Candle ℚ) (exitPrice : ℚ) (reason : ExitReason) (config : StrategyConfig ℚ) :
    (s.scale c).settle (position.scale c) candle exitPrice reason config =
      (s.settle position candle exitPrice reason config).scale c := by
  have hclosed := closePosition_scale hc position candle exitPrice s.equity reason config
  unfold BacktestState.settle
  rw [show (s.scale c).equity = c * s.equity from rfl, hclosed]
  simp only [BacktestState.scale, scaleCurve_concat, List.map_append, List.map_singleton, Option.map_none]

end accounts

/-! ## One bar -/

section steps

variable [Eastern] {run : Inputs ℚ} {c : ℚ} {s : BacktestState ℚ} {index : ℕ} {candle : Candle ℚ}
  {position : OpenPosition ℚ}

lemma exitOnRisk_scale (hc : c ≠ 0) (position : OpenPosition ℚ) (reason : ExitReason) :
    exitOnRisk run candle (position.scale c) reason (s.scale c) =
      (fun exit => (exit.1, exit.2.scale c)) <$> exitOnRisk run candle position reason s := by
  have hrisk : riskExit run candle (position.scale c) reason = riskExit run candle position reason :=
    riskExit_rescale (scaling run.config.feeRate hc) candle position reason
  unfold exitOnRisk
  rw [hrisk, map_bind]
  refine bind_congr fun decision => ?_
  cases decision with
  | none => rfl
  | some exit => exact congrArg (fun t => Except.ok (true, t)) (settle_scale hc candle exit.1 exit.2 run.config)

lemma enter_scale (hc : c ≠ 0) (price : ℚ) :
    enter run candle price (s.scale c) = BacktestState.scale c <$> enter run candle price s := by
  have hfill : ∀ margin, makeFill candle.openTimeMs price margin (c * s.equity) run.config =
      Fill.scale c <$> makeFill candle.openTimeMs price margin s.equity run.config := fun margin =>
    makeFill_rescale (scaling run.config.feeRate hc) candle.openTimeMs price margin s.equity
  rw [enter_eq, enter_eq, map_bind]
  refine bind_congr fun margin => ?_
  rw [map_bind, show (s.scale c).equity = c * s.equity from rfl, hfill, bind_map_left]
  refine bind_congr fun fill => ?_
  have hbought : boughtState run.config candle price (s.scale c) (fill.scale c) =
      (boughtState run.config candle price s fill).scale c :=
    sample_scale (s := { s with position := some (boughtPosition run.config price fill), pendingEntry := none }) hc
      candle.openTimeMs price
  have hexit : exitOnRisk run candle (boughtPosition run.config price (fill.scale c)) .initialStop
      ((boughtState run.config candle price s fill).scale c) = _ :=
    exitOnRisk_scale hc (boughtPosition run.config price fill) .initialStop
  rw [map_bind, hbought, hexit, bind_map_left]
  rfl

lemma pendingStep_scale (hc : c ≠ 0) (pending : PendingEntry ℚ) :
    pendingStep run pending candle (s.scale c) = BacktestState.scale c <$> pendingStep run pending candle s := by
  have hclose : pure ((s.scale c).recordClose candle) =
      BacktestState.scale c <$> (pure (s.recordClose candle) : Except StrategyError _) :=
    congrArg Except.ok (recordClose_scale hc candle)
  unfold pendingStep
  rw [apply_ite (BacktestState.scale c <$> ·)]
  refine if_congr Iff.rfl ?_ hclose
  rw [map_bind]
  refine bind_congr fun inWindow => ?_
  rw [apply_ite (BacktestState.scale c <$> ·)]
  refine if_congr Iff.rfl hclose ?_
  cases buyLimitFillPrice candle pending.fibLevel with
  | none => exact hclose
  | some entryPrice =>
      dsimp only
      rw [enter_scale hc, map_bind, bind_map_left]
      refine bind_congr fun t => congrArg Except.ok (recordClose_scale hc candle)

lemma signalStep_scale (hc : c ≠ 0) :
    signalStep run index candle (s.scale c) = BacktestState.scale c <$> signalStep run index candle s := by
  have hclose : pure ((s.scale c).recordClose candle) =
      BacktestState.scale c <$> (pure (s.recordClose candle) : Except StrategyError _) :=
    congrArg Except.ok (recordClose_scale hc candle)
  unfold signalStep
  cases run.candles[index + 1]? with
  | none => exact hclose
  | some nextCandle =>
      dsimp only
      rw [map_bind]
      refine bind_congr fun signal => ?_
      cases signal with
      | none => exact hclose
      | some fibLevel =>
          dsimp only
          rw [apply_ite (BacktestState.scale c <$> ·)]
          refine if_congr Iff.rfl ?_ ?_
          · exact congrArg Except.ok (recordClose_scale (s := { s with pendingEntry := some _ }) hc candle)
          · rw [map_bind]
            refine bind_congr fun execution => ?_
            cases (if execution.allowed then execution.entryPrice else none) with
            | none => exact hclose
            | some entryPrice =>
                dsimp only
                rw [map_bind]
                refine bind_congr fun inWindow => ?_
                rw [apply_ite (BacktestState.scale c <$> ·)]
                refine if_congr Iff.rfl hclose ?_
                rw [recordClose_scale hc, enter_scale hc]

lemma manageStep_scale (hc : c ≠ 0) :
    manageStep run index candle (position.scale c) (s.scale c) =
      BacktestState.scale c <$> manageStep run index candle position s := by
  have hadd : executePyramidAdd run index candle (c * s.equity) (position.scale c) =
      OpenPosition.scale c <$> executePyramidAdd run index candle s.equity position :=
    executePyramidAdd_rescale (scaling run.config.feeRate hc) index candle position s.equity
  unfold manageStep
  rw [map_bind, show (s.scale c).equity = c * s.equity from rfl, hadd, bind_map_left]
  refine bind_congr fun added => ?_
  have htighten : tightenPositionStop run index candle (added.scale c) =
      OpenPosition.scale c <$> tightenPositionStop run index candle added :=
    tightenPositionStop_rescale (scaling run.config.feeRate hc) index candle added
  dsimp only
  rw [map_bind, htighten, bind_map_left]
  refine bind_congr fun tightened => ?_
  have hplan : planPyramidAdd run index candle (tightened.scale c) =
      OpenPosition.scale c <$> planPyramidAdd run index candle tightened :=
    planPyramidAdd_rescale (scaling run.config.feeRate hc) index candle tightened
  rw [map_bind, hplan, bind_map_left]
  refine bind_congr fun planned => congrArg Except.ok ?_
  have hgrown : (position.scale c).fills.length < (added.scale c).fills.length ↔
      position.fills.length < added.fills.length := by
    rw [OpenPosition.scale, OpenPosition.scale, List.length_map, List.length_map]
  have hlast : (added.scale c).lastFill.price = added.lastFill.price := (scaling 0 hc).lastFill_position added
  by_cases hadded : position.fills.length < added.fills.length
  · have hsample := sample_scale (s := { s with position := some added }) hc candle.openTimeMs added.lastFill.price
    rw [if_pos hadded, if_pos (hgrown.mpr hadded), hlast]
    refine (congrArg (fun t : BacktestState ℚ =>
      ({ t with position := some (planned.scale c) } : BacktestState ℚ).recordClose candle) hsample).trans ?_
    exact recordClose_scale (s := { ({ s with position := some added } : BacktestState ℚ).sample candle.openTimeMs
      added.lastFill.price with position := some planned }) hc candle
  · rw [if_neg hadded, if_neg fun h => hadded (hgrown.mp h)]
    exact recordClose_scale (s := { s with position := some planned }) hc candle

lemma heldStep_scale (hc : c ≠ 0) :
    heldStep run index candle (position.scale c) (s.scale c) =
      BacktestState.scale c <$> heldStep run index candle position s := by
  have hfirst : (position.scale c).firstFill.timeMs = position.firstFill.timeMs :=
    (scaling 0 hc).firstFill_position position
  unfold heldStep
  rw [hfirst, apply_ite (BacktestState.scale c <$> ·)]
  refine if_congr Iff.rfl (manageStep_scale hc) ?_
  rw [exitOnRisk_scale hc position, map_bind, bind_map_left]
  refine bind_congr fun exit => ?_
  dsimp only
  rw [apply_ite (BacktestState.scale c <$> ·)]
  exact if_congr Iff.rfl (congrArg Except.ok (recordClose_scale hc candle)) (manageStep_scale hc)

lemma flatStep_scale (hc : c ≠ 0) :
    flatStep run index candle (s.scale c) = BacktestState.scale c <$> flatStep run index candle s := by
  have hresting : restingEntry run (s.scale c) = restingEntry run s := rfl
  unfold flatStep
  rw [hresting]
  cases restingEntry run s with
  | none => exact signalStep_scale hc
  | some pending =>
      dsimp only
      rw [apply_ite (BacktestState.scale c <$> ·)]
      exact if_congr Iff.rfl (signalStep_scale (s := { s with pendingEntry := none }) hc) (pendingStep_scale hc pending)

/-- **One bar of a scaled state is the scaled bar.** -/
theorem barStep_scale (hc : c ≠ 0) (bar : Candle ℚ × ℕ) :
    barStep run (s.scale c) bar = BacktestState.scale c <$> barStep run s bar := by
  obtain ⟨equity, curve, trades, position, pending⟩ := s
  cases position with
  | none => exact flatStep_scale hc
  | some position => exact heldStep_scale hc

omit [Eastern] in
/-- The settlement at the end of the data. -/
lemma finish_scale (hc : c ≠ 0) : finish run (s.scale c) = (finish run s).scale c := by
  unfold finish
  obtain ⟨equity, curve, trades, position, pending⟩ := s
  cases position with
  | none => rfl
  | some position =>
      cases run.candles.getLast? with
      | none => rfl
      | some final => exact settle_scale hc final final.closePrice .endOfData run.config

/-! ## Whole runs -/

/-- **Scale invariance**: with `c` times the equity, a run is the run with its sizes multiplied by `c`. -/
lemma runBacktest_scale (hc : c ≠ 0) (candles : List (Candle ℚ)) (context : ℤ → Option String)
    (config : StrategyConfig ℚ) (startingEquity : ℚ) :
    runBacktest candles context config (c * startingEquity) =
      BacktestResult.scale c <$> runBacktest candles context config startingEquity := by
  match candles with
  | [] | [_] | [_, _] | [_, _, _] => rfl
  | first :: second :: third :: fourth :: rest =>
      have hwalk : walk (inputsOf (first :: second :: third :: fourth :: rest) context config)
          ((startState first startingEquity).scale c) = _ := foldlM_hom (fun s bar => barStep_scale hc bar) _ _
      unfold runBacktest
      dsimp only
      rw [map_bind]
      refine (congrArg (· >>= _) hwalk).trans ?_
      rw [bind_map_left]
      refine bind_congr fun s => congrArg Except.ok ?_
      rw [finish_scale hc]
      rfl

end steps

end MuStrategy.Backtest
