import MuStrategy.Strategy.PositionRules

/-!
# The backtest

`run_backtest` walks the 15m bars once. The bar of a resting order, the bar of a signal and the bar of
an open position are three steps.

* `OpenPosition`, `BacktestState` — what the walk keeps; a position has a fill.
* `pendingStep`, `signalStep`, `heldStep` — one bar, by what is open; `barStep` — the choice.
* `runBacktest` — the walk and the settlement at the end of the data.
-/

namespace MuStrategy.Backtest

open Lib TrustedData Strategy

variable {F : Type} [Number F]

/-! ## Records -/

/-- Source: `models.py` `Fill`. -/
structure Fill (F : Type) where
  timeMs : ℤ
  price : F
  marginFraction : F
  notional : F
  units : F
  fee : F
  deriving DecidableEq

/-- Why a trade was closed: the texts of `exit_reason`. -/
inductive ExitReason where
  | initialStop
  | stop
  | nonSessionLiquidationRisk
  | endOfData
  deriving DecidableEq

/-- Source: `models.py` `Trade`. -/
structure Trade (F : Type) where
  entryTimeMs : ℤ
  exitTimeMs : ℤ
  entryPrice : F
  exitPrice : F
  fills : List (Fill F)
  pnl : F
  fees : F
  returnPct : F
  maxStage : ℕ
  exitReason : ExitReason
  deriving DecidableEq

/-- Source: `models.py` `BacktestResult`. -/
structure BacktestResult (F : Type) where
  startingEquity : F
  endingEquity : F
  trades : List (Trade F)
  equityCurve : List (ℤ × F)
  deriving DecidableEq

/-- Source: `backtest.py` `PendingEntry`. -/
structure PendingEntry (F : Type) where
  fibLevel : F
  expiresIndex : ℤ
  deriving DecidableEq

/-- Source: `backtest.py` `PendingPyramidAdd`. -/
structure PendingPyramidAdd (F : Type) where
  candidate : PyramidAddDecision F
  signalIndex : ℕ

/-- Source: `backtest.py` `OpenPosition`. -/
structure OpenPosition (F : Type) where
  fills : List (Fill F)
  fills_ne : fills ≠ []
  stopPrice : F
  entryAnchor : F
  initialStopPrice : F
  maxStage : ℕ
  stopTransitionFillCount : ℕ
  stopTransitionStart : F
  pendingAdd : Option (PendingPyramidAdd F)

lemma firstFill_ne {F : Type} (fill : Fill F) : [fill] ≠ [] := List.cons_ne_nil fill []

/-- `sum(fill.units for fill in fills)`. -/
def unitsOf (fills : List (Fill F)) : F := Number.sum (fills.map Fill.units)

/-- `sum(fill.fee for fill in fills)`. -/
def feesOf (fills : List (Fill F)) : F := Number.sum (fills.map Fill.fee)

/-- `sum((price - fill.price) * fill.units for fill in fills)`. -/
def gainOf (fills : List (Fill F)) (price : F) : F :=
  Number.sum (fills.map fun fill => (price - fill.price) * fill.units)

namespace OpenPosition

variable (position : OpenPosition F)

/-- Source: `backtest.py` `OpenPosition.units`. -/
def units : F := unitsOf position.fills

/-- Source: `backtest.py` `OpenPosition.entry_price`. -/
def entryPrice : F :=
  if isZero position.units then 0
  else Number.sum (position.fills.map fun fill => fill.price * fill.units) / position.units

/-- Source: `backtest.py` `OpenPosition.fees`. -/
def fees : F := feesOf position.fills

/-- `position.fills[0]`. -/
def firstFill : Fill F := position.fills.head position.fills_ne

/-- `position.fills[-1]`. -/
def lastFill : Fill F := position.fills.getLast position.fills_ne

end OpenPosition

/-- Source: `backtest.py` `_position_snapshot`. -/
def positionSnapshot (position : OpenPosition F) : PositionStateSnapshot F where
  fills := position.fills.map fun fill => ⟨fill.timeMs, fill.price, fill.units⟩
  fills_ne := fun h => position.fills_ne (List.map_eq_nil_iff.mp h)
  stopPrice := position.stopPrice
  entryAnchor := position.entryAnchor
  initialStopPrice := position.initialStopPrice
  maxStage := position.maxStage
  stopTransitionFillCount := position.stopTransitionFillCount
  stopTransitionStart := position.stopTransitionStart

/-- The arguments of a run and the indicator arrays, computed over all candles at its start. -/
structure Inputs (F : Type) [Number F] where
  candles : List (Candle F)
  hourlyContext : ℤ → Option String
  config : StrategyConfig F
  rsiValues : List F
  histValues : List F

/-- `hourly_context.get(candle.open_time_ms, "yellow")`. -/
def Inputs.regimeAt (run : Inputs F) (candle : Candle F) : String :=
  (run.hourlyContext candle.openTimeMs).getD "yellow"

/-- What the walk keeps. -/
structure BacktestState (F : Type) where
  equity : F
  equityCurve : List (ℤ × F)
  trades : List (Trade F)
  position : Option (OpenPosition F)
  pendingEntry : Option (PendingEntry F)

/-! ## Prices and accounts -/

/-- Source: `backtest.py` `_make_fill`. -/
def makeFill (timeMs : ℤ) (price marginFraction equity : F) (config : StrategyConfig F) :
    Except StrategyError (Fill F) := do
  let notional := equity * marginFraction * config.leverage
  require (!isZero price) .zeroDivision
  let units := notional / price
  let fee := notional * config.feeRate
  pure ⟨timeMs, price, marginFraction, notional, units, fee⟩

/-- Source: `backtest.py` `_return_on_margin`. -/
def returnOnMargin (netPnl : F) (fills : List (Fill F)) (leverage : F) : F :=
  if fills.isEmpty || isZero leverage then 0
  else
    let committedMargin := Number.sum (fills.map Fill.notional) / leverage
    if isZero committedMargin then 0 else netPnl / committedMargin

/-- Source: `backtest.py` `_buy_limit_fill_price`. -/
def buyLimitFillPrice (candle : Candle F) (limitPrice : F) : Option F :=
  if limitPrice < candle.low then none
  else if candle.openPrice < limitPrice then some candle.openPrice
  else some limitPrice

/-- Source: `backtest.py` `_sell_stop_fill_price`. -/
def sellStopFillPrice (candle : Candle F) (stopPrice : F) : Option F :=
  if stopPrice < candle.low then none
  else if candle.openPrice < stopPrice then some candle.openPrice
  else some stopPrice

/-- Source: `backtest.py` `_buy_stop_fill_price`. -/
def buyStopFillPrice (candle : Candle F) (triggerPrice : F) : Option F :=
  if candle.high < triggerPrice then none else some (pyMax candle.openPrice triggerPrice)

/-- Source: `backtest.py` `_liquidation_risk_price`. -/
def liquidationRiskPrice (position : OpenPosition F) (config : StrategyConfig F) : Except StrategyError F := do
  require (!decide (config.leverage ≤ 0)) (.value "leverage must be positive")
  pure (position.entryPrice * pyMax 0 (1 - 1 / config.leverage))

/-- Source: `backtest.py` `_marked_equity`. -/
def markedEquity (equity : F) (position : Option (OpenPosition F)) (markPrice : F) : F :=
  match position with
  | none => equity
  | some position => equity + gainOf position.fills markPrice - position.fees

/-- Source: `backtest.py` `_close_position`. -/
def closePosition (position : OpenPosition F) (candle : Candle F) (exitPrice equity : F) (reason : ExitReason)
    (config : StrategyConfig F) : F × Trade F :=
  let grossPnl := gainOf position.fills exitPrice
  let exitNotional := exitPrice * position.units
  let exitFee := exitNotional * config.feeRate
  let fees := position.fees + exitFee
  let netPnl := grossPnl - position.fees - exitFee
  (equity + netPnl,
    { entryTimeMs := position.firstFill.timeMs
      exitTimeMs := candle.openTimeMs
      entryPrice := position.entryPrice
      exitPrice := exitPrice
      fills := position.fills
      pnl := netPnl
      fees := fees
      returnPct := returnOnMargin netPnl position.fills config.leverage
      maxStage := position.maxStage
      exitReason := reason })

/-! ## Effects on the state -/

namespace BacktestState

variable (s : BacktestState F)

/-- `equity_curve.append((time_ms, _marked_equity(equity, position, mark)))`. -/
def sample (timeMs : ℤ) (mark : F) : BacktestState F :=
  { s with equityCurve := s.equityCurve ++ [(timeMs, markedEquity s.equity s.position mark)] }

/-- Source: `backtest.py` `run_backtest.record_close`. -/
def recordClose (candle : Candle F) : BacktestState F := s.sample candle.openTimeMs candle.closePrice

/-- Settle a position: the trade, and the sample after it. -/
def settle (position : OpenPosition F) (candle : Candle F) (exitPrice : F) (reason : ExitReason)
    (config : StrategyConfig F) : BacktestState F :=
  let (equity, trade) := closePosition position candle exitPrice s.equity reason config
  { s with
    equity := equity
    trades := s.trades ++ [trade]
    position := none
    equityCurve := s.equityCurve ++ [(candle.openTimeMs, equity)] }

end BacktestState

section walk

variable [Eastern] (run : Inputs F)

/-- Source: `backtest.py` `_has_non_session_liquidation_risk`. -/
def hasNonSessionLiquidationRisk (candle : Candle F) (position : OpenPosition F) :
    Except StrategyError Bool := do
  if ← isPreferredUsCashWindow candle.openTimeMs run.config then pure false
  else
    let price ← liquidationRiskPrice position run.config
    pure (decide (candle.low ≤ price))

/-- Source: `backtest.py` `_risk_exit`. -/
def riskExit (candle : Candle F) (position : OpenPosition F) (stopReason : ExitReason) :
    Except StrategyError (Option (F × ExitReason)) := do
  if ← hasNonSessionLiquidationRisk run candle position then
    let threshold ← liquidationRiskPrice position run.config
    pure (some ((sellStopFillPrice candle threshold).getD threshold, .nonSessionLiquidationRisk))
  else if candle.low ≤ position.stopPrice then
    pure (some ((sellStopFillPrice candle position.stopPrice).getD position.stopPrice, stopReason))
  else pure none

/-- Source: `backtest.py` `run_backtest._exit_on_risk`: whether the position was settled, and the state
after. -/
def exitOnRisk (candle : Candle F) (position : OpenPosition F) (stopReason : ExitReason) (s : BacktestState F) :
    Except StrategyError (Bool × BacktestState F) := do
  match ← riskExit run candle position stopReason with
  | none => pure (false, s)
  | some (exitPrice, reason) => pure (true, s.settle position candle exitPrice reason run.config)

/-- The entry of both entry branches: the first fill, its sample and the risk check of its bar. -/
def enter (candle : Candle F) (entryPrice : F) (s : BacktestState F) : Except StrategyError (BacktestState F) := do
  let margin ← at? run.config.marginSteps 0
  let fill ← makeFill candle.openTimeMs entryPrice margin s.equity run.config
  let stopPrice := entryPrice * (1 - run.config.initialStopPct)
  let position : OpenPosition F :=
    { fills := [fill]
      fills_ne := firstFill_ne fill
      stopPrice := stopPrice
      entryAnchor := entryPrice
      initialStopPrice := stopPrice
      maxStage := 1
      stopTransitionFillCount := 0
      stopTransitionStart := 0
      pendingAdd := none }
  let s := { s with position := some position, pendingEntry := none }.sample candle.openTimeMs entryPrice
  let (_, s) ← exitOnRisk run candle position .initialStop s
  pure s

/-! ## One bar -/

/-- A bar on which an order rests that has not expired. -/
def pendingStep (pending : PendingEntry F) (candle : Candle F) (s : BacktestState F) :
    Except StrategyError (BacktestState F) := do
  if candle.low ≤ pending.fibLevel * (1 + run.config.fibTolerancePct) then
    if !(← isPreferredUsCashWindow candle.openTimeMs run.config) then pure (s.recordClose candle)
    else
      match buyLimitFillPrice candle pending.fibLevel with
      | none => pure (s.recordClose candle)
      | some entryPrice =>
          let s ← enter run candle entryPrice s
          pure (s.recordClose candle)
  else pure (s.recordClose candle)

/-- A signal of the bar at `index` and its level. Source: `backtest.py` `run_backtest`, from the window check
to `signal.allowed`. -/
def signalAt (index : ℕ) (candle : Candle F) : Except StrategyError (Option F) := do
  if !(← isPreferredUsCashWindow candle.openTimeMs run.config) then pure none
  else
    match ← nearestFibRetestLevel run.candles index run.config with
    | none => pure none
    | some fibLevel =>
        let rsi ← at? run.rsiValues index
        let hist ← at? run.histValues index
        let previousHist ← at? run.histValues (index - 1)
        let signal := shouldEnterLong candle fibLevel (run.regimeAt candle) rsi hist previousHist run.config
        pure (if signal.allowed && signal.stopPrice.isSome then some fibLevel else none)

/-- A bar with nothing open and no order: a signal rests an order, or is executed on the next bar. -/
def signalStep (index : ℕ) (candle : Candle F) (s : BacktestState F) : Except StrategyError (BacktestState F) :=
  match run.candles[index + 1]? with
  | none => pure (s.recordClose candle)
  | some nextCandle => do
      match ← signalAt run index candle with
      | none => pure (s.recordClose candle)
      | some fibLevel =>
          if run.config.entryExecution = .secondPullback then
            let pending : PendingEntry F := ⟨fibLevel, index + run.config.secondPullbackWaitBars⟩
            pure ({ s with pendingEntry := some pending }.recordClose candle)
          else
            let execution ← shouldExecuteEntry run.candles index nextCandle fibLevel (run.regimeAt candle) run.config
            match if execution.allowed then execution.entryPrice else none with
            | none => pure (s.recordClose candle)
            | some entryPrice =>
                if !(← isPreferredUsCashWindow nextCandle.openTimeMs run.config) then pure (s.recordClose candle)
                else enter run nextCandle entryPrice (s.recordClose candle)

/-- The price at which a planned add is filled on the bar at `index`, if it is.
Source: `backtest.py` `_execute_pyramid_add`, to its fill. -/
def pyramidAddPrice (index : ℕ) (candle : Candle F) (position : OpenPosition F) (plan : PendingPyramidAdd F) :
    Except StrategyError (Option F) := do
  let candidate := plan.candidate
  if index ≠ plan.signalIndex + 1 ∨ candle.openTimeMs ≠ candidate.availableAtMs ∨
      position.maxStage + 1 ≠ candidate.stage then pure none
  else if !(← isPreferredUsCashWindow candle.openTimeMs run.config) then pure none
  else
    let signalCandle ← at? run.candles plan.signalIndex
    let rsi ← at? run.rsiValues plan.signalIndex
    let hist ← at? run.histValues plan.signalIndex
    let previousHist ← at? run.histValues (plan.signalIndex - 1)
    let decision ← decidePyramidAdd (positionSnapshot position) signalCandle rsi hist previousHist
      (run.regimeAt candle) run.config
    pure (if decision.isNone then none else buyStopFillPrice candle candidate.triggerPrice)

/-- Source: `backtest.py` `_execute_pyramid_add`. -/
def executePyramidAdd (index : ℕ) (candle : Candle F) (equity : F) (position : OpenPosition F) :
    Except StrategyError (OpenPosition F) := do
  let unplanned := { position with pendingAdd := none }
  match position.pendingAdd with
  | none => pure unplanned
  | some plan =>
      match ← pyramidAddPrice run index candle unplanned plan with
      | none => pure unplanned
      | some fillPrice =>
          let fill ← makeFill candle.openTimeMs fillPrice plan.candidate.marginFraction equity run.config
          pure { unplanned with
            fills := unplanned.fills ++ [fill]
            fills_ne := List.append_ne_nil_of_left_ne_nil unplanned.fills_ne _
            maxStage := plan.candidate.stage }

/-- Source: `backtest.py` `_tighten_stop`. -/
def tightenPositionStop (index : ℕ) (candle : Candle F) (position : OpenPosition F) :
    Except StrategyError (OpenPosition F) := do
  let outcome ← tightenStop (positionSnapshot position) index run.candles run.config candle (run.regimeAt candle)
  pure { position with
    stopPrice := outcome.stopPrice
    stopTransitionFillCount := outcome.transitionFillCount
    stopTransitionStart := outcome.transitionStart }

/-- Source: `backtest.py` `_plan_pyramid_add`. -/
def planPyramidAdd (index : ℕ) (candle : Candle F) (position : OpenPosition F) :
    Except StrategyError (OpenPosition F) := do
  let rsi ← at? run.rsiValues index
  let hist ← at? run.histValues index
  let previousHist ← at? run.histValues (index - 1)
  let candidate ← decidePyramidAdd (positionSnapshot position) candle rsi hist previousHist (run.regimeAt candle)
    run.config
  pure { position with pendingAdd := candidate.map fun candidate => ⟨candidate, index⟩ }

/-- The adds and the stop of a position that survived the risk check of the bar. -/
def manageStep (index : ℕ) (candle : Candle F) (position : OpenPosition F) (s : BacktestState F) :
    Except StrategyError (BacktestState F) := do
  let added ← executePyramidAdd run index candle s.equity position
  let s := { s with position := some added }
  let s := if position.fills.length < added.fills.length then s.sample candle.openTimeMs added.lastFill.price else s
  let tightened ← tightenPositionStop run index candle added
  let planned ← planPyramidAdd run index candle tightened
  pure ({ s with position := some planned }.recordClose candle)

/-- A bar with an open position. The bar of an entry executed on it has had its risk check. -/
def heldStep (index : ℕ) (candle : Candle F) (position : OpenPosition F) (s : BacktestState F) :
    Except StrategyError (BacktestState F) := do
  if position.firstFill.timeMs = candle.openTimeMs then manageStep run index candle position s
  else
    let (settled, s) ← exitOnRisk run candle position .stop s
    if settled then pure (s.recordClose candle) else manageStep run index candle position s

/-- The order that rests on a bar, if the strategy rests orders. -/
def restingEntry (s : BacktestState F) : Option (PendingEntry F) :=
  if run.config.entryExecution = .secondPullback then s.pendingEntry else none

/-- A bar with nothing open. -/
def flatStep (index : ℕ) (candle : Candle F) (s : BacktestState F) : Except StrategyError (BacktestState F) :=
  match restingEntry run s with
  | none => signalStep run index candle s
  | some pending =>
      if pending.expiresIndex < index then signalStep run index candle { s with pendingEntry := none }
      else pendingStep run pending candle s

/-- One iteration of the walk. -/
def barStep (s : BacktestState F) (bar : Candle F × ℕ) : Except StrategyError (BacktestState F) :=
  match s.position with
  | none => flatStep run bar.2 bar.1 s
  | some position => heldStep run bar.2 bar.1 position s

/-- The walk over the bars from index one on. -/
def walk (s : BacktestState F) : Except StrategyError (BacktestState F) :=
  (run.candles.zipIdx.drop 1).foldlM (barStep run) s

/-- The settlement of a position that is open at the end of the data. -/
def finish (s : BacktestState F) : BacktestState F :=
  match s.position, run.candles.getLast? with
  | some position, some final => s.settle position final final.closePrice .endOfData run.config
  | _, _ => s

end walk

/-- The inputs of a run. -/
def inputsOf (candles : List (Candle F)) (hourlyContext : ℤ → Option String) (config : StrategyConfig F) : Inputs F :=
  let closes := candles.map Candle.closePrice
  { candles := candles
    hourlyContext := hourlyContext
    config := config
    rsiValues := rsi 14 closes
    histValues := (macd closes).2.2 }

/-- The state before the walk. -/
def startState (first : Candle F) (startingEquity : F) : BacktestState F :=
  ⟨startingEquity, [(first.openTimeMs, startingEquity)], [], none, none⟩

/-- Source: `backtest.py` `run_backtest`. -/
def runBacktest [Eastern] (candles : List (Candle F)) (hourlyContext : ℤ → Option String)
    (config : StrategyConfig F) (startingEquity : F) : Except StrategyError (BacktestResult F) :=
  match candles with
  | first :: _ :: _ :: _ :: _ => do
      let run := inputsOf candles hourlyContext config
      let s ← walk run (startState first startingEquity)
      let s := finish run s
      pure ⟨startingEquity, s.equity, s.trades, s.equityCurve⟩
  | _ => pure ⟨startingEquity, startingEquity, [], []⟩

/-! ## A morning -/

/-- Midnight of Monday 2026-01-05 in New York. -/
def monday : ℤ := 20458 * 86400000 + 5 * 3600000

/-- The zone on that day, five hours behind UTC. -/
@[reducible] def mondayTime : Eastern where
  localTime? ms :=
    if monday ≤ ms ∧ ms < monday + 86400000 then some ⟨2026, 1, 5, ((ms - monday) / 60000).toNat⟩ else none

/-- The bar that opens `i` quarters of an hour after 9:15. -/
def morningBar (i : ℕ) (openPrice high low closePrice : ℚ) : Candle ℚ :=
  ⟨monday + (555 + 15 * i) * 60000, openPrice, high, low, closePrice, 1⟩

/-- A rise, a retest at the third bar, and two bars after it. -/
def morning : List (Candle ℚ) :=
  [morningBar 0 101 104 100 103, morningBar 1 103 110 103 109, morningBar 2 108 108.5 105 107,
    morningBar 3 107 110 106 109, morningBar 4 109 112 108 111]

/-- The default configuration, entering on the next open. -/
def morningConfig : StrategyConfig ℚ := { entryExecution := .directNextOpen }

end MuStrategy.Backtest
