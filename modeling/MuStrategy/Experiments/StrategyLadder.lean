import Mathlib.Data.List.Sort
import MuStrategy.Backtest.RunBacktest

/-!
# Long-only candidates

The strategies that the baseline is compared with: hold overnight, or hold while the trend is up. A candidate is long or
flat from the open of a bar on, by a signal that sees the bars before it.

* `overnightTargetLong`, `momentumTargetLong` — the signals.
* `stepBar` — a bar: the account is settled at its open, and marked at its close.
* `runLongOnlyCandidate` — the bars of an execution range; a position that is open after them is closed.
-/

namespace MuStrategy.Experiments

open Lib TrustedData Backtest

/-! ## Candidates -/

/-- What a simulation raises. -/
inductive LadderError where
  /-- `ValueError(text)`. -/
  | value (text : String)
  /-- `KeyError`. -/
  | key
  deriving DecidableEq

/-- Source: `strategy_ladder.py` `CandidateDefinition`. -/
structure CandidateDefinition where
  candidateId : String
  family : String
  label : String
  source : String
  lookbackHours : Option ℤ := none

/-- Why a trade was closed: the texts of `exit_reason`. -/
inductive CandidateExit where
  | signalFlat
  | endOfData
  deriving DecidableEq

/-- A trade of a candidate. Source: `models.py` `Trade`. -/
structure CandidateTrade (F : Type) where
  entryTimeMs : ℤ
  exitTimeMs : ℤ
  entryPrice : F
  exitPrice : F
  fills : List (Fill F)
  pnl : F
  fees : F
  returnPct : F
  maxStage : ℕ
  exitReason : CandidateExit
  deriving DecidableEq

/-- Source: `models.py` `BacktestResult`. -/
structure CandidateResult (F : Type) where
  startingEquity : F
  endingEquity : F
  trades : List (CandidateTrade F)
  equityCurve : List (ℤ × F)

/-- The arguments of a simulation, but for its bars. Source: `strategy_ladder.py` `run_long_only_candidate`. -/
structure CandidateRun (F : Type) where
  definition : CandidateDefinition
  feeBpsPerSide : ℤ
  slippageTicks : ℤ
  /-- `instrument.tick_size`. -/
  tickSize : F
  startingEquity : F
  executionStartTimeMs : Option ℤ := none
  executionEndTimeMs : Option ℤ := none
  /-- `target_long_by_open_time`: no entry is a `KeyError`. -/
  targetLongByOpenTime : Option (ℤ → Option Bool) := none
  barDurationMs : ℤ := 3600000

section simulation

variable {F : Type} [Number F]

/-! ## Signals -/

/-- `HOUR_MS`. -/
def hourMs : ℤ := 3600000

/-- `datetime.fromtimestamp(ms / 1000, tz=timezone.utc).hour`, of the years from 1 to 9999. -/
def utcHour (ms : ℤ) : Except LadderError ℤ := do
  require (-62135596800000 ≤ ms && ms < 253402300800000) (.value "year is out of range")
  pure (ms / hourMs % 24)

/-- Source: `strategy_ladder.py` `overnight_target_long`. -/
def overnightTargetLong (closedCandles : List (Candle F)) (nextBarOpenTimeMs : ℤ) : Except LadderError Bool := do
  require (!closedCandles.getLast?.any fun last => nextBarOpenTimeMs < last.openTimeMs + hourMs)
    (.value "closed_candles contains a candle not closed before the trade bar")
  let hour ← utcHour nextBarOpenTimeMs
  pure (22 ≤ hour)

/-- Source: `strategy_ladder.py` `momentum_target_long`. -/
def momentumTargetLong (closedCandles : List (Candle F)) (lookbackHours : ℤ) : Except LadderError Bool := do
  require (0 < lookbackHours) (.value "lookback_hours must be positive")
  if closedCandles.length ≤ lookbackHours then pure false
  else
    match closedCandles.getLast?, closedCandles[closedCandles.length - 1 - lookbackHours.toNat]? with
    | some current, some trailing => pure (0 < trailing.closePrice && trailing.closePrice < current.closePrice)
    | _, _ => pure false

/-- `LOCAL_CANDIDATE_LEVERAGE`. -/
def localCandidateLeverage : F := 1.0

namespace CandidateRun

variable (run : CandidateRun F)

/-- Whether a bar is to be held, by the bars before it. -/
def targetLong (closedCandles : List (Candle F)) (bar : Candle F) : Except LadderError Bool :=
  match run.targetLongByOpenTime with
  | some targets => orThrow (targets bar.openTimeMs) .key
  | none =>
      if run.definition.family = "overnight_seasonality" then overnightTargetLong closedCandles bar.openTimeMs
      else if run.definition.family = "time_series_momentum" then
        match run.definition.lookbackHours with
        | none => throw (.value "momentum candidate requires lookback_hours")
        | some lookbackHours => momentumTargetLong closedCandles lookbackHours
      else throw (.value ("unsupported local candidate family: " ++ run.definition.family))

/-- `fee_rate`. -/
def feeRate : F := (run.feeBpsPerSide.toNat : F) / 10000

/-- `slip`. -/
def slip : F := run.tickSize * (run.slippageTicks.toNat : F)

/-- A bar of the execution range. -/
def executes (bar : Candle F) : Bool :=
  !(run.executionStartTimeMs.any fun start => bar.openTimeMs < start) &&
    !(run.executionEndTimeMs.any fun stop => stop ≤ bar.openTimeMs) &&
    !(run.executionEndTimeMs.any fun stop => stop < bar.openTimeMs + run.barDurationMs)

end CandidateRun

/-! ## The account -/

/-- The account after some bars. The equity is settled; the samples are those after the first one. -/
structure CandidateState (F : Type) where
  equity : F
  openFill : Option (Fill F) := none
  trades : List (CandidateTrade F) := []
  samples : List (ℤ × F) := []

/-- Source: `strategy_ladder.py` `_close_long_only_trade`. -/
def closeLongOnlyTrade (fill : Fill F) (exitTimeMs : ℤ) (exitPrice equity feeRate : F) (reason : CandidateExit) :
    Except LadderError (F × CandidateTrade F) := do
  require (!decide (exitPrice ≤ 0)) (.value "slipped exit price must be positive")
  let grossPnl := (exitPrice - fill.price) * fill.units
  let exitFee := exitPrice * fill.units * feeRate
  let fees := fill.fee + exitFee
  let netPnl := grossPnl - fees
  pure (equity + netPnl,
    { entryTimeMs := fill.timeMs
      exitTimeMs := exitTimeMs
      entryPrice := fill.price
      exitPrice := exitPrice
      fills := [fill]
      pnl := netPnl
      fees := fees
      returnPct := if isZero fill.notional then 0 else netPnl / fill.notional
      maxStage := 1
      exitReason := reason })

variable (run : CandidateRun F)

/-- An entry with the whole equity. -/
def openLong (equity : F) (bar : Candle F) : Except LadderError (Fill F) := do
  let entryPrice := bar.openPrice + run.slip
  require (!decide (entryPrice ≤ 0)) (.value "slipped entry price must be positive")
  let notional := equity * localCandidateLeverage
  pure ⟨bar.openTimeMs, entryPrice, 1.0, notional, notional / entryPrice, notional * run.feeRate⟩

/-- The account becomes long or flat at the open of a bar. -/
def settle (s : CandidateState F) (bar : Candle F) (targetLong : Bool) : Except LadderError (CandidateState F) :=
  match s.openFill with
  | none =>
      if targetLong && 0 < s.equity then do
        let fill ← openLong run s.equity bar
        pure { s with openFill := some fill }
      else pure s
  | some fill =>
      if targetLong then pure s
      else do
        let (equity, trade) ←
          closeLongOnlyTrade fill bar.openTimeMs (bar.openPrice - run.slip) s.equity run.feeRate .signalFlat
        pure { s with equity := equity, openFill := none, trades := s.trades ++ [trade] }

/-- The equity, with an open position at the close of a bar. -/
def marked (s : CandidateState F) (bar : Candle F) : F :=
  match s.openFill with
  | none => s.equity
  | some fill => s.equity + ((bar.closePrice - fill.price) * fill.units - fill.fee)

/-- The step of the loop. The first bar of all has no bar before it. -/
def stepBar (ordered : List (Candle F)) (s : CandidateState F) (bar : Candle F × ℕ) :
    Except LadderError (CandidateState F) :=
  if bar.2 = 0 ∧ run.targetLongByOpenTime.isNone then pure s
  else do
    let targetLong ← run.targetLong (ordered.take bar.2) bar.1
    let settled ← settle run s bar.1 targetLong
    pure { settled with
      samples := settled.samples ++ [(bar.1.openTimeMs + run.barDurationMs, marked settled bar.1)] }

/-- A position that is open after the last bar is closed at its close. -/
def settleEnd (s : CandidateState F) (final : Candle F) : Except LadderError (CandidateState F) :=
  match s.openFill with
  | none => pure s
  | some fill => do
      let exitTimeMs := final.openTimeMs + run.barDurationMs
      let (equity, trade) ←
        closeLongOnlyTrade fill exitTimeMs (final.closePrice - run.slip) s.equity run.feeRate .endOfData
      pure { equity := equity
             openFill := none
             trades := s.trades ++ [trade]
             samples := s.samples ++ [(exitTimeMs, equity)] }

/-! ## All of it -/

/-- `sorted(candles, key=lambda bar: bar.open_time_ms)`. -/
def orderedBars (candles : List (Candle F)) : List (Candle F) :=
  candles.insertionSort fun a b => a.openTimeMs ≤ b.openTimeMs

/-- The bars of the execution range, with their indices. -/
def executionBars (ordered : List (Candle F)) : List (Candle F × ℕ) :=
  ordered.zipIdx.filter fun bar => run.executes bar.1

/-- The checks of the arguments. -/
def checkRun (ordered : List (Candle F)) : Except LadderError Unit := do
  require (0 ≤ run.feeBpsPerSide && 0 ≤ run.slippageTicks) (.value "fee and slippage values must be non-negative")
  require (run.barDurationMs = 900000 || run.barDurationMs = hourMs)
    (.value "research execution supports 15m or 1h bars")
  if run.barDurationMs ≠ hourMs then
    require run.targetLongByOpenTime.isSome
      (.value "15m execution requires explicit targets; built-in signals are hourly")
    require ((ordered.all fun bar => bar.openTimeMs % run.barDurationMs = 0) &&
        (ordered.zip ordered.tail).all fun pair => pair.2.openTimeMs - pair.1.openTimeMs = run.barDurationMs)
      (.value "15m execution requires aligned contiguous unique bars")
  else pure ()

/-- The bars of an execution range. -/
def runOrdered (ordered : List (Candle F)) : Except LadderError (CandidateResult F) :=
  match executionBars run ordered with
  | [] => pure ⟨run.startingEquity, run.startingEquity, [], []⟩
  | first :: rest =>
      if ordered.length < 2 then pure ⟨run.startingEquity, run.startingEquity, [], []⟩
      else do
        let s ← (first :: rest).foldlM (stepBar run ordered) ⟨run.startingEquity, none, [], []⟩
        let final ← settleEnd run s ((first :: rest).getLast (List.cons_ne_nil first rest)).1
        pure ⟨run.startingEquity, final.equity, final.trades,
          (first.1.openTimeMs, run.startingEquity) :: final.samples⟩

/-- Source: `strategy_ladder.py` `run_long_only_candidate`. -/
def runLongOnlyCandidate (candles : List (Candle F)) : Except LadderError (CandidateResult F) := do
  checkRun run (orderedBars candles)
  runOrdered run (orderedBars candles)

end simulation

end MuStrategy.Experiments
