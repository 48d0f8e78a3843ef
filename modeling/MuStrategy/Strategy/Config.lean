import MuStrategy.Lib.Number
import MuStrategy.Strategy.TradingCalendar

/-!
# Strategy configurations

* `EntryExecution`, `StopTightening`, `StopTransitionCurve` — the modes, with the texts that name none.
* `StrategyConfig` — what the rules read of a configuration.
* `isPreferredUsCashWindow` — the trading windows of a configuration.
-/

namespace MuStrategy.Strategy

open Lib TrustedData

/-- How an entry is executed: the texts of `entry_execution`. -/
inductive EntryExecutionMode where
  | breakHigh
  | directNextOpen
  | secondPullback
  /-- Any other text. -/
  | unsupported (value : String)
  deriving DecidableEq

/-- The text of a mode. -/
def EntryExecutionMode.value : EntryExecutionMode → String
  | .breakHigh => "break_high"
  | .directNextOpen => "direct_next_open"
  | .secondPullback => "second_pullback"
  | .unsupported value => value

/-- How a stop follows the price: the texts of `stop_tightening`. -/
inductive StopTightening where
  | baseline
  | halfProtect
  | wide
  | delayedBaseline
  | greenWide
  | halfProtectGreenWide
  /-- Any other text. -/
  | unsupported (value : String)
  deriving DecidableEq

/-- The text of a mode. -/
def StopTightening.value : StopTightening → String
  | .baseline => "baseline"
  | .halfProtect => "half_protect"
  | .wide => "wide"
  | .delayedBaseline => "delayed_baseline"
  | .greenWide => "green_wide"
  | .halfProtectGreenWide => "half_protect_green_wide"
  | .unsupported value => value

/-- The texts of `stop_transition_curve`. -/
inductive StopTransitionCurve where
  | linear
  | slowStart
  | fastStart
  | smooth
  /-- Any other text. -/
  | unsupported (value : String)
  deriving DecidableEq

/-- The text of a curve. -/
def StopTransitionCurve.value : StopTransitionCurve → String
  | .linear => "linear"
  | .slowStart => "slow_start"
  | .fastStart => "fast_start"
  | .smooth => "smooth"
  | .unsupported value => value

/-- The fields the rules read, with their defaults. The fee rate is the one the constructor resolved.
Source: `strategy.py` `StrategyConfig`. -/
structure StrategyConfig (F : Type) [Number F] where
  entryExecution : EntryExecutionMode := .breakHigh
  secondPullbackWaitBars : ℤ := 8
  stopTightening : StopTightening := .baseline
  leverage : F := 5.0
  marginSteps : List F := [0.20, 0.20, 0.20, 0.40]
  initialStopPct : F := 0.02
  addThresholds : List F := [0.02, 0.04, 0.06]
  rsiFloor : F := 45.0
  rsiAddFloor : F := 50.0
  fibTolerancePct : F := 0.002
  feeRate : F := 0.0005
  fibLookback : ℤ := 32
  stopBufferPct : F := 0.0005
  stopTransitionBars : ℤ := 8
  stopTransitionCurve : StopTransitionCurve := .linear
  maxEntryAboveFibPct : Option F := none
  yellowMaxEntryAboveFibPct : Option F := none
  maxSignalRangePct : Option F := none
  maxEntryAboveSignalClosePct : Option F := none
  blockReverseFibResistance : Bool := false
  reverseFibLookback : ℤ := 64
  reverseFibTolerancePct : F := 0.003
  yellowStopTightening : Option StopTightening := none
  greenStopTightening : Option StopTightening := none
  greenWideStopBufferPct : F := 0.01
  allowedRegimes : List String := ["green", "yellow"]
  fullSizeRegime : String := "green"
  tradingWindowsEt : List (String × String) := [("09:45", "11:30"), ("14:30", "15:45")]
  tradingCalendarId : CalendarId := .legacy

/-- `values[index]`, of an index that is not negative. -/
def at? {α : Type} (values : List α) (index : ℕ) : Except StrategyError α := orThrow values[index]? .index

lemma at?_eq_ok {α : Type} {values : List α} {index : ℕ} {a : α} : at? values index = .ok a ↔ values[index]? = some a :=
  orThrow_eq_ok

variable {F : Type} [Number F] [Eastern]

/-- Source: `strategy.py` `is_preferred_us_cash_window`. -/
def isPreferredUsCashWindow (openTimeMs : ℤ) (config : StrategyConfig F) : Except StrategyError Bool := do
  let decision ← evaluateTradingWindow config.tradingCalendarId config.tradingWindowsEt openTimeMs
  pure decision.allowed

end MuStrategy.Strategy
