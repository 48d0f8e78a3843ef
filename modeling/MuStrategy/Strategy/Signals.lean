import MuStrategy.Models
import MuStrategy.Strategy.Config
import MuStrategy.Strategy.Indicators

/-!
# Entry rules

* `nearestFibRetestLevel` — the Fibonacci level of the recent swing that a bar retests.
* `shouldEnterLong` — whether a closed bar is a signal.
* `shouldExecuteEntry` — whether, and at what price, the next bar executes it.
* `…_congr` — each rule reads the candles up to its bar only.
-/

namespace MuStrategy.Strategy

open Lib TrustedData

variable {F : Type} [Number F]

/-! ## Swings -/

/-- `candles[start:end_index]`, with `start = max(0, end_index - lookback)`. -/
def recentSample (candles : List (Candle F)) (endIndex : ℕ) (lookback : ℤ) : List (Candle F) :=
  (candles.take endIndex).drop (max 0 ((endIndex : ℤ) - lookback)).toNat

/-- The low and the high of the bars before `endIndex`. Source: `strategy.py` `recent_swing`. -/
def recentSwing (candles : List (Candle F)) (endIndex : ℕ) (lookback : ℤ) : Option (F × F) :=
  if endIndex ≤ 0 then none
  else
    let sample := recentSample candles endIndex lookback
    if sample.length < 2 then none
    else do
      let low ← minimum? (sample.map Candle.low)
      let high ← maximum? (sample.map Candle.high)
      if high ≤ low then none else some (low, high)

/-- The levels `0.236`, `0.382`, `0.5`, `0.618` and `0.786`. Source: `strategy.py` `fibonacci_levels`. -/
def fibonacciLevels (low high : F) : Except StrategyError (F × F × F × F × F) := do
  require (!decide (high ≤ low)) (.value "high must be greater than low")
  let span := high - low
  pure (Number.round8 (high - span * 0.236), Number.round8 (high - span * 0.382),
    Number.round8 (high - span * 0.5), Number.round8 (high - span * 0.618), Number.round8 (high - span * 0.786))

/-- Source: `strategy.py` `nearest_fib_retest_level`. -/
def nearestFibRetestLevel (candles : List (Candle F)) (index : ℕ) (config : StrategyConfig F) :
    Except StrategyError (Option F) :=
  match recentSwing candles index config.fibLookback with
  | none => pure none
  | some (low, high) => do
      let (_, level382, level500, level618, _) ← fibonacciLevels low high
      let candle ← at? candles index
      let viable := [level382, level500, level618].filter fun level =>
        let edge := level * (1 + config.fibTolerancePct)
        decide (candle.low ≤ edge) && decide (edge ≤ candle.high)
      pure (minBy? (fun level => pyAbs (candle.closePrice - level)) viable)

/-- The bar comes down to the level it retests. -/
lemma low_le_of_nearestFibRetestLevel {candles : List (Candle F)} {index : ℕ} {config : StrategyConfig F} {level : F}
    {candle : Candle F} (hcandle : candles[index]? = some candle)
    (h : nearestFibRetestLevel candles index config = .ok (some level)) :
    candle.low ≤ level * (1 + config.fibTolerancePct) := by
  unfold nearestFibRetestLevel at h
  split at h
  · cases h
  · obtain ⟨levels, -, h⟩ := bind_eq_ok.mp h
    simp only [at?, hcandle, orThrow_some, ok_bind, pure_eq_ok_iff] at h
    have hviable := (List.mem_filter.mp (minBy?_mem h)).2
    rw [Bool.and_eq_true, decide_eq_true_eq] at hviable
    exact hviable.1

/-- The high and the low of a fall before `endIndex`. Source: `strategy.py` `recent_down_swing`. -/
def recentDownSwing (candles : List (Candle F)) (endIndex : ℕ) (lookback : ℤ) : Option (F × F) :=
  if endIndex ≤ 0 then none
  else
    let sample := recentSample candles endIndex lookback
    if sample.length < 2 then none
    else do
      let (highCandle, highIndex) ← maxBy? (fun item => item.1.high) sample.zipIdx
      let (lowCandle, lowIndex) ← minBy? (fun item => item.1.low) sample.zipIdx
      if lowIndex ≤ highIndex then none
      else if highCandle.high ≤ lowCandle.low then none
      else some (highCandle.high, lowCandle.low)

/-- Source: `strategy.py` `reverse_fibonacci_resistance_level`. -/
def reverseFibonacciResistanceLevel (candles : List (Candle F)) (index : ℕ) (entryPrice : F)
    (config : StrategyConfig F) : Option F :=
  if !config.blockReverseFibResistance then none
  else
    match recentDownSwing candles index config.reverseFibLookback with
    | none => none
    | some (high, low) =>
        let span := high - low
        let levels := [0.382, 0.5, 0.618].map fun ratio : F => low + span * ratio
        let tolerance := entryPrice * config.reverseFibTolerancePct
        minBy? (fun level => pyAbs (entryPrice - level))
          (levels.filter fun level => decide (pyAbs (entryPrice - level) ≤ tolerance))

/-- The lowest low of the last four of the eight bars before `index`.
Source: `strategy.py` `recent_higher_low`, with its default lookback. -/
def recentHigherLow (candles : List (Candle F)) (index : ℕ) : Option F :=
  let sample := recentSample candles index 8
  if sample.length < 3 then none
  else minimum? ((sample.drop (sample.length - 4)).map Candle.low)

/-! ## Signals -/

/-- Source: `models.py` `EntrySignal`. -/
structure EntrySignal (F : Type) where
  reason : String
  stopPrice : Option F := none
  decisionCode : EntryDecisionCode

/-- The field `allowed`, which the constructor sets from the decision code. -/
def EntrySignal.allowed (signal : EntrySignal F) : Bool := signal.decisionCode.disposition = .ready

/-- Source: `strategy.py` `should_enter_long`. -/
def shouldEnterLong (candle : Candle F) (fibLevel : F) (regime : String) (rsi14 macdHist macdHistPrev : F)
    (config : StrategyConfig F) : EntrySignal F :=
  if regime ∉ config.allowedRegimes then ⟨"1h regime blocks long", none, .regimeBlocked⟩
  else if rsi14 < config.rsiFloor then ⟨"15m RSI below floor", none, .rsiBelowFloor⟩
  else if macdHist < macdHistPrev ∧ macdHist < 0 then
    ⟨"15m MACD histogram still weakening", none, .macdWeakening⟩
  else
    let tolerance := fibLevel * config.fibTolerancePct
    let touched := candle.low ≤ fibLevel + tolerance
    let reclaimed := fibLevel ≤ candle.closePrice
    if ¬(touched ∧ reclaimed) then ⟨"no confirmed Fibonacci retest", none, .noConfirmedFibRetest⟩
    else
      let hardStop := candle.closePrice * (1 - config.initialStopPct)
      let technicalStop := candle.low
      ⟨"confirmed Fibonacci retest", some (pyMax hardStop technicalStop), .signalConfirmed⟩

/-- An allowed signal has a stop. -/
lemma stopPrice_isSome_of_allowed {candle : Candle F} {fibLevel : F} {regime : String}
    {rsi14 macdHist macdHistPrev : F} {config : StrategyConfig F} :
    (shouldEnterLong candle fibLevel regime rsi14 macdHist macdHistPrev config).allowed = true →
      (shouldEnterLong candle fibLevel regime rsi14 macdHist macdHistPrev config).stopPrice.isSome = true := by
  unfold shouldEnterLong
  dsimp only
  split_ifs
  all_goals simp [EntrySignal.allowed, EntryDecisionCode.disposition]

/-- An allowed signal closes at its level or above. -/
lemma reclaimed_of_allowed {candle : Candle F} {fibLevel : F} {regime : String}
    {rsi14 macdHist macdHistPrev : F} {config : StrategyConfig F}
    (h : (shouldEnterLong candle fibLevel regime rsi14 macdHist macdHistPrev config).allowed = true) :
    fibLevel ≤ candle.closePrice := by
  unfold shouldEnterLong at h
  dsimp only at h
  by_cases hretest : candle.low ≤ fibLevel + fibLevel * config.fibTolerancePct ∧ fibLevel ≤ candle.closePrice
  · exact hretest.2
  · rw [if_pos hretest] at h
    split_ifs at h
    all_goals exact absurd h (by simp [EntrySignal.allowed, EntryDecisionCode.disposition])

/-! ## Executions -/

/-- Source: `strategy.py` `EntryExecution`. -/
structure EntryExecution (F : Type) where
  reason : String
  entryPrice : Option F := none
  decisionCode : EntryDecisionCode

/-- The field `allowed`, which the constructor sets from the decision code. -/
def EntryExecution.allowed (execution : EntryExecution F) : Bool := execution.decisionCode.disposition = .ready

/-- `value > limit` of a limit that may be missing. -/
def exceeds (value : F) (limit : Option F) : Bool := limit.any fun limit => decide (limit < value)

/-- The filters on an execution at `entryPrice`. -/
def filterExecution (candles : List (Candle F)) (index : ℕ) (candle : Candle F) (entryPrice fibLevel : F)
    (regime : String) (config : StrategyConfig F) : EntryExecution F :=
  let signalRangePct := if isZero candle.closePrice then 0 else (candle.high - candle.low) / candle.closePrice
  if exceeds signalRangePct config.maxSignalRangePct then ⟨"signal candle too wide", none, .signalCandleTooWide⟩
  else
    let entryAboveFibPct := if isZero fibLevel then 0 else entryPrice / fibLevel - 1
    let maxEntryAboveFibPct :=
      if regime = "yellow" ∧ config.yellowMaxEntryAboveFibPct.isSome then config.yellowMaxEntryAboveFibPct
      else config.maxEntryAboveFibPct
    if exceeds entryAboveFibPct maxEntryAboveFibPct then
      ⟨"entry too far above Fibonacci retest", none, .entryTooFarAboveFib⟩
    else
      let entryAboveSignalClosePct := if isZero candle.closePrice then 0 else entryPrice / candle.closePrice - 1
      if exceeds entryAboveSignalClosePct config.maxEntryAboveSignalClosePct then
        ⟨"entry too far above signal close", none, .entryTooFarAboveSignalClose⟩
      else
        match reverseFibonacciResistanceLevel candles index entryPrice config with
        | some level =>
            ⟨"entry at reverse Fibonacci resistance " ++ Number.fixed6 level, none, .reverseFibResistance⟩
        | none => ⟨"execution accepted", some entryPrice, .executionAccepted⟩

/-- Source: `strategy.py` `should_execute_entry`. -/
def shouldExecuteEntry (candles : List (Candle F)) (index : ℕ) (nextCandle : Candle F) (fibLevel : F)
    (regime : String) (config : StrategyConfig F) : Except StrategyError (EntryExecution F) := do
  let candle ← at? candles index
  match config.entryExecution with
  | .directNextOpen => pure (filterExecution candles index candle nextCandle.openPrice fibLevel regime config)
  | .breakHigh =>
      if nextCandle.high ≤ candle.high then
        pure ⟨"next candle does not break signal high", none, .nextCandleDidNotBreakSignalHigh⟩
      else
        pure (filterExecution candles index candle (pyMax nextCandle.openPrice candle.high) fibLevel regime config)
  | .secondPullback => pure ⟨"waiting for second pullback", none, .waitingSecondPullback⟩
  | .unsupported value => throw (.value ("unsupported entry_execution: " ++ value))

/-! ## The rules read the candles up to their bar -/

variable {candles others : List (Candle F)} {n index : ℕ}

lemma at?_congr {α : Type} {xs ys : List α} (hindex : index < n) (htake : xs.take n = ys.take n) :
    at? xs index = at? ys index := by
  rw [at?, at?, ← List.getElem?_take_of_lt hindex, htake, List.getElem?_take_of_lt hindex]

omit [Number F] in
lemma recentSample_congr (hindex : index ≤ n) (htake : candles.take n = others.take n) (lookback : ℤ) :
    recentSample candles index lookback = recentSample others index lookback := by
  have hshorter : candles.take index = others.take index := by
    rw [← Nat.min_eq_left hindex, ← List.take_take, htake, List.take_take]
  rw [recentSample, recentSample, hshorter]

lemma nearestFibRetestLevel_congr (hindex : index < n) (htake : candles.take n = others.take n)
    (config : StrategyConfig F) :
    nearestFibRetestLevel candles index config = nearestFibRetestLevel others index config := by
  unfold nearestFibRetestLevel recentSwing
  rw [recentSample_congr (Nat.le_of_lt hindex) htake, at?_congr hindex htake]

lemma recentHigherLow_congr (hindex : index ≤ n) (htake : candles.take n = others.take n) :
    recentHigherLow candles index = recentHigherLow others index := by
  unfold recentHigherLow
  rw [recentSample_congr hindex htake]

lemma shouldExecuteEntry_congr (hindex : index < n) (htake : candles.take n = others.take n)
    (nextCandle : Candle F) (fibLevel : F) (regime : String) (config : StrategyConfig F) :
    shouldExecuteEntry candles index nextCandle fibLevel regime config =
      shouldExecuteEntry others index nextCandle fibLevel regime config := by
  unfold shouldExecuteEntry filterExecution reverseFibonacciResistanceLevel recentDownSwing
  rw [recentSample_congr (Nat.le_of_lt hindex) htake, at?_congr hindex htake]

end MuStrategy.Strategy
