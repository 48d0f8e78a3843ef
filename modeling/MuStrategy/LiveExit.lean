import MuStrategy.Backtest.StopLife

/-!
# Live exits

The live evaluator decides the exit of a known position on one bar, and its next stop if it stays open. It moves in
step with the backtest.

* `ExitObservation`, `evaluateExit` — the evaluator; `evaluateExit_eq` — it decides as the risk check of the backtest.
* `ClosedByRisk`, `heldStep_decision` — how a bar of the backtest ends a position.
* `SupportedStop` — the stop rules a regime selects exist.
* `watchExit`, `FirstExit` — the evaluator fed with its own outputs, and the exit of the backtest.
* `ExitsSimulated`, `exits_simulated` — the agreement on every bar and over whole lives.
-/

namespace MuStrategy.LiveExit

open Lib TrustedData Strategy Backtest

variable {F : Type} [Number F]

/-! ## The evaluator -/

/-- What decided an observation: the texts of `trigger_basis`. -/
inductive TriggerBasis where
  | nonSessionLiquidationRisk
  | stopBeforeCandle
  | calendarUnavailable
  | none
  deriving DecidableEq

/-- The text of a basis. -/
def TriggerBasis.text : TriggerBasis → String
  | .nonSessionLiquidationRisk => "candle_low_at_or_below_non_session_liquidation_risk_price"
  | .stopBeforeCandle => "candle_low_at_or_below_stop_before_candle"
  | .calendarUnavailable => "calendar_unavailable"
  | .none => "none"

/-- Source: `live_exit.py` `ExitObservation`. -/
structure ExitObservation (F : Type) where
  candleOpenTimeMs : ℤ
  latestClose : F
  stopBeforeCandle : F
  stopAfterCandleIfOpen : F
  exitTriggered : Option Bool
  exitReason : Option ExitReason
  triggerBasis : TriggerBasis
  latestCloseAtOrBelowTightenedStop : Bool
  transitionFillCount : ℕ
  transitionStart : F
  calendarError : Option String := none

section evaluator

variable [Eastern]

/-- Source: `live_exit.py` `_has_non_session_liquidation_risk`. -/
def hasNonSessionLiquidationRisk (candle : Candle F) (position : PositionStateSnapshot F) (config : StrategyConfig F) :
    Except StrategyError Bool := do
  if ← isPreferredUsCashWindow candle.openTimeMs config then pure false
  else
    require (!decide (config.leverage ≤ 0)) (.value "leverage must be positive")
    let liquidationRiskPrice := position.entryPrice * pyMax 0 (1 - 1 / config.leverage)
    pure (decide (candle.low ≤ liquidationRiskPrice))

/-- The risk, or the text of the calendar error that hides it. Source: `live_exit.py` `evaluate_exit`, its `try`. -/
def sessionRisk (candle : Candle F) (position : PositionStateSnapshot F) (config : StrategyConfig F) :
    Except StrategyError (Option Bool × Option String) :=
  match hasNonSessionLiquidationRisk candle position config with
  | .ok risk => pure (some risk, none)
  | .error (.calendarUnavailable text) => pure (none, some text)
  | .error e => throw e

/-- Source: `live_exit.py` `evaluate_exit`. -/
def evaluateExit (position : PositionStateSnapshot F) (candle : Candle F) (index : ℕ) (candles : List (Candle F))
    (regime : String) (config : StrategyConfig F) : Except StrategyError (ExitObservation F) := do
  let (risk, calendarError) ← sessionRisk candle position config
  let stopTriggered := decide (candle.low ≤ position.stopPrice)
  let exitTriggered := if risk = some true ∨ stopTriggered = true then some true else risk
  let (exitReason, triggerBasis) : Option ExitReason × TriggerBasis :=
    if risk = some true then (some .nonSessionLiquidationRisk, .nonSessionLiquidationRisk)
    else if stopTriggered then (some .stop, .stopBeforeCandle)
    else (none, if calendarError.any (· ≠ "") then .calendarUnavailable else .none)
  let outcome ← tightenStop position index candles config candle regime
  pure
    { candleOpenTimeMs := candle.openTimeMs
      latestClose := candle.closePrice
      stopBeforeCandle := position.stopPrice
      stopAfterCandleIfOpen := outcome.stopPrice
      exitTriggered := exitTriggered
      exitReason := exitReason
      triggerBasis := triggerBasis
      latestCloseAtOrBelowTightenedStop := decide (candle.closePrice ≤ outcome.stopPrice)
      transitionFillCount := outcome.transitionFillCount
      transitionStart := outcome.transitionStart
      calendarError := calendarError }

end evaluator

/-! ## The decision of a bar -/

section decision

/-- A snapshot has the average entry of its position. -/
lemma positionSnapshot_entryPrice (position : OpenPosition F) :
    (positionSnapshot position).entryPrice = position.entryPrice := by
  unfold PositionStateSnapshot.entryPrice fillsEntryPrice OpenPosition.entryPrice OpenPosition.units unitsOf
    positionSnapshot
  simp only [List.map_map]
  rfl

variable [Eastern] {run : Inputs F} {candle : Candle F} {position : OpenPosition F} {index : ℕ}

/-- The two risk checks are one. -/
lemma hasNonSessionLiquidationRisk_eq :
    hasNonSessionLiquidationRisk candle (positionSnapshot position) run.config =
      Backtest.hasNonSessionLiquidationRisk run candle position := by
  unfold hasNonSessionLiquidationRisk Backtest.hasNonSessionLiquidationRisk liquidationRiskPrice
  simp only [positionSnapshot_entryPrice, bind_assoc, pure_bind]

/-- The basis of an exit of the backtest. -/
def basisOf : Option ExitReason → TriggerBasis
  | none => .none
  | some .nonSessionLiquidationRisk => .nonSessionLiquidationRisk
  | some _ => .stopBeforeCandle

/-- The observation of a decision and of the stop after it. -/
def observed (position : PositionStateSnapshot F) (candle : Candle F) (reason : Option ExitReason)
    (outcome : StopTighteningOutcome F) : ExitObservation F where
  candleOpenTimeMs := candle.openTimeMs
  latestClose := candle.closePrice
  stopBeforeCandle := position.stopPrice
  stopAfterCandleIfOpen := outcome.stopPrice
  exitTriggered := some reason.isSome
  exitReason := reason
  triggerBasis := basisOf reason
  latestCloseAtOrBelowTightenedStop := decide (candle.closePrice ≤ outcome.stopPrice)
  transitionFillCount := outcome.transitionFillCount
  transitionStart := outcome.transitionStart

/-- **The evaluator decides as the risk check of the backtest**, and then asks the same stop rules. -/
theorem evaluateExit_eq {decision : Option (F × ExitReason)} (h : riskExit run candle position .stop = .ok decision) :
    evaluateExit (positionSnapshot position) candle index run.candles (run.regimeAt candle) run.config =
      (tightenStop (positionSnapshot position) index run.candles run.config candle (run.regimeAt candle)).map
        (observed (positionSnapshot position) candle (decision.map Prod.snd)) := by
  obtain ⟨risky, hrisky, h⟩ := bind_eq_ok.mp h
  rw [← hasNonSessionLiquidationRisk_eq] at hrisky
  have hrisk : sessionRisk candle (positionSnapshot position) run.config = .ok (some risky, none) := by
    rw [sessionRisk, hrisky]
    rfl
  unfold evaluateExit
  rw [hrisk, ok_bind]
  cases risky with
  | true =>
      obtain ⟨threshold, -, h⟩ := bind_eq_ok.mp h
      cases h
      rfl
  | false =>
      rw [if_neg Bool.false_ne_true] at h
      split at h
      · rename_i hreached
        have hstop : decide (candle.low ≤ (positionSnapshot position).stopPrice) = true := decide_eq_true hreached
        cases h
        rw [hstop]
        rfl
      · rename_i habove
        have hstop : decide (candle.low ≤ (positionSnapshot position).stopPrice) = false := decide_eq_false habove
        cases h
        rw [hstop]
        rfl

end decision

/-! ## The end of a position -/

section closing

variable [Eastern] {run : Inputs F} {s t : BacktestState F} {candle : Candle F} {position : OpenPosition F} {index : ℕ}

/-- A bar closes a position by its risk check: the trade of the position, on the bar, for a reason. -/
def ClosedByRisk (s t : BacktestState F) (candle : Candle F) (position : OpenPosition F) (reason : ExitReason) : Prop :=
  t.position = none ∧ ∃ trade, t.trades = s.trades ++ [trade] ∧ trade.fills = position.fills ∧
    trade.exitTimeMs = candle.openTimeMs ∧ trade.exitReason = reason

omit [Number F] [Eastern] in
lemma ClosedByRisk.reason_unique {reason reason' : ExitReason} (h : ClosedByRisk s t candle position reason)
    (h' : ClosedByRisk s t candle position reason') : reason = reason' := by
  obtain ⟨-, trade, htrades, -, -, rfl⟩ := h
  obtain ⟨-, trade', htrades', -, -, rfl⟩ := h'
  rw [htrades] at htrades'
  rw [List.singleton_injective (List.append_cancel_left htrades')]

/-- After the bar of its entry, a position is closed by its risk check, or managed. -/
lemma heldStep_decision (hentry : candle.openTimeMs ≠ position.firstFill.timeMs)
    (h : heldStep run index candle position s = .ok t) :
    ∃ decision, riskExit run candle position .stop = .ok decision ∧
      ((∃ price reason, decision = some (price, reason) ∧ ClosedByRisk s t candle position reason) ∨
        decision = none ∧ manageStep run index candle position s = .ok t) := by
  unfold heldStep at h
  rw [if_neg hentry.symm] at h
  obtain ⟨⟨settled, u⟩, hexit, hrest⟩ := bind_eq_ok.mp h
  obtain ⟨decision, hdecision, hexit⟩ := bind_eq_ok.mp hexit
  refine ⟨decision, hdecision, ?_⟩
  rcases decision with _ | ⟨price, reason⟩
  · cases hexit
    exact Or.inr ⟨rfl, hrest⟩
  · cases hexit
    cases hrest
    exact Or.inl ⟨price, reason, rfl, rfl, _, rfl, rfl, rfl, rfl⟩

/-- A position that is managed without an add keeps its snapshot, with the stop and the transition of the rules. -/
lemma manageStep_snapshot {later : OpenPosition F} (h : manageStep run index candle position s = .ok t)
    (hlater : t.position = some later) (hsame : later.fills = position.fills) :
    ∃ outcome, tightenStop (positionSnapshot position) index run.candles run.config candle (run.regimeAt candle) =
        .ok outcome ∧
      positionSnapshot later = { positionSnapshot position with
        stopPrice := outcome.stopPrice
        stopTransitionFillCount := outcome.transitionFillCount
        stopTransitionStart := outcome.transitionStart } := by
  obtain ⟨added, hadded, h⟩ := bind_eq_ok.mp h
  obtain ⟨tightened, htightened, h⟩ := bind_eq_ok.mp h
  obtain ⟨planned, hplanned, h⟩ := bind_eq_ok.mp h
  cases h
  cases hlater
  obtain ⟨outcome, houtcome, rfl⟩ := tightenPositionStop_eq htightened
  obtain ⟨plan, rfl⟩ := planPyramidAdd_eq hplanned
  rcases executePyramidAdd_eq hadded with rfl | ⟨fill, stage, hne, -, rfl⟩
  · exact ⟨outcome, houtcome, rfl⟩
  · -- an add would have been one more fill
    have hlength := congrArg List.length hsame
    simp at hlength

end closing

/-! ## Supported rules -/

section supported

variable {position : PositionStateSnapshot F} {index : ℕ} {candles : List (Candle F)} {config : StrategyConfig F}
  {candle : Candle F} {regime : String}

/-- The stop rule that a regime selects is one of the four, and a delayed one has a curve. -/
def SupportedStop (config : StrategyConfig F) (regime : String) : Prop :=
  match resolvedStopTightening regime config with
  | .baseline | .halfProtect | .wide => True
  | .delayedBaseline => ∀ value, config.stopTransitionCurve ≠ .unsupported value
  | _ => False

/-- What is supported, rule by rule. -/
lemma SupportedStop.rules (h : SupportedStop config regime) :
    resolvedStopTightening regime config = .baseline ∨ resolvedStopTightening regime config = .halfProtect ∨
      resolvedStopTightening regime config = .wide ∨ (resolvedStopTightening regime config = .delayedBaseline ∧
        ∀ value, config.stopTransitionCurve ≠ .unsupported value) := by
  unfold SupportedStop at h
  split at h
  · exact Or.inl ‹_›
  · exact Or.inr (Or.inl ‹_›)
  · exact Or.inr (Or.inr (Or.inl ‹_›))
  · exact Or.inr (Or.inr (Or.inr ⟨‹_›, h⟩))
  · exact h.elim

/-- A supported rule gives a stop, for a position whose last fill is on a bar. -/
lemma tightenStop_returns (hsupported : SupportedStop config regime) (hcurrent : candles[index]? = some candle)
    (hfilled : ∃ bar ∈ candles, bar.openTimeMs = position.lastFill.timeMs) :
    ∃ outcome, tightenStop position index candles config candle regime = .ok outcome := by
  have hmatch : (candles[index]?.any fun current => decide (current.openTimeMs = candle.openTimeMs)) = true := by
    rw [hcurrent]
    exact decide_eq_true rfl
  have hprogress : ∃ p, stopTransitionProgress position index candles config = .ok p := by
    unfold stopTransitionProgress
    split
    · exact ⟨_, rfl⟩
    · obtain ⟨bar, hbar, htime⟩ := hfilled
      have hfound : (candles.findIdx? fun c => decide (c.openTimeMs = position.lastFill.timeMs)).isSome := by
        rw [List.findIdx?_isSome, List.any_eq_true]
        exact ⟨bar, hbar, decide_eq_true htime⟩
      obtain ⟨filled, hfilled⟩ := Option.isSome_iff_exists.mp hfound
      rw [fillIndex, hfilled]
      exact ⟨_, rfl⟩
  unfold tightenStop
  rw [hmatch, require_true, ok_bind]
  rcases hsupported.rules with hmode | hmode | hmode | ⟨hmode, hcurves⟩
  · rw [hmode]
    exact ⟨_, rfl⟩
  · rw [hmode]
    exact ⟨_, rfl⟩
  · rw [hmode]
    exact ⟨_, rfl⟩
  · obtain ⟨p, hp⟩ := hprogress
    have hcurve : ∃ q, applyStopTransitionCurve p config.stopTransitionCurve = .ok q := by
      cases hc : config.stopTransitionCurve with
      | unsupported value => exact absurd hc (hcurves value)
      | linear | slowStart | fastStart | smooth => exact ⟨_, rfl⟩
    obtain ⟨q, hq⟩ := hcurve
    rw [hmode]
    simp only [tightenStopDelayedBaseline, hp, ok_bind, hq, pure_bind]
    exact ⟨_, rfl⟩

end supported

/-! ## Whole lives -/

section lives

variable [Eastern] {candles : List (Candle F)} {context : ℤ → Option String} {config : StrategyConfig F}
  {startingEquity : F} {s t : BacktestState F} {candle : Candle F} {position later : OpenPosition F} {index first : ℕ}

/-- The last fill of a reached position is on a bar. -/
lemma filled_of_reaches (h : Reaches candles context config startingEquity index s) :
    ∀ position, s.position = some position → ∃ bar ∈ candles, bar.openTimeMs = position.lastFill.timeMs := by
  let Filled (_ : ℕ) (s : BacktestState F) : Prop :=
    ∀ position, s.position = some position → ∃ bar ∈ candles, bar.openTimeMs = position.lastFill.timeMs
  refine h.induct (I := Filled) (fun first position hnone => by cases hnone)
    fun index candle s t hcandle hs hstep position hposition => ?_
  have hcarries := barStep_carries hstep
  rw [hposition] at hcarries
  cases hcarries with
  | entered hflat hbar htime =>
      rcases hbar with rfl | hnext
      · exact ⟨_, List.mem_of_getElem? hcandle, htime.symm⟩
      · exact ⟨_, List.mem_of_getElem? hnext, htime.symm⟩
  | managed hopen hadded htightened hplanned =>
      obtain ⟨outcome, -, rfl⟩ := tightenPositionStop_eq htightened
      obtain ⟨plan, rfl⟩ := planPyramidAdd_eq hplanned
      rcases executePyramidAdd_eq hadded with rfl | ⟨fill, stage, hne, htime, rfl⟩
      · have hbefore := hs _ hopen
        exact hbefore
      · refine ⟨candle, List.mem_of_getElem? hcandle, ?_⟩
        rw [OpenPosition.lastFill, List.getLast_append_singleton]
        exact htime.symm

/-- The snapshot that the outputs of an observation are fed into. -/
def feedBack (position : PositionStateSnapshot F) (observation : ExitObservation F) : PositionStateSnapshot F :=
  { position with
    stopPrice := observation.stopAfterCandleIfOpen
    stopTransitionFillCount := observation.transitionFillCount
    stopTransitionStart := observation.transitionStart }

/-- The first bar on which an exit is triggered, and its reason: every observation is fed into the next. -/
def watchExit (candles : List (Candle F)) (regimeAt : Candle F → String) (config : StrategyConfig F)
    (position : PositionStateSnapshot F) : List (Candle F × ℕ) → Except StrategyError (Option (ℕ × ExitReason))
  | [] => pure none
  | (candle, index) :: bars => do
      let observation ← evaluateExit position candle index candles (regimeAt candle) config
      match observation.exitReason with
      | some reason => pure (some (index, reason))
      | none => watchExit candles regimeAt config (feedBack position observation) bars

/-- What the backtest makes of the position that is carried into a bar: it closes it on a bar by its risk check, or
holds it to the end of the data. -/
inductive FirstExit (candles : List (Candle F)) (context : ℤ → Option String) (config : StrategyConfig F)
    (startingEquity : F) (first : ℕ) : Option (ℕ × ExitReason) → Prop
  | closed {index : ℕ} {candle : Candle F} {s t : BacktestState F} {position : OpenPosition F} {reason : ExitReason} :
      first ≤ index → HeldThroughout candles context config startingEquity first index → candles[index]? = some candle →
      Reaches candles context config startingEquity index s →
      Reaches candles context config startingEquity (index + 1) t → s.position = some position →
      ClosedByRisk s t candle position reason →
      FirstExit candles context config startingEquity first (some (index, reason))
  | held : HeldThroughout candles context config startingEquity first candles.length →
      FirstExit candles context config startingEquity first none

/-- From a bar on, a position is after its entry and gets no add. -/
structure Undisturbed (candles : List (Candle F)) (context : ℤ → Option String) (config : StrategyConfig F)
    (startingEquity : F) (first : ℕ) (position : OpenPosition F) : Prop where
  entered : ∀ j c, first ≤ j → candles[j]? = some c → c.openTimeMs ≠ position.firstFill.timeMs
  same : ∀ j t later, first ≤ j → HeldThroughout candles context config startingEquity first j →
    Reaches candles context config startingEquity j t → t.position = some later → later.fills = position.fills

/-- The evaluator agrees with the backtest on the bars after an entry on which no add fills, and over the lives without
an add, where the regimes of the bars that close positions are of a kind. -/
structure ExitsSimulated (candles : List (Candle F)) (context : ℤ → Option String) (config : StrategyConfig F)
    (startingEquity : F) (kind : String → Prop) : Prop where
  decides : ∀ index candle s t position, candles[index]? = some candle →
    Reaches candles context config startingEquity index s →
    Reaches candles context config startingEquity (index + 1) t → s.position = some position →
    candle.openTimeMs ≠ position.firstFill.timeMs →
    (∀ later, t.position = some later → later.fills = position.fills) →
    kind ((inputsOf candles context config).regimeAt candle) ∨ t.position ≠ none →
    ∃ observation, evaluateExit (positionSnapshot position) candle index candles
        ((inputsOf candles context config).regimeAt candle) config = .ok observation ∧
      (∀ reason, observation.exitTriggered = some true ∧ observation.exitReason = some reason ↔
        ClosedByRisk s t candle position reason) ∧
      (∀ later, t.position = some later →
        observation.exitTriggered = some false ∧ observation.exitReason = none ∧
        observation.stopAfterCandleIfOpen = later.stopPrice ∧
        observation.transitionFillCount = later.stopTransitionFillCount ∧
        observation.transitionStart = later.stopTransitionStart)
  watches : ∀ result, runBacktest candles context config startingEquity = .ok result →
    ∀ first s position, Reaches candles context config startingEquity first s → s.position = some position →
    Undisturbed candles context config startingEquity first position →
    (∀ j c, first ≤ j → candles[j]? = some c → kind ((inputsOf candles context config).regimeAt c)) →
    ∀ exit, watchExit candles (inputsOf candles context config).regimeAt config (positionSnapshot position)
        (candles.zipIdx.drop first) = .ok exit ↔
      FirstExit candles context config startingEquity first exit

/-- **On a bar after its entry, without an add, the evaluator decides as the backtest does.** -/
lemma evaluateExit_decides (hcandle : candles[index]? = some candle)
    (hs : Reaches candles context config startingEquity index s)
    (hstep : barStep (inputsOf candles context config) s (candle, index) = .ok t) (hopen : s.position = some position)
    (hentry : candle.openTimeMs ≠ position.firstFill.timeMs)
    (hsame : ∀ later, t.position = some later → later.fills = position.fills)
    (hkind : SupportedStop config ((inputsOf candles context config).regimeAt candle) ∨ t.position ≠ none) :
    (∃ outcome reason, ClosedByRisk s t candle position reason ∧
      evaluateExit (positionSnapshot position) candle index candles
        ((inputsOf candles context config).regimeAt candle) config =
          .ok (observed (positionSnapshot position) candle (some reason) outcome)) ∨
    ∃ outcome later, t.position = some later ∧
      evaluateExit (positionSnapshot position) candle index candles
        ((inputsOf candles context config).regimeAt candle) config =
          .ok (observed (positionSnapshot position) candle none outcome) ∧
      positionSnapshot later =
        feedBack (positionSnapshot position) (observed (positionSnapshot position) candle none outcome) := by
  simp only [barStep, hopen] at hstep
  obtain ⟨decision, hdecision, hcases⟩ := heldStep_decision hentry hstep
  have hevaluated := @evaluateExit_eq F _ _ _ _ _ index _ hdecision
  rcases hcases with ⟨price, reason, rfl, hclosed⟩ | ⟨rfl, hmanaged⟩
  · have hsupported := hkind.resolve_right fun hsome => hsome hclosed.1
    have hfilled : ∃ bar ∈ candles, bar.openTimeMs = (positionSnapshot position).lastFill.timeMs := by
      obtain ⟨bar, hbar, htime⟩ := filled_of_reaches hs position hopen
      refine ⟨bar, hbar, htime.trans ?_⟩
      simp only [PositionStateSnapshot.lastFill, positionSnapshot, List.getLast_map]
      rfl
    obtain ⟨outcome, houtcome⟩ := tightenStop_returns hsupported hcandle hfilled
    refine Or.inl ⟨outcome, reason, hclosed, hevaluated.trans ?_⟩
    have houtcome : tightenStop (positionSnapshot position) index (inputsOf candles context config).candles
      (inputsOf candles context config).config candle _ = .ok outcome := houtcome
    rw [houtcome]
    rfl
  · obtain ⟨later, hlater⟩ : ∃ later, t.position = some later := by
      obtain ⟨added, -, h⟩ := bind_eq_ok.mp hmanaged
      obtain ⟨tightened, -, h⟩ := bind_eq_ok.mp h
      obtain ⟨planned, -, h⟩ := bind_eq_ok.mp h
      cases h
      exact ⟨planned, rfl⟩
    obtain ⟨outcome, houtcome, hsnapshot⟩ := manageStep_snapshot hmanaged hlater (hsame later hlater)
    refine Or.inr ⟨outcome, later, hlater, hevaluated.trans ?_, hsnapshot⟩
    rw [houtcome]
    rfl

omit [Number F] [Eastern] in
/-- The bars from `first` on. -/
lemma bars_from (hcandle : candles[first]? = some candle) :
    candles.zipIdx.drop first = (candle, first) :: candles.zipIdx.drop (first + 1) := by
  obtain ⟨hlt, hget⟩ := List.getElem?_eq_some_iff.mp hcandle
  rw [List.drop_eq_getElem_cons (by simpa using hlt), List.getElem_zipIdx, hget, Nat.zero_add]

/-- A run that returns reaches a state before every bar. -/
lemma reaches_of_run {result : BacktestResult F} (hrun : runBacktest candles context config startingEquity = .ok result)
    (hlong : 4 ≤ candles.length) (hpos : 1 ≤ index) (hindex : index ≤ candles.length) :
    ∃ s, Reaches candles context config startingEquity index s := by
  obtain ⟨start, u, hstart, hwalk, -⟩ := runBacktest_eq_ok hlong hrun
  rw [walk_eq_reached] at hwalk
  obtain ⟨s, hs, -⟩ := reached_of_le hpos hindex (le_refl _) hwalk
  exact ⟨s, hlong, hpos, hindex, start, hstart, hs⟩

lemma held_before (hs : Reaches candles context config startingEquity first s) (hopen : s.position = some position) {j : ℕ}
    (h : HeldThroughout candles context config startingEquity (first + 1) j) :
    HeldThroughout candles context config startingEquity first j := by
  intro k u hfirst hk hu
  rcases Nat.lt_or_eq_of_le hfirst with hlt | rfl
  · exact h k u hlt hk hu
  · rw [← hs.unique hu, hopen]
    exact Option.some_ne_none _

lemma held_after {j : ℕ} (h : HeldThroughout candles context config startingEquity first j) :
    HeldThroughout candles context config startingEquity (first + 1) j :=
  fun k u hfirst hk hu => h k u (by omega) hk hu

/-- A position is held at the bar it is carried into. -/
lemma held_self (hs : Reaches candles context config startingEquity first s) (hopen : s.position = some position) :
    HeldThroughout candles context config startingEquity first first := by
  intro k u hfirst hk hu
  obtain rfl : k = first := by omega
  rw [← hs.unique hu, hopen]
  exact Option.some_ne_none _

/-- A position that stays the same is undisturbed from the next bar on. -/
lemma Undisturbed.next (h : Undisturbed candles context config startingEquity first position)
    (hs : Reaches candles context config startingEquity first s) (hopen : s.position = some position)
    (hsame : later.fills = position.fills) : Undisturbed candles context config startingEquity (first + 1) later := by
  have hentry : later.firstFill = position.firstFill := by
    simp only [OpenPosition.firstFill, hsame]
  refine ⟨fun j c hfirst hc => ?_, fun j t q hfirst hheld ht hq => ?_⟩
  · rw [hentry]
    exact h.entered j c (by omega) hc
  · rw [hsame]
    exact h.same j t q (by omega) (held_before hs hopen hheld) ht hq

/-- A position that its first bar closes has its exit there. -/
lemma firstExit_now {reason : ExitReason} {exit : Option (ℕ × ExitReason)} (hcandle : candles[first]? = some candle)
    (hs : Reaches candles context config startingEquity first s)
    (ht : Reaches candles context config startingEquity (first + 1) t) (hopen : s.position = some position)
    (hclosed : ClosedByRisk s t candle position reason) :
    FirstExit candles context config startingEquity first exit ↔ exit = some (first, reason) := by
  constructor
  · intro h
    cases h with
    | @closed j candle' s' t' position' reason' hfirst hheld hcandle' hs' ht' hopen' hclosed' =>
        rcases Nat.lt_or_eq_of_le hfirst with hlt | rfl
        · exact absurd hclosed.1 (hheld (first + 1) t (by omega) hlt ht)
        · obtain rfl := hs.unique hs'
          obtain rfl := ht.unique ht'
          rw [hcandle] at hcandle'
          cases hcandle'
          rw [hopen] at hopen'
          cases hopen'
          rw [hclosed.reason_unique hclosed']
    | held hheld => exact absurd hclosed.1 (hheld (first + 1) t (by omega) ht.within ht)
  · rintro rfl
    exact .closed (le_refl _) (held_self hs hopen) hcandle hs ht hopen hclosed

/-- A position that its first bar keeps has the exit it has from the next bar on. -/
lemma firstExit_next {exit : Option (ℕ × ExitReason)} (hs : Reaches candles context config startingEquity first s)
    (ht : Reaches candles context config startingEquity (first + 1) t) (hopen : s.position = some position)
    (hlater : t.position = some later) :
    FirstExit candles context config startingEquity first exit ↔
      FirstExit candles context config startingEquity (first + 1) exit := by
  constructor
  · intro h
    cases h with
    | @closed j candle' s' t' position' reason' hfirst hheld hcandle' hs' ht' hopen' hclosed' =>
        rcases Nat.lt_or_eq_of_le hfirst with hlt | rfl
        · exact .closed hlt (held_after hheld) hcandle' hs' ht' hopen' hclosed'
        · obtain rfl := ht.unique ht'
          rw [hclosed'.1] at hlater
          cases hlater
    | held hheld => exact .held (held_after hheld)
  · intro h
    cases h with
    | closed hfirst hheld hcandle' hs' ht' hopen' hclosed' =>
        exact .closed (by omega) (held_before hs hopen hheld) hcandle' hs' ht' hopen' hclosed'
    | held hheld => exact .held (held_before hs hopen hheld)

/-- **The evaluator, fed with its outputs, finds the one exit of the backtest.** -/
theorem watchExit_eq {result : BacktestResult F}
    (hrun : runBacktest candles context config startingEquity = .ok result)
    (hs : Reaches candles context config startingEquity first s) (hopen : s.position = some position)
    (hquiet : Undisturbed candles context config startingEquity first position)
    (hkind : ∀ j c, first ≤ j → candles[j]? = some c → SupportedStop config ((inputsOf candles context config).regimeAt c)) :
    ∃ exit, (∀ other, FirstExit candles context config startingEquity first other ↔ other = exit) ∧
      watchExit candles (inputsOf candles context config).regimeAt config (positionSnapshot position)
        (candles.zipIdx.drop first) = .ok exit := by
  -- by the number of bars that are left
  obtain ⟨n, hn⟩ : ∃ n, candles.length = first + n := ⟨candles.length - first, by have := hs.within; omega⟩
  induction n generalizing first s position with
  | zero =>
      refine ⟨none, fun other => ⟨fun h => ?_, ?_⟩, ?_⟩
      · cases h with
        | closed hfirst _ hcandle =>
            obtain ⟨hlt, -⟩ := List.getElem?_eq_some_iff.mp hcandle
            omega
        | held => rfl
      · rintro rfl
        have hlast : candles.length = first := hn
        refine .held ?_
        rw [hlast]
        exact held_self hs hopen
      · rw [List.drop_eq_nil_of_le (by rw [List.length_zipIdx]; omega)]
        rfl
  | succ n ih =>
      obtain ⟨candle, hcandle⟩ : ∃ c, candles[first]? = some c := ⟨_, List.getElem?_eq_getElem (by omega)⟩
      obtain ⟨t, ht⟩ := reaches_of_run hrun hs.long (Nat.le_add_left 1 first) (by omega)
      obtain ⟨_, _, hcandle', hs', hstep⟩ := ht.previous hs.walked
      rw [hcandle] at hcandle'
      cases hcandle'
      obtain rfl := hs.unique hs'
      have hsame : ∀ later, t.position = some later → later.fills = position.fills := by
        intro later hlater
        have hheld := held_before hs hopen (held_self ht hlater)
        exact hquiet.same (first + 1) t later (by omega) hheld ht hlater
      have hsupported := hkind first candle (le_refl _) hcandle
      rw [bars_from hcandle, watchExit]
      rcases evaluateExit_decides hcandle hs hstep hopen (hquiet.entered first candle (le_refl _) hcandle) hsame
          (Or.inl hsupported) with
        ⟨outcome, reason, hclosed, hevaluated⟩ | ⟨outcome, later, hlater, hevaluated, hsnapshot⟩
      · rw [hevaluated, ok_bind]
        exact ⟨some (first, reason), fun other => firstExit_now hcandle hs ht hopen hclosed, rfl⟩
      · rw [hevaluated, ok_bind]
        obtain ⟨exit, hexit, hwatch⟩ := ih ht hlater (hquiet.next hs hopen (hsame later hlater))
          (fun j c hj hc => hkind j c (by omega) hc) (by omega)
        rw [hsnapshot] at hwatch
        exact ⟨exit, fun other => (firstExit_next hs ht hopen hlater).trans (hexit other), hwatch⟩

/-- **Live exits simulate the backtest**, where the stop rules of the bars that close positions are supported. -/
theorem exits_simulated (candles : List (Candle F)) (context : ℤ → Option String) (config : StrategyConfig F)
    (startingEquity : F) :
    ExitsSimulated candles context config startingEquity (SupportedStop config) where
  decides index candle s t position hcandle hs ht hopen hentry hsame hkind := by
    obtain ⟨_, _, hcandle', hs', hstep⟩ := ht.previous hs.walked
    rw [hcandle] at hcandle'
    cases hcandle'
    obtain rfl := hs.unique hs'
    rcases evaluateExit_decides hcandle hs hstep hopen hentry hsame hkind with
      ⟨outcome, reason, hclosed, hevaluated⟩ | ⟨outcome, later, hlater, hevaluated, hsnapshot⟩
    · refine ⟨_, hevaluated, fun reason' => ⟨fun h => ?_, fun h => ?_⟩, fun q hq => ?_⟩
      · obtain rfl := Option.some.inj h.2
        exact hclosed
      · exact ⟨rfl, congrArg some (hclosed.reason_unique h)⟩
      · rw [hclosed.1] at hq
        cases hq
    · refine ⟨_, hevaluated, fun reason => ⟨fun h => ?_, fun h => ?_⟩, fun q hq => ?_⟩
      · cases h.2
      · rw [h.1] at hlater
        cases hlater
      · rw [hlater] at hq
        cases hq
        have hstop := congrArg PositionStateSnapshot.stopPrice hsnapshot
        have hcount := congrArg PositionStateSnapshot.stopTransitionFillCount hsnapshot
        have hstart := congrArg PositionStateSnapshot.stopTransitionStart hsnapshot
        exact ⟨rfl, rfl, hstop.symm, hcount.symm, hstart.symm⟩
  watches result hrun first s position hs hopen hquiet hkind exit := by
    obtain ⟨found, hfound, hwatch⟩ := watchExit_eq hrun hs hopen hquiet hkind
    rw [hwatch, hfound]
    exact ⟨fun h => (Except.ok.inj h).symm, fun h => congrArg Except.ok h.symm⟩

end lives

/-! ## A fall -/

/-- The climb to its entry, and a bar that falls through the initial stop. -/
def fall : List (Candle ℚ) := (climb 107).take 4 ++ [morningBar 4 108 109 100 101]

/-- A regime that is green before the fall. -/
def fallingRegime (timeMs : ℤ) : Option String := if timeMs < monday + 615 * 60000 then some "green" else some "yellow"

/-- A stop rule of the yellow regime that does not exist. -/
def misspelledConfig : StrategyConfig ℚ :=
  { entryExecution := .directNextOpen, yellowStopTightening := some (.unsupported "delayed") }

/-- **The evaluator raises on a bar that closes the position**, if the stop rule of its regime does not exist: the
backtest asks for no stop there. -/
theorem evaluateExit_raises_on_exit :
    let _ := mondayTime
    ¬ExitsSimulated fall fallingRegime misspelledConfig 1000 fun _ => True := by
  intro zone h
  let bar := morningBar 4 108 109 100 101
  let run := inputsOf fall fallingRegime misspelledConfig
  obtain ⟨s, hs, hrun⟩ := exists_of_okWith (by decide +kernel : okWith
    (fun s => s.position.any fun position => okWith (fun t =>
      decide (bar.openTimeMs ≠ position.firstFill.timeMs) && t.position.isNone &&
        !(evaluateExit (positionSnapshot position) bar 4 fall (run.regimeAt bar) misspelledConfig).isOk)
      (barStep run s (bar, 4)))
    (reached run (startState (morningBar 0 101 104 100 103) 1000) 4) = true)
  obtain ⟨position, hopen, hrun⟩ := (Option.any_eq_true _ _).mp hrun
  obtain ⟨t, hstep, hrun⟩ := exists_of_okWith hrun
  simp only [Bool.and_eq_true, Bool.not_eq_true', decide_eq_true_eq, Option.isNone_iff_eq_none] at hrun
  obtain ⟨⟨hentry, hflat⟩, hraises⟩ := hrun
  have hreaches : Reaches fall fallingRegime misspelledConfig 1000 4 s :=
    ⟨by decide, by decide, by decide, _, rfl, hs⟩
  have hnext : Reaches fall fallingRegime misspelledConfig 1000 5 t :=
    ⟨by decide, by decide, by decide, _, rfl, (reached_succ (by decide) rfl).mpr ⟨s, hs, hstep⟩⟩
  obtain ⟨observation, hevaluated, -⟩ := h.decides 4 bar s t position rfl hreaches hnext hopen hentry
    (fun later hlater => by rw [hflat] at hlater; cases hlater) (Or.inl trivial)
  rw [hevaluated] at hraises
  cases hraises

end MuStrategy.LiveExit
