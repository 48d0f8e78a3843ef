import MuStrategy.Experiments.CostOrder
import MuStrategy.Experiments.WalkForward
import MuStrategy.Lib.FixedPoint

/-!
# The stress grid

A candidate is run at nine costs. It survives if it trades, and its return, as it is published, is not negative at any
of them.

* `CandidateEvaluation`, `evaluateDefinition` — the cells of a candidate; `survivesStressGrid`.
* `stress_grid_monotone` — higher costs earn less, and the most expensive cell decides.
-/

namespace MuStrategy.Experiments

open Lib TrustedData Backtest

/-! ## Evaluations -/

section evaluation

variable {F T : Type} [Number F]

/-- Source: `strategy_ladder.py` `CandidateSummary`. -/
structure CandidateSummary (F T : Type) where
  startingEquity : F
  endingEquity : F
  trades : List T
  maxDrawdownPct : F

/-- Source: `strategy_ladder.py` `CandidateSummary.total_return_pct`. -/
def CandidateSummary.totalReturnPct (summary : CandidateSummary F T) : F :=
  if isZero summary.startingEquity then 0 else summary.endingEquity / summary.startingEquity - 1

/-- Source: `strategy_ladder.py` `CandidateSummary.trade_count`. -/
def CandidateSummary.tradeCount {F T : Type} (summary : CandidateSummary F T) : ℕ := summary.trades.length

/-- Source: `strategy_ladder.py` `StressCell`. -/
structure StressCell (F T : Type) where
  feeBpsPerSide : ℤ
  slippageTicks : ℤ
  windows : List (WindowBacktest F T)
  summary : CandidateSummary F T

/-- Source: `strategy_ladder.py` `CandidateEvaluation`. -/
structure CandidateEvaluation (F T : Type) where
  definition : CandidateDefinition
  stressGrid : List (StressCell F T)
  configuredLeverage : F

/-- `FEE_GRID_BPS`. -/
def feeGridBps : List ℤ := [0, 5, 10]

/-- `SLIPPAGE_GRID_TICKS`. -/
def slippageGridTicks : List ℤ := [0, 1, 2]

/-- `DEFAULT_FEE_BPS`. -/
def defaultFeeBps : ℤ := 5

/-- `MOMENTUM_HISTORY_HOURS`. -/
def momentumHistoryHours : ℤ := 169

/-- The costs of the cells, in their order. -/
def stressCosts : List (ℤ × ℤ) := feeGridBps.flatMap fun fee => slippageGridTicks.map fun ticks => (fee, ticks)

/-- Source: `strategy_ladder.py` `summarize_windows`. -/
def summarizeWindows (windows : List (WindowBacktest F T)) : CandidateSummary F T :=
  if windows.isEmpty then ⟨10000, 10000, [], 0⟩
  else
    { startingEquity := Number.sum (windows.map fun window => window.result.startingEquity)
      endingEquity := Number.sum (windows.map fun window => window.result.endingEquity)
      trades := windows.flatMap fun window => window.result.trades
      maxDrawdownPct := (minimum? (windows.map fun window => maxDrawdownPct window.result.equityCurve)).getD 0 }

/-- A cell of a candidate. -/
def evaluateCell (candles15m candles1h : List (Candle F)) (evaluator : ℤ → ℤ → WalkForwardEvaluator F T)
    (windowDays windows : ℤ) (costs : ℤ × ℤ) : Except EvaluationError (StressCell F T) := do
  let results ← runEvaluatorWalkForwardBacktests candles15m candles1h (evaluator costs.1 costs.2) windowDays windows
    momentumHistoryHours
  pure ⟨costs.1, costs.2, results, summarizeWindows results⟩

/-- A candidate of a ladder; the evaluator takes the costs. Source: `strategy_ladder.py` `evaluate_strategy_ladder`. -/
def evaluateDefinition (candles15m candles1h : List (Candle F)) (definition : CandidateDefinition)
    (evaluator : ℤ → ℤ → WalkForwardEvaluator F T) (configuredLeverage : F) (windowDays windows : ℤ) :
    Except EvaluationError (CandidateEvaluation F T) := do
  let cells ← stressCosts.mapM (evaluateCell candles15m candles1h evaluator windowDays windows)
  pure ⟨definition, cells, configuredLeverage⟩

/-- A long-only candidate on a window. -/
def candidateRun (definition : CandidateDefinition) (tickSize : F) (segment15m : List (Candle F)) : CandidateRun F where
  definition := definition
  feeBpsPerSide := 0
  slippageTicks := 0
  tickSize := tickSize
  startingEquity := 10000
  executionStartTimeMs := segment15m.head?.map Candle.openTimeMs
  executionEndTimeMs := segment15m.getLast?.map fun last => last.openTimeMs + inferCandleIntervalMs segment15m

/-- Source: `strategy_ladder.py` `evaluator`, of the local candidates. -/
def candidateEvaluator (definition : CandidateDefinition) (tickSize : F) (feeBps slippageTicks : ℤ) :
    WalkForwardEvaluator F (CandidateTrade F) := fun segment15m segment1h _ => do
  require (!segment15m.isEmpty) (.strategy .index)
  let run := (candidateRun definition tickSize segment15m).withCosts feeBps slippageTicks
  let result ← raiseAs .ladder (runLongOnlyCandidate run segment1h)
  pure ⟨result.startingEquity, result.endingEquity, result.trades, result.equityCurve⟩

/-- A candidate that holds by its signal. -/
def evaluateCandidate (candles15m candles1h : List (Candle F)) (definition : CandidateDefinition) (tickSize : F)
    (windowDays windows : ℤ) : Except EvaluationError (CandidateEvaluation F (CandidateTrade F)) :=
  evaluateDefinition candles15m candles1h definition (candidateEvaluator definition tickSize) localCandidateLeverage
    windowDays windows

/-- Source: `strategy_ladder.py` `CandidateEvaluation.default_cell`: no such cell is a `RuntimeError`. -/
def CandidateEvaluation.defaultCell {F T : Type} (evaluation : CandidateEvaluation F T) : Option (StressCell F T) :=
  evaluation.stressGrid.find? fun cell => cell.feeBpsPerSide = defaultFeeBps && cell.slippageTicks = 0

end evaluation

/-- `Decimal(format_candidate_metric(value))`. -/
def candidateMetric (value : ℚ) : FixedPoint 8 := .ofRat 8 value

/-- Source: `strategy_ladder.py` `CandidateEvaluation.survives_stress_grid`. -/
def CandidateEvaluation.survivesStressGrid {T : Type} (evaluation : CandidateEvaluation ℚ T) : Option Bool := do
  let cell ← evaluation.defaultCell
  pure (0 < cell.summary.tradeCount &&
    evaluation.stressGrid.all fun cell => 0 ≤ (candidateMetric cell.summary.totalReturnPct).toRat)

/-! ## Summaries -/

/-- Two results of a candidate on one window, the second at higher costs. -/
structure WindowLe {T : Type} (result₁ result₂ : EvaluatorResult ℚ T) : Prop where
  starting₁ : result₁.startingEquity = 10000
  starting₂ : result₂.startingEquity = 10000
  trades : result₁.trades.length = result₂.trades.length
  ending : result₂.endingEquity ≤ result₁.endingEquity

/-- Two summaries, the second at higher costs. -/
structure SummaryLe {T : Type} (summary₁ summary₂ : CandidateSummary ℚ T) : Prop where
  positive : 0 < summary₁.startingEquity
  starting : summary₁.startingEquity = summary₂.startingEquity
  trades : summary₁.tradeCount = summary₂.tradeCount
  ending : summary₂.endingEquity ≤ summary₁.endingEquity

section summaries

/-- What pairs have as far as the second has a property, they have if all have it. -/
lemma forall₂_of_forall_right {α β : Type} {R : α → β → Prop} {p : β → Prop} {xs : List α} {ys : List β}
    (h : List.Forall₂ (fun x y => p y → R x y) xs ys) (hp : ∀ y ∈ ys, p y) : List.Forall₂ R xs ys := by
  induction h with
  | nil => exact .nil
  | cons hxy _ ih => exact .cons (hxy (hp _ List.mem_cons_self)) (ih fun y hy => hp y (List.mem_cons_of_mem _ hy))

variable {T : Type} {windows₁ windows₂ : List (WindowBacktest ℚ T)}

/-- Windows add up. -/
lemma sums_le (h : List.Forall₂ (fun window₁ window₂ => WindowLe window₁.result window₂.result) windows₁ windows₂) :
    (windows₁.map fun window => window.result.startingEquity).sum = 10000 * windows₁.length ∧
      (windows₂.map fun window => window.result.startingEquity).sum = 10000 * windows₁.length ∧
      (windows₁.flatMap fun window => window.result.trades).length =
        (windows₂.flatMap fun window => window.result.trades).length ∧
      (windows₂.map fun window => window.result.endingEquity).sum ≤
        (windows₁.map fun window => window.result.endingEquity).sum := by
  induction h with
  | nil => simp
  | @cons window₁ window₂ windows₁ windows₂ hfirst _ ih =>
      obtain ⟨hstarting₁, hstarting₂, htrades, hending⟩ := ih
      simp only [List.map_cons, List.sum_cons, List.flatMap_cons, List.length_append, List.length_cons]
      refine ⟨?_, ?_, ?_, add_le_add hfirst.ending hending⟩
      · rw [hstarting₁, hfirst.starting₁]
        push_cast
        ring
      · rw [hstarting₂, hfirst.starting₂]
        push_cast
        ring
      · rw [htrades, hfirst.trades]

/-- **Summaries keep the order of the windows.** -/
lemma summaryLe_of_windows
    (h : List.Forall₂ (fun window₁ window₂ => WindowLe window₁.result window₂.result) windows₁ windows₂) :
    SummaryLe (summarizeWindows windows₁) (summarizeWindows windows₂) := by
  obtain ⟨hstarting₁, hstarting₂, htrades, hending⟩ := sums_le h
  cases windows₁ with
  | nil =>
      obtain rfl := List.forall₂_nil_left_iff.mp h
      exact ⟨by norm_num [summarizeWindows], rfl, rfl, le_rfl⟩
  | cons first rest =>
      obtain ⟨first', rest', -, -, rfl⟩ := List.forall₂_cons_left_iff.mp h
      refine ⟨?_, hstarting₁.trans hstarting₂.symm, htrades, hending⟩
      change 0 < ((first :: rest).map fun window => window.result.startingEquity).sum
      rw [hstarting₁, List.length_cons]
      positivity

/-- Higher costs do not publish a higher return. -/
lemma SummaryLe.metric_le {summary₁ summary₂ : CandidateSummary ℚ T} (h : SummaryLe summary₁ summary₂) :
    (candidateMetric summary₂.totalReturnPct).toRat ≤ (candidateMetric summary₁.totalReturnPct).toRat := by
  have hpositive₂ : 0 < summary₂.startingEquity := h.starting ▸ h.positive
  have hzero₁ : isZero summary₁.startingEquity ≠ true := fun hzero => h.positive.ne' (isZero_eq_true.mp hzero)
  have hzero₂ : isZero summary₂.startingEquity ≠ true := fun hzero => hpositive₂.ne' (isZero_eq_true.mp hzero)
  refine FixedPoint.toRat_ofRat_mono ?_
  rw [CandidateSummary.totalReturnPct, CandidateSummary.totalReturnPct, if_neg hzero₁, if_neg hzero₂, h.starting]
  exact sub_le_sub_right (div_le_div_of_nonneg_right h.ending hpositive₂.le) 1

end summaries

/-! ## Cells -/

section cells

variable {candles15m candles1h : List (Candle ℚ)} {definition : CandidateDefinition} {tickSize : ℚ}
  {windowDays windows : ℤ} {evaluation : CandidateEvaluation ℚ (CandidateTrade ℚ)}

lemma startingEquity_of_run {run : CandidateRun ℚ} {candles : List (Candle ℚ)} {result : CandidateResult ℚ}
    (h : runLongOnlyCandidate run candles = .ok result) : result.startingEquity = run.startingEquity := by
  obtain ⟨_, _, h⟩ := bind_eq_ok.mp h
  unfold runOrdered at h
  split at h
  · obtain rfl := pure_eq_ok_iff.mp h
    rfl
  · split at h
    · obtain rfl := pure_eq_ok_iff.mp h
      rfl
    · obtain ⟨_, _, h⟩ := bind_eq_ok.mp h
      obtain ⟨_, _, h⟩ := bind_eq_ok.mp h
      obtain rfl := pure_eq_ok_iff.mp h
      rfl

/-- A window at higher costs. -/
lemma windowLe_of_evaluator (htick : 0 < tickSize) {fee₁ fee₂ ticks₁ ticks₂ : ℤ} (hfee : fee₁ ≤ fee₂)
    (hticks : ticks₁ ≤ ticks₂) {segment15m segment1h : List (Candle ℚ)} {context : ℤ → Option String}
    {result₁ result₂ : EvaluatorResult ℚ (CandidateTrade ℚ)}
    (h₁ : candidateEvaluator definition tickSize fee₁ ticks₁ segment15m segment1h context = .ok result₁)
    (h₂ : candidateEvaluator definition tickSize fee₂ ticks₂ segment15m segment1h context = .ok result₂)
    (hpositive : StaysPositive result₂.startingEquity result₂.trades) : WindowLe result₁ result₂ := by
  obtain ⟨_, _, h₁⟩ := bind_eq_ok.mp h₁
  obtain ⟨_, _, h₂⟩ := bind_eq_ok.mp h₂
  obtain ⟨run₁, hrun₁, h₁⟩ := bind_eq_ok.mp h₁
  obtain ⟨run₂, hrun₂, h₂⟩ := bind_eq_ok.mp h₂
  obtain rfl := pure_eq_ok_iff.mp h₁
  obtain rfl := pure_eq_ok_iff.mp h₂
  rw [raiseAs_eq_ok] at hrun₁ hrun₂
  have hstarting₂ := startingEquity_of_run hrun₂
  obtain ⟨hcourses, hending⟩ := @noDearer_of_runs _ (candidateRun definition tickSize segment15m) _ _ _ _ _ _ htick hfee
    hticks hrun₁ hrun₂ (hstarting₂ ▸ hpositive)
  refine ⟨startingEquity_of_run hrun₁, hstarting₂, ?_, hending⟩
  simpa using congrArg List.length hcourses

/-- A cell at higher costs. -/
lemma summaryLe_of_cells (htick : 0 < tickSize) {costs₁ costs₂ : ℤ × ℤ} (hfee : costs₁.1 ≤ costs₂.1)
    (hticks : costs₁.2 ≤ costs₂.2) {cell₁ cell₂ : StressCell ℚ (CandidateTrade ℚ)}
    (h₁ : evaluateCell candles15m candles1h (candidateEvaluator definition tickSize) windowDays windows costs₁ = .ok cell₁)
    (h₂ : evaluateCell candles15m candles1h (candidateEvaluator definition tickSize) windowDays windows costs₂ = .ok cell₂)
    (hpositive : ∀ window ∈ cell₂.windows, StaysPositive window.result.startingEquity window.result.trades) :
    SummaryLe cell₁.summary cell₂.summary := by
  obtain ⟨windows₁, hwindows₁, h₁⟩ := bind_eq_ok.mp h₁
  obtain ⟨windows₂, hwindows₂, h₂⟩ := bind_eq_ok.mp h₂
  obtain rfl := pure_eq_ok_iff.mp h₁
  obtain rfl := pure_eq_ok_iff.mp h₂
  refine summaryLe_of_windows ?_
  have hordered := forall₂_walkForward
    (R := fun result₁ result₂ => StaysPositive result₂.startingEquity result₂.trades → WindowLe result₁ result₂)
    (fun _ => ⟨rfl, rfl, rfl, le_rfl⟩)
    (fun _ _ _ _ _ hresult₁ hresult₂ => windowLe_of_evaluator htick hfee hticks hresult₁ hresult₂) hwindows₁ hwindows₂
  exact forall₂_of_forall_right hordered hpositive

/-- The cells of a candidate are its evaluations at the costs. -/
lemma forall₂_of_evaluateDefinition {T : Type} {evaluator : ℤ → ℤ → WalkForwardEvaluator ℚ T} {leverage : ℚ}
    {evaluation : CandidateEvaluation ℚ T}
    (h : evaluateDefinition candles15m candles1h definition evaluator leverage windowDays windows = .ok evaluation) :
    List.Forall₂ (fun costs cell => evaluateCell candles15m candles1h evaluator windowDays windows costs = .ok cell)
      stressCosts evaluation.stressGrid := by
  obtain ⟨cells, hcells, h⟩ := bind_eq_ok.mp h
  obtain rfl := pure_eq_ok_iff.mp h
  exact forall₂_of_mapM_eq_ok hcells

/-- A cell has the costs it was evaluated at. -/
lemma costs_of_evaluateCell {T : Type} {evaluator : ℤ → ℤ → WalkForwardEvaluator ℚ T} {costs : ℤ × ℤ}
    {cell : StressCell ℚ T} (h : evaluateCell candles15m candles1h evaluator windowDays windows costs = .ok cell) :
    cell.feeBpsPerSide = costs.1 ∧ cell.slippageTicks = costs.2 := by
  obtain ⟨_, _, h⟩ := bind_eq_ok.mp h
  obtain rfl := pure_eq_ok_iff.mp h
  exact ⟨rfl, rfl⟩

/-- The settled equity of a cell stays positive on all windows. -/
def StressCell.StaysPositive (cell : StressCell ℚ (CandidateTrade ℚ)) : Prop :=
  ∀ window ∈ cell.windows, Experiments.StaysPositive window.result.startingEquity window.result.trades

/-- What decides whether a candidate survives: that it trades, and a measure of its return in the most expensive cell. -/
def DecidedBy (measure : ℚ → ℚ) (evaluation : CandidateEvaluation ℚ (CandidateTrade ℚ)) : Prop :=
  ∃ dearest ∈ evaluation.stressGrid, dearest.feeBpsPerSide = 10 ∧ dearest.slippageTicks = 2 ∧
    (dearest.StaysPositive → evaluation.survivesStressGrid =
      some (decide (0 < dearest.summary.tradeCount ∧ 0 ≤ measure dearest.summary.totalReturnPct)))

/-- **The most expensive cell decides.** -/
lemma decidedBy_metric (htick : 0 < tickSize)
    (h : evaluateCandidate candles15m candles1h definition tickSize windowDays windows = .ok evaluation) :
    DecidedBy (fun value => (candidateMetric value).toRat) evaluation := by
  have hcells := forall₂_of_evaluateDefinition h
  obtain ⟨dearest, hdearest, hevaluated⟩ := exists_right_of_mem hcells (show (10, 2) ∈ stressCosts by decide)
  obtain ⟨hfee, hticks⟩ := costs_of_evaluateCell hevaluated
  refine ⟨dearest, hdearest, hfee, hticks, fun hpositive => ?_⟩
  -- no cell has higher costs
  have hle : ∀ cell ∈ evaluation.stressGrid, SummaryLe cell.summary dearest.summary := by
    intro cell hcell
    obtain ⟨costs, hcosts, hcell⟩ := exists_left_of_mem hcells hcell
    have hmost : costs.1 ≤ 10 ∧ costs.2 ≤ 2 := (by decide : ∀ costs ∈ stressCosts, costs.1 ≤ 10 ∧ costs.2 ≤ 2) costs hcosts
    exact summaryLe_of_cells htick hmost.1 hmost.2 hcell hevaluated hpositive
  have hall : (evaluation.stressGrid.all fun cell => 0 ≤ (candidateMetric cell.summary.totalReturnPct).toRat) =
      decide (0 ≤ (candidateMetric dearest.summary.totalReturnPct).toRat) := by
    rw [Bool.eq_iff_iff, List.all_eq_true, decide_eq_true_eq]
    refine ⟨fun hevery => of_decide_eq_true (hevery dearest hdearest), fun hleast cell hcell => ?_⟩
    exact decide_eq_true (hleast.trans (hle cell hcell).metric_le)
  obtain ⟨default, hdefault, hdefaultCell⟩ := exists_right_of_mem hcells (show (5, 0) ∈ stressCosts by decide)
  obtain ⟨hdefaultFee, hdefaultTicks⟩ := costs_of_evaluateCell hdefaultCell
  cases hfound : evaluation.defaultCell with
  | none =>
      have hnone := List.find?_eq_none.mp hfound default hdefault
      simp [hdefaultFee, hdefaultTicks, defaultFeeBps] at hnone
  | some cell =>
      have htrades := (hle cell (List.mem_of_find?_eq_some hfound)).trades
      unfold CandidateEvaluation.survivesStressGrid
      rw [hfound, Option.bind_eq_bind, Option.bind_some, hall, htrades, ← Bool.decide_and]
      rfl

end cells

/-- **Higher costs earn less, and the most expensive cell decides.** -/
theorem stress_grid_monotone {run : CandidateRun ℚ} (htick : 0 < run.tickSize) :
    (∀ candles fee₁ fee₂ ticks₁ ticks₂ result₁ result₂, fee₁ ≤ fee₂ → ticks₁ ≤ ticks₂ →
      runLongOnlyCandidate (run.withCosts fee₁ ticks₁) candles = .ok result₁ →
      runLongOnlyCandidate (run.withCosts fee₂ ticks₂) candles = .ok result₂ →
      StaysPositive run.startingEquity result₂.trades → NoDearer result₁ result₂) ∧
    ∀ candles15m candles1h windowDays windows evaluation,
      evaluateCandidate candles15m candles1h run.definition run.tickSize windowDays windows = .ok evaluation →
      DecidedBy (fun value => (candidateMetric value).toRat) evaluation :=
  ⟨fun _ _ _ _ _ _ _ hfee hticks h₁ h₂ hpositive => noDearer_of_runs htick hfee hticks h₁ h₂ hpositive,
    fun _ _ _ _ _ h => decidedBy_metric htick h⟩

/-! ## An evening -/

instance (startingEquity : ℚ) (trades : List (CandidateTrade ℚ)) : Decidable (StaysPositive startingEquity trades) :=
  decidable_of_iff (∀ closed ∈ trades.inits, 0 < startingEquity + profit closed)
    (forall_congr' fun closed => by rw [List.mem_inits])

/-- The quarters from 22:00 on. -/
def quarters : List (Candle ℚ) :=
  (List.range 8).map fun index => ⟨79200000 + 900000 * (index : ℤ), 100, 100, 100, 100, 1⟩

/-- An evening that pays for the highest costs, but for a trifle. -/
def evening : List (Candle ℚ) := night [100, 100, 100.6006006]

/-- An evening without costs and at the highest ones. -/
theorem stress_grid_monotone_demo : ∃ result₁ result₂ evaluation,
    runLongOnlyCandidate (overnightRun.withCosts 0 0) evening = .ok result₁ ∧
    runLongOnlyCandidate (overnightRun.withCosts 10 2) evening = .ok result₂ ∧
    evaluateCandidate quarters evening overnightRun.definition overnightRun.tickSize 1 1 = .ok evaluation ∧
    NoDearer result₁ result₂ ∧ DecidedBy (fun value => (candidateMetric value).toRat) evaluation := by
  obtain ⟨result₁, h₁⟩ := exists_eq_ok_of_isOk
    (by decide +kernel : (runLongOnlyCandidate (overnightRun.withCosts 0 0) evening).isOk = true)
  obtain ⟨result₂, h₂⟩ := exists_eq_ok_of_isOk
    (by decide +kernel : (runLongOnlyCandidate (overnightRun.withCosts 10 2) evening).isOk = true)
  obtain ⟨evaluation, h⟩ := exists_eq_ok_of_isOk
    (by decide +kernel : (evaluateCandidate quarters evening overnightRun.definition overnightRun.tickSize 1 1).isOk = true)
  have hpositive : StaysPositive overnightRun.startingEquity result₂.trades := by
    have hrun : ((runLongOnlyCandidate (overnightRun.withCosts 10 2) evening).toOption.all fun result =>
        decide (StaysPositive overnightRun.startingEquity result.trades)) = true := by decide +kernel
    rw [h₂] at hrun
    exact of_decide_eq_true hrun
  obtain ⟨horder, hdecided⟩ := stress_grid_monotone (show 0 < overnightRun.tickSize by decide +kernel)
  exact ⟨result₁, result₂, evaluation, h₁, h₂, h,
    horder evening 0 10 0 2 result₁ result₂ (by decide) (by decide) h₁ h₂ hpositive, hdecided _ _ _ _ _ h⟩

/-- **A trifle is no loss**: the candidate survives, although its return at the highest costs is negative. -/
theorem tiny_loss_survives : ∃ evaluation,
    evaluateCandidate quarters evening overnightRun.definition overnightRun.tickSize 1 1 = .ok evaluation ∧
    ¬DecidedBy id evaluation := by
  obtain ⟨evaluation, h⟩ := exists_eq_ok_of_isOk
    (by decide +kernel : (evaluateCandidate quarters evening overnightRun.definition overnightRun.tickSize 1 1).isOk = true)
  refine ⟨evaluation, h, ?_⟩
  rintro ⟨dearest, hmem, hfee, hticks, hdecided⟩
  have hgrid : ((evaluateCandidate quarters evening overnightRun.definition overnightRun.tickSize 1 1).toOption.all
      fun evaluation : CandidateEvaluation ℚ (CandidateTrade ℚ) =>
        evaluation.survivesStressGrid = some true && evaluation.stressGrid.all fun cell =>
          cell.feeBpsPerSide ≠ 10 || cell.slippageTicks ≠ 2 || (cell.summary.totalReturnPct < 0 &&
            cell.windows.all fun window =>
              decide (StaysPositive window.result.startingEquity window.result.trades))) = true := by
    decide +kernel
  rw [h] at hgrid
  change (_ && _) = true at hgrid
  obtain ⟨hsurvives, hcells⟩ := (Bool.and_eq_true _ _).mp hgrid
  have hcell := List.all_eq_true.mp hcells dearest hmem
  simp only [hfee, hticks, ne_eq, not_true_eq_false, decide_false, Bool.false_or, Bool.and_eq_true, decide_eq_true_eq,
    List.all_eq_true] at hcell
  rw [hdecided hcell.2, decide_eq_true_eq, Option.some.injEq, decide_eq_true_eq] at hsurvives
  exact absurd hsurvives.2 (not_le.mpr hcell.1)

end MuStrategy.Experiments
