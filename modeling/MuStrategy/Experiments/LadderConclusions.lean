import MuStrategy.Execution.Instruments
import MuStrategy.Experiments.PublishedMetrics
import MuStrategy.Experiments.SlippageOverlay
import MuStrategy.Research.ConclusionText

/-!
# Conclusions of the ladder

The ladder is run, and its conclusions are published: the families of its candidates with their metrics, in an index.

* `evaluateStrategyLadder` — the candidates, at all costs; `buildConclusionIndex` — the index.
* `evaluation_grid`, `summaryKeeps_of_cell` — the cells of a candidate, and the summary of the default one.
* `familyConclusion_eq_ok`, `checkEntries_of_forall₂` — the families pass.
* `ladder_conclusions_valid` — no conclusion of the ladder is refused, and the index is read back.
-/

namespace MuStrategy.Experiments

open Lib TrustedData Strategy Backtest Research

/-! ## The ladder -/

section ladder

variable {F : Type}

/-- A trade of the ladder. Source: `models.py` `Trade`. -/
inductive LadderTrade (F : Type) where
  | candidate (trade : CandidateTrade F)
  | baseline (trade : Trade F)

/-- `trade.pnl`. -/
def LadderTrade.pnl : LadderTrade F → F
  | .candidate trade => trade.pnl
  | .baseline trade => trade.pnl

/-- A result, with its trades as those of another kind. -/
def EvaluatorResult.mapTrades {T T' : Type} (f : T → T') (result : EvaluatorResult F T) : EvaluatorResult F T' :=
  ⟨result.startingEquity, result.endingEquity, result.trades.map f, result.equityCurve⟩

/-- `MOMENTUM_LOOKBACK_HOURS`. -/
def momentumLookbackHours : List ℤ := [24, 96, 168]

/-- Source: `strategy_ladder.py` `candidate_definitions`. -/
def candidateDefinitions : List CandidateDefinition :=
  { candidateId := "overnight_seasonality"
    family := "overnight_seasonality"
    label := "Overnight seasonality (22:00–00:00 UTC)"
    source := "issue-93 overnight seasonality hypothesis" } ::
  (momentumLookbackHours.map fun lookback =>
    { candidateId := "time_series_momentum_" ++ toString lookback ++ "h"
      family := "time_series_momentum"
      label := "Time-series momentum (" ++ toString lookback ++ "h)"
      source := "issue-93 trailing-return-sign hypothesis"
      lookbackHours := some lookback }) ++
  [{ candidateId := "baseline"
     family := "baseline"
     label := "Registry baseline anchor"
     source := "mu_strategy.strategies.registry:baseline" }]

variable [Number F] [Eastern]

/-- Source: `strategy_ladder.py` `evaluator`, of the baseline. -/
def baselineEvaluator (config : StrategyConfig F) (tickSize : F) (feeBps slippageTicks : ℤ) :
    WalkForwardEvaluator F (Trade F) := fun segment15m _ context => do
  let config := { config with feeRate := (feeBps.toNat : F) / 10000 }
  let result ← raiseAs .strategy (runBacktest segment15m context config 10000)
  let slipped ← raiseAs .ladder (applyAdverseTickSlippage result tickSize slippageTicks config.leverage)
  pure ⟨slipped.startingEquity, slipped.endingEquity, slipped.trades, slipped.equityCurve⟩

/-- Source: `strategy_ladder.py` `evaluator`, of any candidate. -/
def ladderEvaluator (config : StrategyConfig F) (tickSize : F) (definition : CandidateDefinition)
    (feeBps slippageTicks : ℤ) : WalkForwardEvaluator F (LadderTrade F) := fun segment15m segment1h context =>
  if definition.family = "baseline" then do
    let result ← baselineEvaluator config tickSize feeBps slippageTicks segment15m segment1h context
    pure (result.mapTrades .baseline)
  else do
    let result ← candidateEvaluator definition tickSize feeBps slippageTicks segment15m segment1h context
    pure (result.mapTrades .candidate)

/-- Source: `strategy_ladder.py` `evaluate_strategy_ladder`. -/
def evaluateStrategyLadder (candles15m candles1h : List (Candle F)) (tickSize : F) (baselineConfig : StrategyConfig F)
    (windowDays windows : ℤ) : Except EvaluationError (List (CandidateEvaluation F (LadderTrade F))) :=
  candidateDefinitions.mapM fun definition =>
    evaluateDefinition candles15m candles1h definition (ladderEvaluator baselineConfig tickSize definition)
      (if definition.family = "baseline" then baselineConfig.leverage else localCandidateLeverage) windowDays windows

end ladder

/-! ## The conclusions -/

section conclusions

variable {T : Type}

/-- The conclusion of a family. -/
def familyConclusion (pnl : T → ℚ) (evaluations : List (CandidateEvaluation ℚ T)) (feeAssumption : FeeAssumption)
    (family : String) : Except ConclusionError CandidateConclusion := do
  let familyEvaluations := evaluations.filter fun item => item.definition.family = family
  let robustnessMetrics ← familyEvaluations.mapM (candidateRobustness pnl)
  let first ← orThrow familyEvaluations.head? .internal
  let survivals ← familyEvaluations.mapM fun item => orThrow item.survivesStressGrid .internal
  construct ConclusionFields.postInit CandidateConclusion.mk
    { family := family
      source := first.definition.source
      protocolVersion := strategyLadderProtocolVersion
      feeAssumption := feeAssumption
      robustnessMetrics := robustnessMetrics
      status := if survivals.any id then .candidate else .stressFailed }

/-- Source: `strategy_ladder.py` `build_conclusion_index`. -/
def buildConclusionIndex (pnl : T → ℚ) (evaluations : List (CandidateEvaluation ℚ T))
    (instrument : Execution.OKXInstrumentSpec) (trustedGeneration : String) (windowDays windows : ℤ) :
    Except ConclusionError CandidateConclusionIndex := do
  let feeAssumption ← construct FeeAssumptionFields.postInit FeeAssumption.mk
    { defaultFeeBpsPerSide := defaultFeeBps
      feeGridBpsPerSide := feeGridBps
      slippageGridTicks := slippageGridTicks
      tickSize := String.ofList instrument.tickSize.format }
  let entries ← ["overnight_seasonality", "time_series_momentum", "baseline"].mapM
    (familyConclusion pnl evaluations feeAssumption)
  construct ConclusionIndexFields.postInit CandidateConclusionIndex.mk
    { entries := entries
      instrumentId := instrument.instId
      trustedGeneration := trustedGeneration
      windowDays := windowDays
      windows := windows }

end conclusions

/-! ## The candidates of the ladder -/

section candidates

variable {definition : CandidateDefinition} {candles15m candles1h : List (Candle ℚ)} {windowDays windows : ℤ}

lemma WindowKeeps.mapTrades {T T' : Type} {g : T → T'} {pnl : T' → ℚ} {result : EvaluatorResult ℚ T}
    (h : WindowKeeps (fun trade => pnl (g trade)) result) : WindowKeeps pnl (result.mapTrades g) where
  starting := h.starting
  ending := by
    rw [EvaluatorResult.mapTrades, List.map_map]
    exact h.ending
  flat hnone := h.flat (List.map_eq_nil_iff.mp hnone)
  ends := h.ends

lemma applyAdverseTickSlippage_zero {result slipped : BacktestResult ℚ} {tickSize leverage : ℚ}
    (h : applyAdverseTickSlippage result tickSize 0 leverage = .ok slipped) : slipped = result := by
  obtain ⟨_, _, h⟩ := bind_eq_ok.mp h
  rw [if_pos rfl] at h
  exact (pure_eq_ok_iff.mp h).symm

/-- A window of the ladder without ticks. -/
lemma windowKeeps_of_ladder [Eastern] {config : StrategyConfig ℚ} {tickSize : ℚ} {feeBps : ℤ}
    {segment15m segment1h : List (Candle ℚ)} {context : ℤ → Option String} {result : EvaluatorResult ℚ (LadderTrade ℚ)}
    (h : ladderEvaluator config tickSize definition feeBps 0 segment15m segment1h context = .ok result) :
    WindowKeeps LadderTrade.pnl result := by
  unfold ladderEvaluator at h
  split at h
  · obtain ⟨baseline, hbaseline, h⟩ := bind_eq_ok.mp h
    obtain rfl := pure_eq_ok_iff.mp h
    obtain ⟨run, hrun, hbaseline⟩ := bind_eq_ok.mp hbaseline
    obtain ⟨slipped, hslipped, hbaseline⟩ := bind_eq_ok.mp hbaseline
    obtain rfl := pure_eq_ok_iff.mp hbaseline
    obtain rfl := applyAdverseTickSlippage_zero (raiseAs_eq_ok.mp hslipped)
    exact @WindowKeeps.mapTrades _ _ LadderTrade.baseline LadderTrade.pnl _
      (windowKeeps_of_baseline (raiseAs_eq_ok.mp hrun))
  · obtain ⟨candidate, hcandidate, h⟩ := bind_eq_ok.mp h
    obtain rfl := pure_eq_ok_iff.mp h
    exact @WindowKeeps.mapTrades _ _ LadderTrade.candidate LadderTrade.pnl _ (windowKeeps_of_candidate hcandidate)

variable {T : Type} {evaluator : ℤ → ℤ → WalkForwardEvaluator ℚ T} {leverage : ℚ} {evaluation : CandidateEvaluation ℚ T}

/-- What an evaluation is: the cells of all costs, and the default one among them. -/
lemma evaluation_grid
    (h : evaluateDefinition candles15m candles1h definition evaluator leverage windowDays windows = .ok evaluation) :
    evaluation.definition = definition ∧ evaluation.stressGrid.map StressCell.costs = stressCosts ∧
      ∃ cell, evaluation.defaultCell = some cell ∧
        evaluateCell candles15m candles1h evaluator windowDays windows (5, 0) = .ok cell := by
  have hcells := forall₂_of_evaluateDefinition h
  obtain ⟨cells, hmap, h⟩ := bind_eq_ok.mp h
  obtain rfl := pure_eq_ok_iff.mp h
  have hgrid : cells.map StressCell.costs = stressCosts.map id := by
    refine map_eq_of_mapM hmap fun costs _ cell hcell => ?_
    obtain ⟨hfee, hticks⟩ := costs_of_evaluateCell hcell
    exact Prod.ext hfee hticks
  rw [List.map_id] at hgrid
  refine ⟨rfl, hgrid, ?_⟩
  obtain ⟨cell, hcell, hdefault⟩ := exists_right_of_mem hcells (show (5, 0) ∈ stressCosts by decide)
  obtain ⟨hfee, hticks⟩ := costs_of_evaluateCell hdefault
  have hsome : (cells.find? fun cell => cell.feeBpsPerSide = defaultFeeBps && cell.slippageTicks = 0).isSome = true :=
    List.find?_isSome.mpr ⟨cell, hcell, by simp [hfee, hticks, defaultFeeBps]⟩
  obtain ⟨found, hfound⟩ := Option.isSome_iff_exists.mp hsome
  -- the cell that is found is the evaluation at its costs
  obtain ⟨costs, -, hevaluated⟩ := exists_left_of_mem hcells (List.mem_of_find?_eq_some hfound)
  obtain ⟨hfee', hticks'⟩ := costs_of_evaluateCell hevaluated
  have hcosts := List.find?_some hfound
  rw [Bool.and_eq_true, decide_eq_true_eq, decide_eq_true_eq, hfee', hticks'] at hcosts
  exact ⟨found, hfound, by rwa [show costs = (5, 0) from Prod.ext hcosts.1 hcosts.2] at hevaluated⟩

/-- Windows have days, and there are some. -/
lemma windows_pos {costs : ℤ × ℤ} {cell : StressCell ℚ T}
    (h : evaluateCell candles15m candles1h evaluator windowDays windows costs = .ok cell) :
    0 < windowDays ∧ 0 < windows := by
  obtain ⟨_, hresults, _⟩ := bind_eq_ok.mp h
  obtain ⟨_, _, hresults⟩ := bind_eq_ok.mp hresults
  obtain ⟨_, hsegments, _⟩ := bind_eq_ok.mp hresults
  obtain ⟨_, hdays, hsegments⟩ := bind_eq_ok.mp (raiseAs_eq_ok.mp hsegments)
  obtain ⟨_, hcount, _⟩ := bind_eq_ok.mp hsegments
  exact ⟨of_decide_eq_true (require_eq_ok.mp hdays), of_decide_eq_true (require_eq_ok.mp hcount)⟩

/-- The summary of a cell without ticks. -/
lemma summaryKeeps_of_cell [Eastern] {config : StrategyConfig ℚ} {tickSize : ℚ} {feeBps : ℤ}
    {cell : StressCell ℚ (LadderTrade ℚ)}
    (h : evaluateCell candles15m candles1h (ladderEvaluator config tickSize definition) windowDays windows (feeBps, 0) =
      .ok cell)
    (hsamples : ∀ window ∈ cell.windows, ∀ sample ∈ window.result.equityCurve, 0 ≤ sample.2) :
    SummaryKeeps LadderTrade.pnl cell.summary := by
  obtain ⟨results, hresults, h⟩ := bind_eq_ok.mp h
  obtain rfl := pure_eq_ok_iff.mp h
  refine summaryKeeps_of_windows (forall_walkForward (windowKeeps_empty _) ?_ hresults) hsamples
  exact fun _ _ _ _ hresult => windowKeeps_of_ladder hresult

end candidates

/-! ## The index -/

section index

variable {T : Type} {pnl : T → ℚ} {evaluations items : List (CandidateEvaluation ℚ T)} {fees : FeeAssumption}

/-- A candidate whose metrics pass. -/
def Publishes (pnl : T → ℚ) (item : CandidateEvaluation ℚ T) : Prop :=
  ∃ metric, candidateRobustness pnl item = .ok metric ∧ metric.candidateId = item.definition.candidateId ∧
    metric.topN = 5 ∧ item.survivesStressGrid = some metric.survivesStressGrid

/-- **The conclusion of a family passes.** -/
lemma familyConclusion_eq_ok {schema : FamilySchema}
    (hitems : (evaluations.filter fun item => item.definition.family = schema.family) = items)
    (hpublish : ∀ item ∈ items, Publishes pnl item) (hsource : ∀ item ∈ items, item.definition.source = schema.source)
    (hids : items.map (fun item => item.definition.candidateId) = schema.candidateIds)
    (hschema : schema.family ≠ "" ∧ schema.source ≠ "" ∧ schema.candidateIds ≠ [] ∧ schema.candidateIds.Nodup) :
    ∃ conclusion, familyConclusion pnl evaluations fees schema.family = .ok conclusion ∧
      conclusion.family = schema.family ∧ checkEntry fees (conclusion, schema) = .ok () ∧
      conclusion.feeAssumption = fees := by
  obtain ⟨hfamily, hsourceNe, hidsNe, hnodup⟩ := hschema
  obtain ⟨metrics, hmetrics⟩ := exists_mapM_eq_ok fun item hitem => (hpublish item hitem).imp fun _ h => h.1
  have hmapped : ∀ {γ : Type} {k : CandidateRobustness → γ} {k' : CandidateEvaluation ℚ T → γ},
      (∀ item metric, candidateRobustness pnl item = .ok metric → Publishes pnl item → k metric = k' item) →
      metrics.map k = items.map k' := fun hk =>
    map_eq_of_mapM hmetrics fun item hitem metric hmetric => hk item metric hmetric (hpublish item hitem)
  have hmetricIds : metrics.map (fun metric => metric.candidateId) = schema.candidateIds := by
    rw [← hids]
    refine hmapped fun item metric hmetric hpublished => ?_
    obtain ⟨metric', hmetric', hid, -⟩ := hpublished
    rw [Except.ok.inj (hmetric.symm.trans hmetric'), hid]
  have htop : metrics.map (fun metric => metric.topN) = items.map fun _ => 5 := by
    refine hmapped fun item metric hmetric hpublished => ?_
    obtain ⟨metric', hmetric', -, htop, -⟩ := hpublished
    rw [Except.ok.inj (hmetric.symm.trans hmetric'), htop]
  have hsurvive : items.mapM (fun item => orThrow item.survivesStressGrid ConclusionError.internal) =
      .ok (metrics.map fun metric => metric.survivesStressGrid) := by
    obtain ⟨survivals, hsurvivals⟩ := exists_mapM_eq_ok (f := fun item : CandidateEvaluation ℚ T =>
      orThrow item.survivesStressGrid ConclusionError.internal) fun item hitem => by
        obtain ⟨metric, -, -, -, hsurvives⟩ := hpublish item hitem
        exact ⟨_, by rw [hsurvives, orThrow_some]⟩
    have hsame : survivals.map some = items.map fun item => item.survivesStressGrid :=
      map_eq_of_mapM hsurvivals fun item _ survives hsurvives => (orThrow_eq_ok.mp hsurvives).symm
    have hmetricsSurvive : (metrics.map fun metric => some metric.survivesStressGrid) =
        items.map fun item => item.survivesStressGrid := by
      refine hmapped fun item metric hmetric hpublished => ?_
      obtain ⟨metric', hmetric', -, -, hsurvives⟩ := hpublished
      rw [Except.ok.inj (hmetric.symm.trans hmetric'), hsurvives]
    have hboth : survivals.map some = (metrics.map fun metric => metric.survivesStressGrid).map some := by
      rw [hsame, ← hmetricsSurvive, List.map_map]
      rfl
    rw [hsurvivals, List.map_injective_iff.mpr (Option.some_injective Bool) hboth]
  have hne : items ≠ [] := by
    rintro rfl
    exact hidsNe hids.symm
  obtain ⟨first, rest, hfirst⟩ := List.exists_cons_of_ne_nil hne
  have hfirstSource : first.definition.source = schema.source := hsource first (hfirst ▸ List.mem_cons_self)
  obtain ⟨fields, hfields⟩ : ∃ fields : ConclusionFields, fields =
      { family := schema.family
        source := first.definition.source
        protocolVersion := strategyLadderProtocolVersion
        feeAssumption := fees
        robustnessMetrics := metrics
        status := statusOf (metrics.map fun metric => metric.survivesStressGrid) } := ⟨_, rfl⟩
  have hmetricsNe : metrics.isEmpty = false := by
    rw [List.isEmpty_eq_false_iff]
    rintro rfl
    exact hidsNe hmetricIds.symm
  have hvalid : fields.postInit = .ok () := by
    have htexts : forEach requiredField [("family", fields.family), ("source", fields.source),
        ("protocol_version", fields.protocolVersion)] = .ok () := by
      simp [forEach_eq_ok, requiredField, hfields, hfamily, hfirstSource, hsourceNe, strategyLadderProtocolVersion]
    have hstatus : fields.status = statusOf (fields.robustnessMetrics.map fun metric => metric.survivesStressGrid) := by
      rw [hfields]
    have hunique : (fields.robustnessMetrics.map fun metric => metric.candidateId).Nodup := by
      rw [hfields]
      exact hmetricIds ▸ hnodup
    have hsome : fields.robustnessMetrics.isEmpty = false := hfields ▸ hmetricsNe
    rw [ConclusionFields.postInit, htexts, ok_bind, hsome, Bool.not_false, require_true, ok_bind,
      decide_eq_true hunique, require_true, ok_bind, decide_eq_true hstatus, require_true]
  have htopAll : (metrics.all fun metric => metric.topN = strategyLadderTopN) = true := by
    rw [List.all_eq_true]
    intro metric hmetric
    have hmem : metric.topN ∈ items.map fun _ => (5 : ℤ) := htop ▸ List.mem_map_of_mem hmetric
    obtain ⟨_, _, hfive⟩ := List.mem_map.mp hmem
    exact decide_eq_true hfive.symm
  refine ⟨⟨fields, hvalid⟩, ?_, ?_, ?_, ?_⟩
  · have hconstructed : construct ConclusionFields.postInit CandidateConclusion.mk fields = .ok ⟨fields, hvalid⟩ :=
      construct_eq_ok hvalid
    rw [familyConclusion, hitems, hmetrics, ok_bind, hsurvive, hfirst, List.head?_cons, orThrow_some, ok_bind, ok_bind,
      ← hconstructed, hfields]
    rfl
  all_goals subst hfields
  · rfl
  · rw [checkEntry, decide_eq_true rfl, require_true, ok_bind, decide_eq_true hfirstSource, require_true, ok_bind,
      decide_eq_true rfl, require_true, ok_bind, decide_eq_true hmetricIds, require_true, ok_bind, htopAll, require_true]
  · rfl

end index

/-! ## The ladder's conclusions -/

/-- The text of a tick size is that of a natural number with a scale. -/
lemma exists_format_eq {d : Decimal} (hpositive : d.coefficient ≠ 0) :
    ∃ n scale : ℕ, n ≠ 0 ∧ d.format = Decimal.format ⟨n, -(scale : ℤ)⟩ := by
  obtain ⟨coefficient, exponent⟩ := d
  rcases le_or_gt 0 exponent with hnonneg | hneg
  · refine ⟨coefficient * 10 ^ exponent.toNat, 0, mul_ne_zero hpositive (by positivity), ?_⟩
    have hnatural : Decimal.format ⟨coefficient * 10 ^ exponent.toNat, -((0 : ℕ) : ℤ)⟩ =
        Nat.toDigits 10 (coefficient * 10 ^ exponent.toNat) := Decimal.format_natural _
    rw [hnatural, Decimal.format, if_pos hnonneg]
  · refine ⟨coefficient, (-exponent).toNat, hpositive, ?_⟩
    rw [show -(((-exponent).toNat : ℕ) : ℤ) = exponent by omega]

/-- The costs of the ladder pass. -/
lemma feeAssumption_eq_ok (instrument : Execution.OKXInstrumentSpec) :
    ∃ fees : FeeAssumption, construct FeeAssumptionFields.postInit FeeAssumption.mk
      { defaultFeeBpsPerSide := defaultFeeBps
        feeGridBpsPerSide := feeGridBps
        slippageGridTicks := slippageGridTicks
        tickSize := String.ofList instrument.tickSize.format } = .ok fees ∧
      fees.defaultFeeBpsPerSide = defaultFeeBps ∧ fees.feeGridBpsPerSide = feeGridBps ∧
      fees.slippageGridTicks = slippageGridTicks := by
  obtain ⟨n, scale, hn, hformat⟩ := exists_format_eq instrument.tickSize_pos
  have htext : String.ofList instrument.tickSize.format = (⟨false, n⟩ : FixedPoint scale).text := by
    rw [hformat]
    rfl
  rw [htext]
  have hread : canonicalSignedDecimal (⟨false, n⟩ : FixedPoint scale).text "tick_size" =
      .ok (false, ⟨n, -(scale : ℤ)⟩) := by
    rw [canonicalSignedDecimal, FixedPoint.signedDecimal_text, orThrow_some, ok_bind]
    rw [show signedText (false, ⟨n, -(scale : ℤ)⟩) = (⟨false, n⟩ : FixedPoint scale).text from rfl, decide_eq_true rfl,
      require_true, ok_bind]
    rfl
  have hvalid : FeeAssumptionFields.postInit
      { defaultFeeBpsPerSide := defaultFeeBps
        feeGridBpsPerSide := feeGridBps
        slippageGridTicks := slippageGridTicks
        tickSize := (⟨false, n⟩ : FixedPoint scale).text } = .ok () := by
    simp only [FeeAssumptionFields.postInit, requiredField, bind_eq_ok, require_eq_ok, exists_const]
    refine ⟨rfl, rfl, rfl, rfl, rfl, decide_eq_true (FixedPoint.text_ne_empty _), _, hread, ?_⟩
    simpa using hn
  exact ⟨⟨_, hvalid⟩, construct_eq_ok hvalid, rfl, rfl, rfl⟩

/-- The definitions of a family are those of its schema. -/
lemma schema_definitions : ∀ schema ∈ strategyLadderFamilySchema,
    (∀ definition ∈ candidateDefinitions, definition.family = schema.family → definition.source = schema.source) ∧
    (candidateDefinitions.filter fun definition => definition.family = schema.family).map
      CandidateDefinition.candidateId = schema.candidateIds ∧
    schema.family ≠ "" ∧ schema.source ≠ "" ∧ schema.candidateIds ≠ [] ∧ schema.candidateIds.Nodup := by
  decide

/-- Entries that agree with their families pass. -/
lemma checkEntries_of_forall₂ {fees : FeeAssumption} {entries : List CandidateConclusion}
    (hcosts : fees.defaultFeeBpsPerSide = defaultFeeBps ∧ fees.feeGridBpsPerSide = feeGridBps ∧
      fees.slippageGridTicks = slippageGridTicks)
    (h : List.Forall₂ (fun schema entry => entry.family = schema.family ∧ checkEntry fees (entry, schema) = .ok () ∧
      entry.feeAssumption = fees) strategyLadderFamilySchema entries) : checkEntries entries = .ok () := by
  have hfamilies : entries.map (fun entry => entry.family) = strategyLadderFamilySchema.map FamilySchema.family := by
    generalize strategyLadderFamilySchema = schemas at h
    induction h with
    | nil => rfl
    | cons hpair _ ih => rw [List.map_cons, List.map_cons, hpair.1, ih]
  have hzip : ∀ pair ∈ entries.zip strategyLadderFamilySchema, checkEntry fees pair = .ok () := by
    intro pair hpair
    exact ((List.forall₂_iff_zip.mp h.flip).2 hpair).2.1
  obtain ⟨first, rest, hfirst, -, rfl⟩ := List.forall₂_cons_left_iff.mp h
  have hshared : (decide (fees.defaultFeeBpsPerSide = strategyLadderDefaultFeeBps) &&
      decide (fees.feeGridBpsPerSide = strategyLadderFeeGridBps) &&
      decide (fees.slippageGridTicks = strategyLadderSlippageGridTicks)) = true := by
    rw [hcosts.1, hcosts.2.1, hcosts.2.2]
    rfl
  rw [checkEntries, decide_eq_true hfamilies, require_true, ok_bind, List.head?_cons, orThrow_some, ok_bind]
  dsimp only
  rw [hfirst.2.2, hshared, require_true, ok_bind]
  exact forEach_eq_ok.mpr hzip

/-- **The conclusions of the ladder are valid.** If the ladder returns, and no sample of a default cell is negative, the
index of its conclusions is not refused, and is read back from its text. -/
theorem ladder_conclusions_valid [Eastern] [FloatText PyFloat] {candles15m candles1h : List (Candle ℚ)}
    {instrument : Execution.OKXInstrumentSpec} {config : StrategyConfig ℚ} {windowDays windows : ℤ}
    {trustedGeneration : String} {evaluations : List (CandidateEvaluation ℚ (LadderTrade ℚ))}
    (h : evaluateStrategyLadder candles15m candles1h instrument.tickSize.toRat config windowDays windows =
      .ok evaluations)
    (hid : isCanonicalOkxSwapId instrument.instId = true)
    (hgeneration : (trustedGeneration.toList.any fun c => !isSpace c) = true)
    (hsamples : ∀ evaluation ∈ evaluations, ∀ cell, evaluation.defaultCell = some cell →
      ∀ window ∈ cell.windows, ∀ sample ∈ window.result.equityCurve, 0 ≤ sample.2) :
    ∃ index,
      buildConclusionIndex LadderTrade.pnl evaluations instrument trustedGeneration windowDays windows = .ok index ∧
      ∃ text, index.toJson = some text ∧ CandidateConclusionIndex.fromJson text = .ok index := by
  have hcandidates := forall₂_of_mapM_eq_ok h
  -- every candidate publishes its metrics
  have hpublish : ∀ evaluation ∈ evaluations, Publishes LadderTrade.pnl evaluation := by
    intro evaluation hmem
    obtain ⟨definition, hdefinition, hevaluated⟩ := exists_left_of_mem hcandidates hmem
    obtain ⟨hsame, hgrid, cell, hdefault, hcell⟩ := evaluation_grid hevaluated
    have hkeeps := summaryKeeps_of_cell hcell (hsamples evaluation hmem cell hdefault)
    refine candidateRobustness_eq_ok ?_ hgrid hdefault hkeeps
    rw [hsame]
    exact (by decide : ∀ definition ∈ candidateDefinitions, definition.candidateId ≠ "") definition hdefinition
  have hwindows : 0 < windowDays ∧ 0 < windows := by
    obtain ⟨evaluation, hmem, hevaluated⟩ := exists_right_of_mem hcandidates
      (show candidateDefinitions.head (by decide) ∈ candidateDefinitions from List.head_mem _)
    obtain ⟨_, _, cell, _, hcell⟩ := evaluation_grid hevaluated
    exact windows_pos hcell
  have hdefinitions : evaluations.map CandidateEvaluation.definition = candidateDefinitions.map id :=
    map_eq_of_mapM h fun definition _ evaluation hevaluated => (evaluation_grid hevaluated).1
  rw [List.map_id] at hdefinitions
  obtain ⟨fees, hfees, hfee, hfeeGrid, hticks⟩ := feeAssumption_eq_ok instrument
  -- every family has its candidates
  have hfamily : ∀ schema ∈ strategyLadderFamilySchema, ∃ conclusion,
      familyConclusion LadderTrade.pnl evaluations fees schema.family = .ok conclusion ∧
        conclusion.family = schema.family ∧ checkEntry fees (conclusion, schema) = .ok () ∧
        conclusion.feeAssumption = fees := by
    intro schema hschema
    obtain ⟨hsource, hids, hvalid⟩ := schema_definitions schema hschema
    refine familyConclusion_eq_ok rfl (fun item hitem => hpublish item (List.mem_filter.mp hitem).1) ?_ ?_ hvalid
    · intro item hitem
      obtain ⟨hmem, hmatch⟩ := List.mem_filter.mp hitem
      exact hsource _ (hdefinitions ▸ List.mem_map_of_mem hmem) (of_decide_eq_true hmatch)
    · rw [← hids, ← hdefinitions, List.filter_map, List.map_map]
      rfl
  obtain ⟨entries, hentries⟩ := exists_mapM_eq_ok fun schema hschema => (hfamily schema hschema).imp fun _ h => h.1
  have hpairs : List.Forall₂ (fun schema entry => entry.family = schema.family ∧
      checkEntry fees (entry, schema) = .ok () ∧ entry.feeAssumption = fees) strategyLadderFamilySchema entries := by
    have hevery := (List.forall₂_and_left _ _).mpr ⟨fun _ h => h, forall₂_of_mapM_eq_ok hentries⟩
    refine hevery.imp fun schema entry hpair => ?_
    obtain ⟨conclusion, hconclusion, hkeeps⟩ := hfamily schema hpair.1
    rwa [Except.ok.inj (hpair.2.symm.trans hconclusion)]
  have hchecked : checkEntries entries = .ok () := checkEntries_of_forall₂ ⟨hfee, hfeeGrid, hticks⟩ hpairs
  obtain ⟨index, hindex⟩ : ∃ index, construct ConclusionIndexFields.postInit CandidateConclusionIndex.mk
      { entries := entries
        instrumentId := instrument.instId
        trustedGeneration := trustedGeneration
        windowDays := windowDays
        windows := windows } = .ok index := by
    refine ⟨_, construct_eq_ok ?_⟩
    rw [ConclusionIndexFields.postInit, decide_eq_true rfl, require_true, ok_bind, hid, require_true, ok_bind,
      hgeneration, require_true, ok_bind, decide_eq_true hwindows.1, decide_eq_true hwindows.2, Bool.and_self, require_true, ok_bind,
      hchecked]
  refine ⟨index, ?_, index.fromJson_toJson⟩
  rw [buildConclusionIndex, hfees, ok_bind]
  have hsame : ["overnight_seasonality", "time_series_momentum", "baseline"].mapM
      (familyConclusion LadderTrade.pnl evaluations fees) = .ok entries := hentries
  rw [hsame, ok_bind, hindex]

/-! ## An evening -/

lemma muInstrument_named : "MU-USDT-SWAP" ≠ "" := by decide

/-- The contract of the ladder. -/
def muInstrument : Execution.OKXInstrumentSpec where
  instId := "MU-USDT-SWAP"
  tickSize := ⟨1, -1⟩
  lotSize := ⟨1, -2⟩
  contractValue := ⟨1, 0⟩
  instId_ne := muInstrument_named
  tickSize_pos := Nat.one_ne_zero
  lotSize_pos := Nat.one_ne_zero
  contractValue_pos := Nat.one_ne_zero

/-- Bars on Monday 2026-01-05. -/
def onMonday (bars : List (Candle ℚ)) : List (Candle ℚ) :=
  bars.map fun bar => { bar with openTimeMs := bar.openTimeMs + 20458 * dayMs }

/-- The ladder on that evening. -/
def eveningLadder [Eastern] : Except EvaluationError (List (CandidateEvaluation ℚ (LadderTrade ℚ))) :=
  evaluateStrategyLadder (onMonday quarters) (onMonday evening) muInstrument.tickSize.toRat {} 1 1

/-- No float is written in a conclusion. -/
@[reducible] def noConclusionFloats : FloatText PyFloat := ⟨fun _ => none, fun _ => .nan⟩

/-- The conclusions of an evening. -/
theorem ladder_conclusions_valid_demo :
    let _ := mondayTime
    let _ := noConclusionFloats
    ∃ evaluations index, eveningLadder = .ok evaluations ∧
      buildConclusionIndex LadderTrade.pnl evaluations muInstrument "generation-1" 1 1 = .ok index ∧
      ∃ text, index.toJson = some text ∧ CandidateConclusionIndex.fromJson text = .ok index := by
  intro zone floats
  obtain ⟨evaluations, h⟩ := exists_eq_ok_of_isOk
    (by decide +kernel : (eveningLadder).isOk = true)
  have hsamples : ((eveningLadder).toOption.all fun evaluations => evaluations.all fun evaluation => evaluation.defaultCell.all fun cell =>
        cell.windows.all fun window => window.result.equityCurve.all fun sample => 0 ≤ sample.2) = true := by
    decide +kernel
  rw [h] at hsamples
  simp only [Except.toOption, Option.all_some, List.all_eq_true] at hsamples
  obtain ⟨index, hindex, hread⟩ := @ladder_conclusions_valid zone floats _ _ _ _ _ _ "generation-1" _ h (by decide)
    (by decide) fun evaluation hmem cell hcell => by
      have hcells := hsamples evaluation hmem
      rw [hcell] at hcells
      simpa using hcells
  exact ⟨evaluations, index, h, hindex, hread⟩

end MuStrategy.Experiments
