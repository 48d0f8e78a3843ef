import MuStrategy.Canonical
import MuStrategy.Lib.Check
import MuStrategy.Lib.Refusal
import MuStrategy.Research.WinCounts

/-!
# Candidate conclusions

What a run of the ladder published: an index of the families, the candidates of each with their metrics, and whether a
candidate survived the stress grid. Metrics are texts of eight decimals, and they are checked against each other.

* `StressCellReturn`, `FeeAssumption`, `CandidateRobustness`, `CandidateConclusion`, `CandidateConclusionIndex` — the
  records; each carries the proof that it passed its checks.
* `RobustnessFields.postInit` — the metrics of a candidate against each other.
* `quiet_postInit` — no check raises anything else than what it is to raise.
-/

namespace MuStrategy.Research

open Lib

/-! ## The protocol -/

/-- What a conclusion raises. -/
inductive ConclusionError where
  /-- `CandidateConclusionError(text)`. -/
  | contract (text : String)
  /-- `CandidateConclusionError`: `{label} fields must be exactly {sorted(expected)}`. -/
  | keys (label : String) (expected : List String)
  /-- `CandidateConclusionError`: `candidate conclusion index is malformed: {exc.msg}`. -/
  | malformed
  /-- No `CandidateConclusionError`: a division by zero of decimals, an `IndexError`, `StopIteration`. -/
  | internal
  deriving DecidableEq

/-- Source: `research/candidate_conclusions.py` `STRATEGY_LADDER_PROTOCOL_VERSION`. -/
def strategyLadderProtocolVersion : String := "strategy-ladder-v1"

/-- Source: `research/candidate_conclusions.py` `STRATEGY_LADDER_DEFAULT_FEE_BPS`. -/
def strategyLadderDefaultFeeBps : ℤ := 5

/-- Source: `research/candidate_conclusions.py` `STRATEGY_LADDER_FEE_GRID_BPS`. -/
def strategyLadderFeeGridBps : List ℤ := [0, 5, 10]

/-- Source: `research/candidate_conclusions.py` `STRATEGY_LADDER_SLIPPAGE_GRID_TICKS`. -/
def strategyLadderSlippageGridTicks : List ℤ := [0, 1, 2]

/-- Source: `research/candidate_conclusions.py` `STRATEGY_LADDER_TOP_N`. -/
def strategyLadderTopN : ℤ := 5

/-- A family of the protocol. -/
structure FamilySchema where
  family : String
  source : String
  candidateIds : List String

/-- Source: `research/candidate_conclusions.py` `STRATEGY_LADDER_FAMILY_SCHEMA`. -/
def strategyLadderFamilySchema : List FamilySchema :=
  [⟨"overnight_seasonality", "issue-93 overnight seasonality hypothesis", ["overnight_seasonality"]⟩,
    ⟨"time_series_momentum", "issue-93 trailing-return-sign hypothesis",
      ["time_series_momentum_24h", "time_series_momentum_96h", "time_series_momentum_168h"]⟩,
    ⟨"baseline", "mu_strategy.strategies.registry:baseline", ["baseline"]⟩]

/-- Source: `research/candidate_conclusions.py` `STRATEGY_LADDER_STRESS_CELL_ORDER`. -/
def strategyLadderStressCellOrder : List (ℤ × ℤ) :=
  strategyLadderFeeGridBps.flatMap fun feeBps =>
    strategyLadderSlippageGridTicks.map fun slippageTicks => (feeBps, slippageTicks)

/-- Source: `research/candidate_conclusions.py` `CandidateStatus`. -/
inductive CandidateStatus where
  | stressFailed
  | candidate
  deriving DecidableEq

instance : PyEnum CandidateStatus where
  members := [.stressFailed, .candidate]
  value
    | .stressFailed => "stress_failed"
    | .candidate => "candidate"
  find_value := by intro a; cases a <;> decide

/-! ## Texts -/

/-- Source: `research/candidate_conclusions.py` `_canonical_decimal_metric`. -/
def canonicalDecimalMetric (value fieldName : String) : Except ConclusionError (FixedPoint 8) :=
  orThrow (FixedPoint.ofText? 8 value) (.contract (fieldName ++ " must be a finite canonical decimal"))

/-- `format(value, "f")` of a number with its sign. -/
def signedText (value : Bool × Decimal) : String :=
  String.ofList ((if value.1 then ['-'] else []) ++ value.2.format)

/-- Source: `research/candidate_conclusions.py` `_canonical_decimal`. -/
def canonicalSignedDecimal (value fieldName : String) : Except ConclusionError (Bool × Decimal) := do
  let parsed ← orThrow (signedDecimal? value) (.contract (fieldName ++ " must be a finite canonical decimal"))
  require (signedText parsed = value) (.contract (fieldName ++ " must be a finite canonical decimal"))
  pure parsed

/-- A field that is a text, and not an empty one. -/
def requiredField (field : String × String) : Except ConclusionError Unit :=
  require (field.2 ≠ "") (.contract (field.1 ++ " is required"))

lemma canonicalDecimalMetric_text (d : FixedPoint 8) (fieldName : String) :
    canonicalDecimalMetric d.text fieldName = .ok d := by
  rw [canonicalDecimalMetric, FixedPoint.ofText?_text, orThrow_some]

/-! ## Stress cells -/

/-- The fields of a cell. Source: `research/candidate_conclusions.py` `StressCellReturn`. -/
structure StressCellFields where
  feeBpsPerSide : ℤ
  slippageTicks : ℤ
  totalReturnPct : String
  deriving DecidableEq

/-- Source: `research/candidate_conclusions.py` `StressCellReturn.__post_init__`. -/
def StressCellFields.postInit (f : StressCellFields) : Except ConclusionError Unit := do
  require (0 ≤ f.feeBpsPerSide && 0 ≤ f.slippageTicks) (.contract "stress cell costs must be non-negative integers")
  requiredField ("stress cell total_return_pct", f.totalReturnPct)
  let _ ← canonicalDecimalMetric f.totalReturnPct "stress cell total_return_pct"
  pure ()

/-- A cell that passed its checks. Source: `research/candidate_conclusions.py` `StressCellReturn`. -/
structure StressCellReturn extends StressCellFields where
  /-- `__post_init__` passed. -/
  valid : toStressCellFields.postInit = .ok ()
  deriving DecidableEq

/-! ## Costs -/

/-- The fields of the costs. Source: `research/candidate_conclusions.py` `FeeAssumption`. -/
structure FeeAssumptionFields where
  defaultFeeBpsPerSide : ℤ
  feeGridBpsPerSide : List ℤ
  slippageGridTicks : List ℤ
  tickSize : String
  deriving DecidableEq

/-- Source: `research/candidate_conclusions.py` `FeeAssumption.__post_init__`. -/
def FeeAssumptionFields.postInit (f : FeeAssumptionFields) : Except ConclusionError Unit := do
  require (0 ≤ f.defaultFeeBpsPerSide) (.contract "default fee must be non-negative")
  require (!f.feeGridBpsPerSide.isEmpty && f.feeGridBpsPerSide.all (0 ≤ ·))
    (.contract "fee grid must contain non-negative values")
  require (!f.slippageGridTicks.isEmpty && f.slippageGridTicks.all (0 ≤ ·))
    (.contract "slippage grid must contain non-negative values")
  require (f.feeGridBpsPerSide.contains f.defaultFeeBpsPerSide) (.contract "default fee must be present in the fee grid")
  require (f.slippageGridTicks.contains 0) (.contract "zero slippage must be present in the slippage grid")
  requiredField ("tick_size", f.tickSize)
  let tickSize ← canonicalSignedDecimal f.tickSize "tick_size"
  require (!tickSize.1 && tickSize.2.coefficient ≠ 0) (.contract "tick_size must be positive")

/-- Costs that passed their checks. Source: `research/candidate_conclusions.py` `FeeAssumption`. -/
structure FeeAssumption extends FeeAssumptionFields where
  /-- `__post_init__` passed. -/
  valid : toFeeAssumptionFields.postInit = .ok ()
  deriving DecidableEq

/-! ## Candidates -/

/-- The fields of the metrics of a candidate. Source: `research/candidate_conclusions.py` `CandidateRobustness`. -/
structure RobustnessFields where
  candidateId : String
  totalReturnPct : String
  maxDrawdownPct : String
  tradeCount : ℤ
  winRate : String
  topN : ℤ
  topNTradeConcentration : Option String
  stressGridReturns : List StressCellReturn
  survivesStressGrid : Bool
  deriving DecidableEq

/-- The numbers of the texts. -/
structure RobustnessMetrics where
  totalReturn : FixedPoint 8
  maxDrawdown : FixedPoint 8
  winRate : FixedPoint 8
  concentration : Option (FixedPoint 8)

namespace RobustnessFields

variable (f : RobustnessFields)

/-- The number of a concentration, which may be absent. -/
def readConcentration : Except ConclusionError (Option (FixedPoint 8)) :=
  match f.topNTradeConcentration with
  | none => pure none
  | some text => do
      let concentration ← canonicalDecimalMetric text "top_n_trade_concentration"
      require (0 ≤ concentration.toRat) (.contract "top_n_trade_concentration cannot be negative")
      pure (some concentration)

/-- The fields by themselves. -/
def metrics : Except ConclusionError RobustnessMetrics := do
  forEach requiredField [("candidate_id", f.candidateId), ("total_return_pct", f.totalReturnPct),
    ("max_drawdown_pct", f.maxDrawdownPct), ("win_rate", f.winRate)]
  require (0 ≤ f.tradeCount && 0 ≤ f.topN) (.contract "trade_count and top_n must be non-negative")
  require (f.topNTradeConcentration ≠ some "") (.contract "top_n_trade_concentration must be text or null")
  let totalReturn ← canonicalDecimalMetric f.totalReturnPct "total_return_pct"
  let maxDrawdown ← canonicalDecimalMetric f.maxDrawdownPct "max_drawdown_pct"
  require (!decide (0 < maxDrawdown.toRat)) (.contract "max_drawdown_pct cannot be positive")
  let winRate ← canonicalDecimalMetric f.winRate "win_rate"
  require (0 ≤ winRate.toRat && winRate.toRat ≤ 1) (.contract "win_rate must be between zero and one")
  let concentration ← f.readConcentration
  pure ⟨totalReturn, maxDrawdown, winRate, concentration⟩

/-- The numbers with the count of trades. -/
def agree (m : RobustnessMetrics) : Except ConclusionError Unit := do
  require (!(f.survivesStressGrid && f.tradeCount = 0))
    (.contract "surviving stress evidence requires at least one trade")
  require (!(f.survivesStressGrid && m.totalReturn.toRat < 0))
    (.contract "surviving stress evidence cannot have negative return")
  require (!(f.tradeCount = 0 && (m.totalReturn.toRat ≠ 0 || m.maxDrawdown.toRat ≠ 0 || m.winRate.toRat ≠ 0 ||
      m.concentration.isSome)))
    (.contract "zero-trade evidence must contain only zero metrics and null concentration")
  require (hasCompatibleWinCount m.winRate f.tradeCount.toNat)
    (.contract "win_rate must correspond to an integer win count")
  require (!(0 < f.tradeCount && 0 < m.totalReturn.toRat && !hasCompatibleWinCount m.winRate f.tradeCount.toNat 1))
    (.contract "positive return requires at least one winning trade")
  require (!(0 < f.tradeCount && m.totalReturn.toRat < 0 &&
      !hasCompatibleWinCount m.winRate f.tradeCount.toNat 0 (some (f.tradeCount - 1))))
    (.contract "negative return requires at least one non-winning trade")
  require (!(m.totalReturn.toRat < 0 && m.totalReturn.toRat < m.maxDrawdown.toRat))
    (.contract "max_drawdown_pct cannot be shallower than negative total_return_pct")
  require (decide (0 < m.totalReturn.toRat) = m.concentration.isSome)
    (.contract "top_n_trade_concentration must be present exactly when total_return_pct is positive")

/-- What the checks of the numbers say. -/
structure Agrees (m : RobustnessMetrics) : Prop where
  traded : f.survivesStressGrid = true → f.tradeCount ≠ 0
  gained : f.survivesStressGrid = true → 0 ≤ m.totalReturn.toRat
  idle : f.tradeCount = 0 → m.totalReturn.toRat = 0 ∧ m.maxDrawdown.toRat = 0 ∧ m.winRate.toRat = 0 ∧
    m.concentration = none
  counted : hasCompatibleWinCount m.winRate f.tradeCount.toNat = true
  won : 0 < f.tradeCount → 0 < m.totalReturn.toRat → hasCompatibleWinCount m.winRate f.tradeCount.toNat 1 = true
  lost : 0 < f.tradeCount → m.totalReturn.toRat < 0 →
    hasCompatibleWinCount m.winRate f.tradeCount.toNat 0 (some (f.tradeCount - 1)) = true
  deep : m.totalReturn.toRat < 0 → m.maxDrawdown.toRat ≤ m.totalReturn.toRat
  concentrated : 0 < m.totalReturn.toRat ↔ m.concentration.isSome = true

omit f in
lemma not_and_eq_true {a b : Bool} : (!(a && b)) = true ↔ (a = true → ¬b = true) := by
  cases a <;> simp

lemma agree_eq_ok {m : RobustnessMetrics} : f.agree m = .ok () ↔ f.Agrees m := by
  simp only [agree, bind_eq_ok, require_eq_ok, exists_const, not_and_eq_true]
  simp only [Bool.and_eq_true, Bool.or_eq_true, Bool.not_eq_true', decide_eq_true_eq, ne_eq, not_or, not_not, not_lt,
    Bool.not_eq_false, Option.not_isSome_iff_eq_none, and_imp, and_assoc]
  have hiff : (decide (0 < m.totalReturn.toRat) = m.concentration.isSome) ↔
      (0 < m.totalReturn.toRat ↔ m.concentration.isSome = true) := by
    rw [Bool.eq_iff_iff, decide_eq_true_eq]
  constructor
  · rintro ⟨htraded, hgained, hidle, hcounted, hwon, hlost, hdeep, hconcentrated⟩
    exact ⟨htraded, hgained, hidle, hcounted, hwon, hlost, hdeep, hiff.mp hconcentrated⟩
  · rintro ⟨htraded, hgained, hidle, hcounted, hwon, hlost, hdeep, hconcentrated⟩
    exact ⟨htraded, hgained, hidle, hcounted, hwon, hlost, hdeep, hiff.mpr hconcentrated⟩

/-- The concentration with the counts of wins. -/
def agreeConcentration (m : RobustnessMetrics) : Except ConclusionError Unit :=
  match m.concentration with
  | none => pure ()
  | some concentration => do
      require (!(f.topN = 0 && concentration.toRat ≠ 0)) (.contract "zero top_n requires zero trade concentration")
      let (minimumWins, maximumWins) ← orThrow (compatibleWinCountBounds m.winRate f.tradeCount.toNat)
        (.contract "win_rate must correspond to an integer win count")
      let minimumConcentration ←
        orThrow (quantizedFraction? (min f.topN maximumWins).toNat maximumWins.toNat) .internal
      require (!decide (concentration.toRat < minimumConcentration.toRat))
        (.contract "trade concentration is below the top_n coverage bound")
      require (!(minimumWins = f.tradeCount && 1 < concentration.toRat))
        (.contract "all-winning evidence cannot have concentration above one")

/-- The stress cells. -/
def agreeCells : Except ConclusionError Unit := do
  require (f.stressGridReturns.map (fun cell => (cell.feeBpsPerSide, cell.slippageTicks)) =
      strategyLadderStressCellOrder)
    (.contract "strategy-ladder-v1 requires all stress cells in canonical order")
  let defaultCell ← orThrow (f.stressGridReturns.find? fun cell =>
      cell.feeBpsPerSide = strategyLadderDefaultFeeBps && cell.slippageTicks = 0) .internal
  require (defaultCell.totalReturnPct = f.totalReturnPct)
    (.contract "default robustness return must match the default stress cell")
  let expectedSurvival := 0 < f.tradeCount && f.stressGridReturns.all fun cell =>
    (FixedPoint.ofText? 8 cell.totalReturnPct).any fun value => 0 ≤ value.toRat
  require (f.survivesStressGrid = expectedSurvival) (.contract "survives_stress_grid contradicts serialized stress cells")

/-- Source: `research/candidate_conclusions.py` `CandidateRobustness.__post_init__`. -/
def postInit : Except ConclusionError Unit := do
  let m ← f.metrics
  f.agree m
  f.agreeConcentration m
  f.agreeCells

end RobustnessFields

/-- Metrics that passed their checks. Source: `research/candidate_conclusions.py` `CandidateRobustness`. -/
structure CandidateRobustness extends RobustnessFields where
  /-- `__post_init__` passed. -/
  valid : toRobustnessFields.postInit = .ok ()
  deriving DecidableEq

/-! ## What is raised -/

/-- What the checks may raise. -/
def Contractual (error : ConclusionError) : Prop := error ≠ .internal

section quiet

lemma contractual_contract (text : String) : Contractual (.contract text) := by
  rintro ⟨⟩

lemma quiet_check {condition : Bool} {text : String} : Quiet Contractual (require condition (.contract text)) :=
  quiet_require (contractual_contract text)

lemma quiet_canonicalDecimalMetric {value fieldName : String} :
    Quiet Contractual (canonicalDecimalMetric value fieldName) := quiet_orThrow (contractual_contract _)

lemma quiet_fields {fields : List (String × String)} : Quiet Contractual (forEach requiredField fields) := by
  induction fields with
  | nil => exact quiet_ok
  | cons field fields ih => exact quiet_bind quiet_check fun _ _ => ih

lemma quiet_stressCell (f : StressCellFields) : Quiet Contractual f.postInit :=
  quiet_bind quiet_check fun _ _ => quiet_bind quiet_check fun _ _ =>
    quiet_bind quiet_canonicalDecimalMetric fun _ _ => quiet_ok

lemma quiet_feeAssumption (f : FeeAssumptionFields) : Quiet Contractual f.postInit := by
  refine quiet_bind quiet_check fun _ _ => quiet_bind quiet_check fun _ _ => quiet_bind quiet_check fun _ _ =>
    quiet_bind quiet_check fun _ _ => quiet_bind quiet_check fun _ _ => quiet_bind quiet_check fun _ _ => ?_
  refine quiet_bind ?_ fun _ _ => quiet_check
  exact quiet_bind (quiet_orThrow (contractual_contract _)) fun _ _ => quiet_bind quiet_check fun _ _ => quiet_ok

namespace RobustnessFields

variable {f : RobustnessFields}

lemma quiet_metrics : Quiet Contractual f.metrics := by
  refine quiet_bind quiet_fields fun _ _ => quiet_bind quiet_check fun _ _ => quiet_bind quiet_check fun _ _ =>
    quiet_bind quiet_canonicalDecimalMetric fun _ _ => quiet_bind quiet_canonicalDecimalMetric fun _ _ =>
    quiet_bind quiet_check fun _ _ => quiet_bind quiet_canonicalDecimalMetric fun _ _ =>
    quiet_bind quiet_check fun _ _ => quiet_bind ?_ fun _ _ => quiet_ok
  unfold readConcentration
  split
  · exact quiet_ok
  · exact quiet_bind quiet_canonicalDecimalMetric fun _ _ => quiet_bind quiet_check fun _ _ => quiet_ok

lemma quiet_agree {m : RobustnessMetrics} : Quiet Contractual (f.agree m) :=
  quiet_bind quiet_check fun _ _ => quiet_bind quiet_check fun _ _ => quiet_bind quiet_check fun _ _ =>
    quiet_bind quiet_check fun _ _ => quiet_bind quiet_check fun _ _ => quiet_bind quiet_check fun _ _ =>
    quiet_bind quiet_check fun _ _ => quiet_check

/-- **No division by zero**: a concentration comes with a winner. -/
lemma quiet_agreeConcentration {m : RobustnessMetrics} (hcount : 0 ≤ f.tradeCount) (h : f.Agrees m) :
    Quiet Contractual (f.agreeConcentration m) := by
  unfold agreeConcentration
  split
  · exact quiet_ok
  · rename_i concentration hconcentration
    have hgain : 0 < m.totalReturn.toRat := h.concentrated.mpr (by rw [hconcentration]; rfl)
    have hpos : 0 < f.tradeCount := hcount.lt_of_ne fun hzero => hgain.ne' (h.idle hzero.symm).1
    refine quiet_bind quiet_check fun _ _ => quiet_bind (quiet_orThrow (contractual_contract _)) fun bounds hbounds => ?_
    have hwinner : 0 < bounds.2.toNat := by
      obtain ⟨found, hfound⟩ := Option.isSome_iff_exists.mp (h.won hpos hgain)
      obtain ⟨hone, hall, hrate⟩ := (bounds_eq_some_iff.mp hfound).1.1
      have hmost := (bounds_eq_some_iff.mp (orThrow_eq_ok.mp hbounds)).2.2 ⟨by omega, by simpa using hall, hrate⟩
      omega
    have hquotient : quantizedFraction? (min f.topN bounds.2).toNat bounds.2.toNat ≠ none := by
      rw [quantizedFraction?, if_neg hwinner.ne']
      exact Option.some_ne_none _
    obtain ⟨quotient, hquotient⟩ := Option.ne_none_iff_exists'.mp hquotient
    refine quiet_bind ?_ fun _ _ => quiet_bind quiet_check fun _ _ => quiet_check
    rw [hquotient]
    exact quiet_ok

/-- The cells in their order have a default cell. -/
lemma find_defaultCell {cells : List StressCellReturn}
    (h : cells.map (fun cell => (cell.feeBpsPerSide, cell.slippageTicks)) = strategyLadderStressCellOrder) :
    ∃ cell, cells.find? (fun cell => cell.feeBpsPerSide = strategyLadderDefaultFeeBps && cell.slippageTicks = 0) =
      some cell := by
  refine Option.isSome_iff_exists.mp (List.find?_isSome.mpr ?_)
  have hmem : ((5 : ℤ), (0 : ℤ)) ∈ cells.map fun cell => (cell.feeBpsPerSide, cell.slippageTicks) := by
    rw [h]
    decide
  obtain ⟨cell, hcell, hcosts⟩ := List.mem_map.mp hmem
  obtain ⟨hfee, hticks⟩ := Prod.mk.inj hcosts
  exact ⟨cell, hcell, by simp [hfee, hticks, strategyLadderDefaultFeeBps]⟩

lemma quiet_agreeCells : Quiet Contractual f.agreeCells := by
  refine quiet_bind quiet_check fun _ horder => ?_
  obtain ⟨cell, hcell⟩ := find_defaultCell (of_decide_eq_true (require_eq_ok.mp horder))
  rw [hcell]
  exact quiet_bind quiet_ok fun _ _ => quiet_bind quiet_check fun _ _ => quiet_check

/-- The count of trades is no negative one. -/
lemma tradeCount_nonneg {m : RobustnessMetrics} (h : f.metrics = .ok m) : 0 ≤ f.tradeCount := by
  obtain ⟨_, -, h⟩ := bind_eq_ok.mp h
  obtain ⟨_, hcounts, -⟩ := bind_eq_ok.mp h
  rw [require_eq_ok, Bool.and_eq_true, decide_eq_true_eq] at hcounts
  exact hcounts.1

lemma quiet_postInit (f : RobustnessFields) : Quiet Contractual f.postInit :=
  quiet_bind quiet_metrics fun _ hmetrics => quiet_bind quiet_agree fun _ hagree =>
    quiet_bind (quiet_agreeConcentration (tradeCount_nonneg hmetrics) (f.agree_eq_ok.mp hagree)) fun _ _ =>
    quiet_agreeCells

end RobustnessFields

end quiet

/-! ## Families -/

/-- The fields of a conclusion. Source: `research/candidate_conclusions.py` `CandidateConclusion`. -/
structure ConclusionFields where
  family : String
  source : String
  protocolVersion : String
  feeAssumption : FeeAssumption
  robustnessMetrics : List CandidateRobustness
  status : CandidateStatus
  deriving DecidableEq

/-- The status that the metrics imply. -/
def statusOf (survives : List Bool) : CandidateStatus := if survives.any id then .candidate else .stressFailed

/-- Source: `research/candidate_conclusions.py` `CandidateConclusion.__post_init__`. -/
def ConclusionFields.postInit (f : ConclusionFields) : Except ConclusionError Unit := do
  forEach requiredField [("family", f.family), ("source", f.source), ("protocol_version", f.protocolVersion)]
  require (!f.robustnessMetrics.isEmpty) (.contract "robustness_metrics must not be empty")
  require (f.robustnessMetrics.map fun metric => metric.candidateId).Nodup
    (.contract "candidate ids must be unique within a family")
  require (f.status = statusOf (f.robustnessMetrics.map fun metric => metric.survivesStressGrid))
    (.contract "candidate status contradicts robustness metrics")

/-- A conclusion that passed its checks. Source: `research/candidate_conclusions.py` `CandidateConclusion`. -/
structure CandidateConclusion extends ConclusionFields where
  /-- `__post_init__` passed. -/
  valid : toConclusionFields.postInit = .ok ()
  deriving DecidableEq

/-! ## The index -/

/-- The fields of an index. Source: `research/candidate_conclusions.py` `CandidateConclusionIndex`. -/
structure ConclusionIndexFields where
  entries : List CandidateConclusion
  instrumentId : String
  trustedGeneration : String
  windowDays : ℤ
  windows : ℤ
  schemaVersion : ℤ := 1
  deriving DecidableEq

/-- `_CANONICAL_OKX_SWAP_ID`: `[A-Z0-9]+-USDT-SWAP`. -/
def isCanonicalOkxSwapId (text : String) : Bool :=
  let isLetter := fun c : Char => ('A' ≤ c && c ≤ 'Z') || isAsciiDigit c
  !(text.toList.takeWhile isLetter).isEmpty && text.toList.dropWhile isLetter = "-USDT-SWAP".toList

/-- An entry against its family, and against the costs of the first entry. -/
def checkEntry (shared : FeeAssumption) (entry : CandidateConclusion × FamilySchema) : Except ConclusionError Unit := do
  require (entry.1.protocolVersion = strategyLadderProtocolVersion)
    (.contract "unsupported strategy ladder protocol_version")
  require (entry.1.source = entry.2.source) (.contract (entry.2.family ++ " source does not match strategy-ladder-v1"))
  require (entry.1.feeAssumption = shared) (.contract "all conclusion entries must share one fee assumption")
  require (entry.1.robustnessMetrics.map (fun metric => metric.candidateId) = entry.2.candidateIds)
    (.contract (entry.2.family ++ " candidate ids do not match strategy-ladder-v1"))
  require (entry.1.robustnessMetrics.all fun metric => metric.topN = strategyLadderTopN)
    (.contract "strategy-ladder-v1 requires top_n=5")

/-- The entries of an index. -/
def checkEntries (entries : List CandidateConclusion) : Except ConclusionError Unit := do
  require (entries.map (fun entry => entry.family) = strategyLadderFamilySchema.map FamilySchema.family)
    (.contract ("conclusion families must be exactly ('overnight_seasonality', 'time_series_momentum', 'baseline') " ++
      "in canonical order"))
  let first ← orThrow entries.head? .internal
  let shared := first.feeAssumption
  require (shared.defaultFeeBpsPerSide = strategyLadderDefaultFeeBps &&
      shared.feeGridBpsPerSide = strategyLadderFeeGridBps &&
      shared.slippageGridTicks = strategyLadderSlippageGridTicks)
    (.contract "strategy-ladder-v1 requires its canonical cost grid")
  forEach (checkEntry shared) (entries.zip strategyLadderFamilySchema)

/-- Source: `research/candidate_conclusions.py` `CandidateConclusionIndex.__post_init__`. -/
def ConclusionIndexFields.postInit (f : ConclusionIndexFields) : Except ConclusionError Unit := do
  require (f.schemaVersion = 1) (.contract "unsupported candidate conclusion schema_version")
  require (isCanonicalOkxSwapId f.instrumentId) (.contract "instrument_id must be a canonical OKX USDT swap id")
  require (f.trustedGeneration.toList.any fun c => !isSpace c) (.contract "trusted_generation must be non-empty text")
  require (0 < f.windowDays && 0 < f.windows) (.contract "window_days and windows must be positive integers")
  checkEntries f.entries

/-- An index that passed its checks. Source: `research/candidate_conclusions.py` `CandidateConclusionIndex`. -/
structure CandidateConclusionIndex extends ConclusionIndexFields where
  /-- `__post_init__` passed. -/
  valid : toConclusionIndexFields.postInit = .ok ()
  deriving DecidableEq

section quiet

lemma quiet_conclusion (f : ConclusionFields) : Quiet Contractual f.postInit :=
  quiet_bind quiet_fields fun _ _ => quiet_bind quiet_check fun _ _ => quiet_bind quiet_check fun _ _ => quiet_check

lemma quiet_checkEntries (entries : List CandidateConclusion) : Quiet Contractual (checkEntries entries) := by
  refine quiet_bind quiet_check fun _ hfamilies => ?_
  cases entries with
  | nil =>
      rw [require_eq_ok, decide_eq_true_eq] at hfamilies
      cases hfamilies
  | cons first rest =>
      refine quiet_bind quiet_ok fun _ _ => quiet_bind quiet_check fun _ _ => ?_
      generalize (first :: rest).zip strategyLadderFamilySchema = pairs
      induction pairs with
      | nil => exact quiet_ok
      | cons pair pairs ih =>
          refine quiet_bind ?_ fun _ _ => ih
          exact quiet_bind quiet_check fun _ _ => quiet_bind quiet_check fun _ _ => quiet_bind quiet_check fun _ _ =>
            quiet_bind quiet_check fun _ _ => quiet_check

lemma quiet_conclusionIndex (f : ConclusionIndexFields) : Quiet Contractual f.postInit :=
  quiet_bind quiet_check fun _ _ => quiet_bind quiet_check fun _ _ => quiet_bind quiet_check fun _ _ =>
    quiet_bind quiet_check fun _ _ => quiet_checkEntries f.entries

end quiet

end MuStrategy.Research
