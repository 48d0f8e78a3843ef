import MuStrategy.Experiments.WindowSummaries
import MuStrategy.Research.CandidateConclusions
import MuStrategy.Research.Robustness

/-!
# Published metrics

The metrics of a candidate are rounded to eight decimals, each by itself, and then checked against each other.

* `candidateRobustness` — the metrics that are published of a candidate.
* `metrics_of_texts`, `agreeConcentration_of_share` — metrics that pass the checks.
* `agrees_of_summary`, `agreeConcentration_of_summary` — those of a summary are such.
* `candidateRobustness_eq_ok` — no metrics of a candidate are refused.
-/

namespace MuStrategy.Experiments

open Lib TrustedData Strategy Backtest Research

/-! ## What is published -/

section publication

variable {T : Type}

/-- Source: `strategy_ladder.py` `CandidateSummary.win_rate`. -/
def CandidateSummary.winRate (pnl : T → ℚ) (summary : CandidateSummary ℚ T) : ℚ :=
  if summary.trades.isEmpty then 0 else (summary.trades.countP fun trade => 0 < pnl trade : ℕ) / summary.trades.length

/-- A cell as it is published. -/
def stressCellReturn (cell : StressCell ℚ T) : Except ConclusionError StressCellReturn :=
  construct StressCellFields.postInit StressCellReturn.mk
    ⟨cell.feeBpsPerSide, cell.slippageTicks, formatCandidateMetric cell.summary.totalReturnPct⟩

/-- The arguments of `CandidateRobustness`. -/
def robustnessFields (pnl : T → ℚ) (definition : CandidateDefinition) (summary : CandidateSummary ℚ T)
    (concentration : TradeConcentration) (stressGridReturns : List StressCellReturn) (survivesStressGrid : Bool) :
    RobustnessFields where
  candidateId := definition.candidateId
  totalReturnPct := formatCandidateMetric summary.totalReturnPct
  maxDrawdownPct := formatCandidateMetric summary.maxDrawdownPct
  tradeCount := summary.tradeCount
  winRate := formatCandidateMetric (summary.winRate pnl)
  topN := strategyLadderTopN
  topNTradeConcentration :=
    if 0 < (candidateMetric summary.totalReturnPct).toRat then
      concentration.topNShareOfNetPnl.map formatCandidateMetric
    else none
  stressGridReturns := stressGridReturns
  survivesStressGrid := survivesStressGrid

/-- Source: `strategy_ladder.py` `_candidate_robustness`. -/
def candidateRobustness (pnl : T → ℚ) (evaluation : CandidateEvaluation ℚ T) :
    Except ConclusionError CandidateRobustness := do
  let defaultCell ← orThrow evaluation.defaultCell .internal
  let summary := defaultCell.summary
  let concentration ← raiseAs (fun _ => .internal) (tradeConcentration pnl summary.trades strategyLadderTopN)
  let stressGridReturns ← evaluation.stressGrid.mapM stressCellReturn
  let survivesStressGrid ← orThrow evaluation.survivesStressGrid .internal
  construct RobustnessFields.postInit CandidateRobustness.mk
    (robustnessFields pnl evaluation.definition summary concentration stressGridReturns survivesStressGrid)

end publication

/-! ## Metrics that pass -/

section metrics

variable {f : RobustnessFields} {m : RobustnessMetrics}

/-- The texts of metrics read as them. -/
lemma metrics_of_texts (hid : f.candidateId ≠ "") (hreturn : f.totalReturnPct = m.totalReturn.text)
    (hdrawdown : f.maxDrawdownPct = m.maxDrawdown.text) (hwin : f.winRate = m.winRate.text)
    (hshare : f.topNTradeConcentration = m.concentration.map FixedPoint.text)
    (hcounts : 0 ≤ f.tradeCount ∧ 0 ≤ f.topN) (hnonpos : m.maxDrawdown.toRat ≤ 0)
    (hrate : 0 ≤ m.winRate.toRat ∧ m.winRate.toRat ≤ 1)
    (hnonneg : ∀ concentration, m.concentration = some concentration → 0 ≤ concentration.toRat) :
    f.metrics = .ok m := by
  have hfields : forEach requiredField [("candidate_id", f.candidateId), ("total_return_pct", f.totalReturnPct),
      ("max_drawdown_pct", f.maxDrawdownPct), ("win_rate", f.winRate)] = .ok () := by
    simp [forEach_eq_ok, requiredField, hid, hreturn, hdrawdown, hwin, FixedPoint.text_ne_empty]
  have hread : f.readConcentration = .ok m.concentration := by
    rw [RobustnessFields.readConcentration, hshare]
    cases hconcentration : m.concentration with
    | none => rfl
    | some concentration =>
        rw [Option.map_some]
        dsimp only
        rw [canonicalDecimalMetric_text, ok_bind, decide_eq_true (hnonneg concentration hconcentration), require_true,
          ok_bind]
        rfl
  have htext : f.topNTradeConcentration ≠ some "" := by
    rw [hshare]
    cases m.concentration with
    | none => simp
    | some concentration => simpa using concentration.text_ne_empty
  rw [RobustnessFields.metrics, hfields, ok_bind, decide_eq_true hcounts.1, decide_eq_true hcounts.2, Bool.and_self,
    require_true, ok_bind, decide_eq_true htext, require_true, ok_bind, hreturn, canonicalDecimalMetric_text, ok_bind,
    hdrawdown, canonicalDecimalMetric_text, ok_bind, decide_eq_false (not_lt.mpr hnonpos), Bool.not_false, require_true,
    ok_bind, hwin, canonicalDecimalMetric_text, ok_bind, decide_eq_true hrate.1, decide_eq_true hrate.2, Bool.and_self,
    require_true, ok_bind, hread, ok_bind]
  rfl

/-- Fewer winners are covered better. -/
lemma coverage_anti {w w' : ℕ} (hw : 0 < w) (hle : w ≤ w') :
    ((min 5 w' : ℕ) : ℚ) / w' ≤ ((min 5 w : ℕ) : ℚ) / w := by
  have hpos : (0 : ℚ) < w := by exact_mod_cast hw
  have hpos' : (0 : ℚ) < w' := by exact_mod_cast hw.trans_le hle
  rw [div_le_div_iff₀ hpos' hpos]
  have hnat : min 5 w' * w ≤ min 5 w * w' := by
    rcases Nat.le_total w 5 with hfew | hmany
    · rw [min_eq_right hfew, Nat.mul_comm w w']
      exact Nat.mul_le_mul_right w (min_le_right 5 w')
    · rw [min_eq_left hmany]
      exact Nat.mul_le_mul (min_le_left 5 w') hle
  exact_mod_cast hnat

/-- **A share of the first winners** passes, however its win rate was rounded. -/
lemma agreeConcentration_of_share {w n : ℕ} {share : ℚ} (hcount : f.tradeCount = n) (htop : f.topN = 5) (hw : 0 < w)
    (hle : w ≤ n) (hrate : m.winRate = .ofRat 8 (w / n)) (hshare : m.concentration = some (.ofRat 8 share))
    (hcover : ((min 5 w : ℕ) : ℚ) / w ≤ share) (hall : w = n → share ≤ 1) : f.agreeConcentration m = .ok () := by
  have hmem : (w : ℤ) ∈ compatibleWinCounts m.winRate n 0 none := by
    refine ⟨by simp, by simpa using hle, ?_⟩
    rw [hrate, Int.cast_natCast]
  obtain ⟨least, greatest, hleast, hgreatest⟩ := exists_least_greatest ⟨_, hmem⟩
  have hbounds := bounds_eq_some_iff.mpr ⟨hleast, hgreatest⟩
  obtain ⟨most, rfl⟩ : ∃ most : ℕ, greatest = most := ⟨greatest.toNat, by have := hgreatest.1.1; omega⟩
  have hmost : w ≤ most := by exact_mod_cast hgreatest.2 hmem
  have hquotient : quantizedFraction? (min f.topN (most : ℤ)).toNat (most : ℤ).toNat =
      some (.ofRat 8 (((min 5 most : ℕ) : ℚ) / most)) := by
    have hmin : (min f.topN (most : ℤ)).toNat = min 5 most := by rw [htop]; omega
    rw [hmin, Int.toNat_natCast, quantizedFraction?, if_neg (by omega),
      quantizedQuotient_eq (min_le_right 5 most) (by omega)
        (by rw [max_eq_right (min_le_right 5 most)]; exact mul_lt_pow_countPrecision most)]
  have hfloor : (FixedPoint.ofRat 8 (((min 5 most : ℕ) : ℚ) / most)).toRat ≤ (FixedPoint.ofRat 8 share).toRat :=
    FixedPoint.toRat_ofRat_mono ((coverage_anti hw hmost).trans hcover)
  have htopZero : (!(decide (f.topN = 0) && decide ((FixedPoint.ofRat 8 share).toRat ≠ 0))) = true := by
    rw [htop]
    rfl
  have hceiling : (!(decide (least = f.tradeCount) && decide (1 < (FixedPoint.ofRat 8 share).toRat))) = true := by
    rw [RobustnessFields.not_and_eq_true, decide_eq_true_eq, decide_eq_true_eq, not_lt]
    intro heq
    have hleast' : least ≤ w := hleast.2 hmem
    have hone : (FixedPoint.ofRat 8 share).toRat ≤ (FixedPoint.ofRat 8 ((1 : ℤ) : ℚ)).toRat := by
      refine FixedPoint.toRat_ofRat_mono ?_
      rw [Int.cast_one]
      exact hall (by omega)
    rwa [FixedPoint.toRat_ofRat_intCast, Int.cast_one] at hone
  rw [RobustnessFields.agreeConcentration, hshare]
  dsimp only
  rw [htopZero, require_true, ok_bind, hcount, Int.toNat_natCast, hbounds, orThrow_some, ok_bind]
  dsimp only
  rw [hquotient, orThrow_some, ok_bind, decide_eq_false (not_lt.mpr hfloor), Bool.not_false, require_true, ok_bind,
    ← hcount, hceiling, require_true]

end metrics

/-! ## The metrics of a summary -/

section summaries

variable {T : Type} {pnl : T → ℚ} {summary : CandidateSummary ℚ T} {f : RobustnessFields}

/-- The trades that win. -/
def CandidateSummary.wins (pnl : T → ℚ) (summary : CandidateSummary ℚ T) : ℕ :=
  summary.trades.countP fun trade => 0 < pnl trade

/-- The numbers that are published of a summary. -/
def summaryMetrics (pnl : T → ℚ) (summary : CandidateSummary ℚ T) : RobustnessMetrics where
  totalReturn := candidateMetric summary.totalReturnPct
  maxDrawdown := candidateMetric summary.maxDrawdownPct
  winRate := candidateMetric (summary.winRate pnl)
  concentration :=
    if 0 < (candidateMetric summary.totalReturnPct).toRat then
      some (candidateMetric (topNPnl pnl summary.trades 5 / summary.netPnl pnl))
    else none

lemma wins_le (pnl : T → ℚ) (summary : CandidateSummary ℚ T) : summary.wins pnl ≤ summary.tradeCount :=
  List.countP_le_length

lemma length_rankedWinners : (rankedWinners pnl summary.trades).length = summary.wins pnl := by
  rw [(rankedWinners_perm pnl summary.trades).length_eq, ← List.countP_eq_length_filter, List.countP_map]
  rfl

lemma winRate_eq (pnl : T → ℚ) (summary : CandidateSummary ℚ T) :
    summary.winRate pnl = ((summary.wins pnl : ℤ) : ℚ) / summary.tradeCount := by
  rw [CandidateSummary.winRate, Int.cast_natCast]
  split
  · rename_i hnone
    rw [CandidateSummary.tradeCount, List.isEmpty_iff.mp hnone, List.length_nil, Nat.cast_zero, div_zero]
  · rfl

/-- The wins of a summary are compatible with its win rate. -/
lemma wins_mem {minimum : ℤ} {maximum : Option ℤ} (hmin : minimum ≤ summary.wins pnl)
    (hmax : (summary.wins pnl : ℤ) ≤ maximum.getD summary.tradeCount) :
    (summary.wins pnl : ℤ) ∈
      compatibleWinCounts (candidateMetric (summary.winRate pnl)) summary.tradeCount minimum maximum := by
  have hle := wins_le pnl summary
  refine ⟨by omega, by omega, ?_⟩
  rw [winRate_eq]
  rfl

/-- A gain has a winner. -/
lemma wins_pos (h : 0 < summary.netPnl pnl) : 0 < summary.wins pnl := by
  rw [← length_rankedWinners]
  exact winners_ne_nil h

/-- A loss has a trade that does not win. -/
lemma wins_lt (h : summary.netPnl pnl < 0) : summary.wins pnl < summary.tradeCount := by
  refine (wins_le pnl summary).lt_of_ne fun hall => absurd h (not_lt.mpr (List.sum_nonneg fun x hx => ?_))
  obtain ⟨trade, htrade, rfl⟩ := List.mem_map.mp hx
  exact (of_decide_eq_true (List.countP_eq_length.mp hall trade htrade)).le

lemma SummaryKeeps.netPnl_pos (h : SummaryKeeps pnl summary)
    (hgain : 0 < (candidateMetric summary.totalReturnPct).toRat) : 0 < summary.netPnl pnl := by
  obtain ⟨starting, hstarting, hreturn⟩ := h.earned
  have hpos := FixedPoint.pos_of_toRat_ofRat_pos hgain
  rw [hreturn] at hpos
  exact (div_pos_iff_of_pos_right hstarting).mp hpos

lemma SummaryKeeps.netPnl_neg (h : SummaryKeeps pnl summary)
    (hloss : (candidateMetric summary.totalReturnPct).toRat < 0) : summary.netPnl pnl < 0 := by
  obtain ⟨starting, hstarting, hreturn⟩ := h.earned
  have hneg := FixedPoint.neg_of_toRat_ofRat_neg hloss
  rw [hreturn] at hneg
  exact (div_neg_iff.mp hneg).elim (fun hsides => absurd hsides.2 (not_lt.mpr hstarting.le)) And.left

/-- **The numbers of a summary agree**, although each was rounded by itself. -/
lemma agrees_of_summary (h : SummaryKeeps pnl summary) (hcount : f.tradeCount = summary.tradeCount)
    (hsurvives : f.survivesStressGrid = true →
      0 < summary.tradeCount ∧ 0 ≤ (candidateMetric summary.totalReturnPct).toRat) :
    f.Agrees (summaryMetrics pnl summary) where
  traded hs := by have := (hsurvives hs).1; omega
  gained hs := (hsurvives hs).2
  idle hzero := by
    have htrades : summary.trades = [] := List.length_eq_zero_iff.mp (by rw [hcount] at hzero; exact_mod_cast hzero)
    obtain ⟨hreturn, hdrawdown⟩ := h.idle htrades
    have hrate : summary.winRate pnl = 0 := by
      rw [CandidateSummary.winRate, htrades]
      rfl
    have hmetric : (candidateMetric 0).toRat = 0 := FixedPoint.toRat_ofRat_zero 8
    simp only [summaryMetrics, hreturn, hdrawdown, hrate, hmetric, lt_irrefl, if_false, and_self]
  counted := by
    rw [hcount, Int.toNat_natCast]
    exact hasCompatibleWinCount_of_mem (wins_mem (Int.natCast_nonneg _) (Int.ofNat_le.mpr (wins_le pnl summary)))
  won _ hgain := by
    have hwon := wins_pos (h.netPnl_pos hgain)
    rw [hcount, Int.toNat_natCast]
    exact hasCompatibleWinCount_of_mem (wins_mem (by omega) (Int.ofNat_le.mpr (wins_le pnl summary)))
  lost _ hloss := by
    have hlost := wins_lt (h.netPnl_neg hloss)
    rw [hcount, Int.toNat_natCast]
    exact hasCompatibleWinCount_of_mem (wins_mem (Int.natCast_nonneg _) (by rw [Option.getD_some]; omega))
  deep _ := FixedPoint.toRat_ofRat_mono h.deep
  concentrated := by
    simp only [summaryMetrics]
    split <;> simp_all

/-- **The share of a summary** is between its bounds, although it was rounded. -/
lemma agreeConcentration_of_summary (h : SummaryKeeps pnl summary) (hcount : f.tradeCount = summary.tradeCount)
    (htop : f.topN = 5) : f.agreeConcentration (summaryMetrics pnl summary) = .ok () := by
  by_cases hgain : 0 < (candidateMetric summary.totalReturnPct).toRat
  · have hnet := h.netPnl_pos hgain
    have hcover := @coverage_le_share _ _ _ 5 hnet
    rw [length_rankedWinners] at hcover
    refine agreeConcentration_of_share hcount htop (wins_pos hnet) (wins_le pnl summary) ?_ (if_pos hgain) hcover ?_
    · exact congrArg candidateMetric ((winRate_eq pnl summary).trans (by rw [Int.cast_natCast]))
    · exact fun hall => share_le_one hnet (length_rankedWinners.trans hall)
  · rw [RobustnessFields.agreeConcentration, show (summaryMetrics pnl summary).concentration = none from if_neg hgain]
    rfl

/-- The win rate of a summary is between zero and one. -/
lemma winRate_bounds (pnl : T → ℚ) (summary : CandidateSummary ℚ T) :
    0 ≤ (candidateMetric (summary.winRate pnl)).toRat ∧ (candidateMetric (summary.winRate pnl)).toRat ≤ 1 := by
  have hone := FixedPoint.toRat_ofRat_intCast 8 1
  rw [Int.cast_one] at hone
  rw [winRate_eq, Int.cast_natCast]
  refine ⟨FixedPoint.toRat_ofRat_nonneg (by positivity), ?_⟩
  rw [← hone]
  refine FixedPoint.toRat_ofRat_mono (div_le_one_of_le₀ ?_ (Nat.cast_nonneg _))
  exact_mod_cast wins_le pnl summary

/-- **The texts of a summary** read as its numbers. -/
lemma metrics_of_summary (h : SummaryKeeps pnl summary) (hid : f.candidateId ≠ "")
    (hreturn : f.totalReturnPct = formatCandidateMetric summary.totalReturnPct)
    (hdrawdown : f.maxDrawdownPct = formatCandidateMetric summary.maxDrawdownPct)
    (hwin : f.winRate = formatCandidateMetric (summary.winRate pnl)) (hcount : f.tradeCount = summary.tradeCount)
    (htop : f.topN = 5)
    (hshare : f.topNTradeConcentration = (summaryMetrics pnl summary).concentration.map FixedPoint.text) :
    f.metrics = .ok (summaryMetrics pnl summary) := by
  refine metrics_of_texts hid hreturn hdrawdown hwin hshare ⟨by rw [hcount]; exact Int.natCast_nonneg _, by omega⟩
    (FixedPoint.toRat_ofRat_nonpos h.nonpos) (winRate_bounds pnl summary) fun concentration hsome => ?_
  by_cases hgain : 0 < (candidateMetric summary.totalReturnPct).toRat
  · rw [show (summaryMetrics pnl summary).concentration = some _ from if_pos hgain] at hsome
    obtain rfl := Option.some.inj hsome
    exact FixedPoint.toRat_ofRat_nonneg (div_nonneg (topNPnl_nonneg _ _ _) (h.netPnl_pos hgain).le)
  · rw [show (summaryMetrics pnl summary).concentration = none from if_neg hgain] at hsome
    cases hsome

end summaries

/-! ## The cells -/

section cells

variable {T : Type} {pnl : T → ℚ} {f : RobustnessFields} {grid : List (StressCell ℚ T)} {cell : StressCell ℚ T}

/-- The costs of a cell. -/
def StressCell.costs (cell : StressCell ℚ T) : ℤ × ℤ := (cell.feeBpsPerSide, cell.slippageTicks)

/-- The fields of a cell that are published. -/
def StressCell.published (cell : StressCell ℚ T) : StressCellFields :=
  ⟨cell.feeBpsPerSide, cell.slippageTicks, formatCandidateMetric cell.summary.totalReturnPct⟩

/-- The number of a published return. -/
lemma survives_published (cell : StressCell ℚ T) :
    (FixedPoint.ofText? 8 cell.published.totalReturnPct).any (fun value => 0 ≤ value.toRat) =
      decide (0 ≤ (candidateMetric cell.summary.totalReturnPct).toRat) := by
  change (FixedPoint.ofText? 8 (FixedPoint.text _)).any _ = _
  rw [FixedPoint.ofText?_text]
  rfl

/-- What is published of a grid agrees with it. -/
lemma agreeCells_of_published
    (hreturns : f.stressGridReturns.map StressCellReturn.toStressCellFields = grid.map StressCell.published)
    (hgrid : grid.map StressCell.costs = stressCosts)
    (hdefault : grid.find? (fun cell => cell.feeBpsPerSide = defaultFeeBps && cell.slippageTicks = 0) = some cell)
    (hreturn : f.totalReturnPct = formatCandidateMetric cell.summary.totalReturnPct)
    (hsurvives : f.survivesStressGrid = (decide (0 < f.tradeCount) &&
      grid.all fun cell => 0 ≤ (candidateMetric cell.summary.totalReturnPct).toRat)) : f.agreeCells = .ok () := by
  have horder : f.stressGridReturns.map (fun cell => (cell.feeBpsPerSide, cell.slippageTicks)) =
      strategyLadderStressCellOrder := by
    have hmapped := congrArg
      (List.map fun fields : StressCellFields => (fields.feeBpsPerSide, fields.slippageTicks)) hreturns
    rw [List.map_map, List.map_map] at hmapped
    exact hmapped.trans hgrid
  obtain ⟨default, hfound⟩ := RobustnessFields.find_defaultCell horder
  have hpublished : default.toStressCellFields = cell.published := by
    have hmapped := congrArg (List.find? fun fields : StressCellFields =>
      fields.feeBpsPerSide = defaultFeeBps && fields.slippageTicks = 0) hreturns
    rw [List.find?_map, List.find?_map] at hmapped
    have hleft : (some default).map StressCellReturn.toStressCellFields = (some cell).map StressCell.published := by
      rw [← hfound, ← hdefault]
      exact hmapped
    exact Option.some.inj hleft
  have hall : (f.stressGridReturns.all fun cell =>
      (FixedPoint.ofText? 8 cell.totalReturnPct).any fun value => 0 ≤ value.toRat) =
        grid.all fun cell => 0 ≤ (candidateMetric cell.summary.totalReturnPct).toRat := by
    have hmapped := congrArg (List.all · fun fields : StressCellFields =>
      (FixedPoint.ofText? 8 fields.totalReturnPct).any fun value => 0 ≤ value.toRat) hreturns
    rw [List.all_map, List.all_map] at hmapped
    refine hmapped.trans (congrArg grid.all (funext fun cell => ?_))
    exact survives_published cell
  have hsame : default.totalReturnPct = f.totalReturnPct := by
    rw [hpublished, hreturn]
    rfl
  rw [RobustnessFields.agreeCells, decide_eq_true horder, require_true, ok_bind, hfound, orThrow_some, ok_bind, hall,
    decide_eq_true hsame, require_true, ok_bind]
  dsimp only
  rw [decide_eq_true hsurvives, require_true]

lemma stressCellReturn_eq_ok (hcosts : cell.costs ∈ stressCosts) :
    ∃ published, stressCellReturn cell = .ok published ∧ published.toStressCellFields = cell.published := by
  have hnonneg : 0 ≤ cell.feeBpsPerSide ∧ 0 ≤ cell.slippageTicks :=
    (by decide : ∀ costs ∈ stressCosts, 0 ≤ costs.1 ∧ 0 ≤ costs.2) _ hcosts
  have hvalid : cell.published.postInit = .ok () := by
    rw [StressCellFields.postInit, decide_eq_true (show 0 ≤ cell.published.feeBpsPerSide from hnonneg.1),
      decide_eq_true (show 0 ≤ cell.published.slippageTicks from hnonneg.2), Bool.and_self, require_true, ok_bind,
      requiredField, decide_eq_true (show cell.published.totalReturnPct ≠ "" from FixedPoint.text_ne_empty _),
      require_true, ok_bind, show cell.published.totalReturnPct = (candidateMetric cell.summary.totalReturnPct).text from rfl,
      canonicalDecimalMetric_text, ok_bind]
    rfl
  exact ⟨⟨cell.published, hvalid⟩, construct_eq_ok hvalid, rfl⟩

/-- What the results of a mapped computation have, as it is known of each. -/
lemma map_eq_of_mapM {ε α β γ : Type} {g : α → Except ε β} {k : β → γ} {k' : α → γ} {xs : List α} {ys : List β}
    (h : xs.mapM g = .ok ys) (hg : ∀ x ∈ xs, ∀ y, g x = .ok y → k y = k' x) : ys.map k = xs.map k' := by
  have hpairs := forall₂_of_mapM_eq_ok h
  clear h
  induction hpairs with
  | nil => rfl
  | cons hxy _ ih =>
      rw [List.map_cons, List.map_cons, hg _ List.mem_cons_self _ hxy, ih fun x hx => hg x (List.mem_cons_of_mem _ hx)]

variable {evaluation : CandidateEvaluation ℚ T}

/-- **The metrics of a candidate pass.** -/
lemma candidateRobustness_eq_ok (hid : evaluation.definition.candidateId ≠ "")
    (hgrid : evaluation.stressGrid.map StressCell.costs = stressCosts) (hdefault : evaluation.defaultCell = some cell)
    (hkeeps : SummaryKeeps pnl cell.summary) :
    ∃ metric, candidateRobustness pnl evaluation = .ok metric ∧ metric.candidateId = evaluation.definition.candidateId ∧
      metric.topN = 5 ∧ evaluation.survivesStressGrid = some metric.survivesStressGrid := by
  have hpublish : ∀ cell ∈ evaluation.stressGrid, ∃ published, stressCellReturn cell = .ok published ∧
      published.toStressCellFields = cell.published := by
    intro cell hcell
    exact stressCellReturn_eq_ok (hgrid ▸ List.mem_map_of_mem hcell)
  obtain ⟨cells, hcells⟩ := exists_mapM_eq_ok fun cell hcell => (hpublish cell hcell).imp fun _ h => h.1
  have hreturns : cells.map StressCellReturn.toStressCellFields = evaluation.stressGrid.map StressCell.published := by
    refine map_eq_of_mapM hcells fun cell hcell published hpublished => ?_
    obtain ⟨published', hpublished', hfields⟩ := hpublish cell hcell
    rw [Except.ok.inj (hpublished.symm.trans hpublished'), hfields]
  obtain ⟨survives, hsurvives⟩ : ∃ survives, survives = (decide (0 < cell.summary.tradeCount) &&
      evaluation.stressGrid.all fun cell => 0 ≤ (candidateMetric cell.summary.totalReturnPct).toRat) := ⟨_, rfl⟩
  have hsurvival : evaluation.survivesStressGrid = some survives := by
    rw [CandidateEvaluation.survivesStressGrid, hdefault, hsurvives]
    rfl
  have hconcentration : ∃ concentration,
      tradeConcentration pnl cell.summary.trades strategyLadderTopN = .ok concentration ∧
      (0 < cell.summary.netPnl pnl → concentration.topNShareOfNetPnl =
        some (topNPnl pnl cell.summary.trades 5 / cell.summary.netPnl pnl)) :=
    ⟨_, rfl, fun hnet => if_pos hnet⟩
  obtain ⟨concentration, hconcentration, hshare⟩ := hconcentration
  have hmember : cell ∈ evaluation.stressGrid := List.mem_of_find?_eq_some hdefault
  obtain ⟨fields, hfields⟩ : ∃ fields, fields =
      robustnessFields pnl evaluation.definition cell.summary concentration cells survives := ⟨_, rfl⟩
  have hcount : fields.tradeCount = cell.summary.tradeCount := by rw [hfields, robustnessFields]
  have htext : fields.topNTradeConcentration = (summaryMetrics pnl cell.summary).concentration.map FixedPoint.text := by
    rw [hfields, robustnessFields, summaryMetrics]
    dsimp only
    split
    · rename_i hgain
      rw [hshare (hkeeps.netPnl_pos hgain)]
      rfl
    · rfl
  have hvalid : fields.postInit = .ok () := by
    have hmetrics : fields.metrics = .ok (summaryMetrics pnl cell.summary) :=
      metrics_of_summary hkeeps (hfields ▸ hid) (hfields ▸ rfl) (hfields ▸ rfl) (hfields ▸ rfl) hcount (hfields ▸ rfl)
        htext
    have hagree : fields.agree (summaryMetrics pnl cell.summary) = .ok () := by
      refine fields.agree_eq_ok.mpr (agrees_of_summary hkeeps hcount fun hs => ?_)
      rw [hfields, robustnessFields, hsurvives, Bool.and_eq_true, decide_eq_true_eq] at hs
      exact ⟨hs.1, of_decide_eq_true (List.all_eq_true.mp hs.2 cell hmember)⟩
    have hpasses : fields.agreeCells = .ok () := by
      refine @agreeCells_of_published _ _ _ cell (hfields ▸ hreturns) hgrid hdefault (hfields ▸ rfl) ?_
      rw [hcount, hfields, robustnessFields, hsurvives]
      simp only [Int.natCast_pos]
    rw [RobustnessFields.postInit, hmetrics, ok_bind, hagree, ok_bind,
      agreeConcentration_of_summary hkeeps hcount (hfields ▸ rfl), ok_bind, hpasses]
  refine ⟨⟨fields, hvalid⟩, ?_, ?_, ?_, ?_⟩
  · rw [candidateRobustness, hdefault, orThrow_some, ok_bind]
    dsimp only
    rw [hconcentration, raiseAs_ok, ok_bind, hcells, ok_bind, hsurvival, orThrow_some, ok_bind, ← hfields]
    exact construct_eq_ok hvalid
  all_goals subst hfields
  · rfl
  · rfl
  · exact hsurvival

end cells

end MuStrategy.Experiments
