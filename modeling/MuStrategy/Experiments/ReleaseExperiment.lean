import MuStrategy.Experiments.Drawdown
import MuStrategy.Lib.DecimalCanonical
import MuStrategy.Research.ExperimentResults

/-!
# Release experiments

A strategy runs anew on each of three windows of a pinned history, and the metrics of each run are written with
twelve decimals. Floats are exact rationals.

* `quantizedDecimal` — the text of a metric.
* `runReleaseExperiment` — the runs, and their summaries.
* `release_summary_accepted` — a summary passes the checks of a result, and is read back.
-/

namespace MuStrategy.Experiments

open Lib TrustedData Strategy Backtest Research

/-! ## The text of a metric -/

/-- Twelve decimals, half to even, without zeros at the end. `Decimal(str(value))` of a float is its number.
Source: `experiments/release_candidate.py` `_quantized_decimal`. -/
def quantizedDecimal (value : ℚ) : Except ReleaseError String := do
  let quantized := FixedPoint.ofRat 12 value
  require (quantized.coefficient < 10 ^ Decimal.Context.default.prec) (.decimal .invalidOperation)
  if quantized.coefficient = 0 then pure "0"
  else do
    let normal ← raiseAs .decimal (Decimal.Context.default.normalize ⟨quantized.coefficient, -12⟩)
    pure (String.ofList (if quantized.negative then '-' :: normal.format else normal.format))

/-! ## Runs -/

/-- What an experiment raises. -/
inductive ExperimentError where
  /-- `ValueError` of the runner. -/
  | value (text : String)
  | release (error : ReleaseError)
  | strategy (error : StrategyError)

/-- Source: `research/strategy_releases.py` `ExperimentWindow`; it starts where its input does. -/
structure ExperimentWindow where
  role : ExperimentWindowRole
  startMs : ℤ
  endMs : ℤ
  start_nonneg : 0 ≤ startMs
  start_lt_end : startMs < endMs

/-- What the runner reads of the assumptions. The fill models have one member each, so that their checks pass.
Source: `research/strategy_releases.py` `BacktestAssumptionsV1`. -/
structure BacktestAssumptions where
  startingEquity : String
  feeProfile : String
  feeRate : String
  slippageBps : String

/-- Source: `research/historical_data.py` `HistoricalTrustedGeneration`, its field `candles_by_interval`. -/
structure HistoricalTrustedGeneration where
  candlesByInterval : String → List (Candle ℚ)

/-- Source: `experiments/release_candidate.py` `_RELEASE_INTERVAL_MS`. -/
def releaseIntervalMs : List (String × ℤ) := [("15m", 900000), ("1h", 3600000)]

/-- `range(start, stop, step)`. -/
def rangeBy (start stop step : ℤ) : List ℤ :=
  (List.range ((stop - start + step - 1) / step).toNat).map fun index => start + index * step

/-- Source: `research/strategy_releases.py` `validate_release_experiment_assumptions`. -/
def validateRunnerAssumptions (feeProfile : String) (config : StrategyConfig ℚ) (assumptions : BacktestAssumptions) :
    Except ExperimentError Unit := do
  require (assumptions.feeProfile = feeProfile && canonicalDecimal? assumptions.feeRate = some config.feeRate)
    (.value "experiment fee assumptions must match the strategy config")
  require (canonicalDecimal? assumptions.slippageBps = some 0) (.value "v1 experiment requires zero explicit slippage")

/-- The candles of an interval cover a window without a gap. -/
def validateCoverage (candles : List (Candle ℚ)) (interval : String) (intervalMs : ℤ) (window : ExperimentWindow) :
    Except ExperimentError Unit := do
  require ((window.endMs - window.startMs) % intervalMs = 0)
    (.value ("experiment " ++ interval ++ " coverage requires aligned window boundaries"))
  let actualOpens := (candles.map Candle.openTimeMs).filter fun openMs =>
    window.startMs ≤ openMs && openMs < window.endMs
  require (actualOpens.insertionSort (· ≤ ·) = rangeBy window.startMs window.endMs intervalMs)
    (.value ("experiment " ++ interval ++ " coverage must be complete and gap-free for every window"))

/-- Source: `experiments/release_candidate.py` `_validate_runner_windows`. -/
def validateRunnerWindows (generation : HistoricalTrustedGeneration) (windows : List ExperimentWindow) :
    Except ExperimentError Unit := do
  require (windows.map ExperimentWindow.role = PyEnum.members)
    (.value "experiment windows must be TRAIN, VALIDATION, and OUT_OF_SAMPLE")
  require ((windows.zip windows.tail).all fun pair => pair.1.endMs = pair.2.startMs)
    (.value "experiment windows must be contiguous")
  let opens := (generation.candlesByInterval "15m").map Candle.openTimeMs
  let dataStart ← orThrow opens.min? (.value "historical generation has no 15m candles")
  let dataLast ← orThrow opens.max? (.value "historical generation has no 15m candles")
  require ((windows.head?.all fun window => dataStart ≤ window.startMs) &&
      windows.getLast?.all fun window => window.endMs ≤ dataLast + 900000)
    (.value "experiment window is outside pinned data")
  forEach (fun interval => forEach (validateCoverage (generation.candlesByInterval interval.1) interval.1 interval.2)
    windows) releaseIntervalMs

/-- `sum(trade.pnl for trade in trades if trade.pnl > 0)`. -/
def grossProfit (trades : List (Trade ℚ)) : ℚ := ((trades.map Trade.pnl).filter (0 < ·)).sum

/-- `-sum(trade.pnl for trade in trades if trade.pnl < 0)`. -/
def grossLoss (trades : List (Trade ℚ)) : ℚ := -((trades.map Trade.pnl).filter (· < 0)).sum

/-- Source: `models.py` `BacktestResult.total_return_pct`. -/
def totalReturnPct (result : BacktestResult ℚ) : ℚ := result.endingEquity / result.startingEquity - 1

section experiment

variable [Sha256]

/-- The summary of a run. Source: `experiments/release_candidate.py` `run_release_experiment`, the call of
`ExperimentWindowResultV1.create`. -/
def summarize (role : ExperimentWindowRole) (result : BacktestResult ℚ) :
    Except ReleaseError ExperimentWindowResult := do
  let startingEquity ← quantizedDecimal result.startingEquity
  let endingEquity ← quantizedDecimal result.endingEquity
  let profit ← quantizedDecimal (grossProfit result.trades)
  let loss ← quantizedDecimal (grossLoss result.trades)
  let returnPct ← quantizedDecimal (totalReturnPct result)
  let drawdown ← quantizedDecimal (maxDrawdownPct result.equityCurve)
  ExperimentWindowResult.create
    { role, tradeCount := result.trades.length, startingEquity, endingEquity, grossProfit := profit, grossLoss := loss,
      totalReturnPct := returnPct, maxDrawdownPct := drawdown, resultFingerprint := "" }

variable [Eastern]

/-- One window: its candles, the run on them, and its summary. -/
def runExperimentWindow (candles15m candles1h : List (Candle ℚ)) (config : StrategyConfig ℚ) (startingEquity : ℚ)
    (window : ExperimentWindow) : Except ExperimentError ExperimentWindowResult := do
  let segment15m := candles15m.filter fun bar => window.startMs ≤ bar.openTimeMs && bar.openTimeMs < window.endMs
  let segment1h := candles1h.filter fun bar =>
    window.startMs ≤ bar.openTimeMs && bar.openTimeMs + 3600000 ≤ window.endMs
  require (!segment15m.isEmpty && !segment1h.isEmpty)
    (.value ("experiment window " ++ PyEnum.value window.role ++ " has no required candles"))
  let context ← raiseAs .strategy (buildHourlyContext segment15m segment1h)
  let result ← raiseAs .strategy (runBacktest segment15m context config startingEquity)
  raiseAs .release (summarize window.role result)

/-- Source: `experiments/release_candidate.py` `run_release_experiment`. The fee profile is the one of the
configuration. -/
def runReleaseExperiment (generation : HistoricalTrustedGeneration) (feeProfile : String) (config : StrategyConfig ℚ)
    (windows : List ExperimentWindow) (assumptions : BacktestAssumptions) :
    Except ExperimentError (List ExperimentWindowResult) := do
  validateRunnerAssumptions feeProfile config assumptions
  validateRunnerWindows generation windows
  let startingEquity ← orThrow (canonicalDecimal? assumptions.startingEquity) (.value "could not convert string to float")
  windows.mapM (runExperimentWindow (generation.candlesByInterval "15m") (generation.candlesByInterval "1h") config
    startingEquity)

end experiment

/-! ## Canonical texts -/

/-- A plain text starts with no minus. -/
lemma plainDecimal_minus {prec : ℕ} {rest : List Char} : plainDecimal? prec (String.ofList ('-' :: rest)) = none := by
  have hminus : isAsciiDigit '-' = false := by decide
  have hsplit : splitDecimal? ('-' :: rest) = none := by
    rw [splitDecimal?, List.dropWhile_cons_of_neg (by simp [hminus])]
    rfl
  rw [plainDecimal?, String.toList_ofList, hsplit]

/-- The text of a normal form, and its opposite. -/
lemma canonicalDecimal_format {d : Decimal} (hdigit : d.coefficient % 10 ≠ 0) (hc : d.coefficient < 10 ^ 28)
    (negative : Bool) : canonicalDecimal? (String.ofList (if negative then '-' :: d.format else d.format)) =
      some (if negative then -d.toRat else d.toRat) := by
  have hplain := Decimal.plainDecimal_format hdigit hc
  have hne : d.toRat ≠ 0 := fun hzero => hdigit (by rw [Decimal.toRat_eq_zero.mp hzero])
  cases negative with
  | true =>
      have hlist : (String.ofList ('-' :: d.format)).toList = '-' :: d.format := String.toList_ofList
      rw [if_pos rfl, if_pos rfl]
      simp only [canonicalDecimal?, hlist, hplain, Option.bind_some, if_neg hne]
  | false =>
      rw [if_neg (by decide), if_neg (by decide), canonicalDecimal?]
      split
      · rename_i rest hrest
        rw [String.toList_ofList] at hrest
        rw [hrest, plainDecimal_minus] at hplain
        cases hplain
      · exact hplain

/-- The text of a positive number is plain. -/
lemma plainDecimal_of_canonical {text : String} {q : ℚ} (h : canonicalDecimal? text = some q) (hpos : 0 < q) :
    plainDecimal? 28 text = some q := by
  unfold canonicalDecimal? at h
  split at h
  · rename_i rest hrest
    obtain ⟨p, hp, h⟩ := Option.bind_eq_some_iff.mp h
    split at h
    · cases h
    · have hp0 : 0 ≤ p := by
        unfold plainDecimal? at hp
        split at hp
        · cases hp
        · dsimp only at hp
          split at hp
          · cases hp
          · rw [← Option.some.inj hp]
            positivity
      have := Option.some.inj h
      linarith
  · exact h

lemma ofRat_coefficient (x : ℚ) : (FixedPoint.ofRat 12 x).coefficient = (roundHalfEven (x * 10 ^ 12)).natAbs := rfl

/-- A metric of ordinary size has a coefficient that the context keeps. -/
lemma coefficient_lt {x : ℚ} (hx : |x| ≤ 10 ^ 13) : (FixedPoint.ofRat 12 x).coefficient < 10 ^ 26 := by
  have hnear := abs_roundHalfEven_sub_le (x * 10 ^ 12)
  have htriangle := abs_sub_abs_le_abs_sub (roundHalfEven (x * 10 ^ 12) : ℚ) (x * 10 ^ 12)
  have hscaled : |x * 10 ^ 12| ≤ 10 ^ 13 * 10 ^ 12 := by
    rw [abs_mul, abs_of_pos (by norm_num : (0 : ℚ) < 10 ^ 12)]
    exact mul_le_mul_of_nonneg_right hx (by norm_num)
  have hcast : ((FixedPoint.ofRat 12 x).coefficient : ℚ) = |(roundHalfEven (x * 10 ^ 12) : ℚ)| := by
    rw [ofRat_coefficient, Nat.cast_natAbs, Int.cast_abs]
  have hlt : ((FixedPoint.ofRat 12 x).coefficient : ℚ) < 10 ^ 26 := by
    rw [hcast]
    calc |(roundHalfEven (x * 10 ^ 12) : ℚ)| ≤ 1 / 2 + |x * 10 ^ 12| := sub_le_iff_le_add.mp (htriangle.trans hnear)
      _ ≤ 1 / 2 + 10 ^ 13 * 10 ^ 12 := by gcongr
      _ < 10 ^ 26 := by norm_num
  exact_mod_cast hlt

/-- What is written is the normal form of a number that is not zero. -/
lemma quantizedDecimal_normal {x : ℚ} (hx : |x| ≤ 10 ^ 13) (hne : (FixedPoint.ofRat 12 x).coefficient ≠ 0) :
    ∃ d : Decimal, d.coefficient % 10 ≠ 0 ∧ d.coefficient < 10 ^ 28 ∧
      d.toRat = (FixedPoint.ofRat 12 x).coefficient / 10 ^ 12 ∧
      quantizedDecimal x = .ok (String.ofList (if (FixedPoint.ofRat 12 x).negative then '-' :: d.format else d.format)) := by
  have hlt := coefficient_lt hx
  obtain ⟨c, hc⟩ : ∃ c, (FixedPoint.ofRat 12 x).coefficient = c := ⟨_, rfl⟩
  rw [hc] at hne hlt ⊢
  have hvalue : (⟨c, -12⟩ : Decimal).toRat = c / 10 ^ 12 := by
    rw [Decimal.toRat, div_eq_mul_inv, ← zpow_natCast, ← zpow_neg]
    rfl
  have hone : (1 : ℚ) ≤ c := by exact_mod_cast Nat.one_le_iff_ne_zero.mpr hne
  have hupper : (c : ℚ) < 10 ^ 26 := by exact_mod_cast hlt
  have hwithin : Decimal.Within 14 (⟨c, -12⟩ : Decimal).toRat := by
    rw [hvalue]
    refine ⟨?_, ?_⟩
    · rw [le_div_iff₀ (by norm_num)]
      exact (by norm_num : (10 : ℚ) ^ (-14 : ℤ) * 10 ^ 12 ≤ 1).trans hone
    · rw [div_le_iff₀ (by norm_num)]
      exact hupper.le.trans (by norm_num)
  obtain ⟨d, hd, hvalue', hdigit, hprec⟩ := Decimal.Context.normalize_spec
    (hwithin.normal Decimal.Context.default (by decide))
    ⟨c, -12, hlt.trans (by decide), rfl⟩
  refine ⟨d, hdigit, hprec, hvalue'.trans hvalue, ?_⟩
  have hsmall : c < 10 ^ Decimal.Context.default.prec := hlt.trans (by decide)
  unfold quantizedDecimal
  dsimp only
  rw [hc, decide_eq_true hsmall, require_true, ok_bind, if_neg hne, hd]
  rfl

/-- **The text of a metric is canonical**, and reads as the rounded metric. -/
theorem quantizedDecimal_spec {x : ℚ} (hx : |x| ≤ 10 ^ 13) :
    ∃ text, quantizedDecimal x = .ok text ∧ canonicalDecimal? text = some (FixedPoint.ofRat 12 x).toRat := by
  by_cases hzero : (FixedPoint.ofRat 12 x).coefficient = 0
  · refine ⟨"0", ?_, ?_⟩
    · unfold quantizedDecimal
      dsimp only
      rw [hzero, if_pos rfl]
      rfl
    · have hvalue : (FixedPoint.ofRat 12 x).toRat = 0 := by
        unfold FixedPoint.toRat
        rw [hzero]
        simp
      rw [hvalue]
      decide +kernel
  · obtain ⟨d, hdigit, hprec, hvalue, htext⟩ := quantizedDecimal_normal hx hzero
    refine ⟨_, htext, ?_⟩
    rw [canonicalDecimal_format hdigit hprec, hvalue]
    unfold FixedPoint.toRat
    congr 1
    split_ifs
    · ring
    · rfl

/-- **A canonical text is written again**: a number with twelve decimals has one text. -/
theorem quantizedDecimal_of_canonical {text : String} {q : ℚ} {n : ℕ} (h : canonicalDecimal? text = some q) (hpos : 0 < q)
    (hq : q ≤ 10 ^ 13) (hplaces : q * 10 ^ 12 = n) :
    quantizedDecimal q = .ok text ∧ (FixedPoint.ofRat 12 q).toRat = q := by
  have hcoefficient : (FixedPoint.ofRat 12 q).coefficient = n := by
    rw [ofRat_coefficient, hplaces, ← Int.cast_natCast, roundHalfEven_intCast, Int.natAbs_natCast]
  have hnegative : (FixedPoint.ofRat 12 q).negative = false := decide_eq_false (not_lt.mpr hpos.le)
  have hvalue : (n : ℚ) / 10 ^ 12 = q := by
    rw [← hplaces]
    field_simp
  have hne : n ≠ 0 := by
    rintro rfl
    rw [Nat.cast_zero, zero_div] at hvalue
    exact hpos.ne hvalue
  constructor
  · obtain ⟨d, hdigit, -, hd, htext⟩ := quantizedDecimal_normal (abs_le.mpr ⟨by linarith, hq⟩) (hcoefficient.trans_ne hne)
    obtain ⟨d', hdigit', hd', rfl⟩ :=
      Decimal.eq_format_of_plainDecimal (plainDecimal_of_canonical h hpos) hpos.ne'
    rw [hcoefficient, hvalue] at hd
    rw [htext, hnegative, if_neg (by decide), Decimal.normal_unique hdigit hdigit' (hd.trans hd'.symm)]
  · unfold FixedPoint.toRat
    rw [hnegative, hcoefficient, if_neg (by decide), hvalue]

/-! ## The checks of a result -/

/-- An operation on numbers of ordinary size. -/
lemma decimal_near {x : ℚ} (hx : |x| ≤ 10 ^ 13) : ∃ y, decimal x = .ok y ∧ |y - x| ≤ 1 / 10 ^ 13 := by
  obtain ⟨y, hy, hnear⟩ := Decimal.Context.round_near (hx.trans (by norm_num))
  refine ⟨y, by rw [decimal, hy]; rfl, hnear.trans ?_⟩
  rw [div_le_div_iff₀ (by norm_num) (by norm_num)]
  have : ((10 : ℚ) ^ 13 + 1) * 10 ^ 13 ≤ 1 * 10 ^ 27 := by norm_num
  nlinarith

/-- **Rounded metrics agree** within the tolerance: each is rounded by half a unit of the twelfth decimal, and each
operation by less. -/
lemma agree_ok {m : ExperimentWindowResultFields.Metrics} {ending profit loss : ℚ} {tradeCount : ℤ}
    (hstart : 1 ≤ m.startingEquity) (hstart' : m.startingEquity ≤ 10 ^ 12) (hending : 0 ≤ ending)
    (hending' : ending ≤ 10 ^ 12) (hprofit : 0 ≤ profit) (hloss : loss ≤ 10 ^ 12) (hnet : ending - m.startingEquity = profit - loss)
    (he : |m.endingEquity - ending| ≤ 1 / 2 / 10 ^ 12) (hp : |m.grossProfit - profit| ≤ 1 / 2 / 10 ^ 12)
    (hl : |m.grossLoss - loss| ≤ 1 / 2 / 10 ^ 12)
    (hr : |m.totalReturnPct - (ending / m.startingEquity - 1)| ≤ 1 / 2 / 10 ^ 12)
    (hzero : tradeCount = 0 → m.endingEquity = m.startingEquity ∧ m.grossProfit = 0 ∧ m.grossLoss = 0 ∧
      m.totalReturnPct = 0 ∧ m.maxDrawdownPct = 0)
    (hcount : ((if 0 < m.grossProfit then 1 else 0) + if 0 < m.grossLoss then 1 else 0 : ℤ) ≤ tradeCount) :
    m.agree tradeCount = .ok () := by
  have hpos : 0 < m.startingEquity := by linarith
  -- the quotient of the rounded ending is as near as the rounded ending is
  have hratio : |m.endingEquity / m.startingEquity - ending / m.startingEquity| ≤ 1 / 2 / 10 ^ 12 := by
    rw [← sub_div, abs_div, abs_of_pos hpos]
    exact (div_le_self (abs_nonneg _) hstart).trans he
  have hexact : |ending / m.startingEquity| ≤ 10 ^ 12 := by
    rw [abs_of_nonneg (div_nonneg hending hpos.le)]
    exact (div_le_self hending hstart).trans hending'
  obtain ⟨rounded, hrounded⟩ : ∃ rounded, rounded = m.endingEquity / m.startingEquity := ⟨_, rfl⟩
  obtain ⟨exact', hexact'⟩ : ∃ exact', exact' = ending / m.startingEquity := ⟨_, rfl⟩
  rw [← hrounded, ← hexact'] at hratio
  rw [← hexact'] at hexact hr
  rw [abs_le] at hratio hexact he hp hl hr
  obtain ⟨ratio, hratioOk, hratioNear⟩ := @decimal_near rounded (abs_le.mpr ⟨by linarith, by linarith⟩)
  rw [abs_le] at hratioNear
  obtain ⟨expected, hexpectedOk, hexpectedNear⟩ := @decimal_near (ratio - 1) (abs_le.mpr ⟨by linarith, by linarith⟩)
  rw [abs_le] at hexpectedNear
  obtain ⟨returnGap, hreturnOk, hreturnNear⟩ := @decimal_near (m.totalReturnPct - expected)
    (abs_le.mpr ⟨by linarith, by linarith⟩)
  rw [abs_le] at hreturnNear
  obtain ⟨change, hchangeOk, hchangeNear⟩ := @decimal_near (m.endingEquity - m.startingEquity)
    (abs_le.mpr ⟨by linarith, by linarith⟩)
  rw [abs_le] at hchangeNear
  obtain ⟨gross, hgrossOk, hgrossNear⟩ := @decimal_near (m.grossProfit - m.grossLoss)
    (abs_le.mpr ⟨by linarith, by linarith⟩)
  rw [abs_le] at hgrossNear
  obtain ⟨changeGap, hgapOk, hgapNear⟩ := @decimal_near (change - gross) (abs_le.mpr ⟨by linarith, by linarith⟩)
  rw [abs_le] at hgapNear
  have htolerance : resultArithmeticTolerance = 1 / 10 ^ 11 := by norm_num [resultArithmeticTolerance]
  have hreturn : |returnGap| ≤ resultArithmeticTolerance := by
    rw [htolerance, abs_le]
    constructor <;> linarith
  have hgap : |changeGap| ≤ resultArithmeticTolerance := by
    rw [htolerance, abs_le]
    constructor <;> linarith
  have hnone : (tradeCount ≠ 0 || [change, m.grossProfit, m.grossLoss, m.totalReturnPct, m.maxDrawdownPct].all
      fun value => |value| ≤ resultArithmeticTolerance) = true := by
    rw [Bool.or_eq_true, decide_eq_true_eq, or_iff_not_imp_left, not_not]
    intro hcount
    obtain ⟨hsame, hprofit0, hloss0, hreturn0, hdrawdown0⟩ := hzero hcount
    rw [hsame, sub_self, sub_zero] at hchangeNear
    have hchange : |change| ≤ resultArithmeticTolerance := by
      rw [htolerance, abs_le]
      constructor <;> linarith
    have hnonneg : 0 ≤ resultArithmeticTolerance := by norm_num [resultArithmeticTolerance]
    rw [hprofit0, hloss0, hreturn0, hdrawdown0]
    simp [hchange, hnonneg]
  unfold ExperimentWindowResultFields.Metrics.agree
  rw [← hrounded, hratioOk, ok_bind, hexpectedOk, ok_bind, hreturnOk, ok_bind, decide_eq_true hreturn, require_true,
    ok_bind, hchangeOk, ok_bind, hgrossOk, ok_bind, hgapOk, ok_bind, decide_eq_true hgap, require_true, ok_bind, hnone,
    require_true, ok_bind]
  dsimp only
  rw [decide_eq_true hcount, require_true]

/-! ## The metrics of a run -/

/-- Gains and losses are apart. -/
lemma gains_and_losses (xs : List ℚ) : xs.sum = (xs.filter (0 < ·)).sum + (xs.filter (· < 0)).sum ∧
    0 ≤ (xs.filter (0 < ·)).sum ∧ (xs.filter (· < 0)).sum ≤ 0 ∧
    (xs.filter (0 < ·)).length + (xs.filter (· < 0)).length ≤ xs.length := by
  induction xs with
  | nil => simp
  | cons x xs ih =>
      obtain ⟨hsum, hgain, hloss, hlength⟩ := ih
      rcases lt_trichotomy x 0 with hneg | rfl | hpos
      · rw [List.filter_cons_of_neg (by simpa using hneg.le), List.filter_cons_of_pos (by simpa using hneg)]
        simp only [List.sum_cons, List.length_cons]
        exact ⟨by linarith, hgain, by linarith, by omega⟩
      · rw [List.filter_cons_of_neg (by simp), List.filter_cons_of_neg (by simp)]
        simp only [List.sum_cons, List.length_cons, zero_add]
        exact ⟨hsum, hgain, hloss, by omega⟩
      · rw [List.filter_cons_of_pos (by simpa using hpos), List.filter_cons_of_neg (by simpa using hpos.le)]
        simp only [List.sum_cons, List.length_cons]
        exact ⟨by linarith, by linarith, hloss, by omega⟩

/-- Each direction of a profit or loss is one trade at least. -/
lemma directional_le (trades : List (Trade ℚ)) :
    ((if 0 < grossProfit trades then 1 else 0) + if 0 < grossLoss trades then 1 else 0 : ℤ) ≤ trades.length := by
  obtain ⟨-, -, -, hlength⟩ := gains_and_losses (trades.map Trade.pnl)
  rw [List.length_map] at hlength
  have hprofit : 0 < grossProfit trades → 0 < ((trades.map Trade.pnl).filter (0 < ·)).length := by
    intro h
    rw [List.length_pos_iff]
    intro hnil
    simp [grossProfit, hnil] at h
  have hloss : 0 < grossLoss trades → 0 < ((trades.map Trade.pnl).filter (· < 0)).length := by
    intro h
    rw [List.length_pos_iff]
    intro hnil
    simp [grossLoss, hnil] at h
  split_ifs with h₁ h₂ h₂
  · have := hprofit h₁
    have := hloss h₂
    omega
  · have := hprofit h₁
    omega
  · have := hloss h₂
    omega
  · omega

lemma toRat_ofRat_zero : (FixedPoint.ofRat 12 0).toRat = 0 := by
  rw [FixedPoint.toRat_ofRat, zero_mul, show roundHalfEven 0 = 0 from roundHalfEven_intCast 0]
  simp

/-- A metric that is written as positive is positive. -/
lemma pos_of_toRat_pos {x : ℚ} (h : 0 < (FixedPoint.ofRat 12 x).toRat) : 0 < x := by
  by_contra hx
  have hmono := @FixedPoint.toRat_ofRat_mono 12 x 0 (not_lt.mp hx)
  dsimp only at hmono
  rw [toRat_ofRat_zero] at hmono
  linarith

/-- The range of a metric. -/
lemma toRat_ofRat_mem {x : ℚ} {low high : ℤ} (hlow : (low : ℚ) ≤ x) (hhigh : x ≤ high) :
    (low : ℚ) ≤ (FixedPoint.ofRat 12 x).toRat ∧ (FixedPoint.ofRat 12 x).toRat ≤ high := by
  have hint : ∀ n : ℤ, (FixedPoint.ofRat 12 (n : ℚ)).toRat = n := by
    intro n
    have hpow : (10 : ℚ) ^ 12 = ((10 ^ 12 : ℤ) : ℚ) := by norm_num
    rw [FixedPoint.toRat_ofRat, hpow, ← Int.cast_mul, roundHalfEven_intCast]
    push_cast
    field_simp
  rw [← hint low, ← hint high]
  exact ⟨FixedPoint.toRat_ofRat_mono hlow, FixedPoint.toRat_ofRat_mono hhigh⟩

section accepted

variable [Sha256]

/-- The summary of metrics that agree is made. -/
lemma summarize_ok {role : ExperimentWindowRole} {result : BacktestResult ℚ} {text : String} {n : ℕ}
    (htext : canonicalDecimal? text = some result.startingEquity) (hstart : 1 ≤ result.startingEquity)
    (hstart' : result.startingEquity ≤ 10 ^ 12) (hplaces : result.startingEquity * 10 ^ 12 = n)
    (hending : 0 ≤ result.endingEquity) (hending' : result.endingEquity ≤ 10 ^ 12)
    (hnet : result.endingEquity = result.startingEquity + (result.trades.map Trade.pnl).sum)
    (hloss' : grossLoss result.trades ≤ 10 ^ 12) (hdrawdown : -1 ≤ maxDrawdownPct result.equityCurve)
    (hflat : result.trades = [] → maxDrawdownPct result.equityCurve = 0) :
    ∃ summary, summarize role result = .ok summary ∧ summary.startingEquity = text := by
  obtain ⟨hsum, hprofit, hloss, -⟩ := gains_and_losses (result.trades.map Trade.pnl)
  have hgross : result.endingEquity - result.startingEquity = grossProfit result.trades - grossLoss result.trades := by
    rw [hnet, hsum, grossProfit, grossLoss]
    ring
  replace hprofit : 0 ≤ grossProfit result.trades := hprofit
  replace hloss : 0 ≤ grossLoss result.trades := neg_nonneg.mpr hloss
  have hpos : 0 < result.startingEquity := by linarith
  have hdrawdown' := maxDrawdownPct_nonpos result.equityCurve
  have hratio : 0 ≤ result.endingEquity / result.startingEquity := div_nonneg hending hpos.le
  have hratio' := (div_le_self hending hstart).trans hending'
  obtain ⟨hstartText, hstartValue⟩ := quantizedDecimal_of_canonical htext hpos (hstart'.trans (by norm_num)) hplaces
  obtain ⟨endingText, hendingText, hendingValue⟩ := @quantizedDecimal_spec result.endingEquity
    (abs_le.mpr ⟨by linarith, by linarith⟩)
  obtain ⟨profitText, hprofitText, hprofitValue⟩ := @quantizedDecimal_spec (grossProfit result.trades)
    (abs_le.mpr ⟨by linarith, by linarith⟩)
  obtain ⟨lossText, hlossText, hlossValue⟩ := @quantizedDecimal_spec (grossLoss result.trades)
    (abs_le.mpr ⟨by linarith, by linarith⟩)
  obtain ⟨returnText, hreturnText, hreturnValue⟩ := @quantizedDecimal_spec (totalReturnPct result)
    (abs_le.mpr ⟨by rw [totalReturnPct]; linarith, by rw [totalReturnPct]; linarith⟩)
  obtain ⟨drawdownText, hdrawdownText, hdrawdownValue⟩ := @quantizedDecimal_spec (maxDrawdownPct result.equityCurve)
    (abs_le.mpr ⟨by linarith, by linarith⟩)
  -- the texts are in their ranges
  have hnonneg : ∀ x : ℚ, 0 ≤ x → 0 ≤ (FixedPoint.ofRat 12 x).toRat := fun x hx => by
    rw [← toRat_ofRat_zero]
    exact FixedPoint.toRat_ofRat_mono hx
  obtain ⟨hdeep, hshallow⟩ := @toRat_ofRat_mem (maxDrawdownPct result.equityCurve) (-1) 0 (by push_cast; exact hdrawdown)
    (by push_cast; exact hdrawdown')
  push_cast at hdeep hshallow
  obtain ⟨m, hm⟩ : ∃ m : ExperimentWindowResultFields.Metrics, m = ⟨result.startingEquity,
    (FixedPoint.ofRat 12 result.endingEquity).toRat, (FixedPoint.ofRat 12 (grossProfit result.trades)).toRat,
    (FixedPoint.ofRat 12 (grossLoss result.trades)).toRat, (FixedPoint.ofRat 12 (totalReturnPct result)).toRat,
    (FixedPoint.ofRat 12 (maxDrawdownPct result.equityCurve)).toRat⟩ := ⟨_, rfl⟩
  obtain ⟨f, hf⟩ : ∃ f : ExperimentWindowResultFields, f =
    { role, tradeCount := result.trades.length, startingEquity := text, endingEquity := endingText,
      grossProfit := profitText, grossLoss := lossText, totalReturnPct := returnText, maxDrawdownPct := drawdownText,
      resultFingerprint := "" } := ⟨_, rfl⟩
  have hmetrics : f.metrics = .ok m := by
    rw [hf, hm]
    unfold ExperimentWindowResultFields.metrics
    dsimp only
    rw [requireDecimalRange_ok htext (by simpa using ⟨hpos.le, hpos.ne⟩) (by simp), ok_bind,
      requireDecimalRange_ok hendingValue (by simpa using hnonneg _ hending) (by simp), ok_bind,
      requireDecimalRange_ok hprofitValue (by simpa using hnonneg _ hprofit) (by simp), ok_bind,
      requireDecimalRange_ok hlossValue (by simpa using hnonneg _ hloss) (by simp), ok_bind,
      requireDecimalRange_ok hreturnValue (by simp) (by simp), ok_bind,
      requireDecimalRange_ok hdrawdownValue (by simpa using hdeep) (by simpa using hshallow), ok_bind]
    rfl
  have hagree : m.agree f.tradeCount = .ok () := by
    have hnear : ∀ x : ℚ, |(FixedPoint.ofRat 12 x).toRat - x| ≤ 1 / 2 / 10 ^ 12 := FixedPoint.abs_toRat_ofRat_sub_le
    have hcount := directional_le result.trades
    rw [hm, hf]
    refine @agree_ok _ result.endingEquity (grossProfit result.trades) (grossLoss result.trades) _ hstart hstart' hending
      hending' hprofit hloss' hgross (hnear _) (hnear _) (hnear _) (hnear _) (fun hzero => ?_) (hcount.trans' ?_)
    · -- without trades nothing moved
      have hlength : (result.trades.length : ℤ) = 0 := hzero
      have hnone : result.trades = [] := List.length_eq_zero_iff.mp (by exact_mod_cast hlength)
      have hsame : result.endingEquity = result.startingEquity := by rw [hnet, hnone]; simp
      have hprofit0 : grossProfit result.trades = 0 := by rw [hnone]; rfl
      have hloss0 : grossLoss result.trades = 0 := by rw [hnone]; rfl
      have hreturn0 : totalReturnPct result = 0 := by rw [totalReturnPct, hsame, div_self hpos.ne', sub_self]
      dsimp only
      rw [hprofit0, hloss0, hreturn0, hflat hnone, hsame, toRat_ofRat_zero]
      exact ⟨hstartValue, rfl, rfl, rfl, rfl⟩
    · have hle : ∀ x : ℚ, (if 0 < (FixedPoint.ofRat 12 x).toRat then (1 : ℤ) else 0) ≤ if 0 < x then 1 else 0 := by
        intro x
        split_ifs with h₁ h₂
        · exact le_rfl
        · exact absurd (pos_of_toRat_pos h₁) h₂
        · exact zero_le_one
        · exact le_rfl
      exact add_le_add (hle _) (hle _)
  obtain ⟨summary, hsummary, hsame⟩ := ExperimentWindowResult.create_ok (f := f) (by rw [hf]) (by rw [hf]; simp)
    hmetrics hagree
  refine ⟨summary, ?_, by rw [hsame, hf]⟩
  rw [summarize, hstartText, ok_bind, hendingText, ok_bind, hprofitText, ok_bind, hlossText, ok_bind, hreturnText, ok_bind,
    hdrawdownText, ok_bind, ← hf]
  exact hsummary

/-- **The summary of a run is accepted**, reports the starting equity as it was assumed, and is read back. -/
theorem release_summary_accepted [Eastern] {text : String} {startingEquity : ℚ} {n : ℕ} {candles : List (Candle ℚ)}
    {context : ℤ → Option String} {config : StrategyConfig ℚ} {result : BacktestResult ℚ}
    (htext : canonicalDecimal? text = some startingEquity) (hlow : 1 ≤ startingEquity) (hhigh : startingEquity ≤ 10 ^ 12)
    (hplaces : startingEquity * 10 ^ 12 = n) (hrun : runBacktest candles context config startingEquity = .ok result)
    (hsamples : ∀ sample ∈ result.equityCurve, 0 ≤ sample.2 ∧ sample.2 ≤ 10 ^ 12)
    (hloss : grossLoss result.trades < 10 ^ 12) (role : ExperimentWindowRole) :
    ∃ summary, summarize role result = .ok summary ∧ summary.startingEquity = text ∧
      ExperimentWindowResult.fromDict summary.toDict = .ok summary := by
  obtain ⟨hstarting, hending, hcurve⟩ := ending_of_run hrun
  have hbounds : 0 ≤ result.endingEquity ∧ result.endingEquity ≤ 10 ^ 12 := by
    rcases hcurve with ⟨-, hsame⟩ | ⟨-, last, -, hlast, -, hvalue⟩
    · rw [hsame]
      exact ⟨by linarith, hhigh⟩
    · rw [← hvalue]
      exact hsamples last (List.mem_of_getLast? hlast)
  rw [← hstarting] at htext hlow hhigh hplaces hending
  obtain ⟨summary, hsummary, hsame⟩ := @summarize_ok _ role result text n htext hlow hhigh hplaces hbounds.1 hbounds.2
    hending hloss.le (neg_one_le_maxDrawdownPct fun sample hsample => (hsamples sample hsample).1)
    (fun hnone => maxDrawdownPct_flat (flat_of_no_trades hrun hnone))
  exact ⟨summary, hsummary, hsame, ExperimentWindowResult.fromDict_toDict summary⟩

end accepted

/-- The summary of a morning with an entry and an add. -/
theorem release_summary_accepted_demo :
    let _ := mondayTime
    let _ := zeroSha256
    ∃ result summary, runBacktest morning (fun _ => none) morningConfig 1000 = .ok result ∧
      summarize .train result = .ok summary ∧ summary.startingEquity = "1000" ∧
      ExperimentWindowResult.fromDict summary.toDict = .ok summary := by
  intro zone hash
  obtain ⟨result, hrun⟩ := exists_eq_ok_of_isOk
    (by decide +kernel : (runBacktest morning (fun _ => none) morningConfig (1000 : ℚ)).isOk = true)
  have hbounds : ((runBacktest morning (fun _ => none) morningConfig (1000 : ℚ)).toOption.all fun result =>
      (result.equityCurve.all fun sample => 0 ≤ sample.2 && sample.2 ≤ 10 ^ 12) &&
        grossLoss result.trades < 10 ^ 12) = true := by
    decide +kernel
  rw [hrun] at hbounds
  simp only [Except.toOption, Option.all_some, Bool.and_eq_true, List.all_eq_true, decide_eq_true_eq] at hbounds
  obtain ⟨summary, hsummary, hsame, hread⟩ := release_summary_accepted
    (show canonicalDecimal? "1000" = some 1000 by decide +kernel) (by norm_num) (by norm_num)
    (show (1000 : ℚ) * 10 ^ 12 = ((1000000000000000 : ℕ) : ℚ) by norm_num) hrun hbounds.1 hbounds.2 .train
  exact ⟨result, summary, hrun, hsummary, hsame, hread⟩

end MuStrategy.Experiments
