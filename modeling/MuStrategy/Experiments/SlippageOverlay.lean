import MuStrategy.Backtest.SamplingOrder
import MuStrategy.Experiments.StrategyLadder

/-!
# The slippage overlay

The baseline is not run at other prices: its trades are charged ticks afterwards. The cost of a sample is attributed by
its label, and the samples of one bar share a label.

* `applyAdverseTickSlippage` — the overlay; `slippageCostAt` — the cost of a sample.
* `dueCost`, `netEquity_slipped` — what the slipped prices cost the account of a sample.
* `slippageCostAt_eq` — the label charges an open trade for its exit, too, on the bar of the exit.
* `slippage_overlay_iff` — the samples stay net equity exactly if no trade was open at a sample of that bar.
-/

namespace MuStrategy.Experiments

open Lib TrustedData Strategy Backtest

/-! ## The overlay -/

section overlay

variable {F : Type} [Number F]

/-- A fill, some ticks above its price. -/
def slipFill (slip : F) (fill : Fill F) : Fill F := { fill with price := fill.price + slip }

/-- A trade, some ticks above its entry and below its exit. -/
def slipTrade (slip leverage : F) (trade : Trade F) : Trade F :=
  let slippageCost := 2 * slip * unitsOf trade.fills
  let committedMargin := Number.sum (trade.fills.map Fill.notional) / leverage
  let adjustedPnl := trade.pnl - slippageCost
  { trade with
    entryPrice := trade.entryPrice + slip
    exitPrice := trade.exitPrice - slip
    fills := trade.fills.map (slipFill slip)
    pnl := adjustedPnl
    returnPct := if isZero committedMargin then 0 else adjustedPnl / committedMargin }

/-- What a trade is charged at a time. -/
def slippageCostOf (timeMs : ℤ) (slip : F) (trade : Trade F) : F :=
  if trade.exitTimeMs ≤ timeMs then 2 * slip * unitsOf trade.fills
  else slip * unitsOf (trade.fills.filter fun fill => fill.timeMs ≤ timeMs)

/-- Source: `strategy_ladder.py` `_slippage_cost_at`. -/
def slippageCostAt (trades : List (Trade F)) (timeMs : ℤ) (slip : F) : F :=
  trades.foldl (fun cost trade => cost + slippageCostOf timeMs slip trade) 0

/-- The step of the loop over the trades. -/
def adjustTrade (slip leverage : F) (s : List (Trade F) × F) (trade : Trade F) :
    Except LadderError (List (Trade F) × F) := do
  require (!decide (trade.exitPrice - slip ≤ 0)) (.value "slipped exit price must be positive")
  let adjusted := slipTrade slip leverage trade
  pure (s.1 ++ [adjusted], s.2 + adjusted.pnl)

/-- Source: `strategy_ladder.py` `apply_adverse_tick_slippage`. -/
def applyAdverseTickSlippage (result : BacktestResult F) (tickSize : F) (slippageTicks : ℤ) (leverage : F) :
    Except LadderError (BacktestResult F) := do
  require (!(decide (slippageTicks < 0) || decide (leverage ≤ 0)))
    (.value "slippage_ticks must be non-negative and leverage must be positive")
  if slippageTicks = 0 then pure result
  else do
    let slip := tickSize * (slippageTicks.toNat : F)
    let (trades, equity) ← result.trades.foldlM (adjustTrade slip leverage) ([], result.startingEquity)
    pure ⟨result.startingEquity, equity, trades,
      result.equityCurve.map fun sample => (sample.1, sample.2 - slippageCostAt result.trades sample.1 slip)⟩

end overlay

/-! ## Accounts at slipped prices -/

/-- The account of a sample, at slipped prices. -/
def slipped (slip leverage : ℚ) (m : Moment) : Moment :=
  { m with closed := m.closed.map (slipTrade slip leverage), openFills := m.openFills.map (slipFill slip) }

/-- What the slipped prices cost the account of a sample: two ticks for a closed trade, one for an open fill. -/
def dueCost (slip : ℚ) (m : Moment) : ℚ :=
  (m.closed.map fun trade => 2 * slip * unitsOf trade.fills).sum + slip * unitsOf m.openFills

/-- What a result is to keep at slipped prices. -/
structure KeepsNetEquity (slip leverage startingEquity : ℚ) (history : List Moment) (adjusted : BacktestResult ℚ) :
    Prop where
  samples : adjusted.equityCurve = history.map fun m =>
    (m.timeMs, (slipped slip leverage m).netEquity startingEquity)
  lastSample : adjusted.equityCurve.getLast?.map Prod.snd = some adjusted.endingEquity
  ending : adjusted.endingEquity = settledEquity startingEquity adjusted.trades

section costs

variable {slip leverage startingEquity : ℚ} {m : Moment} {trades later : List (Trade ℚ)} {trade : Trade ℚ} {timeMs : ℤ}

lemma sum_slipped_pnl (slip leverage : ℚ) (trades : List (Trade ℚ)) :
    ((trades.map (slipTrade slip leverage)).map Trade.pnl).sum =
      (trades.map Trade.pnl).sum - (trades.map fun trade => 2 * slip * unitsOf trade.fills).sum := by
  induction trades with
  | nil => simp
  | cons trade trades ih =>
      simp only [List.map_cons, List.sum_cons, ih, slipTrade]
      ring

lemma sum_slipped_gain (slip mark : ℚ) (fills : List (Fill ℚ)) :
    ((fills.map (slipFill slip)).map fun fill => (mark - fill.price) * fill.units).sum =
      (fills.map fun fill => (mark - fill.price) * fill.units).sum - slip * unitsOf fills := by
  induction fills with
  | nil => simp [unitsOf, Number.sum]
  | cons fill fills ih =>
      simp only [List.map_cons, List.sum_cons, ih, slipFill, unitsOf, Number.sum]
      ring

/-- **What the slipped prices cost.** -/
lemma netEquity_slipped : (slipped slip leverage m).netEquity startingEquity =
    m.netEquity startingEquity - dueCost slip m := by
  have hfees : (m.openFills.map (slipFill slip)).map Fill.fee = m.openFills.map Fill.fee := by
    rw [List.map_map]
    rfl
  simp only [Moment.netEquity, settledEquity, slipped, sum_slipped_pnl, sum_slipped_gain, hfees, dueCost]
  ring

lemma slippageCostAt_eq_sum (trades : List (Trade ℚ)) (timeMs : ℤ) (slip : ℚ) :
    slippageCostAt trades timeMs slip = (trades.map (slippageCostOf timeMs slip)).sum := by
  have hfold : ∀ cost : ℚ, trades.foldl (fun cost trade => cost + slippageCostOf timeMs slip trade) cost =
      cost + (trades.map (slippageCostOf timeMs slip)).sum := by
    induction trades with
    | nil => simp
    | cons trade trades ih =>
        intro cost
        rw [List.foldl_cons, ih, List.map_cons, List.sum_cons, add_assoc]
  exact (hfold 0).trans (zero_add _)

/-- A trade that is entered later is not charged. -/
lemma slippageCostOf_after (h : EntersAfter timeMs trade) : slippageCostOf timeMs slip trade = 0 := by
  have hnone : (trade.fills.filter fun fill => fill.timeMs ≤ timeMs) = [] :=
    List.filter_eq_nil_iff.mpr fun fill hfill => by simpa using h.fills fill hfill
  rw [slippageCostOf, if_neg (not_le.mpr h.exit), hnone]
  simp [unitsOf, Number.sum]

lemma sum_after (h : ∀ trade ∈ trades, EntersAfter timeMs trade) : (trades.map (slippageCostOf timeMs slip)).sum = 0 := by
  refine List.sum_eq_zero fun cost hcost => ?_
  obtain ⟨trade, htrade, rfl⟩ := List.mem_map.mp hcost
  exact slippageCostOf_after (h trade htrade)

/-- A closed trade is charged for its entry and its exit. -/
lemma sum_past (h : Past m) : (m.closed.map (slippageCostOf m.timeMs slip)).sum =
    (m.closed.map fun trade => 2 * slip * unitsOf trade.fills).sum := by
  refine congrArg List.sum (List.map_congr_left fun trade htrade => ?_)
  rw [slippageCostOf, if_pos (h.closed trade htrade)]

/-- With nothing open the label charges what is due. -/
lemma slippageCostAt_flat (hpast : Past m) (hahead : Ahead m later) (hflat : m.openFills = []) :
    slippageCostAt (m.closed ++ later) m.timeMs slip = dueCost slip m := by
  rw [slippageCostAt_eq_sum, List.map_append, List.sum_append, sum_past hpast, sum_after (hahead.flat hflat), dueCost,
    hflat]
  simp [unitsOf, Number.sum]

/-- **The label charges an open trade for its exit, too, on the bar of the exit.** -/
lemma slippageCostAt_held (hpast : Past m) (hahead : Ahead m (trade :: later)) (hopen : m.openFills ≠ []) :
    slippageCostAt (m.closed ++ trade :: later) m.timeMs slip =
      dueCost slip m + (if m.timeMs = trade.exitTimeMs then slip * unitsOf trade.fills else 0) := by
  obtain ⟨trade', rest, more, hlater, hfills, hmore, hrest, hexit⟩ := hahead.held hopen
  obtain ⟨rfl, rfl⟩ := List.cons.inj hlater
  rw [slippageCostAt_eq_sum, List.map_append, List.sum_append, sum_past hpast, List.map_cons, List.sum_cons,
    sum_after hrest, dueCost, add_zero, add_assoc]
  congr 1
  rcases hexit with hlt | ⟨htime, rfl, -⟩
  · have hfilled : (trade.fills.filter fun fill => fill.timeMs ≤ m.timeMs) = m.openFills := by
      rw [hfills, List.filter_append, List.filter_eq_self.mpr fun fill hfill => by simpa using hpast.openFills fill hfill,
        List.filter_eq_nil_iff.mpr fun fill hfill => by simpa using hmore fill hfill, List.append_nil]
    rw [slippageCostOf, if_neg (not_le.mpr hlt), hfilled, if_neg hlt.ne, add_zero]
  · rw [List.append_nil] at hfills
    rw [slippageCostOf, if_pos htime.ge, if_pos htime, hfills]
    ring

end costs

/-! ## The overlay of a run -/

section runs

variable {slip leverage startingEquity tickSize : ℚ} {slippageTicks : ℤ} {candles : List (Candle ℚ)}
  {result adjusted : BacktestResult ℚ} {history : List Moment}

/-- The loop over the trades. -/
lemma foldlM_adjustTrade {trades : List (Trade ℚ)} {s t : List (Trade ℚ) × ℚ}
    (h : trades.foldlM (adjustTrade slip leverage) s = .ok t) :
    t = (s.1 ++ trades.map (slipTrade slip leverage), s.2 + ((trades.map (slipTrade slip leverage)).map Trade.pnl).sum) := by
  induction trades generalizing s with
  | nil =>
      obtain rfl := pure_eq_ok_iff.mp h
      simp
  | cons trade trades ih =>
      rw [List.foldlM_cons] at h
      obtain ⟨u, hu, h⟩ := bind_eq_ok.mp h
      obtain ⟨_, _, hu⟩ := bind_eq_ok.mp hu
      obtain rfl := pure_eq_ok_iff.mp hu
      rw [ih h]
      simp [add_assoc]

/-- The result of an overlay. -/
structure Overlaid (slip : ℚ) (result adjusted : BacktestResult ℚ) : Prop where
  curve : adjusted.equityCurve =
    result.equityCurve.map fun sample => (sample.1, sample.2 - slippageCostAt result.trades sample.1 slip)
  ending : adjusted.endingEquity = settledEquity result.startingEquity adjusted.trades
  pnl : (adjusted.trades.map Trade.pnl).sum =
    (result.trades.map Trade.pnl).sum - (result.trades.map fun trade => 2 * slip * unitsOf trade.fills).sum

lemma slippageCostAt_zero (trades : List (Trade ℚ)) (timeMs : ℤ) : slippageCostAt trades timeMs 0 = 0 := by
  rw [slippageCostAt_eq_sum]
  refine List.sum_eq_zero fun cost hcost => ?_
  obtain ⟨trade, -, rfl⟩ := List.mem_map.mp hcost
  unfold slippageCostOf
  split <;> ring

lemma overlaid_of_overlay (hending : result.endingEquity = settledEquity result.startingEquity result.trades)
    (h : applyAdverseTickSlippage result tickSize slippageTicks leverage = .ok adjusted) :
    0 ≤ slippageTicks ∧ Overlaid (tickSize * (slippageTicks.toNat : ℚ)) result adjusted := by
  obtain ⟨_, hchecked, h⟩ := bind_eq_ok.mp h
  have hticks : 0 ≤ slippageTicks := by
    rw [require_eq_ok, Bool.not_eq_true', Bool.or_eq_false_iff, decide_eq_false_iff_not] at hchecked
    exact not_lt.mp hchecked.1
  refine ⟨hticks, ?_⟩
  by_cases hzero : slippageTicks = 0
  · rw [if_pos hzero] at h
    obtain rfl := pure_eq_ok_iff.mp h
    rw [hzero, Int.toNat_zero, Nat.cast_zero, mul_zero]
    refine ⟨?_, hending, by simp⟩
    simp only [slippageCostAt_zero, sub_zero]
    exact (List.map_id' _).symm
  · rw [if_neg hzero] at h
    obtain ⟨⟨trades, equity⟩, hloop, h⟩ := bind_eq_ok.mp h
    obtain rfl := pure_eq_ok_iff.mp h
    have hadjusted := foldlM_adjustTrade hloop
    rw [List.nil_append, Prod.mk.injEq] at hadjusted
    obtain ⟨rfl, rfl⟩ := hadjusted
    exact ⟨rfl, rfl, sum_slipped_pnl _ _ _⟩

/-- The samples stay net equity exactly if the labels charge what is due. -/
lemma keepsNetEquity_iff_dueCost (hrecorded : Recorded startingEquity candles result history)
    (hstarting : result.startingEquity = startingEquity) (hoverlaid : Overlaid slip result adjusted) :
    KeepsNetEquity slip leverage startingEquity history adjusted ↔
      ∀ m ∈ history, slippageCostAt result.trades m.timeMs slip = dueCost slip m := by
  have hcurve : adjusted.equityCurve = history.map fun m =>
      (m.timeMs, m.netEquity startingEquity - slippageCostAt result.trades m.timeMs slip) := by
    rw [hoverlaid.curve, hrecorded.curve, List.map_map]
    rfl
  constructor
  · intro hkeeps m hm
    have hsamples := hcurve.symm.trans hkeeps.samples
    have hsample := List.map_inj_left.mp hsamples m hm
    rw [Prod.mk.injEq, netEquity_slipped] at hsample
    exact sub_right_injective hsample.2
  · intro hdue
    have hsamples : adjusted.equityCurve = history.map fun m =>
        (m.timeMs, (slipped slip leverage m).netEquity startingEquity) := by
      rw [hcurve]
      refine List.map_congr_left fun m hm => ?_
      rw [netEquity_slipped, hdue m hm]
    refine ⟨hsamples, ?_, hstarting ▸ hoverlaid.ending⟩
    -- the last sample is taken with nothing open
    obtain ⟨last, hlast, hclosed, hflat⟩ := hrecorded.last
    rw [hsamples, List.getLast?_map, hlast, hoverlaid.ending, hstarting]
    simp only [Option.map_some, Moment.netEquity, slipped, hclosed, hflat, List.map_nil, List.sum_nil, add_zero, sub_zero,
      settledEquity, hoverlaid.pnl, sum_slipped_pnl]

/-- The labels charge what is due exactly if no trade was open at a sample of the bar of its exit. -/
lemma dueCost_iff (hrecorded : Recorded startingEquity candles result history) :
    (∀ m ∈ history, slippageCostAt result.trades m.timeMs slip = dueCost slip m) ↔
      ∀ trade ∈ result.trades, SampledOnExitBar trade → slip * unitsOf trade.fills = 0 := by
  constructor
  · intro hdue trade htrade hsampled
    obtain ⟨m, hm, hopen, htime, rest, htrades⟩ := hrecorded.exists_sample htrade hsampled
    obtain ⟨hpast, later, hlater, hahead⟩ := hrecorded.forall_ahead m hm
    obtain rfl : later = trade :: rest := List.append_cancel_left (hlater.symm.trans htrades)
    by_cases hfills : trade.fills = []
    · rw [hfills]
      simp [unitsOf, Number.sum]
    · have hcost := @slippageCostAt_held slip _ _ _ hpast hahead (hopen ▸ hfills)
      rw [← hlater, hdue m hm, if_pos htime] at hcost
      exact left_eq_add.mp hcost
  · intro hnone m hm
    obtain ⟨hpast, later, hlater, hahead⟩ := hrecorded.forall_ahead m hm
    rw [hlater]
    by_cases hopen : m.openFills = []
    · exact slippageCostAt_flat hpast hahead hopen
    · obtain ⟨trade, rest, more, rfl, -, -, -, hexit⟩ := hahead.held hopen
      rw [slippageCostAt_held hpast hahead hopen]
      rcases hexit with hlt | ⟨htime, -, hsampled⟩
      · rw [if_neg hlt.ne, add_zero]
      · have hmem : trade ∈ result.trades := by
          rw [hlater]
          exact List.mem_append_right _ List.mem_cons_self
        rw [if_pos htime, hnone trade hmem hsampled, add_zero]

/-- The samples of an overlay stay net equity exactly if no trade was open at a sample of the bar of its exit. -/
lemma keepsNetEquity_iff [Eastern] {context : ℤ → Option String} {config : StrategyConfig ℚ} (htick : 0 < tickSize)
    (hrun : runBacktest candles context config startingEquity = .ok result)
    (hoverlay : applyAdverseTickSlippage result tickSize slippageTicks leverage = .ok adjusted)
    (hlength : 4 ≤ candles.length) (hrecorded : Recorded startingEquity candles result history) :
    KeepsNetEquity (tickSize * (slippageTicks.toNat : ℚ)) leverage startingEquity history adjusted ↔
      slippageTicks = 0 ∨ ∀ trade ∈ result.trades, SampledOnExitBar trade → unitsOf trade.fills = 0 := by
  have hsettled : result.startingEquity = startingEquity ∧
      result.endingEquity = settledEquity result.startingEquity result.trades := by
    obtain ⟨first, s, -, hwalk, rfl⟩ := runBacktest_eq_ok hlength hrun
    exact ⟨rfl, (finish_account (by rintro rfl; cases hlength) hwalk).1.settled⟩
  obtain ⟨hstarting, hending⟩ := hsettled
  obtain ⟨hticks, hoverlaid⟩ := overlaid_of_overlay hending hoverlay
  rw [keepsNetEquity_iff_dueCost hrecorded hstarting hoverlaid, dueCost_iff hrecorded]
  have hslip : tickSize * (slippageTicks.toNat : ℚ) = 0 ↔ slippageTicks = 0 := by
    rw [mul_eq_zero, or_iff_right htick.ne', Nat.cast_eq_zero]
    omega
  by_cases hzero : slippageTicks = 0
  · rw [hslip.mpr hzero]
    simp [hzero]
  · have hne : tickSize * (slippageTicks.toNat : ℚ) ≠ 0 := fun h => hzero (hslip.mp h)
    simp [hzero, hne]

/-- **The overlay keeps net equity exactly if no trade was open at a sample of the bar of its exit**: at no ticks, or if
every such trade is empty. On candles in order of time the samples of every run are recorded. -/
theorem slippage_overlay_iff [Eastern] {context : ℤ → Option String} {config : StrategyConfig ℚ} (htick : 0 < tickSize)
    (hlength : 4 ≤ candles.length) (hrun : runBacktest candles context config startingEquity = .ok result)
    (hoverlay : applyAdverseTickSlippage result tickSize slippageTicks leverage = .ok adjusted) :
    (Ascending candles → ∃ history, Recorded startingEquity candles result history) ∧
    ∀ history, Recorded startingEquity candles result history →
      (KeepsNetEquity (tickSize * (slippageTicks.toNat : ℚ)) leverage startingEquity history adjusted ↔
        slippageTicks = 0 ∨ ∀ trade ∈ result.trades, SampledOnExitBar trade → unitsOf trade.fills = 0) :=
  ⟨fun hsorted => exists_recorded hlength hsorted hrun, fun _ hrecorded =>
    keepsNetEquity_iff htick hrun hoverlay hlength hrecorded⟩

end runs

/-! ## A morning -/

instance (trade : Trade ℚ) : Decidable (SampledOnExitBar trade) := inferInstanceAs (Decidable (_ ∨ _))

/-- A morning at a tick, which is left open at its end. -/
theorem slippage_overlay_iff_demo :
    let _ := mondayTime
    ∃ result adjusted history, runBacktest morning (fun _ => none) morningConfig 1000 = .ok result ∧
      applyAdverseTickSlippage result 0.1 1 morningConfig.leverage = .ok adjusted ∧
      Recorded 1000 morning result history ∧
      (KeepsNetEquity (0.1 * ((1 : ℤ).toNat : ℚ)) morningConfig.leverage 1000 history adjusted ↔
        (1 : ℤ) = 0 ∨ ∀ trade ∈ result.trades, SampledOnExitBar trade → unitsOf trade.fills = 0) := by
  intro zone
  obtain ⟨result, hrun⟩ := exists_eq_ok_of_isOk
    (show (runBacktest morning (fun _ => none) morningConfig 1000).isOk = true by decide +kernel)
  obtain ⟨adjusted, hoverlay⟩ : ∃ adjusted,
      applyAdverseTickSlippage result 0.1 1 morningConfig.leverage = .ok adjusted := by
    refine exists_eq_ok_of_isOk ?_
    have hboth : ((runBacktest morning (fun _ => none) morningConfig 1000).toOption.all fun result =>
        (applyAdverseTickSlippage result 0.1 1 morningConfig.leverage).isOk) = true := by decide +kernel
    rwa [hrun] at hboth
  have hsorted : Ascending morning := by
    unfold Ascending
    decide +kernel
  obtain ⟨hexists, hkeeps⟩ := slippage_overlay_iff (by norm_num) (by decide) hrun hoverlay
  obtain ⟨history, hrecorded⟩ := hexists hsorted
  exact ⟨result, adjusted, history, hrun, hoverlay, hrecorded, hkeeps history hrecorded⟩

/-- **The close of the last bar is charged for the exit**: the samples of a morning that ends with an open position are
not net equity at a tick. -/
theorem morning_overcharged :
    let _ := mondayTime
    ∃ result adjusted history, runBacktest morning (fun _ => none) morningConfig 1000 = .ok result ∧
      applyAdverseTickSlippage result 0.1 1 morningConfig.leverage = .ok adjusted ∧
      Recorded 1000 morning result history ∧
      ¬KeepsNetEquity (0.1 * ((1 : ℤ).toNat : ℚ)) morningConfig.leverage 1000 history adjusted := by
  intro zone
  obtain ⟨result, hrun⟩ := exists_eq_ok_of_isOk
    (show (runBacktest morning (fun _ => none) morningConfig 1000).isOk = true by decide +kernel)
  have hboth : ((runBacktest morning (fun _ => none) morningConfig 1000).toOption.all fun result =>
      (applyAdverseTickSlippage result 0.1 1 morningConfig.leverage).isOk &&
        result.trades.any fun trade => decide (SampledOnExitBar trade) && unitsOf trade.fills ≠ 0) = true := by
    decide +kernel
  rw [hrun] at hboth
  obtain ⟨hisOk, hany⟩ := (Bool.and_eq_true _ _).mp hboth
  obtain ⟨adjusted, hoverlay⟩ := exists_eq_ok_of_isOk hisOk
  obtain ⟨trade, htrade, hovercharged⟩ := List.any_eq_true.mp hany
  obtain ⟨hsampled, hunits⟩ := (Bool.and_eq_true _ _).mp hovercharged
  have hsorted : Ascending morning := by
    unfold Ascending
    decide +kernel
  obtain ⟨history, hrecorded⟩ := exists_recorded (by decide) hsorted hrun
  refine ⟨result, adjusted, history, hrun, hoverlay, hrecorded, fun hkeeps => ?_⟩
  rcases (keepsNetEquity_iff (by norm_num) hrun hoverlay (by decide) hrecorded).mp hkeeps with hzero | hnone
  · cases hzero
  · exact of_decide_eq_true hunits (hnone trade htrade (of_decide_eq_true hsampled))

end MuStrategy.Experiments
