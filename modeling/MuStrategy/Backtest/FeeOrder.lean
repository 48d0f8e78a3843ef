import Mathlib.Algebra.Order.Field.Basic
import Mathlib.Data.List.Infix
import Mathlib.Tactic.Linarith
import MuStrategy.Backtest.MadeFills
import MuStrategy.Backtest.ScaleInvariance
import MuStrategy.Backtest.StopLife

/-!
# Two fee rates

A run at a lower fee rate, in lockstep with one at a higher rate that stays solvent: it buys the same fills at the same
prices, of a larger size, and closes them at the same prices. Between two trades the ratio of the accounts is fixed;
a settlement can only raise it.

* `Paired` — two states in a fixed ratio; `Twin`, `After` — in some ratio, and after a settlement.
* `barStep_lockstep` — one bar of both runs.
* `Reaches.twin` — every reached state.
* `scale_fee_invariance` — whole runs, with another equity and with another fee rate; `fee_changes_return` — what the
  fee rate does change.
-/

namespace MuStrategy.Backtest

open Lib TrustedData Strategy

/-! ## Trades without sizes -/

/-- A fill without its notional, units and fee. -/
def Fill.outline (fill : Fill ℚ) : Fill ℚ := { fill with notional := 0, units := 0, fee := 0 }

/-- A trade without the sizes of its fills, its result, its fees and its return. -/
def Trade.outline (trade : Trade ℚ) : Trade ℚ :=
  { trade with fills := trade.fills.map Fill.outline, pnl := 0, fees := 0, returnPct := 0 }

/-! ## Pairs of states -/

section pairs

variable {feeRate otherRate : ℚ}

/-- A state and one of a larger size at another fee rate. -/
structure Paired (k : Rescaling feeRate otherRate) (s s' : BacktestState ℚ) : Prop where
  ratio : 1 ≤ k.ratio
  solvent : 0 < s.equity
  equity : s'.equity = k.ratio * s.equity
  position : s'.position = s.position.map k.position
  pending : s'.pendingEntry = s.pendingEntry
  trades : s'.trades.map Trade.outline = s.trades.map Trade.outline

/-- A state and one of some larger size. -/
def Twin (feeRate otherRate : ℚ) (s s' : BacktestState ℚ) : Prop := ∃ k : Rescaling feeRate otherRate, Paired k s s'

/-- After a settlement, unless it left nothing. -/
def After (feeRate otherRate : ℚ) (s s' : BacktestState ℚ) : Prop := 0 < s.equity → Twin feeRate otherRate s s'

/-- A change of size by a given ratio. -/
def resizing (feeRate otherRate : ℚ) {ratio : ℚ} (hratio : ratio ≠ 0) : Rescaling feeRate otherRate where
  ratio := ratio
  ratio_ne := hratio
  fee fill := ratio * fill.notional * otherRate
  fee_made _ _ := rfl

variable {k : Rescaling feeRate otherRate} {s s' : BacktestState ℚ}

lemma Paired.after (h : Paired k s s') : After feeRate otherRate s s' := fun _ => ⟨k, h⟩

/-- Pairs do not read the samples. -/
lemma Paired.recordClose (h : Paired k s s') (candle : Candle ℚ) :
    Paired k (s.recordClose candle) (s'.recordClose candle) :=
  ⟨h.ratio, h.solvent, h.equity, h.position, h.pending, h.trades⟩

lemma After.recordClose (h : After feeRate otherRate s s') (candle : Candle ℚ) :
    After feeRate otherRate (s.recordClose candle) (s'.recordClose candle) := fun hpos =>
  let ⟨k, hpaired⟩ := h hpos
  ⟨k, hpaired.recordClose candle⟩

/-- The trade of a rescaled position, closed at the same price. -/
lemma closePosition_outline (position : OpenPosition ℚ) (candle : Candle ℚ) (exitPrice equity equity' : ℚ)
    (reason : ExitReason) (config : StrategyConfig ℚ) :
    (closePosition (k.position position) candle exitPrice equity' reason (withFee config otherRate)).2.outline =
      (closePosition position candle exitPrice equity reason config).2.outline := by
  have hfills : ((k.position position).fills.map Fill.outline) = position.fills.map Fill.outline := by
    change (position.fills.map k.fill).map Fill.outline = _
    rw [List.map_map]
    rfl
  simp only [closePosition, Trade.outline, hfills, k.firstFill_position, k.entryPrice_position]
  rfl

/-- What is made at the fee rate pays, at another, the fee of its rescaled notional. -/
lemma feesOf_rescale {config : StrategyConfig ℚ} {k : Rescaling config.feeRate otherRate} {fills : List (Fill ℚ)}
    (hmade : ∀ fill ∈ fills, Made config fill) (hnotional : ∀ fill ∈ fills, 0 ≤ fill.notional) (hratio : 0 ≤ k.ratio)
    (hrate : otherRate ≤ config.feeRate) : feesOf (fills.map k.fill) ≤ k.ratio * feesOf fills := by
  change ((fills.map k.fill).map Fill.fee).sum ≤ k.ratio * (fills.map Fill.fee).sum
  rw [List.map_map, ← List.sum_map_mul_left]
  refine List.sum_le_sum fun fill hfill => ?_
  have hfee := (hmade fill hfill).fee
  change k.fee fill ≤ k.ratio * fill.fee
  rw [k.fee_made fill hfee, hfee, mul_assoc]
  exact mul_le_mul_of_nonneg_left (mul_le_mul_of_nonneg_left hrate (hnotional fill hfill)) hratio

lemma unitsOf_nonneg {config : StrategyConfig ℚ} {fills : List (Fill ℚ)} (hmade : ∀ fill ∈ fills, Made config fill)
    (hnotional : ∀ fill ∈ fills, 0 ≤ fill.notional) : 0 ≤ unitsOf fills := by
  refine List.sum_nonneg fun units hunits => ?_
  obtain ⟨fill, hfill, rfl⟩ := List.mem_map.mp hunits
  rw [(hmade fill hfill).units]
  exact div_nonneg (hnotional fill hfill) (hmade fill hfill).price.le

end pairs

/-! ## Settlements -/

section settlements

variable {config : StrategyConfig ℚ} {otherRate exitPrice : ℚ} {k : Rescaling config.feeRate otherRate}
  {s s' : BacktestState ℚ} {position : OpenPosition ℚ}

/-- Fills that were made with equity. -/
def Funded (config : StrategyConfig ℚ) (position : OpenPosition ℚ) : Prop :=
  ∀ fill ∈ position.fills, Made config fill ∧ 0 ≤ fill.notional

/-- **A settlement can only raise the ratio of the accounts.** -/
lemma settle_equity (h : Paired k s s') (hfunded : Funded config position) (hexit : 0 ≤ exitPrice)
    (hrate : otherRate ≤ config.feeRate) (candle : Candle ℚ) (reason : ExitReason) :
    k.ratio * (s.settle position candle exitPrice reason config).equity ≤
      (s'.settle (k.position position) candle exitPrice reason (withFee config otherRate)).equity := by
  have hratio : 0 ≤ k.ratio := zero_le_one.trans h.ratio
  have hmade : ∀ fill ∈ position.fills, Made config fill := fun fill hfill => (hfunded fill hfill).1
  have hnotional : ∀ fill ∈ position.fills, 0 ≤ fill.notional := fun fill hfill => (hfunded fill hfill).2
  have hfees := feesOf_rescale hmade hnotional hratio hrate
  have hunits := unitsOf_nonneg hmade hnotional
  have hexitFee : exitPrice * (k.ratio * unitsOf position.fills) * otherRate ≤
      exitPrice * (k.ratio * unitsOf position.fills) * config.feeRate :=
    mul_le_mul_of_nonneg_left hrate (mul_nonneg hexit (mul_nonneg hratio hunits))
  change k.ratio * (s.equity + (gainOf position.fills exitPrice - feesOf position.fills -
      exitPrice * unitsOf position.fills * config.feeRate)) ≤
    s'.equity + (gainOf (position.fills.map k.fill) exitPrice - feesOf (position.fills.map k.fill) -
      exitPrice * unitsOf (position.fills.map k.fill) * otherRate)
  rw [h.equity, k.gainOf_map, k.unitsOf_map]
  linarith

/-- Two flat states, of which the second has the larger account. -/
lemma Twin.of_flat {t t' : BacktestState ℚ} {feeRate : ℚ} (hpos : 0 < t.equity) (hle : t.equity ≤ t'.equity)
    (hflat : t.position = none) (hflat' : t'.position = none) (hpending : t'.pendingEntry = t.pendingEntry)
    (htrades : t'.trades.map Trade.outline = t.trades.map Trade.outline) : Twin feeRate otherRate t t' := by
  have hratio : 1 ≤ t'.equity / t.equity := (one_le_div hpos).mpr hle
  refine ⟨resizing feeRate otherRate (zero_lt_one.trans_le hratio).ne', hratio, hpos, ?_, ?_, hpending, htrades⟩
  · exact (div_mul_cancel₀ t'.equity hpos.ne').symm
  · rw [hflat', hflat]
    rfl

/-- A settlement of both positions at the same price. -/
lemma Paired.settle {candle : Candle ℚ} (h : Paired k s s') (hfunded : Funded config position) (hexit : 0 ≤ exitPrice)
    (hrate : otherRate ≤ config.feeRate) (reason : ExitReason) :
    After config.feeRate otherRate (s.settle position candle exitPrice reason config)
      (s'.settle (k.position position) candle exitPrice reason (withFee config otherRate)) := by
  intro hpos
  have hraised := settle_equity h hfunded hexit hrate candle reason
  have hle := (le_mul_of_one_le_left hpos.le h.ratio).trans hraised
  refine Twin.of_flat hpos hle rfl rfl h.pending ?_
  have houtline := closePosition_outline (k := k) position candle exitPrice s.equity s'.equity reason config
  change (s'.trades ++ [_]).map Trade.outline = (s.trades ++ [_]).map Trade.outline
  rw [List.map_append, List.map_append, h.trades, List.map_singleton, List.map_singleton]
  exact congrArg (s.trades.map Trade.outline ++ [·]) houtline

end settlements

/-! ## One bar -/

section steps

variable [Eastern] {run : Inputs ℚ} {otherRate price : ℚ} {k : Rescaling run.config.feeRate otherRate}
  {s s' : BacktestState ℚ} {position : OpenPosition ℚ} {candle : Candle ℚ} {index : ℕ}

/-- A position is sold at the open, or at a threshold that the low reaches. -/
lemma riskExit_pos {reason reason' : ExitReason} {exitPrice : ℚ} (hcandle : PositiveCandle candle)
    (h : riskExit run candle position reason = .ok (some (exitPrice, reason'))) : 0 < exitPrice := by
  have hsold : ∀ threshold, candle.low ≤ threshold → 0 < (sellStopFillPrice candle threshold).getD threshold := by
    intro threshold hreached
    rw [sellStopFillPrice_of_reached hreached]
    split
    · exact hcandle.openPrice
    · exact hcandle.low.trans_le hreached
  obtain ⟨risky, hrisky, h⟩ := bind_eq_ok.mp h
  split at h
  · rename_i htrue
    subst htrue
    obtain ⟨threshold, hthreshold, h⟩ := bind_eq_ok.mp h
    cases h
    refine hsold threshold ?_
    obtain ⟨inWindow, -, hrisky⟩ := bind_eq_ok.mp hrisky
    split at hrisky
    · cases hrisky
    · obtain ⟨threshold', hthreshold', hrisky⟩ := bind_eq_ok.mp hrisky
      rw [hthreshold] at hthreshold'
      cases hthreshold'
      exact of_decide_eq_true (Except.ok.inj hrisky)
  · split at h
    · rename_i hreached
      cases h
      exact hsold _ hreached
    · cases h

/-- The risk check of both runs: the same answer, and the same price. -/
lemma exitOnRisk_lockstep (h : Paired k s s') (hrate : otherRate ≤ run.config.feeRate)
    (hfunded : Funded run.config position) (hcandle : PositiveCandle candle) (reason : ExitReason) :
    Lockstep (fun exit exit' => exit'.1 = exit.1 ∧ (exit.1 = false → Paired k exit.2 exit'.2) ∧
        After run.config.feeRate otherRate exit.2 exit'.2)
      (exitOnRisk run candle position reason s)
      (exitOnRisk (run.withFee otherRate) candle (k.position position) reason s') := by
  unfold exitOnRisk
  rw [riskExit_rescale]
  refine Lockstep.bind_same fun decision hdecision => ?_
  rcases decision with _ | ⟨exitPrice, reason'⟩
  · exact .ok ⟨rfl, fun _ => h, h.after⟩
  · refine .ok ⟨rfl, ?_, h.settle hfunded (riskExit_pos hcandle hdecision).le hrate reason'⟩
    rintro ⟨⟩

lemma enter_lockstep (h : Paired k s s') (hrate : otherRate ≤ run.config.feeRate) (hleverage : 0 ≤ run.config.leverage)
    (hmargins : ∀ margin ∈ run.config.marginSteps, 0 ≤ margin) (hcandle : PositiveCandle candle) (hprice : 0 < price) :
    Lockstep (After run.config.feeRate otherRate) (enter run candle price s)
      (enter (run.withFee otherRate) candle price s') := by
  rw [enter_eq, enter_eq]
  refine Lockstep.bind_same (x := at? run.config.marginSteps 0) fun margin hmargin => ?_
  have hmem : margin ∈ run.config.marginSteps := List.mem_of_getElem? (at?_eq_ok.mp hmargin)
  refine Lockstep.bind_map (h := k.fill) ?_ fun fill hfill => ?_
  · rw [h.equity]
    exact makeFill_rescale k candle.openTimeMs price margin s.equity
  have hfunded : Funded run.config (boughtPosition run.config price fill) := by
    intro f hf
    rw [List.mem_singleton.mp hf]
    obtain ⟨-, -, hmade⟩ := bind_eq_ok.mp hfill
    cases hmade
    exact ⟨.of_makeFill hprice hmem hfill, mul_nonneg (mul_nonneg h.solvent.le (hmargins margin hmem)) hleverage⟩
  have hbought : Paired k (boughtState run.config candle price s fill)
      (boughtState (run.withFee otherRate).config candle price s' (k.fill fill)) :=
    ⟨h.ratio, h.solvent, h.equity, rfl, rfl, h.trades⟩
  exact (exitOnRisk_lockstep hbought hrate hfunded hcandle .initialStop).bind fun exit exit' _ hexit => .ok hexit.2.2

lemma pendingStep_lockstep (h : Paired k s s') (hrate : otherRate ≤ run.config.feeRate)
    (hleverage : 0 ≤ run.config.leverage) (hmargins : ∀ margin ∈ run.config.marginSteps, 0 ≤ margin)
    (hcandle : PositiveCandle candle) (pending : PendingEntry ℚ) :
    Lockstep (After run.config.feeRate otherRate) (pendingStep run pending candle s)
      (pendingStep (run.withFee otherRate) pending candle s') := by
  have hclose : After run.config.feeRate otherRate (s.recordClose candle) (s'.recordClose candle) :=
    (h.recordClose candle).after
  unfold pendingStep
  refine Lockstep.ite (fun _ => ?_) fun _ => .ok hclose
  refine Lockstep.bind_same (x := isPreferredUsCashWindow candle.openTimeMs run.config) fun inWindow _ => ?_
  refine Lockstep.ite (fun _ => .ok hclose) fun _ => ?_
  cases hprice : buyLimitFillPrice candle pending.fibLevel with
  | none => exact .ok hclose
  | some entryPrice =>
      have henter := enter_lockstep h hrate hleverage hmargins hcandle (buyLimitFillPrice_pos hcandle hprice)
      exact henter.bind fun t t' _ hafter => .ok (hafter.recordClose candle)

lemma signalStep_lockstep (h : Paired k s s') (hrate : otherRate ≤ run.config.feeRate)
    (hleverage : 0 ≤ run.config.leverage) (hmargins : ∀ margin ∈ run.config.marginSteps, 0 ≤ margin)
    (hcandles : ∀ c ∈ run.candles, PositiveCandle c) :
    Lockstep (After run.config.feeRate otherRate) (signalStep run index candle s)
      (signalStep (run.withFee otherRate) index candle s') := by
  have hclose : After run.config.feeRate otherRate (s.recordClose candle) (s'.recordClose candle) :=
    (h.recordClose candle).after
  unfold signalStep
  rw [show (run.withFee otherRate).candles = run.candles from rfl]
  cases hnext : run.candles[index + 1]? with
  | none => exact .ok hclose
  | some nextCandle =>
      have hpositive := hcandles nextCandle (List.mem_of_getElem? hnext)
      refine Lockstep.bind_same (x := signalAt run index candle) fun signal _ => ?_
      cases signal with
      | none => exact .ok hclose
      | some fibLevel =>
          refine Lockstep.ite (fun _ => ?_) fun _ => ?_
          · have hrested : Paired k { s with pendingEntry := some ⟨fibLevel, index + run.config.secondPullbackWaitBars⟩ }
                { s' with pendingEntry := some ⟨fibLevel, index + run.config.secondPullbackWaitBars⟩ } :=
              ⟨h.ratio, h.solvent, h.equity, h.position, rfl, h.trades⟩
            exact .ok (hrested.recordClose candle).after
          · refine Lockstep.bind_same (x := shouldExecuteEntry run.candles index nextCandle fibLevel (run.regimeAt candle)
              run.config) fun execution hexecution => ?_
            cases hprice : (if execution.allowed then execution.entryPrice else none) with
            | none => exact .ok hclose
            | some entryPrice =>
                refine Lockstep.bind_same (x := isPreferredUsCashWindow nextCandle.openTimeMs run.config) fun inWindow _ => ?_
                refine Lockstep.ite (fun _ => .ok hclose) fun _ => ?_
                have hentry : execution.entryPrice = some entryPrice := by
                  split at hprice
                  · exact hprice
                  · cases hprice
                exact enter_lockstep (h.recordClose candle) hrate hleverage hmargins hpositive
                  (shouldExecuteEntry_pos hpositive hexecution hentry)

lemma manageStep_lockstep (h : Paired k s s') :
    Lockstep (After run.config.feeRate otherRate) (manageStep run index candle position s)
      (manageStep (run.withFee otherRate) index candle (k.position position) s') := by
  unfold manageStep
  refine Lockstep.bind_map (h := k.position) ?_ fun added _ => ?_
  · rw [h.equity]
    exact executePyramidAdd_rescale k index candle position s.equity
  dsimp only
  refine Lockstep.bind_map (tightenPositionStop_rescale k index candle added) fun tightened _ => ?_
  refine Lockstep.bind_map (planPyramidAdd_rescale k index candle tightened) fun planned _ => ?_
  refine .ok (Paired.recordClose (k := k) ?_ candle).after
  rw [k.length_position, k.length_position]
  split
  · exact ⟨h.ratio, h.solvent, h.equity, rfl, h.pending, h.trades⟩
  · exact ⟨h.ratio, h.solvent, h.equity, rfl, h.pending, h.trades⟩

lemma heldStep_lockstep (h : Paired k s s') (hrate : otherRate ≤ run.config.feeRate)
    (hfunded : Funded run.config position) (hcandle : PositiveCandle candle) :
    Lockstep (After run.config.feeRate otherRate) (heldStep run index candle position s)
      (heldStep (run.withFee otherRate) index candle (k.position position) s') := by
  unfold heldStep
  rw [k.firstFill_position]
  refine Lockstep.ite (fun _ => manageStep_lockstep h) fun _ => ?_
  refine (exitOnRisk_lockstep h hrate hfunded hcandle .stop).bind ?_
  rintro ⟨settled, t⟩ ⟨settled', t'⟩ _ ⟨hsame, hopen, hafter⟩
  subst hsame
  cases settled' with
  | true => exact .ok (hafter.recordClose candle)
  | false => exact manageStep_lockstep (hopen rfl)

lemma flatStep_lockstep (h : Paired k s s') (hrate : otherRate ≤ run.config.feeRate)
    (hleverage : 0 ≤ run.config.leverage) (hmargins : ∀ margin ∈ run.config.marginSteps, 0 ≤ margin)
    (hcandles : ∀ c ∈ run.candles, PositiveCandle c) (hcandle : PositiveCandle candle) :
    Lockstep (After run.config.feeRate otherRate) (flatStep run index candle s)
      (flatStep (run.withFee otherRate) index candle s') := by
  have hresting : restingEntry (run.withFee otherRate) s' = restingEntry run s := by
    unfold restingEntry
    rw [h.pending]
    rfl
  unfold flatStep
  rw [hresting]
  cases restingEntry run s with
  | none => exact signalStep_lockstep h hrate hleverage hmargins hcandles
  | some pending =>
      refine Lockstep.ite (fun _ => ?_) fun _ => pendingStep_lockstep h hrate hleverage hmargins hcandle pending
      have hdropped : Paired k { s with pendingEntry := none } { s' with pendingEntry := none } :=
        ⟨h.ratio, h.solvent, h.equity, h.position, rfl, h.trades⟩
      exact signalStep_lockstep hdropped hrate hleverage hmargins hcandles

/-- **One bar of both runs.** -/
theorem barStep_lockstep (h : Twin run.config.feeRate otherRate s s') (hrate : otherRate ≤ run.config.feeRate)
    (hleverage : 0 ≤ run.config.leverage) (hmargins : ∀ margin ∈ run.config.marginSteps, 0 ≤ margin)
    (hcandles : ∀ c ∈ run.candles, PositiveCandle c) (hmem : candle ∈ run.candles)
    (hfunded : ∀ position, s.position = some position → Funded run.config position) :
    Lockstep (After run.config.feeRate otherRate) (barStep run s (candle, index))
      (barStep (run.withFee otherRate) s' (candle, index)) := by
  obtain ⟨k, h⟩ := h
  have hcandle := hcandles candle hmem
  unfold barStep
  rw [h.position]
  cases hposition : s.position with
  | none => exact flatStep_lockstep h hrate hleverage hmargins hcandles hcandle
  | some position => exact heldStep_lockstep h hrate (hfunded position hposition) hcandle

omit [Eastern] in
/-- The settlements at the end of the data. -/
lemma finish_after (h : Twin run.config.feeRate otherRate s s') (hrate : otherRate ≤ run.config.feeRate)
    (hcandles : ∀ c ∈ run.candles, PositiveCandle c)
    (hfunded : ∀ position, s.position = some position → Funded run.config position) :
    After run.config.feeRate otherRate (finish run s) (finish (run.withFee otherRate) s') := by
  obtain ⟨k, h⟩ := h
  unfold finish
  rw [h.position, show (run.withFee otherRate).candles = run.candles from rfl]
  cases hposition : s.position with
  | none => exact h.after
  | some position =>
      cases hlast : run.candles.getLast? with
      | none => exact h.after
      | some final =>
          have hclose := (hcandles final (List.mem_of_getLast? hlast)).closePrice
          exact h.settle (hfunded position hposition) hclose.le hrate .endOfData

end steps

/-! ## Whole runs -/

section runs

variable [Eastern] {candles : List (Candle ℚ)} {context : ℤ → Option String} {config : StrategyConfig ℚ}
  {startingEquity otherRate : ℚ} {index : ℕ} {s : BacktestState ℚ} {result : BacktestResult ℚ}

/-- Settled equity is positive at the start and after every trade. -/
def SolventThroughout (startingEquity : ℚ) (trades : List (Trade ℚ)) : Prop :=
  ∀ before ∈ trades.inits, 0 < settledEquity startingEquity before

/-- The fills and the account of a reached state. -/
lemma Reaches.booked (hcandles : ∀ c ∈ candles, PositiveCandle c)
    (h : Reaches candles context config startingEquity index s) :
    FillsMade config s ∧ Account startingEquity config candles s.books := by
  refine h.induct (I := fun _ s => FillsMade config s ∧ Account startingEquity config candles s.books) ?_ ?_
  · exact fun first => ⟨.start first startingEquity, Account.start first⟩
  · rintro i candle t u hcandle ⟨hmade, haccount⟩ hstep
    have hmem : candle ∈ candles := List.mem_of_getElem? hcandle
    refine ⟨hmade.barStep hcandles hmem hstep, (barStep_moves hstep).invariant ?_ haccount⟩
    rintro bar b b' (rfl | hnext) hmove hb
    · exact hb.move hmem hmove
    · exact hb.move (List.mem_of_getElem? hnext) hmove

/-- The trades of a reached state are the first trades of the result. -/
lemma Reaches.trades_first (hrun : runBacktest candles context config startingEquity = .ok result)
    (h : Reaches candles context config startingEquity index s) : s.trades <+: result.trades := by
  obtain ⟨first, final, hfirst, hwalk, rfl⟩ := runBacktest_eq_ok h.long hrun
  have hne : candles ≠ [] := by
    rintro rfl
    cases h.long
  rw [walk_eq_reached] at hwalk
  obtain ⟨t, ht, hmoves⟩ := reached_moves h.walked h.within (le_refl _) hwalk
  obtain ⟨first', hfirst', hs⟩ := h.reached
  rw [hfirst] at hfirst'
  cases hfirst'
  rw [hs] at ht
  cases ht
  have hfinal : s.trades <+: final.trades := by
    refine hmoves.invariant (I := fun b => s.trades <+: b.trades) ?_ List.prefix_rfl
    rintro bar b b' - (_ | _ | _) hb
    · exact hb
    · exact hb
    · exact hb.trans (List.prefix_append _ _)
  change s.trades <+: (finish (inputsOf candles context config) final).trades
  rcases finish_cases (inputsOf candles context config) final hne with ⟨-, hfinish⟩ | ⟨position, -, hfinish⟩
  · rw [hfinish]
    exact hfinal
  · rw [hfinish]
    exact hfinal.trans (List.prefix_append _ _)

lemma Reaches.solvent (hcandles : ∀ c ∈ candles, PositiveCandle c)
    (hrun : runBacktest candles context config startingEquity = .ok result)
    (hsolvent : SolventThroughout startingEquity result.trades)
    (h : Reaches candles context config startingEquity index s) : 0 < s.equity := by
  have hsettled := (h.booked hcandles).2.settled
  change s.equity = settledEquity startingEquity s.trades at hsettled
  rw [hsettled]
  exact hsolvent s.trades ((List.mem_inits _ _).mpr (h.trades_first hrun))

/-- The open fills of a solvent state were made with equity. -/
lemma Reaches.funded (hcandles : ∀ c ∈ candles, PositiveCandle c) (hleverage : 0 ≤ config.leverage)
    (hmargins : ∀ margin ∈ config.marginSteps, 0 ≤ margin) (hsolvent : 0 < s.equity)
    (h : Reaches candles context config startingEquity index s) {position : OpenPosition ℚ}
    (hopen : s.position = some position) : Funded config position := by
  obtain ⟨hmade, haccount⟩ := h.booked hcandles
  intro fill hfill
  have hmem : fill ∈ s.openFills := openFills_of_position hopen ▸ hfill
  have hfillMade := hmade.held fill hmem
  refine ⟨hfillMade, ?_⟩
  have hsized : fill.notional = s.equity * fill.marginFraction * config.leverage := haccount.openSized fill hmem
  rw [hsized]
  exact mul_nonneg (mul_nonneg hsolvent.le (hmargins _ hfillMade.margin)) hleverage

/-- **The run at the lower rate reaches a twin of every state** of the run that stays solvent. -/
theorem Reaches.twin (hcandles : ∀ c ∈ candles, PositiveCandle c) (hleverage : 0 ≤ config.leverage)
    (hmargins : ∀ margin ∈ config.marginSteps, 0 ≤ margin) (hrate : otherRate ≤ config.feeRate)
    (hrun : runBacktest candles context config startingEquity = .ok result)
    (hsolvent : SolventThroughout startingEquity result.trades)
    (h : Reaches candles context config startingEquity index s) :
    ∃ s', Reaches candles context (withFee config otherRate) startingEquity index s' ∧
      Twin config.feeRate otherRate s s' := by
  induction index, h.walked using Nat.le_induction generalizing s with
  | base =>
      have hpos := h.solvent hcandles hrun hsolvent
      obtain ⟨first, hfirst, hs⟩ := h.reached
      rw [reached_one] at hs
      cases hs
      exact ⟨startState first startingEquity, ⟨h.long, h.walked, h.within, first, hfirst, reached_one _ _⟩,
        .of_flat hpos le_rfl rfl rfl rfl rfl⟩
  | succ i hi ih =>
      have hpos := h.solvent hcandles hrun hsolvent
      obtain ⟨candle, t, hcandle, ht, hstep⟩ := h.previous hi
      obtain ⟨t', ht', htwin⟩ := ih ht
      have htpos := ht.solvent hcandles hrun hsolvent
      have hbar : Lockstep (After config.feeRate otherRate) (barStep (inputsOf candles context config) t (candle, i))
          (barStep ((inputsOf candles context config).withFee otherRate) t' (candle, i)) :=
        barStep_lockstep htwin hrate hleverage hmargins hcandles (List.mem_of_getElem? hcandle)
          fun position hopen => ht.funded hcandles hleverage hmargins htpos hopen
      obtain ⟨s', hstep', hafter⟩ := hbar.of_ok hstep
      obtain ⟨first, hfirst, hreached⟩ := ht'.reached
      exact ⟨s', ⟨h.long, h.walked, h.within, first, hfirst, (reached_succ hi hcandle).mpr ⟨t', hreached, hstep'⟩⟩,
        hafter hpos⟩

/-- **The lower rate brings the same trades and at least the same equity.** -/
lemma runBacktest_feeOrder (hrun : runBacktest candles context config startingEquity = .ok result)
    (hcandles : ∀ c ∈ candles, PositiveCandle c) (hleverage : 0 ≤ config.leverage)
    (hmargins : ∀ margin ∈ config.marginSteps, 0 ≤ margin) (hrate : otherRate ≤ config.feeRate)
    (hsolvent : SolventThroughout startingEquity result.trades) :
    ∃ result', runBacktest candles context (withFee config otherRate) startingEquity = .ok result' ∧
      result'.trades.map Trade.outline = result.trades.map Trade.outline ∧
      result.endingEquity ≤ result'.endingEquity := by
  by_cases hlength : 4 ≤ candles.length
  · obtain ⟨first, s, hfirst, hwalk, rfl⟩ := runBacktest_eq_ok hlength hrun
    have hne : candles ≠ [] := by
      rintro rfl
      cases hlength
    have hreaches := reaches_of_walk hlength hfirst hwalk
    obtain ⟨s', hreaches', htwin⟩ := hreaches.twin hcandles hleverage hmargins hrate hrun hsolvent
    obtain ⟨first', hfirst', hwalk'⟩ := hreaches'.walk
    have hending := (finish_account hne hwalk).1.settled
    have hpos : 0 < (finish (inputsOf candles context config) s).equity := by
      change (finish (inputsOf candles context config) s).equity = settledEquity startingEquity _ at hending
      rw [hending]
      exact hsolvent _ ((List.mem_inits _ _).mpr List.prefix_rfl)
    have hopen := hreaches.solvent hcandles hrun hsolvent
    have hfinished : Twin config.feeRate otherRate (finish (inputsOf candles context config) s)
        (finish ((inputsOf candles context config).withFee otherRate) s') :=
      finish_after htwin hrate hcandles
        (fun position hposition => hreaches.funded hcandles hleverage hmargins hopen hposition) hpos
    refine ⟨_, runBacktest_of_walk hlength hfirst' hwalk', ?_⟩
    obtain ⟨k', hfinal⟩ := hfinished
    refine ⟨hfinal.trades, ?_⟩
    change (finish (inputsOf candles context config) s).equity ≤
      (finish ((inputsOf candles context config).withFee otherRate) s').equity
    rw [hfinal.equity]
    exact le_mul_of_one_le_left hfinal.solvent.le hfinal.ratio
  · rw [runBacktest_short hlength hrun]
    exact ⟨_, runBacktest_few hlength context _ startingEquity, rfl, le_rfl⟩

/-! ## Scale and fees -/

variable (candles context config)

/-- Starting with `c` times the equity multiplies all sizes by `c`. -/
def ScaleInvariant : Prop :=
  ∀ c startingEquity : ℚ, 0 < c → runBacktest candles context config (c * startingEquity) =
    BacktestResult.scale c <$> runBacktest candles context config startingEquity

/-- A run that stays solvent at a fee rate, at a lower one has trades that look the same in a view and ends with at
least its equity. -/
def FeeOrdered (view : Trade ℚ → Trade ℚ) : Prop :=
  ∀ (lower higher startingEquity : ℚ) (result : BacktestResult ℚ), 0 ≤ lower → lower ≤ higher →
    runBacktest candles context (withFee config higher) startingEquity = .ok result →
    SolventThroughout startingEquity result.trades →
    ∃ result', runBacktest candles context (withFee config lower) startingEquity = .ok result' ∧
      result'.trades.map view = result.trades.map view ∧ result.endingEquity ≤ result'.endingEquity

variable {candles context config}

/-- **Scale and fee invariance**: sizes follow the starting equity, and the fee rate changes sizes, results and returns
only, against the account. -/
theorem scale_fee_invariance (hcandles : ∀ c ∈ candles, PositiveCandle c) (hleverage : 0 < config.leverage)
    (hmargins : ∀ margin ∈ config.marginSteps, 0 < margin) :
    ScaleInvariant candles context config ∧ FeeOrdered candles context config Trade.outline := by
  constructor
  · intro c startingEquity hc
    exact runBacktest_scale hc.ne' candles context config startingEquity
  · intro lower higher startingEquity result _ hle hrun hsolvent
    have hordered := runBacktest_feeOrder hrun hcandles hleverage.le (fun margin hmem => (hmargins margin hmem).le) hle
      hsolvent
    exact hordered

end runs

/-! ## The morning at two fee rates -/

/-- The morning with an entry and an add. -/
theorem scale_fee_invariance_demo :
    let _ := mondayTime
    ScaleInvariant morning (fun _ => none) morningConfig ∧
      FeeOrdered morning (fun _ => none) morningConfig Trade.outline := by
  intro zone
  exact scale_fee_invariance (by decide +kernel) (by decide +kernel) (by decide +kernel)

/-- A trade without the sizes of its fills, its result and its fees, but with its return on margin. -/
def Trade.sizeless (trade : Trade ℚ) : Trade ℚ :=
  { trade with fills := trade.fills.map Fill.outline, pnl := 0, fees := 0 }

instance (startingEquity : ℚ) (trades : List (Trade ℚ)) : Decidable (SolventThroughout startingEquity trades) :=
  inferInstanceAs (Decidable (∀ before ∈ trades.inits, 0 < settledEquity startingEquity before))

/-- **The fee rate changes the return on margin**: without fees the trade of the morning returns more. -/
theorem fee_changes_return :
    let _ := mondayTime
    (∀ c ∈ morning, PositiveCandle c) ∧ 0 < morningConfig.leverage ∧
      (∀ margin ∈ morningConfig.marginSteps, 0 < margin) ∧
      ¬FeeOrdered morning (fun _ => none) morningConfig Trade.sizeless := by
  intro zone
  refine ⟨by decide +kernel, by decide +kernel, by decide +kernel, fun hclaim => ?_⟩
  obtain ⟨result, hrun⟩ := exists_eq_ok_of_isOk
    (show (runBacktest morning (fun _ => none) (withFee morningConfig (1 / 2000)) 1000).isOk = true by decide +kernel)
  have hsolvent : (runBacktest morning (fun _ => none) (withFee morningConfig (1 / 2000)) 1000).map
      (fun r => decide (SolventThroughout 1000 r.trades)) = .ok true := by decide +kernel
  rw [hrun] at hsolvent
  obtain ⟨result', hrun', hsame, -⟩ := hclaim 0 (1 / 2000) 1000 result (by decide +kernel) (by decide +kernel) hrun
    (of_decide_eq_true (Except.ok.inj hsolvent))
  have hreturns : (runBacktest morning (fun _ => none) (withFee morningConfig 0) 1000).map
      (fun r => r.trades.map Trade.returnPct) ≠
      (runBacktest morning (fun _ => none) (withFee morningConfig (1 / 2000)) 1000).map
        (fun r => r.trades.map Trade.returnPct) := by decide +kernel
  rw [hrun, hrun'] at hreturns
  refine hreturns (congrArg Except.ok ?_)
  have hview := congrArg (List.map Trade.returnPct) hsame
  rw [List.map_map, List.map_map] at hview
  exact hview

end MuStrategy.Backtest
