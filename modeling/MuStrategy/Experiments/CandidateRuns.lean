import Mathlib.Algebra.BigOperators.Group.List.Basic
import Mathlib.Algebra.Order.Ring.Rat
import Mathlib.Tactic.FieldSimp
import Mathlib.Tactic.Ring
import MuStrategy.Experiments.StrategyLadder
import MuStrategy.Lib.Timeline

/-!
# Runs of long-only candidates

* `Account`, `Balanced` — the books of a run: they are kept by every bar, and hold of the result.
* `stepBar_congr` — a bar sees the bars before it.
* `Grown` — what later bars add to an account.
* `SameBefore` — what two runs on the same first bars have in common.
* `candidate_runs` — every run balances, and is causal.
-/

namespace MuStrategy.Experiments

open Lib TrustedData Backtest

/-- The time of a bar with its index. -/
def barTime {F : Type} (bar : Candle F × ℕ) : ℤ := bar.1.openTimeMs

/-! ## The books -/

section books

variable {run : CandidateRun ℚ} {s t : CandidateState ℚ} {bar : Candle ℚ} {index : ℕ} {ordered candles : List (Candle ℚ)}
  {result : CandidateResult ℚ} {time time' : ℤ}

/-- The profit of some trades. -/
def profit (trades : List (CandidateTrade ℚ)) : ℚ := (trades.map CandidateTrade.pnl).sum

/-- A trade that is entered with an equity: the whole of it buys, and both fees are paid. -/
structure EntersWith (feeRate equity : ℚ) (trade : CandidateTrade ℚ) : Prop where
  books : ∃ fill, trade.fills = [fill] ∧ fill.timeMs = trade.entryTimeMs ∧ fill.price = trade.entryPrice ∧
    fill.units * trade.entryPrice = equity ∧ fill.fee = equity * feeRate ∧
    trade.pnl = (trade.exitPrice - trade.entryPrice) * fill.units - fill.fee - trade.exitPrice * fill.units * feeRate

/-- A time is not before the execution range. -/
def CandidateRun.Started (run : CandidateRun ℚ) (time : ℤ) : Prop :=
  ∀ start, run.executionStartTimeMs = some start → start ≤ time

/-- A time is not after the execution range. -/
def CandidateRun.Ended (run : CandidateRun ℚ) (time : ℤ) : Prop :=
  ∀ stop, run.executionEndTimeMs = some stop → time ≤ stop

/-- The trades of a run that started with an equity. -/
structure Trades (run : CandidateRun ℚ) (trades : List (CandidateTrade ℚ)) : Prop where
  enters : ∀ before trade after, trades = before ++ trade :: after →
    EntersWith run.feeRate (run.startingEquity + profit before) trade
  lasts : ∀ trade ∈ trades, trade.entryTimeMs < trade.exitTimeMs
  apart : trades.Pairwise fun a b => a.exitTimeMs ≤ b.entryTimeMs
  inRange : ∀ trade ∈ trades, run.Started trade.entryTimeMs ∧ run.Ended trade.exitTimeMs

/-- The account before a time. -/
structure Account (run : CandidateRun ℚ) (time : ℤ) (s : CandidateState ℚ) : Prop where
  equity : s.equity = run.startingEquity + profit s.trades
  trades : Trades run s.trades
  past : ∀ trade ∈ s.trades, trade.exitTimeMs < time
  holds : ∀ fill, s.openFill = some fill → fill.units * fill.price = s.equity ∧ fill.fee = s.equity * run.feeRate ∧
    fill.timeMs < time ∧ run.Started fill.timeMs ∧ ∀ trade ∈ s.trades, trade.exitTimeMs ≤ fill.timeMs
  sampled : s.openFill = none → ∀ last, s.samples.getLast? = some last → last.2 = s.equity
  fresh : s.samples = [] → s.equity = run.startingEquity

lemma profit_append (trades : List (CandidateTrade ℚ)) (trade : CandidateTrade ℚ) :
    profit (trades ++ [trade]) = profit trades + trade.pnl := by
  rw [profit, List.map_append, List.sum_append, List.map_singleton, List.sum_singleton]
  rfl

lemma Account.mono (h : Account run time s) (hle : time ≤ time') : Account run time' s where
  equity := h.equity
  trades := h.trades
  past trade htrade := (h.past trade htrade).trans_le hle
  holds fill hfill := by
    obtain ⟨hunits, hfee, htime, hstarted, hafter⟩ := h.holds fill hfill
    exact ⟨hunits, hfee, htime.trans_le hle, hstarted, hafter⟩
  sampled := h.sampled
  fresh := h.fresh

/-- One more trade. -/
lemma Trades.concat {trades : List (CandidateTrade ℚ)} {trade : CandidateTrade ℚ} (h : Trades run trades)
    (henters : EntersWith run.feeRate (run.startingEquity + profit trades) trade)
    (hlasts : trade.entryTimeMs < trade.exitTimeMs) (hafter : ∀ earlier ∈ trades, earlier.exitTimeMs ≤ trade.entryTimeMs)
    (hstarted : run.Started trade.entryTimeMs) (hended : run.Ended trade.exitTimeMs) :
    Trades run (trades ++ [trade]) where
  enters before other after heq := by
    rcases List.eq_nil_or_concat after with rfl | ⟨after, last, rfl⟩
    · obtain ⟨rfl, hlast⟩ := List.append_inj' heq rfl
      obtain rfl := List.singleton_injective hlast
      exact henters
    · rw [List.concat_eq_append, ← List.cons_append, ← List.append_assoc] at heq
      exact h.enters before other after (List.append_inj' heq rfl).1
  lasts other hother := by
    rcases List.mem_append.mp hother with hother | hother
    · exact h.lasts other hother
    · rwa [List.mem_singleton.mp hother]
  apart := by
    refine List.pairwise_append.mpr ⟨h.apart, List.pairwise_singleton _ trade, fun earlier hearlier other hother => ?_⟩
    rw [List.mem_singleton.mp hother]
    exact hafter earlier hearlier
  inRange other hother := by
    rcases List.mem_append.mp hother with hother | hother
    · exact h.inRange other hother
    · rw [List.mem_singleton.mp hother]
      exact ⟨hstarted, hended⟩

/-- A trade that closes a fill. -/
lemma closeLongOnlyTrade_spec {fill : Fill ℚ} {exitTimeMs : ℤ} {exitPrice equity feeRate : ℚ} {reason : CandidateExit}
    {settled : ℚ × CandidateTrade ℚ} (h : closeLongOnlyTrade fill exitTimeMs exitPrice equity feeRate reason = .ok settled)
    (hunits : fill.units * fill.price = equity) (hfee : fill.fee = equity * feeRate) :
    settled.1 = equity + settled.2.pnl ∧ EntersWith feeRate equity settled.2 ∧
      settled.2.entryTimeMs = fill.timeMs ∧ settled.2.exitTimeMs = exitTimeMs ∧ settled.2.exitReason = reason := by
  obtain ⟨_, _, h⟩ := bind_eq_ok.mp h
  obtain rfl := pure_eq_ok_iff.mp h
  refine ⟨rfl, ⟨fill, rfl, rfl, rfl, hunits, hfee, ?_⟩, rfl, rfl, rfl⟩
  simp only
  ring

/-- An entry with the whole equity. -/
lemma openLong_spec {equity : ℚ} {fill : Fill ℚ} (h : openLong run equity bar = .ok fill) :
    fill.units * fill.price = equity ∧ fill.fee = equity * run.feeRate ∧ fill.timeMs = bar.openTimeMs := by
  obtain ⟨_, hpositive, h⟩ := bind_eq_ok.mp h
  obtain rfl := pure_eq_ok_iff.mp h
  rw [require_eq_ok, Bool.not_eq_true', decide_eq_false_iff_not, not_le] at hpositive
  have hleverage : (localCandidateLeverage : ℚ) = 1 := by
    unfold localCandidateLeverage
    norm_num
  simp only [hleverage, mul_one]
  exact ⟨div_mul_cancel₀ equity hpositive.ne', trivial, trivial⟩

/-- A bar that closes a position. -/
lemma Account.close (h : Account run time s) {fill : Fill ℚ} (hfill : s.openFill = some fill) {exitTimeMs : ℤ}
    {exitPrice : ℚ} {reason : CandidateExit} {settled : ℚ × CandidateTrade ℚ}
    (hclose : closeLongOnlyTrade fill exitTimeMs exitPrice s.equity run.feeRate reason = .ok settled)
    (htime : time ≤ exitTimeMs) (hended : run.Ended exitTimeMs) :
    settled.1 = run.startingEquity + profit (s.trades ++ [settled.2]) ∧ Trades run (s.trades ++ [settled.2]) ∧
      ∀ trade ∈ s.trades ++ [settled.2], trade.exitTimeMs ≤ exitTimeMs := by
  obtain ⟨hunits, hfee, hbefore, hstarted, hafter⟩ := h.holds fill hfill
  obtain ⟨hequity, henters, hentry, hexit, -⟩ := closeLongOnlyTrade_spec hclose hunits hfee
  refine ⟨?_, h.trades.concat (h.equity ▸ henters) ?_ ?_ ?_ ?_, fun trade htrade => ?_⟩
  · rw [hequity, profit_append, h.equity, add_assoc]
  · rw [hentry, hexit]
    exact hbefore.trans_le htime
  · rw [hentry]
    exact hafter
  · rwa [hentry]
  · rwa [hexit]
  · rcases List.mem_append.mp htrade with htrade | htrade
    · exact ((h.past trade htrade).trans_le htime).le
    · rw [List.mem_singleton.mp htrade, hexit]

lemma executes_iff : run.executes bar = true ↔ run.Started bar.openTimeMs ∧
    (∀ stop, run.executionEndTimeMs = some stop → bar.openTimeMs < stop) ∧
    run.Ended (bar.openTimeMs + run.barDurationMs) := by
  unfold CandidateRun.executes CandidateRun.Started CandidateRun.Ended
  cases run.executionStartTimeMs <;> cases run.executionEndTimeMs <;> simp [and_assoc]

/-- **The account is kept at the open of a bar.** -/
lemma Account.settle (h : Account run time s) (htime : time ≤ bar.openTimeMs) (hexecutes : run.executes bar = true)
    {targetLong : Bool} (hsettle : settle run s bar targetLong = .ok t) :
    t.equity = run.startingEquity + profit t.trades ∧ Trades run t.trades ∧
      (∀ trade ∈ t.trades, trade.exitTimeMs ≤ bar.openTimeMs) ∧ t.samples = s.samples ∧
      ∀ fill, t.openFill = some fill → fill.units * fill.price = t.equity ∧ fill.fee = t.equity * run.feeRate ∧
        fill.timeMs ≤ bar.openTimeMs ∧ run.Started fill.timeMs ∧
        ∀ trade ∈ t.trades, trade.exitTimeMs ≤ fill.timeMs := by
  obtain ⟨hstarted, hbefore, hended⟩ := executes_iff.mp hexecutes
  have hpast : ∀ trade ∈ s.trades, trade.exitTimeMs ≤ bar.openTimeMs := fun trade htrade =>
    ((h.past trade htrade).trans_le htime).le
  have hholds : ∀ fill, s.openFill = some fill → fill.units * fill.price = s.equity ∧
      fill.fee = s.equity * run.feeRate ∧ fill.timeMs ≤ bar.openTimeMs ∧ run.Started fill.timeMs ∧
      ∀ trade ∈ s.trades, trade.exitTimeMs ≤ fill.timeMs := by
    intro fill hfill
    obtain ⟨hunits, hfee, hfilled, hrest⟩ := h.holds fill hfill
    exact ⟨hunits, hfee, (hfilled.trans_le htime).le, hrest⟩
  unfold Experiments.settle at hsettle
  cases hfill : s.openFill with
  | none =>
      rw [hfill] at hsettle
      dsimp only at hsettle
      split at hsettle
      · obtain ⟨fill, hopen, hsettle⟩ := bind_eq_ok.mp hsettle
        obtain rfl := pure_eq_ok_iff.mp hsettle
        obtain ⟨hunits, hfee, htimeMs⟩ := openLong_spec hopen
        refine ⟨h.equity, h.trades, hpast, rfl, fun fill' hfill' => ?_⟩
        obtain rfl := Option.some.inj hfill'
        rw [htimeMs]
        exact ⟨hunits, hfee, le_rfl, hstarted, hpast⟩
      · obtain rfl := pure_eq_ok_iff.mp hsettle
        exact ⟨h.equity, h.trades, hpast, rfl, hholds⟩
  | some fill =>
      rw [hfill] at hsettle
      dsimp only at hsettle
      split at hsettle
      · obtain rfl := pure_eq_ok_iff.mp hsettle
        exact ⟨h.equity, h.trades, hpast, rfl, hholds⟩
      · obtain ⟨settled, hclose, hsettle⟩ := bind_eq_ok.mp hsettle
        obtain rfl := pure_eq_ok_iff.mp hsettle
        have hendedOpen : run.Ended bar.openTimeMs := fun stop hstop => (hbefore stop hstop).le
        obtain ⟨hequity, htrades, hpast'⟩ := h.close hfill hclose htime hendedOpen
        exact ⟨hequity, htrades, hpast', rfl, fun fill' hfill' => by cases hfill'⟩

/-- **The step lemma**: a bar keeps the account. -/
lemma Account.stepBar (h : Account run time s) (htime : time ≤ bar.openTimeMs) (hexecutes : run.executes bar = true)
    (hstep : stepBar run ordered s (bar, index) = .ok t) :
    Account run (bar.openTimeMs + 1) t := by
  unfold Experiments.stepBar at hstep
  split at hstep
  · obtain rfl := pure_eq_ok_iff.mp hstep
    exact h.mono (htime.trans (Int.le_add_one le_rfl))
  · obtain ⟨targetLong, _, hstep⟩ := bind_eq_ok.mp hstep
    obtain ⟨settled, hsettle, hstep⟩ := bind_eq_ok.mp hstep
    obtain rfl := pure_eq_ok_iff.mp hstep
    obtain ⟨hequity, htrades, hpast, -, hholds⟩ := h.settle htime hexecutes hsettle
    refine ⟨hequity, htrades, fun trade htrade => Int.lt_add_one_of_le (hpast trade htrade), fun fill hfill => ?_,
      fun hflat last hlast => ?_, fun hnil => absurd hnil (List.append_ne_nil_of_right_ne_nil _ (List.cons_ne_nil _ _))⟩
    · obtain ⟨hunits, hfee, hfilled, hrest⟩ := hholds fill hfill
      exact ⟨hunits, hfee, Int.lt_add_one_of_le hfilled, hrest⟩
    · have hmarked : marked settled bar = settled.equity := by
        rw [marked, show settled.openFill = none from hflat]
      rw [List.getLast?_concat] at hlast
      obtain rfl := Option.some.inj hlast
      exact hmarked

/-- **The run lemma**: bars in their order keep the account. -/
lemma Account.foldlM {bars : List (Candle ℚ × ℕ)} (h : Account run time s) (hle : time ≤ time')
    (htimes : ∀ bar ∈ bars, time ≤ bar.1.openTimeMs ∧ bar.1.openTimeMs < time')
    (hordered : Increasing barTime bars)
    (hexecutes : ∀ bar ∈ bars, run.executes bar.1 = true)
    (hfold : bars.foldlM (Experiments.stepBar run ordered) s = .ok t) : Account run time' t := by
  induction bars generalizing s time with
  | nil =>
      obtain rfl := pure_eq_ok_iff.mp hfold
      exact h.mono hle
  | cons first bars ih =>
      rw [List.foldlM_cons] at hfold
      obtain ⟨u, hstep, hfold⟩ := bind_eq_ok.mp hfold
      obtain ⟨hlater, hordered⟩ := List.pairwise_cons.mp hordered
      obtain ⟨hfirst, hbound⟩ := htimes first List.mem_cons_self
      have hnext := h.stepBar hfirst (hexecutes first List.mem_cons_self) hstep
      exact ih hnext hbound (fun bar hbar => ⟨hlater bar hbar, (htimes bar (List.mem_cons_of_mem first hbar)).2⟩) hordered
        (fun bar hbar => hexecutes bar (List.mem_cons_of_mem first hbar)) hfold

/-- What a run guarantees of its result. -/
structure Balanced (run : CandidateRun ℚ) (candles : List (Candle ℚ)) (result : CandidateResult ℚ) : Prop where
  ending : result.endingEquity = run.startingEquity + profit result.trades
  trades : Trades run result.trades
  sampled : 2 ≤ candles.length → executionBars run (orderedBars candles) ≠ [] →
    result.equityCurve.getLast?.map Prod.snd = some result.endingEquity

/-- The last bar is no matter. -/
lemma Account.settleEnd {final : Candle ℚ} (h : Account run time s) (htime : time ≤ final.openTimeMs + run.barDurationMs)
    (hexecutes : run.executes final = true) (hsettle : settleEnd run s final = .ok t) :
    t.equity = run.startingEquity + profit t.trades ∧ Trades run t.trades ∧
      (∀ last, t.samples.getLast? = some last → last.2 = t.equity) ∧
      (t.samples = [] → t.equity = run.startingEquity) := by
  obtain ⟨-, -, hended⟩ := executes_iff.mp hexecutes
  unfold Experiments.settleEnd at hsettle
  cases hfill : s.openFill with
  | none =>
      rw [hfill] at hsettle
      obtain rfl := pure_eq_ok_iff.mp hsettle
      exact ⟨h.equity, h.trades, h.sampled hfill, h.fresh⟩
  | some fill =>
      rw [hfill] at hsettle
      obtain ⟨settled, hclose, hsettle⟩ := bind_eq_ok.mp hsettle
      obtain rfl := pure_eq_ok_iff.mp hsettle
      obtain ⟨hequity, htrades, -⟩ := h.close hfill hclose htime hended
      refine ⟨hequity, htrades, fun last hlast => ?_, fun hnil => ?_⟩
      · rw [List.getLast?_concat] at hlast
        obtain rfl := Option.some.inj hlast
        rfl
      · exact absurd hnil (List.append_ne_nil_of_right_ne_nil _ (List.cons_ne_nil _ _))

lemma CandidateRun.barDuration_pos (h : checkRun run ordered = .ok ()) : 0 < run.barDurationMs := by
  obtain ⟨_, _, h⟩ := bind_eq_ok.mp h
  obtain ⟨_, hduration, _⟩ := bind_eq_ok.mp h
  rw [require_eq_ok, Bool.or_eq_true, decide_eq_true_eq, decide_eq_true_eq, hourMs] at hduration
  omega

/-- The account before the first bar. -/
lemma account_start (run : CandidateRun ℚ) (time : ℤ) : Account run time ⟨run.startingEquity, none, [], []⟩ where
  equity := (add_zero _).symm
  trades := {
    enters := fun before trade after heq => absurd heq.symm (List.append_ne_nil_of_right_ne_nil _ (List.cons_ne_nil _ _))
    lasts := fun trade htrade => absurd htrade List.not_mem_nil
    apart := List.Pairwise.nil
    inRange := fun trade htrade => absurd htrade List.not_mem_nil }
  past trade htrade := absurd htrade List.not_mem_nil
  holds fill hfill := by cases hfill
  sampled _ last hlast := by cases hlast
  fresh _ := rfl

end books

/-! ## The order of the bars -/

section order

variable {F : Type} {candles ordered : List (Candle F)}

/-- Bars of distinct times are in the order of their times. -/
lemma orderedBars_increasing (h : (candles.map Candle.openTimeMs).Nodup) :
    Increasing Candle.openTimeMs (orderedBars candles) := by
  have htotal : Std.Total fun a b : Candle F => a.openTimeMs ≤ b.openTimeMs := ⟨fun a b => le_total _ _⟩
  have htrans : IsTrans (Candle F) fun a b => a.openTimeMs ≤ b.openTimeMs := ⟨fun a b c => le_trans⟩
  have hsorted : (orderedBars candles).Pairwise fun a b => a.openTimeMs ≤ b.openTimeMs :=
    List.pairwise_insertionSort (fun a b : Candle F => a.openTimeMs ≤ b.openTimeMs) candles
  have hdistinct : (orderedBars candles).Pairwise fun a b => a.openTimeMs ≠ b.openTimeMs := by
    have hnodup := ((List.perm_insertionSort (fun a b : Candle F => a.openTimeMs ≤ b.openTimeMs) candles).map
      Candle.openTimeMs).nodup_iff.mpr h
    exact List.pairwise_map.mp hnodup
  exact (hsorted.and hdistinct).imp fun hboth => lt_of_le_of_ne hboth.1 hboth.2

lemma length_orderedBars (candles : List (Candle F)) : (orderedBars candles).length = candles.length :=
  List.length_insertionSort _ candles

variable {run : CandidateRun F}

/-- The bars of an execution range are in their order. -/
lemma executionBars_increasing (run : CandidateRun F) (h : Increasing Candle.openTimeMs ordered) :
    Increasing barTime (executionBars run ordered) := by
  have hindexed : Increasing barTime ordered.zipIdx := by
    have hmap : (ordered.zipIdx.map Prod.fst).Pairwise fun a b => a.openTimeMs < b.openTimeMs := by
      rw [List.zipIdx_map_fst]
      exact h
    exact (List.pairwise_map (f := Prod.fst)).mp hmap
  exact hindexed.filter _

lemma executes_of_mem {bar : Candle F × ℕ} (h : bar ∈ executionBars run ordered) : run.executes bar.1 = true :=
  (List.mem_filter.mp h).2

end order

/-- **The books of a run balance.** -/
lemma balanced_of_run {run : CandidateRun ℚ} {candles : List (Candle ℚ)} {result : CandidateResult ℚ}
    (hdistinct : (candles.map Candle.openTimeMs).Nodup) (h : runLongOnlyCandidate run candles = .ok result) :
    Balanced run candles result := by
  obtain ⟨_, hcheck, h⟩ := bind_eq_ok.mp h
  have hduration := CandidateRun.barDuration_pos hcheck
  have hordered := executionBars_increasing run (orderedBars_increasing hdistinct)
  have hstart := account_start run
  unfold runOrdered at h
  cases hbars : executionBars run (orderedBars candles) with
  | nil =>
      rw [hbars] at h
      obtain rfl := pure_eq_ok_iff.mp h
      exact ⟨(hstart 0).equity, (hstart 0).trades, fun _ hne => absurd hbars hne⟩
  | cons first rest =>
      rw [hbars] at h hordered
      dsimp only at h
      split at h
      · rename_i hshort
        obtain rfl := pure_eq_ok_iff.mp h
        refine ⟨(hstart 0).equity, (hstart 0).trades, fun hlong _ => ?_⟩
        rw [length_orderedBars] at hshort
        omega
      · obtain ⟨s, hfold, h⟩ := bind_eq_ok.mp h
        obtain ⟨t, hsettle, h⟩ := bind_eq_ok.mp h
        obtain rfl := pure_eq_ok_iff.mp h
        have hexecutes : ∀ bar ∈ first :: rest, run.executes bar.1 = true := by
          intro bar hbar
          rw [← hbars] at hbar
          exact executes_of_mem hbar
        set final := (first :: rest).getLast (List.cons_ne_nil first rest) with hfinal
        have hbounds : ∀ bar ∈ first :: rest, first.1.openTimeMs ≤ bar.1.openTimeMs ∧
            bar.1.openTimeMs < final.1.openTimeMs + 1 := by
          intro bar hbar
          refine ⟨hordered.head_le rfl hbar, Int.lt_add_one_of_le (hordered.le_getLast ?_ hbar)⟩
          exact List.getLast?_eq_getLast_of_ne_nil (List.cons_ne_nil first rest)
        have haccount := (hstart first.1.openTimeMs).foldlM (hbounds first List.mem_cons_self).2.le hbounds hordered
          hexecutes hfold
        obtain ⟨hequity, htrades, hsampled, hunsampled⟩ := haccount.settleEnd (by omega)
          (hexecutes final (List.getLast_mem _)) hsettle
        refine ⟨hequity, htrades, fun _ _ => ?_⟩
        -- without a sample after the first one, nothing was traded
        rcases List.eq_nil_or_concat t.samples with hnil | ⟨init, last, hconcat⟩
        · rw [hnil, hunsampled hnil]
          rfl
        · rw [hconcat, List.concat_eq_append, ← List.cons_append, List.getLast?_concat]
          exact congrArg some (hsampled last (by rw [hconcat, List.concat_eq_append, List.getLast?_concat]))

/-! ## Common bars -/

section causality

variable {F : Type} [Number F] {run : CandidateRun F} {ordered others : List (Candle F)} {k : ℕ}
  {s t : CandidateState F} {bar : Candle F × ℕ}

omit [Number F] in
/-- The bars of an execution range: those among the first ones, and later ones. -/
lemma executionBars_split (run : CandidateRun F) (ordered : List (Candle F)) (k : ℕ) :
    ∃ later, executionBars run ordered = executionBars run (ordered.take k) ++ later ∧
      ∀ bar ∈ later, bar.1 ∈ ordered.drop k := by
  refine ⟨((ordered.drop k).zipIdx (0 + (ordered.take k).length)).filter fun bar => run.executes bar.1, ?_,
    fun bar hbar => ?_⟩
  · unfold executionBars
    rw [← List.filter_append, ← List.zipIdx_append, List.take_append_drop]
  · obtain ⟨hmem, -⟩ := List.mem_filter.mp hbar
    exact List.fst_mem_of_mem_zipIdx hmem

/-- **A bar sees the bars before it.** -/
lemma stepBar_congr (hcommon : ordered.take k = others.take k) (hbar : bar ∈ executionBars run (ordered.take k)) :
    stepBar run ordered s bar = stepBar run others s bar := by
  have hindex : bar.2 < k := by
    obtain ⟨hmem, -⟩ := List.mem_filter.mp hbar
    have hlt := List.snd_lt_of_mem_zipIdx hmem
    rw [List.length_take] at hlt
    omega
  have htake : ordered.take bar.2 = others.take bar.2 := by
    have htwice := congrArg (List.take bar.2) hcommon
    rwa [List.take_take, List.take_take, Nat.min_eq_left hindex.le] at htwice
  unfold stepBar
  rw [htake]

/-- What bars add to an account: trades that are closed on them, and samples. -/
structure Grown (run : CandidateRun F) (bars : List (Candle F × ℕ)) (s t : CandidateState F)
    (newTrades : List (CandidateTrade F)) (newSamples : List (ℤ × F)) : Prop where
  trades : t.trades = s.trades ++ newTrades
  samples : t.samples = s.samples ++ newSamples
  closed : ∀ trade ∈ newTrades, trade.exitReason = .signalFlat ∧ ∃ bar ∈ bars, trade.exitTimeMs = bar.1.openTimeMs

/-- A bar is sampled unless it is the first of all, and there are no targets for it. -/
def CandidateRun.samples (run : CandidateRun F) (bar : Candle F × ℕ) : Bool :=
  !(bar.2 = 0 && run.targetLongByOpenTime.isNone)

/-- The times of the samples on some bars. -/
def CandidateRun.sampleTimes (run : CandidateRun F) (bars : List (Candle F × ℕ)) : List ℤ :=
  (bars.filter run.samples).map fun bar => bar.1.openTimeMs + run.barDurationMs

omit [Number F] in
lemma grown_nil (run : CandidateRun F) (bars : List (Candle F × ℕ)) (s : CandidateState F) : Grown run bars s s [] [] :=
  ⟨(List.append_nil _).symm, (List.append_nil _).symm, fun _ htrade => absurd htrade List.not_mem_nil⟩

/-- The time and the reason of a trade are those of its exit. -/
lemma closeLongOnlyTrade_exit {fill : Fill F} {exitTimeMs : ℤ} {exitPrice equity feeRate : F} {reason : CandidateExit}
    {settled : F × CandidateTrade F} (h : closeLongOnlyTrade fill exitTimeMs exitPrice equity feeRate reason = .ok settled) :
    settled.2.exitTimeMs = exitTimeMs ∧ settled.2.exitReason = reason := by
  obtain ⟨_, _, h⟩ := bind_eq_ok.mp h
  obtain rfl := pure_eq_ok_iff.mp h
  exact ⟨rfl, rfl⟩

/-- A position is closed on its bar. -/
lemma settle_grown {targetLong : Bool} (h : settle run s bar.1 targetLong = .ok t) :
    ∃ newTrades, Grown run [bar] s t newTrades [] := by
  have hnone := grown_nil run [bar] s
  unfold settle at h
  cases hfill : s.openFill with
  | none =>
      rw [hfill] at h
      dsimp only at h
      split at h
      · obtain ⟨fill, _, h⟩ := bind_eq_ok.mp h
        obtain rfl := pure_eq_ok_iff.mp h
        exact ⟨[], hnone.trades, hnone.samples, hnone.closed⟩
      · obtain rfl := pure_eq_ok_iff.mp h
        exact ⟨[], hnone⟩
  | some fill =>
      rw [hfill] at h
      dsimp only at h
      split at h
      · obtain rfl := pure_eq_ok_iff.mp h
        exact ⟨[], hnone⟩
      · obtain ⟨settled, hclose, h⟩ := bind_eq_ok.mp h
        obtain rfl := pure_eq_ok_iff.mp h
        obtain ⟨htime, hreason⟩ := closeLongOnlyTrade_exit hclose
        refine ⟨[settled.2], rfl, hnone.samples, fun trade htrade => ?_⟩
        rw [List.mem_singleton.mp htrade]
        exact ⟨hreason, bar, List.mem_cons_self, htime⟩

/-- A bar adds a sample, if it is sampled. -/
lemma stepBar_grown (h : stepBar run ordered s bar = .ok t) :
    ∃ newTrades newSamples, Grown run [bar] s t newTrades newSamples ∧
      newSamples.map Prod.fst = run.sampleTimes [bar] := by
  unfold stepBar at h
  by_cases hskip : bar.2 = 0 ∧ run.targetLongByOpenTime.isNone
  · rw [if_pos hskip] at h
    obtain rfl := pure_eq_ok_iff.mp h
    have hsampled : run.samples bar = false := by simp [CandidateRun.samples, hskip.1, hskip.2]
    exact ⟨[], [], grown_nil run [bar] s, by simp [CandidateRun.sampleTimes, hsampled]⟩
  · rw [if_neg hskip] at h
    obtain ⟨targetLong, _, h⟩ := bind_eq_ok.mp h
    obtain ⟨settled, hsettle, h⟩ := bind_eq_ok.mp h
    obtain rfl := pure_eq_ok_iff.mp h
    have hsampled : run.samples bar = true := by
      rw [CandidateRun.samples, Bool.not_eq_true', Bool.and_eq_false_iff, decide_eq_false_iff_not]
      rw [not_and, Bool.not_eq_true] at hskip
      exact or_iff_not_imp_left.mpr fun hzero => hskip (not_not.mp hzero)
    obtain ⟨newTrades, hgrown⟩ := settle_grown hsettle
    refine ⟨newTrades, [(bar.1.openTimeMs + run.barDurationMs, marked settled bar.1)],
      ⟨hgrown.trades, ?_, hgrown.closed⟩, by simp [CandidateRun.sampleTimes, hsampled]⟩
    rw [hgrown.samples, List.append_nil]

/-- **Bars only add** to the account. -/
lemma foldlM_grown {bars : List (Candle F × ℕ)} (h : bars.foldlM (stepBar run ordered) s = .ok t) :
    ∃ newTrades newSamples, Grown run bars s t newTrades newSamples ∧
      newSamples.map Prod.fst = run.sampleTimes bars := by
  induction bars generalizing s with
  | nil =>
      obtain rfl := pure_eq_ok_iff.mp h
      exact ⟨[], [], grown_nil run [] s, rfl⟩
  | cons first bars ih =>
      rw [List.foldlM_cons] at h
      obtain ⟨u, hstep, h⟩ := bind_eq_ok.mp h
      obtain ⟨trades, samples, hgrown, htimes⟩ := stepBar_grown hstep
      obtain ⟨trades', samples', hgrown', htimes'⟩ := ih h
      refine ⟨trades ++ trades', samples ++ samples', ⟨?_, ?_, fun trade htrade => ?_⟩, ?_⟩
      · rw [hgrown'.trades, hgrown.trades, List.append_assoc]
      · rw [hgrown'.samples, hgrown.samples, List.append_assoc]
      · rcases List.mem_append.mp htrade with htrade | htrade
        · obtain ⟨hreason, bar, hbar, htime⟩ := hgrown.closed trade htrade
          rw [List.mem_singleton.mp hbar] at htime
          exact ⟨hreason, first, List.mem_cons_self, htime⟩
        · obtain ⟨hreason, bar, hbar, htime⟩ := hgrown'.closed trade htrade
          exact ⟨hreason, bar, List.mem_cons_of_mem first hbar, htime⟩
      · rw [List.map_append, htimes, htimes', CandidateRun.sampleTimes, CandidateRun.sampleTimes,
          CandidateRun.sampleTimes, ← List.map_append, ← List.filter_append, List.singleton_append]

/-! ## Two runs -/

/-- A trade that a signal closed on one of some bars. -/
def closedOn (bars : List (Candle F)) (trade : CandidateTrade F) : Bool :=
  trade.exitReason = .signalFlat && trade.exitTimeMs ∈ bars.map Candle.openTimeMs

/-- The samples after the first one. -/
def barSamples (result : CandidateResult F) : List (ℤ × F) := result.equityCurve.drop 1

/-- The account after the first bars is in the result: what is added is closed later, or at the end of the data. -/
lemma runOrdered_split {result : CandidateResult F} (hordered : Increasing Candle.openTimeMs ordered)
    (hlong : 2 ≤ ordered.length) (h : runOrdered run ordered = .ok result) (k : ℕ) :
    ∃ s newTrades newSamples,
      (executionBars run (ordered.take k)).foldlM (stepBar run ordered) ⟨run.startingEquity, none, [], []⟩ = .ok s ∧
      result.trades = s.trades ++ newTrades ∧ barSamples result = s.samples ++ newSamples ∧
      ∀ trade ∈ newTrades, closedOn (ordered.take k) trade = false := by
  obtain ⟨later, hsplit, hlater⟩ := executionBars_split run ordered k
  unfold runOrdered at h
  cases hbars : executionBars run ordered with
  | nil =>
      rw [hbars] at h hsplit
      obtain rfl := pure_eq_ok_iff.mp h
      rw [(List.append_eq_nil_iff.mp hsplit.symm).1]
      exact ⟨_, [], [], rfl, rfl, rfl, fun trade htrade => absurd htrade List.not_mem_nil⟩
  | cons first rest =>
      rw [hbars] at h
      dsimp only at h
      rw [if_neg (not_lt.mpr hlong)] at h
      obtain ⟨u, hfold, h⟩ := bind_eq_ok.mp h
      obtain ⟨t, hsettle, h⟩ := bind_eq_ok.mp h
      obtain rfl := pure_eq_ok_iff.mp h
      rw [← hbars, hsplit] at hfold
      obtain ⟨s, hfirst, hrest⟩ := foldlM_append_eq_ok.mp hfold
      obtain ⟨newTrades, newSamples, hgrown, -⟩ := foldlM_grown hrest
      -- what is closed later is on a later bar
      have hnew : ∀ trade ∈ newTrades, closedOn (ordered.take k) trade = false := by
        intro trade htrade
        obtain ⟨-, bar, hbar, htime⟩ := hgrown.closed trade htrade
        rw [closedOn, Bool.and_eq_false_iff, decide_eq_false_iff_not, decide_eq_false_iff_not]
        refine .inr fun hmem => ?_
        obtain ⟨early, hearly, heq⟩ := List.mem_map.mp hmem
        rw [← List.take_append_drop k ordered] at hordered
        have hlt := (increasing_append.mp hordered).2.2 early hearly bar.1 (hlater bar hbar)
        omega
      unfold settleEnd at hsettle
      cases hfill : u.openFill with
      | none =>
          rw [hfill] at hsettle
          obtain rfl := pure_eq_ok_iff.mp hsettle
          exact ⟨s, newTrades, newSamples, hfirst, hgrown.trades, hgrown.samples, hnew⟩
      | some fill =>
          rw [hfill] at hsettle
          obtain ⟨settled, hclose, hsettle⟩ := bind_eq_ok.mp hsettle
          obtain rfl := pure_eq_ok_iff.mp hsettle
          obtain ⟨htime, hreason⟩ := closeLongOnlyTrade_exit hclose
          refine ⟨s, newTrades ++ [settled.2], newSamples ++ [_], hfirst, ?_,
            ((List.append_assoc _ _ _).symm.trans (congrArg (· ++ _) hgrown.samples.symm)).symm, fun trade htrade => ?_⟩
          · rw [← List.append_assoc, ← hgrown.trades]
          · rcases List.mem_append.mp htrade with htrade | htrade
            · exact hnew trade htrade
            · rw [List.mem_singleton.mp htrade, closedOn, hreason]
              rfl

/-- What two runs on the same first bars have in common: the trades that a signal closed on them, and their samples. -/
structure SameBefore (run : CandidateRun F) (first : List (Candle F)) (result₁ result₂ : CandidateResult F) : Prop where
  trades : result₁.trades.filter (closedOn first) = result₂.trades.filter (closedOn first)
  samples : ∃ common, common <+: barSamples result₁ ∧ common <+: barSamples result₂ ∧
    common.map Prod.fst = run.sampleTimes (executionBars run first)

/-- **No look-ahead.** -/
lemma sameBefore_of_runs {result₁ result₂ : CandidateResult F} (hordered₁ : Increasing Candle.openTimeMs ordered)
    (hordered₂ : Increasing Candle.openTimeMs others) (hlong₁ : 2 ≤ ordered.length) (hlong₂ : 2 ≤ others.length)
    (hcommon : ordered.take k = others.take k) (h₁ : runOrdered run ordered = .ok result₁)
    (h₂ : runOrdered run others = .ok result₂) : SameBefore run (ordered.take k) result₁ result₂ := by
  obtain ⟨s, newTrades₁, newSamples₁, hfold₁, htrades₁, hsamples₁, hnew₁⟩ := runOrdered_split hordered₁ hlong₁ h₁ k
  obtain ⟨s', newTrades₂, newSamples₂, hfold₂, htrades₂, hsamples₂, hnew₂⟩ := runOrdered_split hordered₂ hlong₂ h₂ k
  rw [← hcommon] at hfold₂ hnew₂
  have hsame : (executionBars run (ordered.take k)).foldlM (stepBar run ordered) ⟨run.startingEquity, none, [], []⟩ =
      (executionBars run (ordered.take k)).foldlM (stepBar run others) ⟨run.startingEquity, none, [], []⟩ :=
    foldlM_congr (I := fun _ => True) (fun _ _ _ _ _ _ => trivial) (fun s bar hbar _ => stepBar_congr hcommon hbar) trivial
  obtain rfl := Except.ok.inj (hfold₁.symm.trans (hsame.trans hfold₂))
  obtain ⟨trades, samples, hgrown, htimes⟩ := foldlM_grown hfold₁
  have hkept : ∀ newTrades, (∀ trade ∈ newTrades, closedOn (ordered.take k) trade = false) →
      (s.trades ++ newTrades).filter (closedOn (ordered.take k)) = s.trades.filter (closedOn (ordered.take k)) := by
    intro newTrades hnew
    have hnone : newTrades.filter (closedOn (ordered.take k)) = [] := by
      refine List.filter_eq_nil_iff.mpr fun trade htrade => ?_
      rw [hnew trade htrade]
      exact Bool.false_ne_true
    rw [List.filter_append, hnone, List.append_nil]
  refine ⟨?_, s.samples, ?_, ?_, ?_⟩
  · rw [htrades₁, htrades₂, hkept _ hnew₁, hkept _ hnew₂]
  · exact ⟨newSamples₁, hsamples₁.symm⟩
  · exact ⟨newSamples₂, hsamples₂.symm⟩
  · rw [hgrown.samples]
    exact htimes

end causality

/-- **Runs of long-only candidates balance, and are causal.** -/
theorem candidate_runs (run : CandidateRun ℚ) :
    (∀ candles result, (candles.map Candle.openTimeMs).Nodup → runLongOnlyCandidate run candles = .ok result →
      Balanced run candles result) ∧
    ∀ candles₁ candles₂ k result₁ result₂, (candles₁.map Candle.openTimeMs).Nodup →
      (candles₂.map Candle.openTimeMs).Nodup → 2 ≤ candles₁.length → 2 ≤ candles₂.length →
      (orderedBars candles₁).take k = (orderedBars candles₂).take k →
      runLongOnlyCandidate run candles₁ = .ok result₁ → runLongOnlyCandidate run candles₂ = .ok result₂ →
      SameBefore run ((orderedBars candles₁).take k) result₁ result₂ := by
  refine ⟨fun candles result hdistinct h => balanced_of_run hdistinct h, ?_⟩
  intro candles₁ candles₂ k result₁ result₂ hdistinct₁ hdistinct₂ hlong₁ hlong₂ hcommon h₁ h₂
  obtain ⟨_, _, h₁⟩ := bind_eq_ok.mp h₁
  obtain ⟨_, _, h₂⟩ := bind_eq_ok.mp h₂
  rw [← length_orderedBars] at hlong₁ hlong₂
  exact sameBefore_of_runs (orderedBars_increasing hdistinct₁) (orderedBars_increasing hdistinct₂) hlong₁ hlong₂ hcommon
    h₁ h₂

/-! ## A night -/

/-- The overnight candidate, at five basis points and one tick. -/
def overnightRun : CandidateRun ℚ where
  definition := ⟨"overnight_seasonality", "overnight_seasonality", "Overnight seasonality", "hypothesis", none⟩
  feeBpsPerSide := 5
  slippageTicks := 1
  tickSize := 0.1
  startingEquity := 10000

/-- The hours from 21:00 on. -/
def night (closes : List ℚ) : List (Candle ℚ) :=
  closes.zipIdx.map fun bar : ℚ × ℕ => ⟨75600000 + 3600000 * (bar.2 : ℤ), bar.1, bar.1, bar.1, bar.1, 1⟩

/-- A night, and one that goes on another way. -/
theorem candidate_runs_demo : ∃ result₁ result₂,
    runLongOnlyCandidate overnightRun (night [100, 101, 102, 103, 104]) = .ok result₁ ∧
    runLongOnlyCandidate overnightRun (night [100, 101, 102, 90]) = .ok result₂ ∧
    Balanced overnightRun (night [100, 101, 102, 103, 104]) result₁ ∧
    SameBefore overnightRun ((orderedBars (night [100, 101, 102, 103, 104])).take 3) result₁ result₂ := by
  obtain ⟨result₁, h₁⟩ := exists_eq_ok_of_isOk
    (by decide +kernel : (runLongOnlyCandidate overnightRun (night [100, 101, 102, 103, 104])).isOk = true)
  obtain ⟨result₂, h₂⟩ := exists_eq_ok_of_isOk
    (by decide +kernel : (runLongOnlyCandidate overnightRun (night [100, 101, 102, 90])).isOk = true)
  refine ⟨result₁, result₂, h₁, h₂, (candidate_runs overnightRun).1 _ _ (by decide +kernel) h₁, ?_⟩
  exact (candidate_runs overnightRun).2 _ _ 3 _ _ (by decide +kernel) (by decide +kernel) (by decide) (by decide)
    (by decide +kernel) h₁ h₂

end MuStrategy.Experiments
