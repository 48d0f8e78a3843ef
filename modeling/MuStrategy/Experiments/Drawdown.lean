import MuStrategy.Backtest.NetEquity
import MuStrategy.Experiments.WalkForward

/-!
# Drawdowns of equity curves

* `maxDrawdownPct_nonpos`, `neg_one_le_maxDrawdownPct` — a drawdown is a loss of no more than everything.
* `maxDrawdownPct_flat` — a curve that does not move has none.
* `flat_of_no_trades` — the curve of a run without trades does not move.
-/

namespace MuStrategy.Experiments

open Lib TrustedData Strategy Backtest

/-! ## Curves -/

lemma drawdownStep_eq (s : ℚ × ℚ) (sample : ℤ × ℚ) : drawdownStep s sample =
    (max s.1 sample.2, if max s.1 sample.2 = 0 then s.2 else min s.2 (sample.2 / max s.1 sample.2 - 1)) := by
  simp only [drawdownStep, pyMax_eq_max, pyMin_eq_min]
  by_cases hzero : max s.1 sample.2 = 0
  · rw [if_pos hzero, if_pos (isZero_eq_true.mpr hzero)]
  · rw [if_neg hzero, if_neg (fun h => hzero (isZero_eq_true.mp h))]

/-- What one sample keeps of the peak and the drawdown, all samples keep. -/
lemma foldl_drawdown {P : ℚ × ℚ → Prop} {samples : List (ℤ × ℚ)}
    (hstep : ∀ s, ∀ sample ∈ samples, P s → P (drawdownStep s sample)) {s : ℚ × ℚ} (hs : P s) :
    P (samples.foldl drawdownStep s) := by
  induction samples generalizing s with
  | nil => exact hs
  | cons sample samples ih =>
      exact ih (fun s sample hsample => hstep s sample (List.mem_cons_of_mem _ hsample))
        (hstep s sample List.mem_cons_self hs)

/-- A drawdown is no gain. -/
lemma maxDrawdownPct_nonpos (curve : List (ℤ × ℚ)) : maxDrawdownPct curve ≤ 0 := by
  cases curve with
  | nil => exact le_rfl
  | cons first rest =>
      refine @foldl_drawdown (fun s => s.2 ≤ 0) _ (fun s sample _ hs => ?_) (first.2, 0) le_rfl
      rw [drawdownStep_eq]
      dsimp only
      split_ifs
      · exact hs
      · exact (min_le_left _ _).trans hs

/-- No more than everything is lost. -/
lemma neg_one_le_maxDrawdownPct {curve : List (ℤ × ℚ)} (h : ∀ sample ∈ curve, 0 ≤ sample.2) :
    -1 ≤ maxDrawdownPct curve := by
  cases curve with
  | nil => exact (by norm_num : (-1 : ℚ) ≤ 0)
  | cons first rest =>
      have hfirst := h first List.mem_cons_self
      refine (@foldl_drawdown (fun s => 0 ≤ s.1 ∧ -1 ≤ s.2) (first :: rest) (fun s sample hsample hs => ?_)
        (first.2, 0) ⟨hfirst, by norm_num⟩).2
      have hratio : 0 ≤ sample.2 / max s.1 sample.2 := div_nonneg (h sample hsample) (hs.1.trans (le_max_left _ _))
      rw [drawdownStep_eq]
      dsimp only
      refine ⟨hs.1.trans (le_max_left _ _), ?_⟩
      split_ifs
      · exact hs.2
      · exact le_min hs.2 (by linarith)

/-- A curve that does not move has no drawdown. -/
lemma maxDrawdownPct_flat {curve : List (ℤ × ℚ)} {c : ℚ} (h : ∀ sample ∈ curve, sample.2 = c) :
    maxDrawdownPct curve = 0 := by
  cases curve with
  | nil => rfl
  | cons first rest =>
      refine (@foldl_drawdown (fun s => s.1 = c ∧ s.2 = 0) (first :: rest) (fun s sample hsample hs => ?_)
        (first.2, 0) ⟨h first List.mem_cons_self, rfl⟩).2
      rw [drawdownStep_eq, hs.1, hs.2, h sample hsample, max_self]
      refine ⟨rfl, ?_⟩
      split_ifs with hzero
      · rfl
      · rw [div_self hzero, sub_self, min_self]

/-- The last sample is below its peak. -/
lemma maxDrawdownPct_le_last {first last : ℤ × ℚ} {curve : List (ℤ × ℚ)} (hhead : curve.head? = some first)
    (hlast : curve.getLast? = some last) (hpos : 0 < first.2) (hnonneg : 0 ≤ last.2) :
    maxDrawdownPct curve ≤ last.2 / first.2 - 1 := by
  obtain ⟨init, rfl⟩ := List.getLast?_eq_some_iff.mp hlast
  have hcurve : maxDrawdownPct (init ++ [last]) = (drawdownStep (init.foldl drawdownStep (first.2, 0)) last).2 := by
    cases hinit : init ++ [last] with
    | nil => exact absurd hinit (List.append_ne_nil_of_right_ne_nil _ (List.cons_ne_nil _ _))
    | cons head rest =>
        rw [hinit] at hhead
        obtain rfl := Option.some.inj hhead
        rw [maxDrawdownPct, ← hinit, List.foldl_append]
        rfl
  have hpeak : first.2 ≤ (init.foldl drawdownStep (first.2, 0)).1 := by
    refine @foldl_drawdown (fun s => first.2 ≤ s.1) _ (fun s sample _ hs => ?_) (first.2, 0) le_rfl
    rw [drawdownStep_eq]
    exact hs.trans (le_max_left _ _)
  have hmax : first.2 ≤ max (init.foldl drawdownStep (first.2, 0)).1 last.2 := hpeak.trans (le_max_left _ _)
  rw [hcurve, drawdownStep_eq, if_neg (by linarith)]
  refine (min_le_right _ _).trans (sub_le_sub_right ?_ 1)
  exact div_le_div_of_nonneg_left hnonneg hpos hmax

/-! ## Runs without trades -/

/-- Before a moment with nothing closed and nothing open, nothing was. -/
lemma empty_of_next {startingEquity : ℚ} {config : StrategyConfig ℚ} {candles : List (Candle ℚ)} {m n : Moment}
    (h : Moment.Next startingEquity config candles m n) (hclosed : n.closed = []) (hopen : n.openFills = []) :
    m.closed = [] ∧ m.openFills = [] := by
  cases h with
  | close _ => exact ⟨hclosed, hopen⟩
  | fill _ => exact absurd hopen (List.append_ne_nil_of_right_ne_nil _ (List.cons_ne_nil _ _))
  | settle _ _ => exact absurd hclosed (List.append_ne_nil_of_right_ne_nil _ (List.cons_ne_nil _ _))

lemma empty_of_history {startingEquity : ℚ} {config : StrategyConfig ℚ} {candles : List (Candle ℚ)}
    {history : List Moment} (hchain : history.IsChain (Moment.Next startingEquity config candles))
    (hlast : ∀ m, history.getLast? = some m → m.closed = [] ∧ m.openFills = []) :
    ∀ m ∈ history, m.closed = [] ∧ m.openFills = [] := by
  induction history with
  | nil => simp
  | cons m rest ih =>
      cases rest with
      | nil => simpa using hlast m rfl
      | cons n rest =>
          obtain ⟨hnext, hrest⟩ := List.isChain_cons_cons.mp hchain
          have hall := ih hrest fun l hl => hlast l (by rwa [List.getLast?_cons_cons])
          obtain ⟨hclosed, hopen⟩ := hall n List.mem_cons_self
          exact List.forall_mem_cons.mpr ⟨empty_of_next hnext hclosed hopen, hall⟩

section runs

variable [Eastern] {candles : List (Candle ℚ)} {context : ℤ → Option String} {config : StrategyConfig ℚ}
  {startingEquity : ℚ} {result : BacktestResult ℚ}

/-- **A run without trades** has a curve that does not move. -/
theorem flat_of_no_trades (hrun : runBacktest candles context config startingEquity = .ok result)
    (hnone : result.trades = []) : ∀ sample ∈ result.equityCurve, sample.2 = startingEquity := by
  by_cases hlength : 4 ≤ candles.length
  · obtain ⟨first, s, -, hwalk, rfl⟩ := runBacktest_eq_ok hlength hrun
    obtain ⟨haccount, hflat⟩ := finish_account (by rintro rfl; cases hlength) hwalk
    obtain ⟨history, hhistory, hcurve⟩ := haccount.history
    change (finish (inputsOf candles context config) s).books.trades = [] at hnone
    change ∀ sample ∈ (finish (inputsOf candles context config) s).books.equityCurve, sample.2 = startingEquity
    have hempty := empty_of_history hhistory.next fun m hm => by
      obtain ⟨last, hlast, hclosed, hopen⟩ := hhistory.last
      obtain rfl := Option.some.inj (hm.symm.trans hlast)
      exact ⟨hclosed.trans hnone, hopen.trans hflat⟩
    rw [hcurve]
    intro sample hsample
    obtain ⟨m, hm, rfl⟩ := List.mem_map.mp hsample
    obtain ⟨hclosed, hopen⟩ := hempty m hm
    simp [Moment.netEquity, settledEquity, hclosed, hopen]
  · rw [runBacktest_short hlength hrun]
    simp

/-- A run ends with what its trades brought, and its last sample is that. -/
lemma ending_of_run (hrun : runBacktest candles context config startingEquity = .ok result) :
    result.startingEquity = startingEquity ∧
      result.endingEquity = startingEquity + (result.trades.map Trade.pnl).sum ∧
      (result.equityCurve = [] ∧ result.endingEquity = startingEquity ∨
        ∃ first last, result.equityCurve.head? = some first ∧ result.equityCurve.getLast? = some last ∧
          first.2 = startingEquity ∧ last.2 = result.endingEquity) := by
  by_cases hlength : 4 ≤ candles.length
  · obtain ⟨first, s, -, hwalk, rfl⟩ := runBacktest_eq_ok hlength hrun
    obtain ⟨haccount, hflat⟩ := finish_account (by rintro rfl; cases hlength) hwalk
    obtain ⟨history, hhistory, hcurve⟩ := haccount.history
    obtain ⟨m, hm, hmclosed, hmopen⟩ := hhistory.first
    obtain ⟨l, hl, hlclosed, hlopen⟩ := hhistory.last
    refine ⟨rfl, haccount.settled, Or.inr ⟨(m.timeMs, m.netEquity startingEquity), (l.timeMs, l.netEquity startingEquity),
      ?_, ?_, ?_, ?_⟩⟩
    · exact (congrArg List.head? hcurve).trans (by rw [List.head?_map, hm]; rfl)
    · exact (congrArg List.getLast? hcurve).trans (by rw [List.getLast?_map, hl]; rfl)
    · simp [Moment.netEquity, settledEquity, hmclosed, hmopen]
    · refine Eq.trans ?_ haccount.settled.symm
      rw [hflat] at hlopen
      simp [Moment.netEquity, hlclosed, hlopen]
  · rw [runBacktest_short hlength hrun]
    exact ⟨rfl, by simp, Or.inl ⟨rfl, rfl⟩⟩

end runs

end MuStrategy.Experiments
