import MuStrategy.Experiments.CandidateRuns
import MuStrategy.Experiments.Drawdown
import MuStrategy.Experiments.StressGrid

/-!
# Summaries of windows

* `Books`, `books_of_run` — the books of a long-only candidate, whatever its bars are.
* `WindowKeeps` — what the result of a window keeps: its equity is its profit, and the ends of its curve.
* `SummaryKeeps`, `summaryKeeps_of_windows` — what the summary of such windows keeps: its return is its profit, for a
  positive equity, and no less than its drawdown.
-/

namespace MuStrategy.Experiments

open Lib TrustedData Strategy Backtest

/-! ## Long-only candidates -/

section books

variable {run : CandidateRun ℚ} {s t : CandidateState ℚ} {ordered candles : List (Candle ℚ)}
  {result : CandidateResult ℚ}

/-- The books of a long-only candidate after some bars. -/
structure Books (run : CandidateRun ℚ) (s : CandidateState ℚ) : Prop where
  equity : s.equity = run.startingEquity + profit s.trades
  sampled : s.openFill = none → (s.samples.getLast?.map Prod.snd).getD run.startingEquity = s.equity
  idle : s.trades = [] → s.openFill = none → ∀ sample ∈ s.samples, sample.2 = run.startingEquity

/-- A trade brings what the equity grows by. -/
lemma closeLongOnlyTrade_equity {fill : Fill ℚ} {exitTimeMs : ℤ} {exitPrice equity feeRate : ℚ} {reason : CandidateExit}
    {settled : ℚ × CandidateTrade ℚ}
    (h : closeLongOnlyTrade fill exitTimeMs exitPrice equity feeRate reason = .ok settled) :
    settled.1 = equity + settled.2.pnl := by
  obtain ⟨_, _, h⟩ := bind_eq_ok.mp h
  obtain rfl := pure_eq_ok_iff.mp h
  rfl

/-- What the settling of a bar keeps. -/
lemma settle_books {bar : Candle ℚ} {targetLong : Bool} (hequity : s.equity = run.startingEquity + profit s.trades)
    (h : settle run s bar targetLong = .ok t) :
    t.equity = run.startingEquity + profit t.trades ∧ t.samples = s.samples ∧
      (t.trades = [] → t.openFill = none → s.trades = [] ∧ s.openFill = none) := by
  unfold settle at h
  cases hopen : s.openFill with
  | none =>
      rw [hopen] at h
      dsimp only at h
      split at h
      · obtain ⟨fill, _, h⟩ := bind_eq_ok.mp h
        obtain rfl := pure_eq_ok_iff.mp h
        exact ⟨hequity, rfl, fun _ hnone => by cases hnone⟩
      · obtain rfl := pure_eq_ok_iff.mp h
        exact ⟨hequity, rfl, fun htrades _ => ⟨htrades, rfl⟩⟩
  | some fill =>
      rw [hopen] at h
      dsimp only at h
      split at h
      · obtain rfl := pure_eq_ok_iff.mp h
        exact ⟨hequity, rfl, fun _ hnone => by rw [hopen] at hnone; cases hnone⟩
      · obtain ⟨settled, hclose, h⟩ := bind_eq_ok.mp h
        obtain rfl := pure_eq_ok_iff.mp h
        refine ⟨?_, rfl, fun hnil => absurd hnil (List.append_ne_nil_of_right_ne_nil _ (List.cons_ne_nil _ _))⟩
        dsimp only
        rw [closeLongOnlyTrade_equity hclose, profit_append, hequity, add_assoc]

/-- A bar keeps the books. -/
lemma Books.stepBar {bar : Candle ℚ × ℕ} (h : Books run s) (hstep : stepBar run ordered s bar = .ok t) :
    Books run t := by
  unfold Experiments.stepBar at hstep
  split at hstep
  · obtain rfl := pure_eq_ok_iff.mp hstep
    exact h
  · obtain ⟨targetLong, _, hstep⟩ := bind_eq_ok.mp hstep
    obtain ⟨settled, hsettle, hstep⟩ := bind_eq_ok.mp hstep
    obtain rfl := pure_eq_ok_iff.mp hstep
    obtain ⟨hequity, hsamples, hbefore⟩ := settle_books h.equity hsettle
    have hmarked : settled.openFill = none → marked settled bar.1 = settled.equity := fun hnone => by rw [marked, hnone]
    refine ⟨hequity, fun hnone => ?_, fun hnil hnone sample hsample => ?_⟩
    · simpa using hmarked hnone
    · obtain ⟨hbeforeNil, hbeforeNone⟩ := hbefore hnil hnone
      rcases List.mem_append.mp hsample with hold | hnew
      · exact h.idle hbeforeNil hbeforeNone sample (hsamples ▸ hold)
      · obtain rfl := List.mem_singleton.mp hnew
        refine (hmarked hnone).trans (hequity.trans ?_)
        rw [show settled.trades = [] from hnil]
        simp [profit]

/-- The close after the last bar keeps the books, and leaves nothing open. -/
lemma Books.settleEnd {final : Candle ℚ} (h : Books run s) (hend : settleEnd run s final = .ok t) :
    Books run t ∧ t.openFill = none := by
  unfold Experiments.settleEnd at hend
  cases hopen : s.openFill with
  | none =>
      rw [hopen] at hend
      obtain rfl := pure_eq_ok_iff.mp hend
      exact ⟨h, hopen⟩
  | some fill =>
      rw [hopen] at hend
      obtain ⟨settled, hclose, hend⟩ := bind_eq_ok.mp hend
      obtain rfl := pure_eq_ok_iff.mp hend
      refine ⟨⟨?_, fun _ => by simp, fun hnil => ?_⟩, rfl⟩
      · dsimp only
        rw [closeLongOnlyTrade_equity hclose, profit_append, h.equity, add_assoc]
      · exact absurd hnil (List.append_ne_nil_of_right_ne_nil _ (List.cons_ne_nil _ _))

/-- **The books of a run**: whatever its bars are, it ends with what its trades brought, its curve starts with the
equity of the start and ends with that of the end, and does not move without trades. -/
lemma books_of_run (h : runLongOnlyCandidate run candles = .ok result) :
    result.startingEquity = run.startingEquity ∧
      result.endingEquity = run.startingEquity + profit result.trades ∧
      (result.trades = [] → ∀ sample ∈ result.equityCurve, sample.2 = run.startingEquity) ∧
      (result.equityCurve = [] ∧ result.endingEquity = run.startingEquity ∨
        ∃ first last, result.equityCurve.head? = some first ∧ result.equityCurve.getLast? = some last ∧
          first.2 = run.startingEquity ∧ last.2 = result.endingEquity) := by
  have hempty : ∀ result : CandidateResult ℚ, ⟨run.startingEquity, run.startingEquity, [], []⟩ = result →
      result.startingEquity = run.startingEquity ∧ result.endingEquity = run.startingEquity + profit result.trades ∧
      (result.trades = [] → ∀ sample ∈ result.equityCurve, sample.2 = run.startingEquity) ∧
      (result.equityCurve = [] ∧ result.endingEquity = run.startingEquity ∨
        ∃ first last, result.equityCurve.head? = some first ∧ result.equityCurve.getLast? = some last ∧
          first.2 = run.startingEquity ∧ last.2 = result.endingEquity) := by
    rintro result rfl
    exact ⟨rfl, by simp [profit], fun _ sample hsample => by simp at hsample, Or.inl ⟨rfl, rfl⟩⟩
  obtain ⟨_, _, h⟩ := bind_eq_ok.mp h
  unfold runOrdered at h
  split at h
  · exact hempty _ (pure_eq_ok_iff.mp h)
  · split at h
    · exact hempty _ (pure_eq_ok_iff.mp h)
    · rename_i first rest _ _
      obtain ⟨s, hbars, h⟩ := bind_eq_ok.mp h
      obtain ⟨final, hend, h⟩ := bind_eq_ok.mp h
      obtain rfl := pure_eq_ok_iff.mp h
      have hstart : Books run ⟨run.startingEquity, none, [], []⟩ :=
        ⟨by simp [profit], fun _ => rfl, fun _ _ sample hsample => by cases hsample⟩
      have hbooks := foldlM_invariant (I := Books run) (fun _ _ _ _ hkeeps hstep => hkeeps.stepBar hstep) hstart hbars
      obtain ⟨hfinal, hflat⟩ := hbooks.settleEnd hend
      refine ⟨rfl, hfinal.equity, fun hnone => ?_, Or.inr ?_⟩
      · exact List.forall_mem_cons.mpr ⟨rfl, hfinal.idle hnone hflat⟩
      · have hlast := hfinal.sampled hflat
        cases hsamples : final.samples.getLast? with
        | none =>
            rw [List.getLast?_eq_none_iff.mp hsamples] at hlast ⊢
            exact ⟨_, _, rfl, rfl, rfl, hlast⟩
        | some last =>
            rw [hsamples] at hlast
            refine ⟨_, last, rfl, ?_, rfl, hlast⟩
            rw [List.getLast?_cons, hsamples]
            rfl

end books

/-! ## Windows -/

section windows

variable {T : Type} {pnl : T → ℚ}

/-- What the result of a window keeps. -/
structure WindowKeeps (pnl : T → ℚ) (result : EvaluatorResult ℚ T) : Prop where
  starting : result.startingEquity = 10000
  ending : result.endingEquity = 10000 + (result.trades.map pnl).sum
  flat : result.trades = [] → ∀ sample ∈ result.equityCurve, sample.2 = 10000
  ends : result.equityCurve = [] ∧ result.endingEquity = 10000 ∨
    ∃ first last, result.equityCurve.head? = some first ∧ result.equityCurve.getLast? = some last ∧
      first.2 = 10000 ∧ last.2 = result.endingEquity

lemma windowKeeps_empty (pnl : T → ℚ) : WindowKeeps pnl ⟨10000, 10000, [], []⟩ :=
  ⟨rfl, by simp, fun _ _ hsample => (by cases hsample), Or.inl ⟨rfl, rfl⟩⟩

/-- A property of results with no trades, and of those of a strategy, is one of all windows. -/
lemma forall_walkForward {f : WalkForwardEvaluator ℚ T} {P : EvaluatorResult ℚ T → Prop}
    (hnone : P ⟨10000, 10000, [], []⟩)
    (heval : ∀ segment15m segment1h context result, f segment15m segment1h context = .ok result → P result)
    {candles15m candles1h : List (Candle ℚ)} {windowDays windows historyHours : ℤ} {results : List (WindowBacktest ℚ T)}
    (h : runEvaluatorWalkForwardBacktests candles15m candles1h f windowDays windows historyHours = .ok results) :
    ∀ window ∈ results, P window.result :=
  List.forall₂_same.mp (@forall₂_walkForward _ _ _ f f (fun result _ => P result) hnone
    (fun _ _ _ _ _ hresult _ => heval _ _ _ _ hresult) _ _ _ _ _ _ _ h h)

/-- A window of a long-only candidate. -/
lemma windowKeeps_of_candidate {definition : CandidateDefinition} {tickSize : ℚ} {feeBps slippageTicks : ℤ}
    {segment15m segment1h : List (Candle ℚ)} {context : ℤ → Option String}
    {result : EvaluatorResult ℚ (CandidateTrade ℚ)}
    (h : candidateEvaluator definition tickSize feeBps slippageTicks segment15m segment1h context = .ok result) :
    WindowKeeps CandidateTrade.pnl result := by
  obtain ⟨_, _, h⟩ := bind_eq_ok.mp h
  obtain ⟨run, hrun, h⟩ := bind_eq_ok.mp h
  obtain rfl := pure_eq_ok_iff.mp h
  obtain ⟨hstarting, hending, hflat, hends⟩ := books_of_run (raiseAs_eq_ok.mp hrun)
  exact ⟨hstarting, hending, hflat, hends⟩

/-- A window of the baseline. -/
lemma windowKeeps_of_baseline [Eastern] {candles : List (Candle ℚ)} {context : ℤ → Option String}
    {config : StrategyConfig ℚ} {result : BacktestResult ℚ}
    (h : runBacktest candles context config 10000 = .ok result) :
    @WindowKeeps (Trade ℚ) Trade.pnl
      ⟨result.startingEquity, result.endingEquity, result.trades, result.equityCurve⟩ := by
  obtain ⟨hstarting, hending, hends⟩ := ending_of_run h
  exact ⟨hstarting, hending, flat_of_no_trades h, hends⟩

/-- The return of a window, with its samples no less than zero, is no less than its drawdown. -/
lemma WindowKeeps.drawdown_le {result : EvaluatorResult ℚ T} (h : WindowKeeps pnl result)
    (hsamples : ∀ sample ∈ result.equityCurve, 0 ≤ sample.2) :
    maxDrawdownPct result.equityCurve ≤ result.endingEquity / 10000 - 1 := by
  rcases h.ends with ⟨hnil, hending⟩ | ⟨first, last, hfirst, hlast, hstart, hend⟩
  · rw [hnil, hending]
    norm_num [maxDrawdownPct]
  · have hle := maxDrawdownPct_le_last hfirst hlast (by rw [hstart]; norm_num)
      (hsamples last (List.mem_of_getLast? hlast))
    rwa [hstart, hend] at hle

end windows

/-! ## Summaries -/

section summaries

variable {T : Type} {pnl : T → ℚ} {windows : List (WindowBacktest ℚ T)}

/-- The profit of a summary. -/
def CandidateSummary.netPnl (pnl : T → ℚ) (summary : CandidateSummary ℚ T) : ℚ := (summary.trades.map pnl).sum

/-- Windows add up. -/
lemma sums_of_windows (h : ∀ window ∈ windows, WindowKeeps pnl window.result) :
    (windows.map fun window => window.result.startingEquity).sum = 10000 * windows.length ∧
      (windows.map fun window => window.result.endingEquity).sum =
        10000 * windows.length + ((windows.flatMap fun window => window.result.trades).map pnl).sum := by
  induction windows with
  | nil => simp
  | cons window windows ih =>
      obtain ⟨hstarting, hending⟩ := ih fun w hw => h w (List.mem_cons_of_mem _ hw)
      have hwindow := h window List.mem_cons_self
      simp only [List.map_cons, List.sum_cons, List.flatMap_cons, List.map_append, List.sum_append, List.length_cons,
        hstarting, hending, hwindow.starting, hwindow.ending]
      push_cast
      constructor <;> ring

/-- The equities of a summary. -/
lemma summary_equities (h : ∀ window ∈ windows, WindowKeeps pnl window.result) :
    0 < (summarizeWindows windows).startingEquity ∧ (summarizeWindows windows).endingEquity =
      (summarizeWindows windows).startingEquity + (summarizeWindows windows).netPnl pnl := by
  cases windows with
  | nil => exact ⟨by norm_num [summarizeWindows], by norm_num [summarizeWindows, CandidateSummary.netPnl]⟩
  | cons window windows =>
      obtain ⟨hstarting, hending⟩ := sums_of_windows h
      change 0 < ((window :: windows).map fun window => window.result.startingEquity).sum ∧
        ((window :: windows).map fun window => window.result.endingEquity).sum =
          ((window :: windows).map fun window => window.result.startingEquity).sum +
            (((window :: windows).flatMap fun window => window.result.trades).map pnl).sum
      rw [hstarting, hending]
      exact ⟨by rw [List.length_cons]; positivity, rfl⟩

/-- **The return of a summary** is its profit, for a positive equity. -/
lemma summary_return (h : ∀ window ∈ windows, WindowKeeps pnl window.result) :
    ∃ starting, 0 < starting ∧
      (summarizeWindows windows).totalReturnPct = (summarizeWindows windows).netPnl pnl / starting := by
  obtain ⟨hpositive, hending⟩ := summary_equities h
  refine ⟨_, hpositive, ?_⟩
  have hzero : isZero (summarizeWindows windows).startingEquity ≠ true := fun hzero =>
    hpositive.ne' (isZero_eq_true.mp hzero)
  rw [CandidateSummary.totalReturnPct, if_neg hzero, hending, add_div, div_self hpositive.ne', add_sub_cancel_left]

/-- What all numbers are, their minimum is. -/
lemma minimum?_getD {P : ℚ → Prop} {xs : List ℚ} (h : ∀ x ∈ xs, P x) (hzero : P 0) : P ((minimum? xs).getD 0) := by
  cases hmin : minimum? xs with
  | none => exact hzero
  | some x => exact h x (minimum?_mem hmin)

/-- The minimum is no more than any of the numbers. -/
lemma minimum?_le {xs : List ℚ} {x : ℚ} (hx : x ∈ xs) : (minimum? xs).getD 0 ≤ x := by
  cases xs with
  | nil => cases hx
  | cons y ys =>
      change ys.foldl pyMin y ≤ x
      have hfold : ∀ (zs : List ℚ) (least : ℚ), zs.foldl pyMin least ≤ least ∧ ∀ z ∈ zs, zs.foldl pyMin least ≤ z := by
        intro zs
        induction zs with
        | nil => exact fun least => ⟨le_rfl, fun z hz => by cases hz⟩
        | cons z zs ih =>
            intro least
            obtain ⟨hleast, hrest⟩ := ih (pyMin least z)
            rw [List.foldl_cons]
            rw [pyMin_eq_min] at hleast ⊢
            exact ⟨hleast.trans (min_le_left _ _), List.forall_mem_cons.mpr ⟨hleast.trans (min_le_right _ _),
              by rwa [pyMin_eq_min] at hrest⟩⟩
      rcases List.mem_cons.mp hx with rfl | hx
      · exact (hfold ys x).1
      · exact (hfold ys y).2 x hx

/-- A summary has no positive drawdown. -/
lemma summary_drawdown_nonpos (windows : List (WindowBacktest ℚ T)) :
    (summarizeWindows windows).maxDrawdownPct ≤ 0 := by
  cases windows with
  | nil => exact le_rfl
  | cons window windows =>
      refine minimum?_getD (P := fun x => x ≤ 0) ?_ le_rfl
      exact List.forall_mem_map.mpr fun window _ => maxDrawdownPct_nonpos _

/-- **The deepest drawdown** is no less deep than the return over all windows. -/
lemma drawdown_le_return (h : ∀ window ∈ windows, WindowKeeps pnl window.result)
    (hsamples : ∀ window ∈ windows, ∀ sample ∈ window.result.equityCurve, 0 ≤ sample.2) :
    (summarizeWindows windows).maxDrawdownPct ≤ (summarizeWindows windows).totalReturnPct := by
  obtain ⟨hpositive, hending⟩ := summary_equities h
  have hzero : isZero (summarizeWindows windows).startingEquity ≠ true := fun hzero =>
    hpositive.ne' (isZero_eq_true.mp hzero)
  rw [CandidateSummary.totalReturnPct, if_neg hzero, le_sub_iff_add_le, le_div_iff₀ hpositive]
  cases hwindows : windows with
  | nil => norm_num [summarizeWindows]
  | cons window rest =>
      rw [← hwindows]
      obtain ⟨hstarting, -⟩ := sums_of_windows h
      -- no window ends lower than the deepest drawdown
      have hleast : ∀ w ∈ windows, (summarizeWindows windows).maxDrawdownPct ≤ w.result.endingEquity / 10000 - 1 := by
        intro w hw
        refine le_trans ?_ ((h w hw).drawdown_le (hsamples w hw))
        rw [hwindows] at hw ⊢
        exact minimum?_le (List.mem_map.mpr ⟨w, hw, rfl⟩)
      have hsum : ∀ {d : ℚ} {ws : List (WindowBacktest ℚ T)}, (∀ w ∈ ws, d ≤ w.result.endingEquity / 10000 - 1) →
          (d + 1) * (10000 * ws.length) ≤ (ws.map fun w => w.result.endingEquity).sum := by
        intro d ws hws
        induction ws with
        | nil => simp
        | cons w ws ih =>
            have hfirst := hws w List.mem_cons_self
            have hrest := ih fun w hw => hws w (List.mem_cons_of_mem _ hw)
            rw [List.map_cons, List.sum_cons, List.length_cons]
            push_cast
            linarith
      have hbound := hsum hleast
      rw [← hstarting] at hbound
      rw [hwindows] at hbound ⊢
      exact hbound

/-- **Without trades** nothing is gained and nothing lost. -/
lemma summary_idle (h : ∀ window ∈ windows, WindowKeeps pnl window.result)
    (hnone : (summarizeWindows windows).trades = []) :
    (summarizeWindows windows).totalReturnPct = 0 ∧ (summarizeWindows windows).maxDrawdownPct = 0 := by
  obtain ⟨starting, -, hreturn⟩ := summary_return h
  refine ⟨by rw [hreturn, CandidateSummary.netPnl, hnone]; simp, ?_⟩
  cases hwindows : windows with
  | nil => rfl
  | cons window rest =>
      have htrades : windows.flatMap (fun window => window.result.trades) = [] := by
        rw [hwindows] at hnone ⊢
        exact hnone
      have hall : ∀ x ∈ windows.map fun window => maxDrawdownPct window.result.equityCurve, x = 0 :=
        List.forall_mem_map.mpr fun w hw =>
          maxDrawdownPct_flat ((h w hw).flat (List.flatMap_eq_nil_iff.mp htrades w hw))
      rw [hwindows] at hall
      exact @minimum?_getD (fun x => x = 0) _ hall rfl

/-- What a summary keeps. -/
structure SummaryKeeps (pnl : T → ℚ) (summary : CandidateSummary ℚ T) : Prop where
  earned : ∃ starting, 0 < starting ∧ summary.totalReturnPct = summary.netPnl pnl / starting
  nonpos : summary.maxDrawdownPct ≤ 0
  deep : summary.maxDrawdownPct ≤ summary.totalReturnPct
  idle : summary.trades = [] → summary.totalReturnPct = 0 ∧ summary.maxDrawdownPct = 0

/-- **A summary of windows** with no negative sample. -/
lemma summaryKeeps_of_windows (h : ∀ window ∈ windows, WindowKeeps pnl window.result)
    (hsamples : ∀ window ∈ windows, ∀ sample ∈ window.result.equityCurve, 0 ≤ sample.2) :
    SummaryKeeps pnl (summarizeWindows windows) :=
  ⟨summary_return h, summary_drawdown_nonpos windows, drawdown_le_return h hsamples, summary_idle h⟩

end summaries

end MuStrategy.Experiments
