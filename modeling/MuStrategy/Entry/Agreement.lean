import MuStrategy.Backtest.RestingOrder
import MuStrategy.Entry.Scanner

/-!
# The scanner and the resting order

A scan recomputes from the last bars what the walk of a backtest carries as its resting order.

* `signalAllowed_eq` — both find the same signals.
* `scanner_resting_order` — a resting order is reported; what is reported rests, or is a signal that the walk
  ignored because an earlier order was resting.
* `scan_and_order_disagree` — such a signal is reported although nothing rests, and two other ways to differ.
-/

namespace MuStrategy.Entry

open Lib TrustedData Strategy Backtest

variable {F : Type} [Number F]

/-! ## The same signals -/

/-- A value of a causal series over a prefix is that of the whole series. -/
lemma at?_causal {f : List F → List F} (hf : Causal f) {xs later : List F} {index : ℕ} (hindex : index < xs.length) :
    at? (f (xs ++ later)) index = .ok (seriesValue (f xs) index) := by
  have hlength : index < (f xs).length := by rwa [hf.length_eq]
  have hvalue : (f (xs ++ later))[index]? = (f xs)[index]? := by
    rw [← List.getElem?_take_of_lt hindex, hf.take_append]
  rw [at?, hvalue, seriesValue, Nat.min_eq_left (by omega), List.getElem?_eq_getElem hlength]
  rfl

section agreement

variable [Eastern] {candles later : List (Candle F)} {context context' : ℤ → Option String} {config : StrategyConfig F}

/-- **The scanner and the walk find the same signals** on the bars of a shared history. -/
theorem signalAllowed_eq (hcontext : ∀ bar ∈ candles, context bar.openTimeMs = context' bar.openTimeMs) {index : ℕ}
    {candle : Candle F} (hcandle : candles[index]? = some candle) :
    signalAllowed (scanInputsOf candles context config) candle index =
      signalAt (inputsOf (candles ++ later) context' config) index candle := by
  obtain ⟨hindex, -⟩ := List.getElem?_eq_some_iff.mp hcandle
  have hcloses : index < (candles.map Candle.closePrice).length := by rwa [List.length_map]
  have hprevious : index - 1 < (candles.map Candle.closePrice).length := Nat.lt_of_le_of_lt (Nat.sub_le _ _) hcloses
  have htake : candles.take candles.length = (candles ++ later).take candles.length := by
    rw [List.take_length, List.take_left]
  have hfib := nearestFibRetestLevel_congr hindex htake config
  have hhist : ∀ i, i < (candles.map Candle.closePrice).length →
      at? (macd (candles.map Candle.closePrice ++ later.map Candle.closePrice)).2.2 i =
        .ok (seriesValue (macd (candles.map Candle.closePrice)).2.2 i) :=
    fun i hi => at?_causal causal_histogram hi
  simp only [signalAllowed, signalAt, scanInputsOf, inputsOf, hfib, List.map_append,
    at?_causal (causal_rsi 14) hcloses, hhist _ hcloses, hhist _ hprevious, ok_bind, Inputs.regimeAt,
    ← hcontext candle (List.mem_of_getElem? hcandle)]
  refine congrArg _ (funext fun inWindow => ?_)
  split
  · rfl
  · refine congrArg _ (funext fun level => ?_)
    cases level with
    | none => rfl
    | some fibLevel =>
        simp only
        congr 2
        exact propext ⟨fun h => by simp [h, stopPrice_isSome_of_allowed h], fun h => (Bool.and_eq_true_iff.mp h).1⟩

/-! ## Nothing bought on the extended history -/

/-- A last bar that buys nothing buys nothing when another bar follows. -/
lemma barStep_untraded {run other : Inputs F} {s t t' : BacktestState F} {bar : Candle F × ℕ}
    (hstep : barStep run s bar = .ok t) (hstep' : barStep other s bar = .ok t')
    (hmode : other.config.entryExecution = .secondPullback) (hconfig : run.config = other.config)
    (huntraded : Untraded t.books) :
    Untraded t'.books := by
  have hbefore : Untraded s.books := (barStep_moves hstep).untraded huntraded
  have hflat := position_eq_none_of_untraded hbefore
  have hsignal : ∀ u : BacktestState F, u.books = s.books → signalStep other bar.2 bar.1 u = .ok t' →
      Untraded t'.books := by
    intro u hu hsignal
    have hkept : t'.books.openFills = u.books.openFills ∧ t'.books.trades = u.books.trades := by
      rcases signalStep_pullback hmode hsignal with ⟨-, rfl⟩ | ⟨-, rfl⟩ | ⟨_, _, -, -, rfl⟩
      all_goals exact ⟨rfl, rfl⟩
    rw [hu] at hkept
    exact ⟨hkept.1.trans hbefore.1, hkept.2.trans hbefore.2⟩
  simp only [barStep, hflat, flatStep, restingEntry, hconfig, hmode, if_true] at hstep hstep'
  cases hpending : s.pendingEntry with
  | none =>
      simp only [hpending] at hstep'
      exact hsignal s rfl hstep'
  | some pending =>
      simp only [hpending] at hstep hstep'
      by_cases hexpired : pending.expiresIndex < bar.2
      · rw [if_pos hexpired] at hstep'
        refine hsignal _ ?_ hstep'
        simp only [BacktestState.books, BacktestState.openFills, hflat]
      · rw [if_neg hexpired] at hstep hstep'
        rw [pendingStep_congr hconfig, hstep'] at hstep
        rw [Except.ok.inj hstep]
        exact huntraded

/-- A history on which a run buys nothing is walked without buying when bars follow it. -/
lemma untraded_of_reached {startingEquity : F} {result : BacktestResult F} {first : Candle F} {s : BacktestState F}
    (hmode : config.entryExecution = .secondPullback) (hlength : 4 ≤ candles.length)
    (hincreasing : ((candles ++ later).map Candle.openTimeMs).Pairwise (· < ·))
    (hcontext : ∀ bar ∈ candles, context bar.openTimeMs = context' bar.openTimeMs)
    (hrun : runBacktest candles context config startingEquity = .ok result) (hnone : result.trades = [])
    (hfirst : candles.head? = some first)
    (hs : reached (inputsOf (candles ++ later) context' config) (startState first startingEquity) candles.length = .ok s) :
    Untraded s.books := by
  obtain ⟨first', t, hfirst', hwalk, rfl⟩ := runBacktest_eq_ok hlength hrun
  obtain rfl := Option.some.inj (hfirst.symm.trans hfirst')
  have hne : candles ≠ [] := List.ne_nil_of_length_pos (by omega)
  obtain ⟨m, hm⟩ : ∃ m, candles.length = m + 1 := ⟨candles.length - 1, by omega⟩
  have hlast : candles[m]? = some candles[m] := List.getElem?_eq_getElem (by omega)
  have hlast' : (candles ++ later)[m]? = some candles[m] := by
    rw [List.getElem?_append_left (by omega), hlast]
  -- the walk over the history itself
  have hreached : reached (inputsOf candles context config) (startState first startingEquity) (m + 1) = .ok t := by
    have htake : (inputsOf candles context config).candles.take (m + 1) = candles :=
      List.take_of_length_le (Nat.le_of_eq hm)
    rw [reached, htake]
    exact hwalk
  have huntraded : Untraded t.books := by
    rcases finish_cases (inputsOf candles context config) t hne with ⟨hflat, hfinish⟩ | ⟨position, -, hfinish⟩
    · rw [resultOf, hfinish] at hnone
      exact ⟨by simp only [BacktestState.books, BacktestState.openFills, hflat], hnone⟩
    · rw [resultOf, hfinish] at hnone
      exact absurd hnone (List.append_ne_nil_of_right_ne_nil _ (List.cons_ne_nil _ _))
  rw [hm] at hs
  obtain ⟨u, hu, hstep⟩ := (reached_succ (by omega)
    (show (inputsOf candles context config).candles[m]? = some candles[m] from hlast)).mp hreached
  obtain ⟨u', hu', hstep'⟩ := (reached_succ (by omega)
    (show (inputsOf (candles ++ later) context' config).candles[m]? = some candles[m] from hlast')).mp hs
  -- both walks reach the last bar in the same state
  have htake : candles.take m = (candles ++ later).take m := by rw [List.take_append_of_le_length (by omega)]
  have hshared := inputsOf_sameUpTo config htake fun bar hbar => hcontext bar (List.mem_of_mem_take hbar)
  have hnext : (inputsOf candles context config).candles[m]? =
      (inputsOf (candles ++ later) context' config).candles[m]? := hlast.trans hlast'.symm
  have hnew : ∀ c, candles[m]? = some c ∨ (candles ++ later)[m]? = some c →
      c.openTimeMs ∉ (candles.take m).map Candle.openTimeMs := by
    intro c hc
    have hmem : c ∈ (candles ++ later).drop m := by
      have hc' : (candles ++ later)[m]? = some c := by
        rwa [hlast, ← hlast', or_self] at hc
      refine List.mem_of_getElem? (?_ : ((candles ++ later).drop m)[0]? = some c)
      rw [List.getElem?_drop, Nat.add_zero, hc']
    rw [htake]
    exact time_notMem_of_mem_drop hincreasing m hmem
  have hfilled : FilledIn m (inputsOf candles context config) (startState first startingEquity).books := by
    intro fill hmem
    cases hmem
  have hu' : ((candles.take m).zipIdx.drop 1).foldlM (barStep (inputsOf (candles ++ later) context' config))
      (startState first startingEquity) = .ok u' := by
    rw [htake]
    exact hu'
  obtain rfl : u = u' := (shared_walk hshared (show m ≤ candles.length by omega) hfilled hu hu' hnew).2 hnext
  exact barStep_untraded hstep hstep' hmode rfl huntraded

/-! ## The order that a scan reports -/

omit [Number F] [Eastern] in
/-- The bars that a scan for an order looks at. -/
lemma mem_lookback {wait : ℤ} (hwait : 1 ≤ wait) {candle : Candle F} {index : ℕ} :
    (candle, index) ∈ candles.zipIdx.drop (lookbackStart candles.length wait) ↔
      candles[index]? = some candle ∧ 1 ≤ index ∧ (candles.length : ℤ) ≤ index + wait := by
  have hstart : lookbackStart candles.length wait ≤ index ↔ 1 ≤ index ∧ (candles.length : ℤ) ≤ index + wait := by
    unfold lookbackStart
    omega
  rw [← hstart, List.mem_iff_getElem?]
  constructor
  · rintro ⟨i, hi⟩
    rw [List.getElem?_drop, List.getElem?_zipIdx, Option.map_eq_some_iff] at hi
    obtain ⟨c, hc, heq⟩ := hi
    rw [Nat.zero_add, Prod.mk.injEq] at heq
    obtain ⟨rfl, rfl⟩ := heq
    exact ⟨hc, Nat.le_add_right _ _⟩
  · rintro ⟨hc, hle⟩
    refine ⟨index - lookbackStart candles.length wait, ?_⟩
    rw [List.getElem?_drop, Nat.add_sub_cancel' hle, List.getElem?_zipIdx, hc, Nat.zero_add]
    rfl

omit [Number F] [Eastern] in
/-- The bars of the lookback stand in their order. -/
lemma lookback_sorted (candles : List (Candle F)) (start : ℕ) :
    ((candles.zipIdx.drop start).map Prod.snd).Pairwise (· < ·) := by
  rw [List.map_drop, List.zipIdx_map_snd]
  exact List.Pairwise.drop List.pairwise_lt_range'

/-- A signal that no bar of its waiting time has filled is not filled for the scanner. -/
lemma not_alreadyFilled {index : ℕ} {fibLevel : F}
    (hquiet : ∀ j c, index < j → j < candles.length → (j : ℤ) ≤ index + config.secondPullbackWaitBars →
      candles[j]? = some c → ¬Fills (inputsOf candles context config) fibLevel c) :
    secondPullbackSignalAlreadyFilled (scanInputsOf candles context config) index fibLevel ≠ .ok true := by
  intro hfilled
  change (if min ((candles.length : ℤ) - 1) (index + config.secondPullbackWaitBars) < 0 then pure false
    else filledBetween (scanInputsOf candles context config) fibLevel (index + 1)
      (min ((candles.length : ℤ) - 1) (index + config.secondPullbackWaitBars)).toNat) = .ok true at hfilled
  by_cases hpast : min ((candles.length : ℤ) - 1) (index + config.secondPullbackWaitBars) < 0
  · rw [if_pos hpast] at hfilled
    cases hfilled
  · rw [if_neg hpast] at hfilled
    obtain ⟨j, c, hfirst, hlast, hc, hwindow, hlow⟩ := exists_of_filledBetween hfilled
    change j ≤ (min ((candles.length : ℤ) - 1) (index + config.secondPullbackWaitBars)).toNat at hlast
    exact hquiet j c (by omega) (by omega) (by omega) hc ⟨hwindow, hlow⟩

/-- What a scan says of the order when a walk reaches a bar. -/
structure ReportsOrder (run : Inputs F) (start : BacktestState F) (index : ℕ) (s : BacktestState F)
    (scan : EntryScanResult F) : Prop where
  /-- An order that rests is reported. -/
  reported : HoldsOrder index s → scan.decisionCode = .secondPullbackLimitReady
  /-- What is reported is a signal in its waiting time. Its order rests, or the walk ignored it. -/
  resting : scan.decisionCode = .secondPullbackLimitReady → ∃ (j : ℕ) (candle : Candle F) (fibLevel : F),
    run.candles[j]? = some candle ∧ (index : ℤ) ≤ j + run.config.secondPullbackWaitBars ∧
    signalAt run j candle = .ok (some fibLevel) ∧
    scan.signalTimeMs = some candle.openTimeMs ∧ scan.triggerPrice = some fibLevel ∧
    (s.pendingEntry = some ⟨fibLevel, j + run.config.secondPullbackWaitBars⟩ ∨ Ignored run start j)

/-- **The scanner and the resting order**: on a history without a fill, a scan reports every order that the backtest
of the extended history holds when it reaches the next bar. What it reports is that order, or a signal that the
backtest ignored because an earlier order was resting. -/
theorem scanner_resting_order [LawfulNumber F] {symbol : String} {candles1h : List (Candle F)} {next first last : Candle F}
    {lookbackBars : ℤ} {maxFibDistancePct startingEquity : F} {result : BacktestResult F} {scan : EntryScanResult F}
    {s : BacktestState F} (hmode : config.entryExecution = .secondPullback) (htol : 0 ≤ config.fibTolerancePct)
    (hwait : 1 ≤ config.secondPullbackWaitBars) (hlookback : config.secondPullbackWaitBars ≤ lookbackBars)
    (hlength : 4 ≤ candles.length) (hincreasing : ((candles ++ [next]).map Candle.openTimeMs).Pairwise (· < ·))
    (hlows : ∀ candle ∈ candles, 0 < candle.low) (hfirst : candles.head? = some first)
    (hlast : candles.getLast? = some last) (hwindow : isPreferredUsCashWindow last.openTimeMs config = .ok true)
    (hcontext : buildHourlyContext candles candles1h = .ok context)
    (hcontext' : buildHourlyContext (candles ++ [next]) candles1h = .ok context')
    (hrun : runBacktest candles context config startingEquity = .ok result) (hnofill : result.trades = [])
    (hreached : reached (inputsOf (candles ++ [next]) context' config) (startState first startingEquity)
      candles.length = .ok s)
    (hscan : scanEntry symbol candles candles1h config lookbackBars maxFibDistancePct = .ok scan) :
    ReportsOrder (inputsOf (candles ++ [next]) context' config) (startState first startingEquity) candles.length s
      scan := by
  have hagree : ∀ bar ∈ candles, context bar.openTimeMs = context' bar.openTimeMs := by
    refine fun bar hbar => buildHourlyContext_append (fun bar hbar bar' hbar' => ?_) hcontext hcontext' hbar
    rw [List.map_append, List.pairwise_append] at hincreasing
    exact ne_of_lt (hincreasing.2.2 _ (List.mem_map_of_mem hbar) _ (List.mem_map_of_mem hbar'))
  have huntraded := untraded_of_reached hmode hlength hincreasing hagree hrun hnofill hfirst hreached
  have hshared : ∀ {j : ℕ} {c : Candle F}, j < candles.length →
      ((candles ++ [next])[j]? = some c ↔ candles[j]? = some c) := by
    intro j c hj
    rw [List.getElem?_append_left hj]
  have hlow : ∀ j c, j < candles.length → (candles ++ [next])[j]? = some c → 0 < c.low :=
    fun j c hj hc => hlows c (List.mem_of_getElem? ((hshared hj).mp hc))
  have hresting : Resting (inputsOf (candles ++ [next]) context' config) (startState first startingEquity)
      candles.length s := by
    refine resting_invariant hmode htol hlow rfl (by omega) ?_ hreached huntraded
    change candles.length < (candles ++ [next]).length
    rw [List.length_append, List.length_singleton]
    omega
  obtain ⟨context'', found, hcontext'', hfound, hready, hsignal⟩ := scanEntry_ready hmode hlast hwindow hscan
  obtain rfl := Except.ok.inj (hcontext.symm.trans hcontext'')
  rw [min_eq_right hlookback] at hfound
  have hsignals : ∀ {j : ℕ} {c : Candle F} {fibLevel : F}, candles[j]? = some c →
      signalAllowed (scanInputsOf candles context config) c j = .ok (some fibLevel) →
      signalAt (inputsOf (candles ++ [next]) context' config) j c = .ok (some fibLevel) := by
    intro j c fibLevel hc h
    rwa [signalAllowed_eq hagree hc] at h
  have hfound' : ∀ c fibLevel, found = some (c, fibLevel) → ∃ j : ℕ, candles[j]? = some c ∧ 1 ≤ j ∧
      (candles.length : ℤ) ≤ j + config.secondPullbackWaitBars ∧
      signalAt (inputsOf (candles ++ [next]) context' config) j c = .ok (some fibLevel) := by
    rintro c fibLevel rfl
    obtain ⟨j, hmem, hallowed, -⟩ := scanSignals_some hmode (lookback_sorted candles _) hfound
    obtain ⟨hc, hpos, hlive⟩ := (mem_lookback hwait).mp hmem
    exact ⟨j, hc, hpos, hlive, hsignals hc hallowed⟩
  have hpositive : ∀ {j : ℕ} {c : Candle F} {fibLevel : F}, candles[j]? = some c →
      signalAt (inputsOf (candles ++ [next]) context' config) j c = .ok (some fibLevel) → isZero fibLevel = false := by
    intro j c fibLevel hc hat
    obtain ⟨hj, -⟩ := List.getElem?_eq_some_iff.mp hc
    have hfib := fib_pos_of_signalAt htol ((hshared hj).mpr hc) (hlows c (List.mem_of_getElem? hc)) hat
    simp [isZero, LawfulNumber.not_le_of_lt hfib]
  constructor
  · -- the signal of the order is in the lookback and not filled, so the scan finds it or an earlier one
    rintro ⟨pending, hpending, hlive⟩
    obtain ⟨g, c, hg, hgn, hc, hat, hexpires, hquiet⟩ := hresting.origin pending hpending
    rw [hexpires] at hlive hquiet
    have hc' := (hshared hgn).mp hc
    cases found with
    | none =>
        refine absurd (scanSignals_none hmode hfound ((mem_lookback hwait).mpr ⟨hc', hg, hlive⟩)
          ((signalAllowed_eq hagree hc').trans hat)) (not_alreadyFilled fun j c hgj hj hjlive hc => ?_)
        exact hquiet j c hgj hj hjlive ((hshared hj).mpr hc)
    | some signal =>
        obtain ⟨j, hc, -, -, hat⟩ := hfound' signal.1 signal.2 rfl
        exact hready.mpr ⟨signal, rfl, hpositive hc hat⟩
  · intro hcode
    obtain ⟨⟨c, fibLevel⟩, rfl, -⟩ := hready.mp hcode
    obtain ⟨j, hc, hpos, hlive, hat⟩ := hfound' c fibLevel rfl
    obtain ⟨htime, htrigger⟩ := hsignal (c, fibLevel) rfl hcode
    obtain ⟨hj, -⟩ := List.getElem?_eq_some_iff.mp hc
    refine ⟨j, c, fibLevel, (hshared hj).mpr hc, hlive, hat, htime, htrigger, ?_⟩
    rcases hresting.signals j c fibLevel hpos hj ((hshared hj).mpr hc) hat with hignored | hrests
    · exact Or.inr hignored
    · exact Or.inl (hrests hlive)

end agreement

/-! ## Histories without a fill -/

/-- The default configuration, resting orders for `wait` bars. -/
def pullbackConfig (wait : ℤ) : StrategyConfig ℚ :=
  { entryExecution := .secondPullback, secondPullbackWaitBars := wait }

/-- A rise, and a retest at the fourth bar. -/
def retest : List (Candle ℚ) :=
  [morningBar 0 101 104 100 103, morningBar 1 103 110 103 109, morningBar 2 108 108.5 107 107.5,
    morningBar 3 107 107.5 105 107]

/-- The third bar and the fourth are signals. -/
def overlapping : List (Candle ℚ) := morning.take 3 ++ [morningBar 3 107 108 106.3 107.5]

/-- The retest with prices moved so that its level is zero. -/
def zeroRetest : List (Candle ℚ) := retest.map fun bar =>
  ⟨bar.openTimeMs, bar.openPrice - 106.18, bar.high - 106.18, bar.low - 106.18, bar.closePrice - 106.18, bar.volume⟩

/-- A bar after them. -/
def nextBar : Candle ℚ := morningBar 4 107.5 109 107 108

/-- The context of bars without hourly candles. -/
def noHoursContext (candles : List (Candle ℚ)) : ℤ → Option String := fun openTimeMs =>
  ((contextEntries [] candles).reverse.find? fun entry => entry.1 = openTimeMs).map Prod.snd

/-- The retest is reported while its order rests. -/
theorem scanner_resting_order_demo :
    let _ := mondayTime
    let run := inputsOf (retest ++ [nextBar]) (noHoursContext (retest ++ [nextBar])) (pullbackConfig 8)
    let start := startState (morningBar 0 101 104 100 103) 1000
    ∃ s scan, reached run start 4 = .ok s ∧
      scanEntry "BTC-USDT-SWAP" retest [] (pullbackConfig 8) 8 0.01 = .ok scan ∧ ReportsOrder run start 4 s scan := by
  intro zone run start
  obtain ⟨result, hrun⟩ := exists_eq_ok_of_isOk
    (show (runBacktest retest (noHoursContext retest) (pullbackConfig 8) 1000).isOk = true by decide +kernel)
  obtain ⟨s, hs⟩ := exists_eq_ok_of_isOk (show (reached run start 4).isOk = true by decide +kernel)
  obtain ⟨scan, hscan⟩ := exists_eq_ok_of_isOk
    (show (scanEntry "BTC-USDT-SWAP" retest [] (pullbackConfig 8) 8 0.01).isOk = true by decide +kernel)
  have hnofill : result.trades = [] := by
    have htrades : (runBacktest retest (noHoursContext retest) (pullbackConfig 8) 1000).map BacktestResult.trades =
        .ok [] := by decide +kernel
    rw [hrun] at htrades
    exact Except.ok.inj htrades
  exact ⟨s, scan, hs, hscan, scanner_resting_order rfl (by decide +kernel) (by decide) (by decide) (by decide)
    (by decide +kernel) (by decide +kernel) rfl rfl (by decide +kernel) rfl rfl hrun hnofill hs hscan⟩

/-- The trades of the backtest of a history. -/
def tradesOf [Eastern] (config : StrategyConfig ℚ) (candles : List (Candle ℚ)) :
    Except StrategyError (List (Trade ℚ)) := do
  let context ← buildHourlyContext candles []
  let result ← runBacktest candles context config 1000
  pure result.trades

/-- The decision of a scan of a history. -/
def decisionOf [Eastern] (config : StrategyConfig ℚ) (candles : List (Candle ℚ)) :
    Except StrategyError EntryDecisionCode := do
  let scan ← scanEntry "BTC-USDT-SWAP" candles [] config 8 0.01
  pure scan.decisionCode

/-- The order when the backtest of the extended history reaches `nextBar`. -/
def orderAt [Eastern] (config : StrategyConfig ℚ) (candles : List (Candle ℚ)) :
    Except StrategyError (Option (PendingEntry ℚ)) := do
  let context ← buildHourlyContext (candles ++ [nextBar]) []
  let first ← orThrow candles.head? .index
  let s ← reached (inputsOf (candles ++ [nextBar]) context config) (startState first 1000) candles.length
  pure s.pendingEntry

/-- A history that the scanner and the backtest should agree on: increasing times, no fill, and a last bar in a
trading window. -/
def Comparable [Eastern] (config : StrategyConfig ℚ) (candles : List (Candle ℚ)) : Prop :=
  4 ≤ candles.length ∧ ((candles ++ [nextBar]).map Candle.openTimeMs).Pairwise (· < ·) ∧
    candles.getLast?.map (fun last => isPreferredUsCashWindow last.openTimeMs config) = some (.ok true) ∧
    tradesOf config candles = .ok []

/-- **A scan and the backtest disagree about the order at the next bar**, which is the fifth: where a signal was
ignored, where an order waits for no bar, and where the level is zero. -/
theorem scan_and_order_disagree :
    let _ := mondayTime
    (Comparable (pullbackConfig 1) overlapping ∧
      decisionOf (pullbackConfig 1) overlapping = .ok .secondPullbackLimitReady ∧
      orderAt (pullbackConfig 1) overlapping = .ok (some ⟨106.18, 3⟩)) ∧
    (Comparable (pullbackConfig 0) retest ∧
      decisionOf (pullbackConfig 0) retest = .ok .secondPullbackLimitReady ∧
      orderAt (pullbackConfig 0) retest = .ok (some ⟨106.18, 3⟩)) ∧
    (Comparable (pullbackConfig 8) zeroRetest ∧
      decisionOf (pullbackConfig 8) zeroRetest = .ok .priceAwayFromFib ∧
      orderAt (pullbackConfig 8) zeroRetest = .ok (some ⟨0, 11⟩)) := by
  intro zone
  refine ⟨⟨⟨by decide, by decide +kernel, by decide +kernel, by decide +kernel⟩, ?_, ?_⟩,
    ⟨⟨by decide, by decide +kernel, by decide +kernel, by decide +kernel⟩, ?_, ?_⟩,
    ⟨⟨by decide, by decide +kernel, by decide +kernel, by decide +kernel⟩, ?_, ?_⟩⟩
  all_goals decide +kernel

end MuStrategy.Entry
