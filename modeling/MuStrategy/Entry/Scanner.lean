import MuStrategy.Strategy.MarketContext

/-!
# The entry scanner

A scan looks at a history once, without state, and says what to do about an entry now.

* `EntryScanResult` — a decision with its evidence.
* `signalAllowed`, `latestRecentSignal` — the signal of the last bars; a resting order belongs to the first
  signal of them that was not filled.
* `scanEntry` — the scan.
* `scanSignals_some`, `scanSignals_none`, `scanEntry_ready` — what a scan for a resting order found.
-/

namespace MuStrategy.Entry

open Lib TrustedData Strategy

variable {F : Type} [Number F]

/-- The evaluated bar and the calendar it was evaluated with. The digest of the calendar belongs to its
version. -/
structure ScanEvaluation where
  candleOpenMs : ℤ
  candleCloseMs : ℤ
  calendarId : CalendarId
  calendarSession : SessionState
  tradingWindowsEt : List (String × String)

/-- The field `action` is a function of the decision code. Source: `scanner.py` `EntryScanResult`. -/
structure EntryScanResult (F : Type) where
  symbol : String
  reason : String
  lastClose : Option F
  regime1h : String
  rsi14 : Option F
  macdHist : Option F
  macdHistPrev : Option F
  fibLevel : Option F := none
  fibDistancePct : Option F := none
  triggerPrice : Option F := none
  initialStop : Option F := none
  signalTimeMs : Option ℤ := none
  decisionCode : EntryDecisionCode
  evaluation : Option ScanEvaluation := none

/-- Source: `scanner.py` `_series_value`. -/
def seriesValue (values : List F) (index : ℕ) : F := (values[min index (values.length - 1)]?).getD 0

/-- Source: `scanner.py` `_effective_lookback_bars`. -/
def effectiveLookbackBars (config : StrategyConfig F) (requestedLookbackBars : ℤ) : ℤ :=
  if config.entryExecution ≠ .secondPullback then requestedLookbackBars
  else min requestedLookbackBars config.secondPullbackWaitBars

/-- What a scan computed of its history before it looks for signals. -/
structure ScanInputs (F : Type) [Number F] where
  candles : List (Candle F)
  hourlyContext : ℤ → Option String
  config : StrategyConfig F
  rsiValues : List F
  histValues : List F

section signals

variable [Eastern] (scan : ScanInputs F)

/-- Whether the bars from `first` to `last` filled a limit: one of them, in a trading window, is at or below it. -/
def filledBetween (fibLevel : F) (first last : ℕ) : Except StrategyError Bool :=
  ((scan.candles.take (last + 1)).drop first).foldlM (fun filled candle =>
    if filled then pure true
    else do
      if !(← isPreferredUsCashWindow candle.openTimeMs scan.config) then pure false
      else pure (decide (candle.low ≤ fibLevel))) false

/-- Source: `scanner.py` `_second_pullback_signal_already_filled`. -/
def secondPullbackSignalAlreadyFilled (signalIndex : ℕ) (fibLevel : F) : Except StrategyError Bool :=
  let expiresIndex : ℤ := min ((scan.candles.length : ℤ) - 1) (signalIndex + scan.config.secondPullbackWaitBars)
  if expiresIndex < 0 then pure false
  else filledBetween scan fibLevel (signalIndex + 1) expiresIndex.toNat

/-- The level of the signal of a bar, if it has one. Source: `scanner.py` `_latest_recent_signal`, the body of
its loop up to `entry_signal.allowed`. -/
def signalAllowed (candle : Candle F) (index : ℕ) : Except StrategyError (Option F) := do
  if !(← isPreferredUsCashWindow candle.openTimeMs scan.config) then pure none
  else
    match ← nearestFibRetestLevel scan.candles index scan.config with
    | none => pure none
    | some fibLevel =>
        let signal := shouldEnterLong candle fibLevel ((scan.hourlyContext candle.openTimeMs).getD "yellow")
          (seriesValue scan.rsiValues index) (seriesValue scan.histValues index)
          (seriesValue scan.histValues (index - 1)) scan.config
        pure (if signal.allowed then some fibLevel else none)

/-- The loop over the bars from the start of the lookback; `latest` is the last signal so far. -/
def scanSignals : List (Candle F × ℕ) → Option (Candle F × F) → Except StrategyError (Option (Candle F × F))
  | [], latest => pure latest
  | (candle, index) :: bars, latest => do
      match ← signalAllowed scan candle index with
      | none => scanSignals bars latest
      | some fibLevel =>
          if scan.config.entryExecution = .secondPullback then
            if ← secondPullbackSignalAlreadyFilled scan index fibLevel then scanSignals bars latest
            else pure (some (candle, fibLevel))
          else scanSignals bars (some (candle, fibLevel))

/-- `max(1, len(candles) - max(1, lookback_bars))`. -/
def lookbackStart (length : ℕ) (lookbackBars : ℤ) : ℕ := (max 1 ((length : ℤ) - max 1 lookbackBars)).toNat

/-- Source: `scanner.py` `_latest_recent_signal`. -/
def latestRecentSignal (lookbackBars : ℤ) : Except StrategyError (Option (Candle F × F)) :=
  scanSignals scan (scan.candles.zipIdx.drop (lookbackStart scan.candles.length lookbackBars)) none

end signals

/-! ## Results -/

/-- What a scan reports of the last bar. -/
structure LastBar (F : Type) where
  symbol : String
  candle : Candle F
  regime : String
  rsi14 : F
  macdHist : F
  macdHistPrev : F

/-- A result about the last bar that reports no signal. -/
def LastBar.result (last : LastBar F) (reason : String) (decisionCode : EntryDecisionCode) : EntryScanResult F where
  symbol := last.symbol
  reason := reason
  lastClose := some last.candle.closePrice
  regime1h := last.regime
  rsi14 := some last.rsi14
  macdHist := some last.macdHist
  macdHistPrev := some last.macdHistPrev
  decisionCode := decisionCode

/-- Source: `plan.py` `initial_stop_price`. -/
def initialStopPrice (currentPrice : F) (config : StrategyConfig F) : F := currentPrice * (1 - config.initialStopPct)

/-- Source: `scanner.py` `_result_for_recent_signal`. -/
def resultForRecentSignal (last : LastBar F) (signal : Candle F × F) (maxFibDistancePct : F)
    (config : StrategyConfig F) : EntryScanResult F :=
  let (signalCandle, fibLevel) := signal
  let distancePct : Option F := if isZero fibLevel then none else some (last.candle.closePrice / fibLevel - 1)
  let closeIsNearFib := distancePct.any fun distance => decide (pyAbs distance ≤ maxFibDistancePct)
  let base : EntryScanResult F :=
    { last.result "recent retest confirmed but price has moved away from fib zone" .priceAwayFromFib with
      fibLevel := some fibLevel
      fibDistancePct := distancePct
      signalTimeMs := some signalCandle.openTimeMs }
  if distancePct.isSome && (closeIsNearFib || config.entryExecution = .secondPullback) then
    { base with
      reason :=
        if closeIsNearFib then "recent retest confirmed and price is near fib zone"
        else "recent retest confirmed; resting second-pullback fib limit"
      triggerPrice := some fibLevel
      initialStop := some (initialStopPrice fibLevel config)
      decisionCode := if config.entryExecution = .secondPullback then .secondPullbackLimitReady else .signalConfirmed }
  else base

/-- Source: `scanner.py` `_blocked_result`. -/
def blockedResult (last : LastBar F) (config : StrategyConfig F) : Option (EntryScanResult F) :=
  if last.regime = "red" then some (last.result "1h regime is red" .regimeBlocked)
  else if last.rsi14 < config.rsiFloor then some (last.result "15m RSI is below floor" .rsiBelowFloor)
  else if last.macdHist < last.macdHistPrev ∧ last.macdHist < 0 then
    some (last.result "15m MACD histogram still weakening" .macdWeakening)
  else none

lemma blockedResult_ne_ready {last : LastBar F} {config : StrategyConfig F} {result : EntryScanResult F}
    (h : blockedResult last config = some result) : result.decisionCode ≠ .secondPullbackLimitReady := by
  unfold blockedResult at h
  split_ifs at h
  all_goals
    cases h
    exact fun hcode => by cases hcode

variable [Eastern]

/-- A scan of a history with a last bar. Source: `scanner.py` `_scan_entry`. -/
def scanHistory (scan : ScanInputs F) (last : LastBar F) (lookbackBars : ℤ) (maxFibDistancePct : F) :
    Except StrategyError (EntryScanResult F) := do
  let config := scan.config
  let lookback := effectiveLookbackBars config lookbackBars
  let pending ← if config.entryExecution = .secondPullback then latestRecentSignal scan lookback else pure none
  match pending with
  | some signal => pure (resultForRecentSignal last signal maxFibDistancePct config)
  | none =>
      match blockedResult last config with
      | some blocked => pure blocked
      | none =>
          match ← latestRecentSignal scan lookback with
          | none =>
              pure (last.result "filters are not fully blocked, but no recent confirmed fib retest"
                .noRecentConfirmedFibRetest)
          | some signal => pure (resultForRecentSignal last signal maxFibDistancePct config)

/-- The inputs of a scan. -/
def scanInputsOf (candles : List (Candle F)) (hourlyContext : ℤ → Option String) (config : StrategyConfig F) :
    ScanInputs F :=
  let closes := candles.map Candle.closePrice
  { candles := candles
    hourlyContext := hourlyContext
    config := config
    rsiValues := rsi 14 closes
    histValues := (macd closes).2.2 }

/-- The last bar of a scan. -/
def lastBarOf (symbol : String) (candle : Candle F) (scan : ScanInputs F) : LastBar F :=
  let lastIndex := scan.candles.length - 1
  { symbol := symbol
    candle := candle
    regime := (scan.hourlyContext candle.openTimeMs).getD "yellow"
    rsi14 := seriesValue scan.rsiValues lastIndex
    macdHist := seriesValue scan.histValues lastIndex
    macdHistPrev := seriesValue scan.histValues (lastIndex - 1) }

/-- Source: `scanner.py` `scan_entry`. -/
def scanEntry (symbol : String) (candles15m candles1h : List (Candle F)) (config : StrategyConfig F)
    (lookbackBars : ℤ) (maxFibDistancePct : F) : Except StrategyError (EntryScanResult F) :=
  match candles15m.getLast? with
  | none => pure ⟨symbol, "no 15m candles", none, "yellow", none, none, none, none, none, none, none, none,
      .noCandles, none⟩
  | some candle => do
      let calendar ← evaluateTradingWindow config.tradingCalendarId config.tradingWindowsEt candle.openTimeMs
      let evaluation : ScanEvaluation := ⟨candle.openTimeMs, candle.openTimeMs + 900000, calendar.calendarId,
        calendar.session, config.tradingWindowsEt⟩
      let closed (reason : String) (code : EntryDecisionCode) : EntryScanResult F :=
        { symbol, reason, lastClose := some candle.closePrice, regime1h := "unknown", rsi14 := none
          macdHist := none, macdHistPrev := none, decisionCode := code }
      let result ←
        match calendar.reason with
        | .referenceMarketClosed => pure (closed "reference market is closed" .referenceMarketClosed)
        | .currentBarOutsideTradingWindow =>
            pure (closed "current bar is outside configured trading window" .currentBarOutsideTradingWindow)
        | .allowed => do
            let hourlyContext ← buildHourlyContext candles15m candles1h
            let scan := scanInputsOf candles15m hourlyContext config
            scanHistory scan (lastBarOf symbol candle scan) lookbackBars maxFibDistancePct
      pure { result with evaluation := some evaluation }

/-! ## What a scan found -/

section found

variable {scan : ScanInputs F}

/-- A limit that bars filled was reached by one of them, in a trading window. -/
lemma exists_of_filledBetween {fibLevel : F} {first last : ℕ} (h : filledBetween scan fibLevel first last = .ok true) :
    ∃ j candle, first ≤ j ∧ j ≤ last ∧ scan.candles[j]? = some candle ∧
      isPreferredUsCashWindow candle.openTimeMs scan.config = .ok true ∧ candle.low ≤ fibLevel := by
  have hloop : ∀ bars : List (Candle F), bars.foldlM (fun filled candle =>
      if filled then pure true
      else do
        if !(← isPreferredUsCashWindow candle.openTimeMs scan.config) then pure false
        else pure (decide (candle.low ≤ fibLevel))) false = .ok true →
      ∃ candle ∈ bars, isPreferredUsCashWindow candle.openTimeMs scan.config = .ok true ∧ candle.low ≤ fibLevel := by
    intro bars
    induction bars with
    | nil =>
        intro h
        cases h
    | cons candle bars ih =>
        intro h
        rw [List.foldlM_cons, bind_eq_ok] at h
        obtain ⟨filled, hfilled, h⟩ := h
        obtain ⟨inWindow, hwindow, hfilled⟩ := bind_eq_ok.mp hfilled
        cases filled with
        | false =>
            obtain ⟨c, hmem, hc⟩ := ih h
            exact ⟨c, List.mem_cons_of_mem candle hmem, hc⟩
        | true =>
            cases inWindow with
            | false => cases hfilled
            | true =>
                rw [Bool.not_true, if_neg Bool.false_ne_true, pure_eq_ok_iff, decide_eq_true_eq] at hfilled
                exact ⟨candle, List.mem_cons_self, hwindow, hfilled⟩
  obtain ⟨candle, hmem, hwindow, hlow⟩ := hloop _ h
  obtain ⟨i, hi⟩ := List.mem_iff_getElem?.mp hmem
  rw [List.getElem?_drop] at hi
  obtain ⟨hlt, -⟩ := List.getElem?_eq_some_iff.mp hi
  rw [List.length_take] at hlt
  rw [List.getElem?_take_of_lt (by omega)] at hi
  exact ⟨first + i, candle, by omega, by omega, hi, hwindow, hlow⟩

/-- A limit that a bar reached in a trading window is filled. -/
lemma eq_true_of_filledBetween {fibLevel : F} {first last : ℕ} {filled : Bool}
    (h : filledBetween scan fibLevel first last = .ok filled) {j : ℕ} {candle : Candle F} (hfirst : first ≤ j)
    (hlast : j ≤ last) (hcandle : scan.candles[j]? = some candle)
    (hwindow : isPreferredUsCashWindow candle.openTimeMs scan.config = .ok true) (hlow : candle.low ≤ fibLevel) :
    filled = true := by
  have hloop : ∀ (bars : List (Candle F)) (before : Bool), bars.foldlM (fun filled candle =>
      if filled then pure true
      else do
        if !(← isPreferredUsCashWindow candle.openTimeMs scan.config) then pure false
        else pure (decide (candle.low ≤ fibLevel))) before = .ok filled →
      before = true ∨ candle ∈ bars → filled = true := by
    intro bars
    induction bars with
    | nil =>
        rintro before h (rfl | hmem)
        · cases h
          rfl
        · cases hmem
    | cons c bars ih =>
        intro before h hreason
        rw [List.foldlM_cons, bind_eq_ok] at h
        obtain ⟨after, hafter, h⟩ := h
        refine ih after h ?_
        rcases hreason with rfl | hmem
        · cases hafter
          exact Or.inl rfl
        · rcases List.mem_cons.mp hmem with rfl | hmem
          · refine Or.inl ?_
            cases before with
            | true =>
                cases hafter
                rfl
            | false =>
                simp only [Bool.false_eq_true, if_false, hwindow, ok_bind, Bool.not_true, pure_eq_ok_iff] at hafter
                rw [← hafter, decide_eq_true hlow]
          · exact Or.inr hmem
  refine hloop _ false h (Or.inr (List.mem_of_getElem? (i := j - first) ?_))
  rw [List.getElem?_drop, Nat.add_sub_cancel' hfirst, List.getElem?_take_of_lt (by omega), hcandle]

variable (hmode : scan.config.entryExecution = .secondPullback)

include hmode

/-- A scan finds the first signal that was not filled. -/
lemma scanSignals_some {bars : List (Candle F × ℕ)} (hsorted : (bars.map Prod.snd).Pairwise (· < ·)) {candle : Candle F}
    {fibLevel : F} (h : scanSignals scan bars none = .ok (some (candle, fibLevel))) :
    ∃ index, (candle, index) ∈ bars ∧ signalAllowed scan candle index = .ok (some fibLevel) ∧
      secondPullbackSignalAlreadyFilled scan index fibLevel = .ok false ∧
      ∀ c i level, (c, i) ∈ bars → i < index → signalAllowed scan c i = .ok (some level) →
        secondPullbackSignalAlreadyFilled scan i level = .ok true := by
  induction bars with
  | nil => cases h
  | cons bar bars ih =>
      obtain ⟨c, i⟩ := bar
      rw [List.map_cons, List.pairwise_cons] at hsorted
      obtain ⟨signal, hsignal, h⟩ := bind_eq_ok.mp h
      -- what the rest of the bars finds, if this bar has no signal or a filled one
      have hrest : (∀ level, signal = some level → secondPullbackSignalAlreadyFilled scan i level = .ok true) →
          scanSignals scan bars none = .ok (some (candle, fibLevel)) →
          ∃ index, (candle, index) ∈ (c, i) :: bars ∧ signalAllowed scan candle index = .ok (some fibLevel) ∧
            secondPullbackSignalAlreadyFilled scan index fibLevel = .ok false ∧
            ∀ c' i' level, (c', i') ∈ (c, i) :: bars → i' < index → signalAllowed scan c' i' = .ok (some level) →
              secondPullbackSignalAlreadyFilled scan i' level = .ok true := by
        intro hthis h
        obtain ⟨index, hmem, hallowed, hunfilled, hbefore⟩ := ih hsorted.2 h
        refine ⟨index, List.mem_cons_of_mem _ hmem, hallowed, hunfilled, fun c' i' level hmem' hlt hsignal' => ?_⟩
        rcases List.mem_cons.mp hmem' with heq | hmem'
        · cases heq
          rw [hsignal] at hsignal'
          exact hthis level (Except.ok.inj hsignal')
        · exact hbefore c' i' level hmem' hlt hsignal'
      cases signal with
      | none => exact hrest (fun level hlevel => by cases hlevel) h
      | some level =>
          simp only [hmode, if_true] at h
          obtain ⟨filled, hfilled, h⟩ := bind_eq_ok.mp h
          cases filled with
          | true =>
              refine hrest (fun level' hlevel => ?_) h
              cases hlevel
              exact hfilled
          | false =>
              cases h
              refine ⟨i, List.mem_cons_self, hsignal, hfilled, fun c' i' level' hmem hlt hsignal' => ?_⟩
              rcases List.mem_cons.mp hmem with heq | hmem
              · cases heq
                exact absurd hlt (lt_irrefl i)
              · exact absurd hlt (lt_asymm (hsorted.1 i' (List.mem_map_of_mem (f := Prod.snd) hmem)))

/-- A scan that found nothing saw every signal filled. -/
lemma scanSignals_none {bars : List (Candle F × ℕ)} (h : scanSignals scan bars none = .ok none) {candle : Candle F}
    {index : ℕ} (hmem : (candle, index) ∈ bars) {fibLevel : F}
    (hsignal : signalAllowed scan candle index = .ok (some fibLevel)) :
    secondPullbackSignalAlreadyFilled scan index fibLevel = .ok true := by
  induction bars with
  | nil => cases hmem
  | cons bar bars ih =>
      obtain ⟨c, i⟩ := bar
      obtain ⟨signal, hthis, h⟩ := bind_eq_ok.mp h
      cases signal with
      | none =>
          rcases List.mem_cons.mp hmem with heq | hmem
          · cases heq
            rw [hsignal] at hthis
            cases hthis
          · exact ih h hmem
      | some level =>
          simp only [hmode, if_true] at h
          obtain ⟨filled, hfilled, h⟩ := bind_eq_ok.mp h
          cases filled with
          | false => cases h
          | true =>
              rcases List.mem_cons.mp hmem with heq | hmem
              · cases heq
                rw [hsignal] at hthis
                cases hthis
                exact hfilled
              · exact ih h hmem

end found

/-- A second-pullback scan in a trading window reports the signal it found, if its level is not zero. -/
lemma scanEntry_ready {symbol : String} {candles15m candles1h : List (Candle F)} {config : StrategyConfig F}
    {lookbackBars : ℤ} {maxFibDistancePct : F} {last : Candle F} {result : EntryScanResult F}
    (hmode : config.entryExecution = .secondPullback) (hlast : candles15m.getLast? = some last)
    (hwindow : isPreferredUsCashWindow last.openTimeMs config = .ok true)
    (h : scanEntry symbol candles15m candles1h config lookbackBars maxFibDistancePct = .ok result) :
    ∃ context found, buildHourlyContext candles15m candles1h = .ok context ∧
      latestRecentSignal (scanInputsOf candles15m context config) (min lookbackBars config.secondPullbackWaitBars) =
        .ok found ∧
      (result.decisionCode = .secondPullbackLimitReady ↔ ∃ signal, found = some signal ∧ isZero signal.2 = false) ∧
      ∀ signal, found = some signal → result.decisionCode = .secondPullbackLimitReady →
        result.signalTimeMs = some signal.1.openTimeMs ∧ result.triggerPrice = some signal.2 := by
  unfold scanEntry at h
  rw [hlast] at h
  obtain ⟨calendar, hcalendar, h⟩ := bind_eq_ok.mp h
  obtain ⟨calendar', hcalendar', hallowed⟩ := bind_eq_ok.mp hwindow
  obtain rfl := Except.ok.inj (hcalendar.symm.trans hcalendar')
  rw [pure_eq_ok_iff, TradingWindowDecision.allowed, decide_eq_true_eq] at hallowed
  simp only [hallowed] at h
  obtain ⟨context, hcontext, h⟩ := bind_eq_ok.mp h
  obtain ⟨scanned, hscanned, h⟩ := bind_eq_ok.mp h
  cases h
  have hlookback : effectiveLookbackBars config lookbackBars = min lookbackBars config.secondPullbackWaitBars := by
    simp only [effectiveLookbackBars, hmode, ne_eq, not_true_eq_false, if_false]
  have hconfig : (scanInputsOf candles15m context config).config = config := rfl
  simp only [scanHistory, hconfig, hmode, if_true, hlookback] at hscanned
  obtain ⟨found, hfound, hscanned⟩ := bind_eq_ok.mp hscanned
  refine ⟨context, found, hcontext, hfound, ?_⟩
  cases found with
  | some signal =>
      cases hscanned
      cases hzero : isZero signal.2 with
      | true => simp [resultForRecentSignal, LastBar.result, hmode, hzero]
      | false => simp [resultForRecentSignal, LastBar.result, hmode, hzero]
  | none =>
      -- without a resting order the second search finds nothing either
      simp only [hfound, ok_bind] at hscanned
      have hcode : scanned.decisionCode ≠ .secondPullbackLimitReady := by
        split at hscanned
        · rename_i blocked hblocked
          cases hscanned
          exact blockedResult_ne_ready hblocked
        · cases hscanned
          exact fun hcode => by cases hcode
      simp [hcode]

/-- A scan that reports an order was made on a bar in a trading window. -/
lemma window_of_ready {symbol : String} {candles15m candles1h : List (Candle F)} {config : StrategyConfig F}
    {lookbackBars : ℤ} {maxFibDistancePct : F} {result : EntryScanResult F}
    (h : scanEntry symbol candles15m candles1h config lookbackBars maxFibDistancePct = .ok result)
    (hready : result.decisionCode = .secondPullbackLimitReady) :
    ∃ last, candles15m.getLast? = some last ∧ isPreferredUsCashWindow last.openTimeMs config = .ok true := by
  unfold scanEntry at h
  cases hlast : candles15m.getLast? with
  | none =>
      rw [hlast] at h
      cases h
      cases hready
  | some last =>
      rw [hlast] at h
      obtain ⟨calendar, hcalendar, h⟩ := bind_eq_ok.mp h
      refine ⟨last, rfl, bind_eq_ok.mpr ⟨calendar, hcalendar, ?_⟩⟩
      cases hreason : calendar.reason with
      | allowed => simp only [TradingWindowDecision.allowed, hreason, decide_true, pure_eq_ok_iff]
      | referenceMarketClosed =>
          simp only [hreason] at h
          cases h
          cases hready
      | currentBarOutsideTradingWindow =>
          simp only [hreason] at h
          cases h
          cases hready

omit [Eastern] in
lemma blockedResult_symbol {last : LastBar F} {config : StrategyConfig F} {result : EntryScanResult F}
    (h : blockedResult last config = some result) : result.symbol = last.symbol := by
  unfold blockedResult at h
  split_ifs at h
  all_goals
    cases h
    rfl

omit [Eastern] in
lemma resultForRecentSignal_symbol (last : LastBar F) (signal : Candle F × F) (maxFibDistancePct : F)
    (config : StrategyConfig F) :
    (resultForRecentSignal last signal maxFibDistancePct config).symbol = last.symbol := by
  unfold resultForRecentSignal
  dsimp only
  split_ifs <;> rfl

/-- A scan of a history is one of the symbol of its last bar. -/
lemma scanHistory_symbol {scan : ScanInputs F} {last : LastBar F} {lookbackBars : ℤ} {maxFibDistancePct : F}
    {result : EntryScanResult F} (h : scanHistory scan last lookbackBars maxFibDistancePct = .ok result) :
    result.symbol = last.symbol := by
  by_cases hmode : scan.config.entryExecution = .secondPullback
  all_goals
    simp only [scanHistory, hmode, if_true, if_false] at h
    obtain ⟨pending, -, h⟩ := bind_eq_ok.mp h
    cases pending with
    | some signal =>
        cases h
        exact resultForRecentSignal_symbol last signal maxFibDistancePct scan.config
    | none =>
        cases hblocked : blockedResult last scan.config with
        | some blocked =>
            simp only [hblocked] at h
            cases h
            exact blockedResult_symbol hblocked
        | none =>
            simp only [hblocked] at h
            obtain ⟨found, -, h⟩ := bind_eq_ok.mp h
            cases found with
            | none =>
                cases h
                rfl
            | some signal =>
                cases h
                exact resultForRecentSignal_symbol last signal maxFibDistancePct scan.config

/-- A scan is one of the symbol it was asked for. -/
lemma scanEntry_symbol {symbol : String} {candles15m candles1h : List (Candle F)} {config : StrategyConfig F}
    {lookbackBars : ℤ} {maxFibDistancePct : F} {result : EntryScanResult F}
    (h : scanEntry symbol candles15m candles1h config lookbackBars maxFibDistancePct = .ok result) :
    result.symbol = symbol := by
  unfold scanEntry at h
  cases hlast : candles15m.getLast? with
  | none =>
      rw [hlast] at h
      cases h
      rfl
  | some candle =>
      rw [hlast] at h
      obtain ⟨calendar, -, h⟩ := bind_eq_ok.mp h
      cases hreason : calendar.reason with
      | referenceMarketClosed =>
          simp only [hreason] at h
          cases h
          rfl
      | currentBarOutsideTradingWindow =>
          simp only [hreason] at h
          cases h
          rfl
      | allowed =>
          simp only [hreason] at h
          obtain ⟨context, -, h⟩ := bind_eq_ok.mp h
          obtain ⟨scanned, hscanned, h⟩ := bind_eq_ok.mp h
          cases h
          exact scanHistory_symbol hscanned

end MuStrategy.Entry
