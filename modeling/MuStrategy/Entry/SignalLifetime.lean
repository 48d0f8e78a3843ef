import MuStrategy.Entry.Agreement
import MuStrategy.Execution.Intents

/-!
# The life of a signal

A second-pullback signal lives for its waiting bars in three places: as the resting order of a backtest, as what a
scan reports, and as what an intent may still be created from.

* `barStep_bought` — the bars on which the order of a signal may fill.
* `reported_live`, `reports_signal` — the scans that report a signal.
* `signal_lifetime` — both last through the last waiting bar; an intent has to be created before that bar opens.
* `ready_scan_refused` — a scan that reports a signal when its last candle closes, refused as expired.
-/

namespace MuStrategy.Entry

open Lib TrustedData Strategy Backtest Execution

variable {F : Type} [Number F] [Eastern]

/-! ## The order -/

/-- A bar bought: something is open after it, or was traded on it. -/
def Bought (s s' : BacktestState F) : Prop := s'.position ≠ none ∨ s'.trades ≠ s.trades

section order

variable {run : Inputs F} {s s' : BacktestState F} {candle : Candle F} {index : ℕ}

/-- An entry buys, also if the bar settles it at once. -/
lemma enter_bought {price : F} (h : enter run candle price s = .ok s') : Bought s s' := by
  obtain ⟨margin, -, h⟩ := bind_eq_ok.mp h
  obtain ⟨fill, -, h⟩ := bind_eq_ok.mp h
  obtain ⟨⟨settled, t⟩, hexit, h⟩ := bind_eq_ok.mp h
  cases h
  obtain ⟨risk, -, hexit⟩ := bind_eq_ok.mp hexit
  cases risk with
  | none =>
      cases hexit
      exact Or.inl (Option.some_ne_none _)
  | some risk =>
      cases hexit
      exact Or.inr fun heq => List.cons_ne_nil _ _ (List.append_right_eq_self.mp heq)

/-- A bar takes a limit order: it lies in a trading window and comes down to the limit. -/
def TakesOrder (run : Inputs F) (limit : F) (candle : Candle F) : Prop :=
  isPreferredUsCashWindow candle.openTimeMs run.config = .ok true ∧
    candle.low ≤ limit * (1 + run.config.fibTolerancePct) ∧ ¬limit < candle.low

/-- The bar of an order that has not expired buys if it takes the order, and leaves the order otherwise. -/
lemma pendingStep_bought {pending : PendingEntry F} (hflat : s.position = none)
    (h : pendingStep run pending candle s = .ok s') :
    (Bought s s' ↔ TakesOrder run pending.fibLevel candle) ∧ (¬Bought s s' → s'.pendingEntry = s.pendingEntry) := by
  have hkept : ¬Bought s (s.recordClose candle) := by
    rintro (hopen | htraded)
    · exact hopen hflat
    · exact htraded rfl
  unfold pendingStep at h
  split at h
  · rename_i hnear
    obtain ⟨inWindow, hwindow, h⟩ := bind_eq_ok.mp h
    cases inWindow with
    | false =>
        cases h
        refine ⟨iff_of_false hkept fun htakes => ?_, fun _ => rfl⟩
        rw [htakes.1] at hwindow
        cases hwindow
    | true =>
        rw [Bool.not_true, if_neg Bool.false_ne_true, buyLimitFillPrice] at h
        by_cases habove : pending.fibLevel < candle.low
        · rw [if_pos habove] at h
          cases h
          exact ⟨iff_of_false hkept fun htakes => htakes.2.2 habove, fun _ => rfl⟩
        · obtain ⟨price, hprice⟩ : ∃ price, (if candle.openPrice < pending.fibLevel then some candle.openPrice
              else some pending.fibLevel) = some price := by
            split <;> exact ⟨_, rfl⟩
          rw [if_neg habove, hprice] at h
          obtain ⟨t, henter, h⟩ := bind_eq_ok.mp h
          cases h
          have hentered : Bought s t := enter_bought henter
          have hbought : Bought s (t.recordClose candle) := hentered
          exact ⟨iff_of_true hbought ⟨hwindow, hnear, habove⟩, fun hnot => absurd hbought hnot⟩
  · rename_i hfar
    cases h
    exact ⟨iff_of_false hkept fun htakes => hfar htakes.2.1, fun _ => rfl⟩

/-- A bar without an order buys nothing: a signal on it rests one. -/
lemma signalStep_bought (hmode : run.config.entryExecution = .secondPullback) {t : BacktestState F}
    (h : signalStep run index candle t = .ok s') (hposition : t.position = none) (htrades : t.trades = s.trades) :
    ¬Bought s s' := by
  rintro (hopen | htraded)
  · rcases signalStep_pullback hmode h with ⟨-, rfl⟩ | ⟨-, rfl⟩ | ⟨_, _, -, -, rfl⟩
    all_goals exact hopen hposition
  · rcases signalStep_pullback hmode h with ⟨-, rfl⟩ | ⟨-, rfl⟩ | ⟨_, _, -, -, rfl⟩
    all_goals exact htraded htrades

/-- **The bars on which an order may fill** are those up to its expiry. -/
theorem barStep_bought (hmode : run.config.entryExecution = .secondPullback) {pending : PendingEntry F}
    (hflat : s.position = none) (hpending : s.pendingEntry = some pending)
    (h : barStep run s (candle, index) = .ok s') :
    (Bought s s' ↔ (index : ℤ) ≤ pending.expiresIndex ∧ TakesOrder run pending.fibLevel candle) ∧
      ((index : ℤ) ≤ pending.expiresIndex → ¬Bought s s' → s'.pendingEntry = some pending) := by
  simp only [barStep, hflat, flatStep, restingEntry, hmode, if_true, hpending] at h
  by_cases hexpired : pending.expiresIndex < index
  · rw [if_pos hexpired] at h
    have hnot : ¬Bought s s' := signalStep_bought hmode h rfl rfl
    exact ⟨iff_of_false hnot fun hlive => absurd hlive.1 (by omega), fun hlive => absurd hlive (by omega)⟩
  · rw [if_neg hexpired] at h
    obtain ⟨hbought, hkept⟩ := pendingStep_bought hflat h
    rw [hbought, hpending] at *
    exact ⟨⟨fun htakes => ⟨by omega, htakes⟩, And.right⟩, fun _ => hkept⟩

/-- A signal rests its order, unless an order is resting. -/
lemma barStep_rests (hmode : run.config.entryExecution = .secondPullback) (hflat : s.position = none)
    (hfree : ¬HoldsOrder index s) (hnext : run.candles[index + 1]? ≠ none) {fibLevel : F}
    (hsignal : signalAt run index candle = .ok (some fibLevel)) (h : barStep run s (candle, index) = .ok s') :
    s'.pendingEntry = some ⟨fibLevel, index + run.config.secondPullbackWaitBars⟩ := by
  have hrest : ∀ t : BacktestState F, signalStep run index candle t = .ok s' →
      s'.pendingEntry = some ⟨fibLevel, index + run.config.secondPullbackWaitBars⟩ := by
    intro t hstep
    rcases signalStep_pullback hmode hstep with ⟨hend, -⟩ | ⟨hnone, -⟩ | ⟨level, expires, hsome, rfl, rfl⟩
    · exact absurd hend hnext
    · rw [hsignal] at hnone
      cases hnone
    · rw [hsignal] at hsome
      cases hsome
      rfl
  simp only [barStep, hflat, flatStep, restingEntry, hmode, if_true] at h
  cases hpending : s.pendingEntry with
  | none =>
      simp only [hpending] at h
      exact hrest s h
  | some pending =>
      simp only [hpending] at h
      by_cases hexpired : pending.expiresIndex < index
      · rw [if_pos hexpired] at h
        exact hrest _ h
      · exact absurd ⟨pending, hpending, by omega⟩ hfree

end order

/-! ## The scans -/

section scans

variable {candles later candles1h : List (Candle F)} {context : ℤ → Option String} {config : StrategyConfig F}
  {symbol : String} {lookbackBars : ℤ} {maxFibDistancePct : F} {scan : EntryScanResult F}

/-- A signal with a fill in its waiting time is filled for the scanner. -/
lemma eq_true_of_fills {index j : ℕ} {fibLevel : F} {filled : Bool} {candle : Candle F}
    (h : secondPullbackSignalAlreadyFilled (scanInputsOf candles context config) index fibLevel = .ok filled)
    (hlater : index < j) (hlive : (j : ℤ) ≤ index + config.secondPullbackWaitBars) (hcandle : candles[j]? = some candle)
    (hfills : Fills (inputsOf candles context config) fibLevel candle) : filled = true := by
  obtain ⟨hj, -⟩ := List.getElem?_eq_some_iff.mp hcandle
  change (if min ((candles.length : ℤ) - 1) (index + config.secondPullbackWaitBars) < 0 then pure false
    else filledBetween (scanInputsOf candles context config) fibLevel (index + 1)
      (min ((candles.length : ℤ) - 1) (index + config.secondPullbackWaitBars)).toNat) = .ok filled at h
  rw [if_neg (by omega)] at h
  exact eq_true_of_filledBetween h hlater (by omega) hcandle hfills.1 hfills.2

/-- What a scan that reports an order found. -/
lemma found_of_ready (hmode : config.entryExecution = .secondPullback) (hwait : 1 ≤ config.secondPullbackWaitBars)
    (hlookback : config.secondPullbackWaitBars ≤ lookbackBars)
    (hscan : scanEntry symbol candles candles1h config lookbackBars maxFibDistancePct = .ok scan)
    (hready : scan.decisionCode = .secondPullbackLimitReady) :
    ∃ (j : ℕ) (candle : Candle F), candles[j]? = some candle ∧ scan.signalTimeMs = some candle.openTimeMs ∧
      (candles.length : ℤ) ≤ j + config.secondPullbackWaitBars := by
  obtain ⟨last, hlast, hwindow⟩ := window_of_ready hscan hready
  obtain ⟨context, found, -, hfound, hcode, hsignal⟩ := scanEntry_ready hmode hlast hwindow hscan
  obtain ⟨⟨candle, fibLevel⟩, rfl, -⟩ := hcode.mp hready
  rw [min_eq_right hlookback] at hfound
  obtain ⟨j, hmem, -⟩ := scanSignals_some hmode (lookback_sorted candles _) hfound
  obtain ⟨hcandle, -, hlive⟩ := (mem_lookback hwait).mp hmem
  exact ⟨j, candle, hcandle, (hsignal _ rfl hready).1, hlive⟩

/-- A scan in a trading window reports a signal in its waiting time that no bar has filled, if every earlier signal
it looks at was filled. -/
lemma reports_signal [LawfulNumber F] {last signalBar : Candle F} {index : ℕ} {fibLevel : F}
    (hmode : config.entryExecution = .secondPullback) (htol : 0 ≤ config.fibTolerancePct)
    (hwait : 1 ≤ config.secondPullbackWaitBars) (hlookback : config.secondPullbackWaitBars ≤ lookbackBars)
    (hincreasing : ((candles ++ later).map Candle.openTimeMs).Pairwise (· < ·))
    (hcontext : buildHourlyContext (candles ++ later) candles1h = .ok context)
    (hlast : candles.getLast? = some last) (hwindow : isPreferredUsCashWindow last.openTimeMs config = .ok true)
    (hpos : 1 ≤ index) (hbar : candles[index]? = some signalBar) (hlow : 0 < signalBar.low)
    (hsignal : signalAt (inputsOf (candles ++ later) context config) index signalBar = .ok (some fibLevel))
    (hlive : (candles.length : ℤ) ≤ index + config.secondPullbackWaitBars)
    (hunfilled : ∀ j c, index < j → candles[j]? = some c → ¬Fills (inputsOf (candles ++ later) context config) fibLevel c)
    (hearlier : ∀ (i : ℕ) (c : Candle F) (level : F), 1 ≤ i → i < index →
      (candles.length : ℤ) ≤ i + config.secondPullbackWaitBars → candles[i]? = some c →
      signalAt (inputsOf (candles ++ later) context config) i c = .ok (some level) →
      ∃ (j : ℕ) (c' : Candle F), i < j ∧ candles[j]? = some c' ∧
        Fills (inputsOf (candles ++ later) context config) level c')
    (hscan : scanEntry symbol candles candles1h config lookbackBars maxFibDistancePct = .ok scan) :
    scan.decisionCode = .secondPullbackLimitReady ∧ scan.signalTimeMs = some signalBar.openTimeMs ∧
      scan.triggerPrice = some fibLevel := by
  obtain ⟨context', found, hcontext', hfound, hcode, hreported⟩ := scanEntry_ready hmode hlast hwindow hscan
  rw [min_eq_right hlookback] at hfound
  have hagree : ∀ bar ∈ candles, context' bar.openTimeMs = context bar.openTimeMs := by
    refine fun bar hbar => buildHourlyContext_append (fun bar hbar bar' hbar' => ?_) hcontext' hcontext hbar
    rw [List.map_append, List.pairwise_append] at hincreasing
    exact ne_of_lt (hincreasing.2.2 _ (List.mem_map_of_mem hbar) _ (List.mem_map_of_mem hbar'))
  have hallowed : signalAllowed (scanInputsOf candles context' config) signalBar index = .ok (some fibLevel) := by
    rw [signalAllowed_eq hagree hbar]
    exact hsignal
  have hquiet : secondPullbackSignalAlreadyFilled (scanInputsOf candles context' config) index fibLevel ≠ .ok true :=
    not_alreadyFilled fun j c hj _ _ hc => hunfilled j c hj hc
  have hmem := (mem_lookback hwait).mpr ⟨hbar, hpos, hlive⟩
  obtain rfl : found = some (signalBar, fibLevel) := by
    cases found with
    | none => exact absurd (scanSignals_none hmode hfound hmem hallowed) hquiet
    | some signal =>
        obtain ⟨c, level⟩ := signal
        obtain ⟨i, hmem', hallowed', hunfilled', hbefore⟩ := scanSignals_some hmode (lookback_sorted candles _) hfound
        obtain ⟨hc, hi, hlive'⟩ : candles[i]? = some c ∧ 1 ≤ i ∧
            (candles.length : ℤ) ≤ i + config.secondPullbackWaitBars := (mem_lookback hwait).mp hmem'
        rcases Nat.lt_trichotomy i index with hlt | rfl | hlt
        · -- an earlier signal was filled
          obtain ⟨j, c', hij, hc', hfills⟩ := hearlier i c level hi hlt hlive' hc
            ((signalAllowed_eq hagree hc).symm.trans hallowed')
          obtain ⟨hj, -⟩ := List.getElem?_eq_some_iff.mp hc'
          cases eq_true_of_fills hunfilled' hij (by omega) hc' hfills
        · rw [hbar] at hc
          cases hc
          rw [hallowed] at hallowed'
          cases hallowed'
          rfl
        · exact absurd (hbefore signalBar index fibLevel hmem hlt hallowed) hquiet
  have hfib : 0 < fibLevel := by
    refine fib_pos_of_signalAt htol ?_ hlow hsignal
    exact (List.getElem?_append_left (List.getElem?_eq_some_iff.mp hbar).1).trans hbar
  have hready : scan.decisionCode = .secondPullbackLimitReady := by
    refine hcode.mpr ⟨_, rfl, ?_⟩
    simp [isZero, LawfulNumber.not_le_of_lt hfib]
  exact ⟨hready, hreported _ rfl hready⟩

end scans

/-! ## The three lives -/

/-- Bars of a quarter of an hour without a gap. -/
def Contiguous (candles : List (Candle F)) (start : ℤ) : Prop :=
  ∀ (k : ℕ) (candle : Candle F), candles[k]? = some candle → candle.openTimeMs = start + k * scannerIntervalMs

omit [Number F] [Eastern] in
lemma Contiguous.increasing {candles : List (Candle F)} {start : ℤ} (h : Contiguous candles start) :
    (candles.map Candle.openTimeMs).Pairwise (· < ·) := by
  rw [List.pairwise_iff_getElem]
  intro i j hi hj hij
  rw [List.length_map] at hi hj
  rw [List.getElem_map, List.getElem_map, h i _ (List.getElem?_eq_getElem hi), h j _ (List.getElem?_eq_getElem hj)]
  unfold scannerIntervalMs
  omega

/-- How long the signal of the bar at `index` lives. -/
structure SignalLifetime [Sha256] (history candles1h : List (Candle F)) (run : Inputs F) (lookbackBars : ℤ) (start : ℤ)
    (index : ℕ) (signalBar : Candle F) (fibLevel : F) : Prop where
  /-- In the backtest it rests its order, unless an order is resting. -/
  rests : ∀ s s', s.position = none → ¬HoldsOrder index s → history[index + 1]? ≠ none →
    barStep run s (signalBar, index) = .ok s' →
    s'.pendingEntry = some ⟨fibLevel, index + run.config.secondPullbackWaitBars⟩
  /-- The order may fill through the last waiting bar, and stays until then if it does not. -/
  fills : ∀ (j : ℕ) candle s s', s.position = none →
    s.pendingEntry = some ⟨fibLevel, index + run.config.secondPullbackWaitBars⟩ →
    barStep run s (candle, j) = .ok s' →
    (Bought s s' ↔ (j : ℤ) ≤ index + run.config.secondPullbackWaitBars ∧ TakesOrder run fibLevel candle) ∧
      ((j : ℤ) ≤ index + run.config.secondPullbackWaitBars → ¬Bought s s' →
        s'.pendingEntry = some ⟨fibLevel, index + run.config.secondPullbackWaitBars⟩)
  /-- A scan of the first `n` bars that reports it reports it for a bar through the last waiting bar. -/
  live : ∀ (n : ℕ) symbol maxFibDistancePct scan, n ≤ history.length →
    scanEntry symbol (history.take n) candles1h run.config lookbackBars maxFibDistancePct = .ok scan →
    scan.decisionCode = .secondPullbackLimitReady → scan.signalTimeMs = some signalBar.openTimeMs →
    index < n ∧ (n : ℤ) ≤ index + run.config.secondPullbackWaitBars
  /-- Through the last waiting bar it is reported, if the last bar is in a trading window, no bar has filled it, and
  every earlier signal that still lives was filled. -/
  reports : ∀ (n : ℕ) symbol maxFibDistancePct scan last, index < n → n ≤ history.length →
    (n : ℤ) ≤ index + run.config.secondPullbackWaitBars →
    (history.take n).getLast? = some last → isPreferredUsCashWindow last.openTimeMs run.config = .ok true →
    (∀ j c, index < j → (history.take n)[j]? = some c → ¬Fills run fibLevel c) →
    (∀ (i : ℕ) c level, 1 ≤ i → i < index → (n : ℤ) ≤ i + run.config.secondPullbackWaitBars →
      history[i]? = some c → signalAt run i c = .ok (some level) →
      ∃ (j : ℕ) (c' : Candle F), i < j ∧ (history.take n)[j]? = some c' ∧ Fills run level c') →
    scanEntry symbol (history.take n) candles1h run.config lookbackBars maxFibDistancePct = .ok scan →
    scan.decisionCode = .secondPullbackLimitReady ∧ scan.signalTimeMs = some signalBar.openTimeMs ∧
      scan.triggerPrice = some fibLevel
  /-- The factory accepts it on the bars before the last waiting bar. -/
  creatable : ∀ j createdAtMs : ℤ, start + j * scannerIntervalMs ≤ createdAtMs →
    createdAtMs < start + (j + 1) * scannerIntervalMs →
    ((demoIntentExpiry run.config.secondPullbackWaitBars (some signalBar.openTimeMs) createdAtMs).isOk = true ↔
      j < index + run.config.secondPullbackWaitBars)
  /-- An intent of it is valid with any creation time from its observation until the last waiting bar opens. -/
  valid : ∀ (intent : OrderIntent) createdAtMs, intent.signalTimeMs = signalBar.openTimeMs →
    intent.secondPullbackWaitBars = run.config.secondPullbackWaitBars →
    ({ intent.toOrderIntentFields with createdAtMs := createdAtMs }.validate = .ok () ↔
      intent.observedAtMs ≤ createdAtMs ∧
        createdAtMs < start + (index + run.config.secondPullbackWaitBars) * scannerIntervalMs)
  /-- A scan that reports it at the moment its last bar closes is refused as expired only for the last waiting bar. -/
  refused : ∀ (n : ℕ) symbol maxFibDistancePct scan, n ≤ history.length →
    scanEntry symbol (history.take n) candles1h run.config lookbackBars maxFibDistancePct = .ok scan →
    scan.decisionCode = .secondPullbackLimitReady → scan.signalTimeMs = some signalBar.openTimeMs →
    ((demoIntentExpiry run.config.secondPullbackWaitBars scan.signalTimeMs (start + n * scannerIntervalMs)).isOk = true ↔
      (n : ℤ) ≠ index + run.config.secondPullbackWaitBars)

/-- **The life of a signal**: its order may fill, and scans report it, through the last waiting bar; an intent of it
can be created until that bar opens. -/
theorem signal_lifetime [Sha256] [LawfulNumber F] {history candles1h : List (Candle F)} {context : ℤ → Option String}
    {config : StrategyConfig F} {lookbackBars start : ℤ} {index : ℕ} {signalBar : Candle F} {fibLevel : F}
    (hmode : config.entryExecution = .secondPullback) (htol : 0 ≤ config.fibTolerancePct)
    (hwait : 1 ≤ config.secondPullbackWaitBars) (hlookback : config.secondPullbackWaitBars ≤ lookbackBars)
    (hcontiguous : Contiguous history start) (hcontext : buildHourlyContext history candles1h = .ok context)
    (hpos : 1 ≤ index) (hbar : history[index]? = some signalBar) (hlow : 0 < signalBar.low)
    (hsignal : signalAt (inputsOf history context config) index signalBar = .ok (some fibLevel)) :
    SignalLifetime history candles1h (inputsOf history context config) lookbackBars start index signalBar fibLevel := by
  have hlive : ∀ (n : ℕ) symbol maxFibDistancePct scan, n ≤ history.length →
      scanEntry symbol (history.take n) candles1h config lookbackBars maxFibDistancePct = .ok scan →
      scan.decisionCode = .secondPullbackLimitReady → scan.signalTimeMs = some signalBar.openTimeMs →
      index < n ∧ (n : ℤ) ≤ index + config.secondPullbackWaitBars := by
    intro n symbol maxFibDistancePct scan hn hscan hready htime
    obtain ⟨j, candle, hcandle, htime', hlive⟩ := found_of_ready hmode hwait hlookback hscan hready
    obtain ⟨hj, -⟩ := List.getElem?_eq_some_iff.mp hcandle
    rw [List.length_take, Nat.min_eq_left hn] at hj hlive
    rw [List.getElem?_take_of_lt hj] at hcandle
    have htimes : candle.openTimeMs = signalBar.openTimeMs := Option.some.inj (htime'.symm.trans htime)
    rw [hcontiguous j candle hcandle, hcontiguous index signalBar hbar] at htimes
    unfold scannerIntervalMs at htimes
    omega
  have htime := hcontiguous index signalBar hbar
  refine ⟨?_, ?_, hlive, ?_, ?_, ?_, ?_⟩
  · intro s s' hflat hfree hnext hstep
    exact barStep_rests hmode hflat hfree hnext hsignal hstep
  · intro j candle s s' hflat hpending hstep
    exact barStep_bought hmode hflat hpending hstep
  · intro n symbol maxFibDistancePct scan last hindex hn hlive' hlast hwindow hunfilled hearlier hscan
    have hlength : (history.take n).length = n := by rw [List.length_take, Nat.min_eq_left hn]
    have hsplit : history = history.take n ++ history.drop n := (List.take_append_drop n history).symm
    have hincreasing : ((history.take n ++ history.drop n).map Candle.openTimeMs).Pairwise (· < ·) := by
      rw [← hsplit]
      exact hcontiguous.increasing
    have hcontext' : buildHourlyContext (history.take n ++ history.drop n) candles1h = .ok context := by
      rw [← hsplit, hcontext]
    have hrun : inputsOf (history.take n ++ history.drop n) context config = inputsOf history context config := by
      rw [← hsplit]
    refine reports_signal hmode htol hwait hlookback hincreasing hcontext' hlast hwindow hpos
      ((List.getElem?_take_of_lt hindex).trans hbar) hlow (by rw [hrun, hsignal]) (by rw [hlength]; exact hlive') ?_ ?_ hscan
    · rw [hrun]
      exact hunfilled
    · rw [hrun, hlength]
      intro i c level hi hlt hlive'' hc hat
      rw [List.getElem?_take_of_lt (hlt.trans hindex)] at hc
      exact hearlier i c level hi hlt hlive'' hc hat
  · intro j createdAtMs hfrom hto
    rw [demoIntentExpiry_isOk, htime]
    unfold scannerIntervalMs at *
    change _ < _ + config.secondPullbackWaitBars * _ ↔ j < index + config.secondPullbackWaitBars
    omega
  · intro intent createdAtMs hsignalTime hwaitBars
    rw [OrderIntentFields.validate_createdAtMs intent.valid, hsignalTime, hwaitBars, htime, add_mul, add_assoc]
  · intro n symbol maxFibDistancePct scan hn hscan hready hreported
    obtain ⟨-, hlast⟩ := hlive n symbol maxFibDistancePct scan hn hscan hready hreported
    rw [hreported, demoIntentExpiry_isOk, htime]
    unfold scannerIntervalMs
    change _ < _ + config.secondPullbackWaitBars * _ ↔ (n : ℤ) ≠ index + config.secondPullbackWaitBars
    omega

omit [Eastern] in
/-- The life of the retest. -/
theorem signal_lifetime_demo :
    let _ := mondayTime
    let _ := zeroSha256
    SignalLifetime retest [] (inputsOf retest (noHoursContext retest) (pullbackConfig 8)) 8 (monday + 555 * 60000) 3
      (morningBar 3 107 107.5 105 107) 106.18 := by
  intro zone digests
  refine signal_lifetime rfl (by decide +kernel) (by decide) (by decide) ?_ rfl (by decide) rfl (by decide +kernel)
    (by decide +kernel)
  rintro (_ | _ | _ | _ | k) candle hcandle
  all_goals cases hcandle
  all_goals rfl

omit [Eastern] in
/-- **A scan that reports a signal when its last candle closes is refused as expired**, while the order of the signal
may still fill on the next bar. -/
theorem ready_scan_refused :
    let _ := mondayTime
    ∃ scan, scanEntry "BTC-USDT-SWAP" retest [] (pullbackConfig 1) 8 0.01 = .ok scan ∧
      scan.decisionCode = .secondPullbackLimitReady ∧ scan.signalTimeMs = some (monday + 600 * 60000) ∧
      demoIntentExpiry 1 scan.signalTimeMs (monday + 615 * 60000) =
        .error ⟨"source signal is expired at the exclusive scanner lifecycle boundary"⟩ ∧
      (tradesOf (pullbackConfig 1) (retest ++ [morningBar 4 107 108 106 107])).map List.length = .ok 1 := by
  intro zone
  obtain ⟨scan, hscan⟩ := exists_eq_ok_of_isOk
    (show (scanEntry "BTC-USDT-SWAP" retest [] (pullbackConfig 1) 8 0.01).isOk = true by decide +kernel)
  have hresult : (scanEntry "BTC-USDT-SWAP" retest [] (pullbackConfig 1) 8 0.01).map
      (fun scan => (scan.decisionCode, scan.signalTimeMs)) =
      .ok (.secondPullbackLimitReady, some (monday + 600 * 60000)) := by
    decide +kernel
  rw [hscan] at hresult
  obtain ⟨hready, htime⟩ := Prod.mk.inj (Except.ok.inj hresult)
  refine ⟨scan, hscan, hready, htime, ?_, by decide +kernel⟩
  rw [htime]
  decide +kernel

end MuStrategy.Entry
