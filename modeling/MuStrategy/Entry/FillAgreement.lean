import MuStrategy.Entry.SignalLifetime

/-!
# The scanner and the walk agree on fills

The scanner decides with one loop whether bars have filled the order of a signal. The walk decides it
bar by bar: the tolerance, the window, the limit.

* `pendingFillPrice`, `pendingStep_eq` — the price at which a bar fills an order, and what the walk does with it.
* `FillsAt`, `FillsOrder` — the walk fills the order on a bar, on some bar.
* `walkFrom_quiet` — while no bar fills the order, the walk carries it along.
* `fill_predicate_agreement` — the two decisions are one; a reported order is alive at the next bar.
-/

namespace MuStrategy.Entry

open Lib TrustedData Strategy Backtest

variable {F : Type} [Number F] [Eastern]

/-! ## One bar -/

/-- The price at which a bar fills an order that has not expired. Source: `backtest.py` `run_backtest`, the branch
of `pending_entry` up to `entry_price`. -/
def pendingFillPrice (run : Inputs F) (pending : PendingEntry F) (candle : Candle F) :
    Except StrategyError (Option F) := do
  if candle.low ≤ pending.fibLevel * (1 + run.config.fibTolerancePct) then
    if !(← isPreferredUsCashWindow candle.openTimeMs run.config) then pure none
    else pure (buyLimitFillPrice candle pending.fibLevel)
  else pure none

/-- What the walk does on a bar that fills an order at a price. -/
def fillBar (run : Inputs F) (candle : Candle F) (price : F) (s : BacktestState F) :
    Except StrategyError (BacktestState F) := do
  let s ← enter run candle price s
  pure (s.recordClose candle)

variable {run : Inputs F} {s t : BacktestState F} {candle : Candle F} {pending : PendingEntry F} {index first j : ℕ}

/-- The bar of an order is entered at the price of the order, or passes. -/
theorem pendingStep_eq : pendingStep run pending candle s = (pendingFillPrice run pending candle >>= fun price =>
    match price with
    | none => pure (s.recordClose candle)
    | some price => fillBar run candle price s) := by
  unfold pendingStep pendingFillPrice
  by_cases hnear : candle.low ≤ pending.fibLevel * (1 + run.config.fibTolerancePct)
  · rw [if_pos hnear, if_pos hnear]
    cases isPreferredUsCashWindow candle.openTimeMs run.config with
    | error e => rfl
    | ok inWindow =>
        cases inWindow with
        | false => rfl
        | true =>
            rw [ok_bind, ok_bind, Bool.not_true, if_neg Bool.false_ne_true, if_neg Bool.false_ne_true]
            cases buyLimitFillPrice candle pending.fibLevel <;> rfl
  · rw [if_neg hnear, if_neg hnear]
    rfl

/-- A bar in a trading window at the limit or below fills the order. -/
lemma pendingFillPrice_of_fills [LawfulNumber F] (htol : 0 ≤ run.config.fibTolerancePct) (hfib : 0 < pending.fibLevel)
    (h : Fills run pending.fibLevel candle) : ∃ price, pendingFillPrice run pending candle = .ok (some price) := by
  have hnear := LawfulNumber.le_trans h.2 (LawfulNumber.le_mul_one_add hfib htol)
  obtain ⟨price, hprice⟩ : ∃ price, buyLimitFillPrice candle pending.fibLevel = some price := by
    rw [buyLimitFillPrice, if_neg (LawfulNumber.not_lt_of_le h.2)]
    split <;> exact ⟨_, rfl⟩
  refine ⟨price, ?_⟩
  rw [pendingFillPrice, if_pos hnear, h.1, ok_bind, Bool.not_true, if_neg Bool.false_ne_true, hprice]
  rfl

/-- A bar that fills the order lies in a trading window, at the limit or below. -/
lemma fills_of_pendingFillPrice [Lib.Comparable F] {price : F} (hfib : 0 < pending.fibLevel)
    (h : pendingFillPrice run pending candle = .ok (some price)) : Fills run pending.fibLevel candle := by
  unfold pendingFillPrice at h
  split at h
  · rename_i hnear
    obtain ⟨inWindow, hwindow, h⟩ := bind_eq_ok.mp h
    cases inWindow with
    | false => cases h
    | true =>
        rw [Bool.not_true, if_neg Bool.false_ne_true, pure_eq_ok_iff, buyLimitFillPrice] at h
        split at h
        · cases h
        · rename_i habove
          refine ⟨hwindow, Lib.Comparable.le_of_not_lt ?_ (Lib.Comparable.self_left hnear) habove⟩
          exact Lib.Comparable.self_right (Lib.Comparable.le_of_lt hfib)
  · cases h

/-! ## The walk -/

/-- The state when the walk reaches a bar, from a state at the bar `first`. -/
def walkFrom (run : Inputs F) (s : BacktestState F) (first index : ℕ) : Except StrategyError (BacktestState F) :=
  ((run.candles.take index).zipIdx.drop first).foldlM (barStep run) s

omit [Number F] [Eastern] in
/-- The bars up to the one after a bar. -/
lemma bars_succ {candles : List (Candle F)} (hfirst : first ≤ index) (hcandle : candles[index]? = some candle) :
    (candles.take (index + 1)).zipIdx.drop first = (candles.take index).zipIdx.drop first ++ [(candle, index)] := by
  obtain ⟨hlt, rfl⟩ := List.getElem?_eq_some_iff.mp hcandle
  have hlength : (candles.take index).length = index := List.length_take_of_le hlt.le
  rw [← List.take_append_getElem hlt, List.zipIdx_append, List.drop_append_of_le_length, hlength]
  · simp
  · rwa [List.length_zipIdx, hlength]

lemma walkFrom_self : walkFrom run s first first = .ok s := by
  have hnone : (run.candles.take first).zipIdx.drop first = [] := by
    rw [List.drop_eq_nil_iff, List.length_zipIdx, List.length_take]
    omega
  rw [walkFrom, hnone]
  rfl

lemma walkFrom_succ (hfirst : first ≤ index) (hcandle : run.candles[index]? = some candle)
    (hwalk : walkFrom run s first index = .ok t) :
    walkFrom run s first (index + 1) = barStep run t (candle, index) := by
  rw [walkFrom] at hwalk ⊢
  rw [bars_succ hfirst hcandle, List.foldlM_append, hwalk, ok_bind, List.foldlM_cons]
  simp

/-- The walk fills an order on a bar that it reaches with nothing else open. -/
structure FillsAt (run : Inputs F) (pending : PendingEntry F) (s : BacktestState F) (first j : ℕ) (t : BacktestState F)
    (candle : Candle F) (price : F) : Prop where
  bar : first ≤ j ∧ run.candles[j]? = some candle
  reached : walkFrom run s first j = .ok t
  flat : t.position = none
  waits : t.pendingEntry = some pending
  live : (j : ℤ) ≤ pending.expiresIndex
  fills : pendingFillPrice run pending candle = .ok (some price)
  step : barStep run t (candle, j) = fillBar run candle price t

/-- The walk fills an order on some bar up to the last one. -/
def FillsOrder (run : Inputs F) (pending : PendingEntry F) (s : BacktestState F) (first : ℕ) : Prop :=
  ∃ j t candle price, FillsAt run pending s first j t candle price

/-- The bar of an order that has not expired, with nothing else open. -/
lemma barStep_pending (hmode : run.config.entryExecution = .secondPullback) (hflat : s.position = none)
    (hpending : s.pendingEntry = some pending) (hlive : (index : ℤ) ≤ pending.expiresIndex) :
    barStep run s (candle, index) = pendingStep run pending candle s := by
  simp only [barStep, hflat, flatStep, restingEntry, hmode, if_true, hpending]
  rw [if_neg (by omega)]

/-- While no bar fills the order, the walk carries it along. -/
theorem walkFrom_quiet [Lib.Comparable F] (hmode : run.config.entryExecution = .secondPullback)
    (hfib : 0 < pending.fibLevel) (hflat : s.position = none) (hpending : s.pendingEntry = some pending)
    (hindex : first ≤ index) (hlength : index ≤ run.candles.length) (hlive : (index : ℤ) ≤ pending.expiresIndex + 1)
    (hwindows : ∀ k c, first ≤ k → k < index → run.candles[k]? = some c →
      ∃ inWindow, isPreferredUsCashWindow c.openTimeMs run.config = .ok inWindow)
    (hquiet : ∀ k c, first ≤ k → k < index → run.candles[k]? = some c → ¬Fills run pending.fibLevel c) :
    ∃ t, walkFrom run s first index = .ok t ∧ t.position = none ∧ t.pendingEntry = some pending := by
  induction index, hindex using Nat.le_induction with
  | base => exact ⟨s, walkFrom_self, hflat, hpending⟩
  | succ k hk ih =>
      obtain ⟨t, hwalk, htflat, htpending⟩ := ih (by omega) (by omega)
        (fun j c hj hlt => hwindows j c hj (by omega)) fun j c hj hlt => hquiet j c hj (by omega)
      obtain ⟨candle, hcandle⟩ : ∃ c, run.candles[k]? = some c := ⟨_, List.getElem?_eq_getElem (by omega)⟩
      obtain ⟨inWindow, hwindow⟩ := hwindows k candle hk (by omega) hcandle
      have hnone : pendingFillPrice run pending candle = .ok none := by
        have hprice : ∃ price, pendingFillPrice run pending candle = .ok price := by
          unfold pendingFillPrice
          rw [hwindow, ok_bind]
          cases inWindow <;> split <;> exact ⟨_, rfl⟩
        obtain ⟨price, hprice⟩ := hprice
        cases price with
        | none => exact hprice
        | some price =>
            exact absurd (fills_of_pendingFillPrice hfib hprice) (hquiet k candle hk (by omega) hcandle)
      refine ⟨t.recordClose candle, ?_, htflat, htpending⟩
      rw [walkFrom_succ hk hcandle hwalk, barStep_pending hmode htflat htpending (by omega), pendingStep_eq, hnone]
      rfl

/-! ## The scanner -/

/-- The window check of every bar up to the first fill returned. -/
lemma window_of_filledBetween {scan : ScanInputs F} {fibLevel : F} {last : ℕ} {filled : Bool}
    (h : filledBetween scan fibLevel first last = .ok filled) {k : ℕ} (hfirst : first ≤ k) (hlast : k ≤ last)
    (hcandle : scan.candles[k]? = some candle)
    (hquiet : ∀ i c, first ≤ i → i < k → scan.candles[i]? = some c →
      ¬(isPreferredUsCashWindow c.openTimeMs scan.config = .ok true ∧ c.low ≤ fibLevel)) :
    ∃ inWindow, isPreferredUsCashWindow candle.openTimeMs scan.config = .ok inWindow := by
  have hloop : ∀ (before after : List (Candle F)), (before ++ candle :: after).foldlM (fun filled candle =>
      if filled then pure true
      else do
        if !(← isPreferredUsCashWindow candle.openTimeMs scan.config) then pure false
        else pure (decide (candle.low ≤ fibLevel))) false = .ok filled →
      (∀ c ∈ before, ¬(isPreferredUsCashWindow c.openTimeMs scan.config = .ok true ∧ c.low ≤ fibLevel)) →
      ∃ inWindow, isPreferredUsCashWindow candle.openTimeMs scan.config = .ok inWindow := by
    intro before
    induction before with
    | nil =>
        intro after h _
        rw [List.nil_append, List.foldlM_cons, bind_eq_ok] at h
        obtain ⟨x, hx, -⟩ := h
        obtain ⟨inWindow, hwindow, -⟩ := bind_eq_ok.mp hx
        exact ⟨inWindow, hwindow⟩
    | cons c before ih =>
        intro after h hbefore
        rw [List.cons_append, List.foldlM_cons, bind_eq_ok] at h
        obtain ⟨x, hx, h⟩ := h
        obtain ⟨inWindow, hwindow, hx⟩ := bind_eq_ok.mp hx
        have hfalse : x = false := by
          cases inWindow with
          | false =>
              cases hx
              rfl
          | true =>
              rw [Bool.not_true, if_neg Bool.false_ne_true, pure_eq_ok_iff] at hx
              rw [← hx, decide_eq_false]
              exact fun hlow => hbefore c List.mem_cons_self ⟨hwindow, hlow⟩
        rw [hfalse] at h
        exact ih after h fun c' hc' => hbefore c' (List.mem_cons_of_mem _ hc')
  have hget : ((scan.candles.take (last + 1)).drop first)[k - first]? = some candle := by
    rw [List.getElem?_drop, Nat.add_sub_cancel' hfirst, List.getElem?_take_of_lt (by omega), hcandle]
  obtain ⟨hlt, hat⟩ := List.getElem?_eq_some_iff.mp hget
  refine hloop (((scan.candles.take (last + 1)).drop first).take (k - first))
    (((scan.candles.take (last + 1)).drop first).drop (k - first + 1)) ?_ fun c hc => ?_
  · rw [← hat, List.getElem_cons_drop, List.take_append_drop]
    exact h
  · obtain ⟨i, hi⟩ := List.mem_iff_getElem?.mp hc
    have hik : i < k - first := by
      by_contra hge
      rw [List.getElem?_eq_none (by rw [List.length_take]; omega)] at hi
      cases hi
    rw [List.getElem?_take_of_lt hik, List.getElem?_drop, List.getElem?_take_of_lt (by omega)] at hi
    exact hquiet (first + i) c (by omega) (by omega) hi

/-! ## Agreement -/

section agreement

variable {candles : List (Candle F)} {context : ℤ → Option String} {config : StrategyConfig F} {fibLevel : F}

/-- A signal is filled for the scanner exactly when the walk fills its order. -/
lemma filled_iff [LawfulNumber F] [Lib.Comparable F] (hmode : config.entryExecution = .secondPullback)
    (htol : 0 ≤ config.fibTolerancePct) (hfib : 0 < fibLevel) (hflat : s.position = none)
    (hpending : s.pendingEntry = some ⟨fibLevel, index + config.secondPullbackWaitBars⟩) {filled : Bool}
    (hscan : secondPullbackSignalAlreadyFilled (scanInputsOf candles context config) index fibLevel = .ok filled) :
    filled = true ↔
      FillsOrder (inputsOf candles context config) ⟨fibLevel, index + config.secondPullbackWaitBars⟩ s (index + 1) := by
  generalize hrun : inputsOf candles context config = run
  generalize horder : (⟨fibLevel, index + config.secondPullbackWaitBars⟩ : PendingEntry F) = pending at *
  have hcandles : run.candles = candles := by rw [← hrun]; rfl
  have hconfig : run.config = config := by rw [← hrun]; rfl
  have hlevel : pending.fibLevel = fibLevel := by rw [← horder]
  have hexpires : pending.expiresIndex = index + config.secondPullbackWaitBars := by rw [← horder]
  have hscan' := hscan
  change (if min ((candles.length : ℤ) - 1) (index + config.secondPullbackWaitBars) < 0 then pure false
    else filledBetween (scanInputsOf candles context config) fibLevel (index + 1)
      (min ((candles.length : ℤ) - 1) (index + config.secondPullbackWaitBars)).toNat) = .ok filled at hscan
  constructor
  · rintro rfl
    have hpast : ¬min ((candles.length : ℤ) - 1) (index + config.secondPullbackWaitBars) < 0 := by
      intro hpast
      rw [if_pos hpast] at hscan
      cases hscan
    rw [if_neg hpast] at hscan
    -- the first bar that fills the order
    have hsome : ∃ j candle, index + 1 ≤ j ∧ candles[j]? = some candle ∧ Fills run fibLevel candle ∧
        j ≤ (min ((candles.length : ℤ) - 1) (index + config.secondPullbackWaitBars)).toNat := by
      obtain ⟨j, candle, hfirst, hlast, hcandle, hwindow, hlow⟩ := exists_of_filledBetween hscan
      exact ⟨j, candle, hfirst, hcandle, ⟨by rw [hconfig]; exact hwindow, hlow⟩, hlast⟩
    classical
    obtain ⟨candle, hfirst, hcandle, hfills, hlast⟩ := Nat.find_spec hsome
    have hbefore := fun k (hk : k < Nat.find hsome) => Nat.find_min hsome hk
    generalize Nat.find hsome = j at hfirst hcandle hlast hbefore
    have hquiet : ∀ k c, index + 1 ≤ k → k < j → candles[k]? = some c → ¬Fills run fibLevel c := by
      intro k c hk hkj hc hfillsk
      exact hbefore k hkj ⟨c, hk, hc, hfillsk, by omega⟩
    obtain ⟨hjlength, -⟩ := List.getElem?_eq_some_iff.mp hcandle
    have hretest : run.config.entryExecution = .secondPullback := by rw [hconfig]; exact hmode
    have hpositive : 0 < pending.fibLevel := by rw [hlevel]; exact hfib
    obtain ⟨t, hwalk, htflat, htpending⟩ := walkFrom_quiet hretest hpositive hflat hpending hfirst
      (by rw [hcandles]; omega) (by rw [hexpires]; omega)
      (fun k c hk hkj hc => by
        rw [hcandles] at hc
        rw [hconfig]
        refine window_of_filledBetween hscan hk (by omega) hc fun i c' hi hik hc' hfillsi => ?_
        exact hquiet i c' hi (by omega) hc' ⟨by rw [hconfig]; exact hfillsi.1, hfillsi.2⟩)
      (fun k c hk hkj hc => by rw [hcandles] at hc; rw [hlevel]; exact hquiet k c hk hkj hc)
    have hlive : (j : ℤ) ≤ pending.expiresIndex := by rw [hexpires]; omega
    have hwithin : 0 ≤ run.config.fibTolerancePct := by rw [hconfig]; exact htol
    have hreaches : Fills run pending.fibLevel candle := by rw [hlevel]; exact hfills
    obtain ⟨price, hprice⟩ := pendingFillPrice_of_fills hwithin hpositive hreaches
    refine ⟨j, t, candle, price, ⟨hfirst, by rw [hcandles]; exact hcandle⟩, hwalk, htflat, htpending, hlive, hprice, ?_⟩
    rw [barStep_pending hretest htflat htpending hlive, pendingStep_eq, hprice]
    rfl
  · rintro ⟨j, t, candle, price, hfills⟩
    have hreached := fills_of_pendingFillPrice (by rw [hlevel]; exact hfib) hfills.fills
    rw [hlevel, ← hrun] at hreached
    have hcandle := hfills.bar.2
    have hlive := hfills.live
    rw [hcandles] at hcandle
    rw [hexpires] at hlive
    exact eq_true_of_fills hscan' hfills.bar.1 hlive hcandle hreached

/-- The signal that a scan returns, with an order of a waiting time no shorter than the lookback, is alive at the
next bar. -/
lemma recentSignal_alive {scan : ScanInputs F} (hmode : scan.config.entryExecution = .secondPullback)
    (hwait : 1 ≤ scan.config.secondPullbackWaitBars) {lookback : ℤ} (hlookback : lookback ≤ scan.config.secondPullbackWaitBars)
    (h : latestRecentSignal scan lookback = .ok (some (candle, fibLevel))) :
    ∃ i : ℕ, scan.candles[i]? = some candle ∧ signalAllowed scan candle i = .ok (some fibLevel) ∧
      (scan.candles.length : ℤ) ≤ i + scan.config.secondPullbackWaitBars := by
  obtain ⟨i, hmem, hsignal, -, -⟩ := scanSignals_some hmode (lookback_sorted _ _) h
  have hstart : lookbackStart scan.candles.length lookback = lookbackStart scan.candles.length (max 1 lookback) := by
    unfold lookbackStart
    omega
  rw [hstart, mem_lookback (le_max_left 1 lookback)] at hmem
  exact ⟨i, hmem.1, hsignal, by omega⟩

/-- **The scanner and the walk agree on fills**, and a signal that is returned is alive at the next bar when the
waiting time is at least one bar. -/
theorem fill_predicate_agreement [LawfulNumber F] [Lib.Comparable F] (hmode : config.entryExecution = .secondPullback)
    (htol : 0 ≤ config.fibTolerancePct) :
    (∀ (index : ℕ) (fibLevel : F) (s : BacktestState F) (filled : Bool), 0 < fibLevel → s.position = none →
      s.pendingEntry = some ⟨fibLevel, index + config.secondPullbackWaitBars⟩ →
      secondPullbackSignalAlreadyFilled (scanInputsOf candles context config) index fibLevel = .ok filled →
      (filled = true ↔ FillsOrder (inputsOf candles context config)
        ⟨fibLevel, index + config.secondPullbackWaitBars⟩ s (index + 1))) ∧
    ∀ lookback ≤ config.secondPullbackWaitBars, 1 ≤ config.secondPullbackWaitBars → ∀ (candle : Candle F) (fibLevel : F),
      latestRecentSignal (scanInputsOf candles context config) lookback = .ok (some (candle, fibLevel)) →
      ∃ i : ℕ, candles[i]? = some candle ∧
        signalAllowed (scanInputsOf candles context config) candle i = .ok (some fibLevel) ∧
        (candles.length : ℤ) ≤ i + config.secondPullbackWaitBars :=
  ⟨fun _ _ _ _ hfib hflat hpending hscan => filled_iff hmode htol hfib hflat hpending hscan,
    fun _ hlookback hwait _ _ h => @recentSignal_alive F _ _ _ _ (scanInputsOf candles context config) hmode hwait _ hlookback h⟩

end agreement

/-! ## The retest -/

/-- A bar that comes down to the level of the retest. -/
def pullbackBar : Candle ℚ := morningBar 4 107 107.5 105 107

omit [Eastern] in
/-- The order of the retest is filled by the bar after it, as the scanner says. -/
theorem fill_predicate_agreement_demo :
    let _ := mondayTime
    let order : PendingEntry ℚ := ⟨106.18, 3 + 8⟩
    let s : BacktestState ℚ := { startState pullbackBar 1000 with pendingEntry := some order }
    FillsOrder (inputsOf (retest ++ [pullbackBar]) (fun _ => none) (pullbackConfig 8)) order s (3 + 1) := by
  intro zone order s
  have hagree := (@fill_predicate_agreement ℚ _ _ (retest ++ [pullbackBar]) (fun _ => none) (pullbackConfig 8) _ _ rfl
    (by decide +kernel)).1 3 106.18 s true (by norm_num) rfl rfl (by decide +kernel)
  exact hagree.mp rfl

omit [Eastern] in
/-- **An order that waits for no bar** is returned by a scan of the last bar, and has expired at the next one. -/
theorem expired_signal_returned :
    let _ := mondayTime
    let scan := scanInputsOf retest (fun _ => none) (pullbackConfig 0)
    latestRecentSignal scan 0 = .ok (some (morningBar 3 107 107.5 105 107, 106.18)) ∧
      retest[3]? = some (morningBar 3 107 107.5 105 107) ∧
      (3 : ℤ) + scan.config.secondPullbackWaitBars < retest.length := by
  intro zone scan
  exact ⟨by decide +kernel, rfl, by decide⟩

end MuStrategy.Entry
