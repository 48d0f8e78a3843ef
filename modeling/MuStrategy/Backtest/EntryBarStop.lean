import MuStrategy.Backtest.Structure

/-!
# The stop on the bar of an entry

An entry is checked against its initial stop on its own bar, with the gap rule of a position held over the open: a
stop above the open sells at the open. A position bought above the open did not exist then.

* `Enters`, `EntryOf` — the entries of a step and of a run.
* `enter_cases`, `barStep_cases` — what a step adds to the trades.
* `StopsAtStop`, `NoGap` — the stops of entries inside their bar sell at the stop; no bar gaps below one.
* `stopsAtStop_iff` — the first holds exactly if the second does; `gapMorning_sells_at_open` — a run where both fail.
-/

namespace MuStrategy.Backtest

open Lib TrustedData Strategy

variable {F : Type} [Number F]

/-! ## Entries -/

section entries

variable [Eastern]

/-- The step on the bar at `index` buys on `bar` at `price`: a resting order on its own bar, or a signal on the next.
Source: `backtest.py` `run_backtest`, its two entry branches. -/
inductive Enters (run : Inputs F) (s : BacktestState F) (index : ℕ) (candle : Candle F) : Candle F → F → Prop
  | resting {pending : PendingEntry F} {price : F} : restingEntry run s = some pending →
      ¬pending.expiresIndex < index → candle.low ≤ pending.fibLevel * (1 + run.config.fibTolerancePct) →
      isPreferredUsCashWindow candle.openTimeMs run.config = .ok true →
      buyLimitFillPrice candle pending.fibLevel = some price → Enters run s index candle candle price
  | signal {next : Candle F} {fibLevel price : F} {execution : EntryExecution F} :
      run.candles[index + 1]? = some next → signalAt run index candle = .ok (some fibLevel) →
      run.config.entryExecution ≠ .secondPullback →
      shouldExecuteEntry run.candles index next fibLevel (run.regimeAt candle) run.config = .ok execution →
      execution.allowed = true → execution.entryPrice = some price →
      isPreferredUsCashWindow next.openTimeMs run.config = .ok true → Enters run s index candle next price

/-- The stop of a position bought at a price. Source: `backtest.py` `run_backtest`, `stop_price`. -/
def entryStop (config : StrategyConfig F) (price : F) : F := price * (1 - config.initialStopPct)

variable {run : Inputs F} {s s' : BacktestState F} {index : ℕ} {candle bar : Candle F} {price : F}

/-- The trades of a step: those before, and at most one that no initial stop closed. -/
def NoEntryStop (s s' : BacktestState F) : Prop :=
  s'.trades = s.trades ∨ ∃ trade, s'.trades = s.trades ++ [trade] ∧ trade.exitReason ≠ .initialStop

/-- A risk check with another reason closes nothing by the initial stop. -/
lemma riskExit_reason {position : OpenPosition F} {reason reason' : ExitReason} {exitPrice : F}
    (h : riskExit run candle position reason = .ok (some (exitPrice, reason'))) :
    reason' = .nonSessionLiquidationRisk ∨
      reason' = reason ∧ candle.low ≤ position.stopPrice ∧
        exitPrice = (sellStopFillPrice candle position.stopPrice).getD position.stopPrice := by
  obtain ⟨risky, -, h⟩ := bind_eq_ok.mp h
  split at h
  · obtain ⟨threshold, -, h⟩ := bind_eq_ok.mp h
    cases h
    exact Or.inl rfl
  · split at h
    · rename_i hreached
      cases h
      exact Or.inr ⟨rfl, hreached, rfl⟩
    · cases h

/-- An entry is kept, or closed on its bar: by the initial stop only if the bar reaches it, at the price of the
stop helper. -/
lemma enter_cases (h : enter run bar price s = .ok s') : NoEntryStop s s' ∨
    ∃ trade, s'.trades = s.trades ++ [trade] ∧ trade.exitReason = .initialStop ∧
      bar.low ≤ entryStop run.config price ∧
      trade.exitPrice = (sellStopFillPrice bar (entryStop run.config price)).getD (entryStop run.config price) := by
  obtain ⟨fill, position, value, settled, -, -, -, -, -, -, hstop, hexit⟩ := enter_eq_ok h
  obtain ⟨decision, hdecision, hexit⟩ := bind_eq_ok.mp hexit
  rcases decision with _ | ⟨exitPrice, reason⟩
  · cases hexit
    exact Or.inl (Or.inl rfl)
  · cases hexit
    rcases riskExit_reason hdecision with rfl | ⟨rfl, hreached, rfl⟩
    · exact Or.inl (Or.inr ⟨_, rfl, by rintro ⟨⟩⟩)
    · have hstop : position.stopPrice = entryStop run.config price := hstop
      rw [hstop] at hreached
      exact Or.inr ⟨_, rfl, rfl, hreached, by rw [← hstop]⟩

/-- An entry in a window whose bar reaches the stop is closed by it. -/
lemma enter_stopped (h : enter run bar price s = .ok s')
    (hwindow : isPreferredUsCashWindow bar.openTimeMs run.config = .ok true)
    (hreached : bar.low ≤ entryStop run.config price) :
    ∃ trade, s'.trades = s.trades ++ [trade] ∧ trade.exitReason = .initialStop := by
  obtain ⟨fill, position, value, settled, -, -, -, -, -, -, hstop, hexit⟩ := enter_eq_ok h
  have hdecision : riskExit run bar position .initialStop =
      .ok (some ((sellStopFillPrice bar position.stopPrice).getD position.stopPrice, .initialStop)) := by
    have hreached : bar.low ≤ position.stopPrice := by rwa [hstop]
    simp only [riskExit, hasNonSessionLiquidationRisk, hwindow, ok_bind, if_true, pure_bind, Bool.false_eq_true,
      if_false, if_pos hreached]
    rfl
  rw [exitOnRisk, hdecision] at hexit
  cases hexit
  exact ⟨_, rfl, rfl⟩

/-- Entries are bought in a window. -/
lemma Enters.window (h : Enters run s index candle bar price) :
    isPreferredUsCashWindow bar.openTimeMs run.config = .ok true := by
  cases h with
  | resting _ _ _ hwindow _ => exact hwindow
  | signal _ _ _ _ _ _ hwindow => exact hwindow

/-- The step buys what `Enters` says. -/
lemma enter_of_enters (hflat : s.position = none) (hentry : Enters run s index candle bar price)
    (h : barStep run s (candle, index) = .ok s') :
    ∃ t t', t.trades = s.trades ∧ enter run bar price t = .ok t' ∧ s'.trades = t'.trades ∧
      s'.position = t'.position := by
  simp only [barStep, hflat] at h
  cases hentry with
  | resting hresting hlive hlow hwindow hprice =>
      simp only [flatStep, hresting, hlive, if_false, pendingStep, hlow, if_true, hwindow, ok_bind, Bool.not_true,
        Bool.false_eq_true, hprice] at h
      obtain ⟨t, henter, h⟩ := bind_eq_ok.mp h
      cases h
      exact ⟨s, t, rfl, henter, rfl, rfl⟩
  | signal hnext hsignal hmode hexecution hallowed hprice hwindow =>
      simp only [flatStep, restingEntry, hmode, if_false, signalStep, hnext, hsignal, ok_bind, hexecution, hallowed,
        if_true, hprice, hwindow, Bool.not_true, Bool.false_eq_true] at h
      exact ⟨s.recordClose candle, s', rfl, h, rfl, rfl⟩

/-- A signal step trades nothing, or enters on the next bar. -/
lemma signalStep_cases (h : signalStep run index candle s = .ok s') :
    s'.trades = s.trades ∧ s'.position = s.position ∨ ∃ bar price, Enters run s index candle bar price := by
  unfold signalStep at h
  split at h
  · cases h
    exact Or.inl ⟨rfl, rfl⟩
  · rename_i next hnext
    obtain ⟨signal, hsignal, h⟩ := bind_eq_ok.mp h
    cases signal with
    | none =>
        cases h
        exact Or.inl ⟨rfl, rfl⟩
    | some fibLevel =>
        simp only at h
        split at h
        · cases h
          exact Or.inl ⟨rfl, rfl⟩
        · rename_i hmode
          obtain ⟨execution, hexecution, h⟩ := bind_eq_ok.mp h
          split at h
          · cases h
            exact Or.inl ⟨rfl, rfl⟩
          · rename_i price hprice
            obtain ⟨inWindow, hwindow, h⟩ := bind_eq_ok.mp h
            split at hprice
            · rename_i hallowed
              split at h
              · cases h
                exact Or.inl ⟨rfl, rfl⟩
              · rename_i hinside
                simp only [Bool.not_eq_true, Bool.not_eq_false'] at hinside
                subst hinside
                exact Or.inr ⟨next, price, .signal hnext hsignal hmode hexecution hallowed hprice hwindow⟩
            · cases hprice

lemma pendingStep_cases {pending : PendingEntry F} (hresting : restingEntry run s = some pending)
    (hlive : ¬pending.expiresIndex < index) (h : pendingStep run pending candle s = .ok s') :
    s'.trades = s.trades ∧ s'.position = s.position ∨ ∃ bar price, Enters run s index candle bar price := by
  unfold pendingStep at h
  split at h
  · rename_i hlow
    obtain ⟨inWindow, hwindow, h⟩ := bind_eq_ok.mp h
    split at h
    · cases h
      exact Or.inl ⟨rfl, rfl⟩
    · rename_i hinside
      simp only [Bool.not_eq_true, Bool.not_eq_false'] at hinside
      subst hinside
      split at h
      · cases h
        exact Or.inl ⟨rfl, rfl⟩
      · rename_i price hprice
        exact Or.inr ⟨candle, price, .resting hresting hlive hlow hwindow hprice⟩
  · cases h
    exact Or.inl ⟨rfl, rfl⟩

/-- The management of a position adds no trade. -/
lemma manageStep_trades {position : OpenPosition F} (h : manageStep run index candle position s = .ok s') :
    s'.trades = s.trades := by
  obtain ⟨added, -, h⟩ := bind_eq_ok.mp h
  obtain ⟨tightened, -, h⟩ := bind_eq_ok.mp h
  obtain ⟨planned, -, h⟩ := bind_eq_ok.mp h
  cases h
  change (if position.fills.length < added.fills.length then
    ({ s with position := some added } : BacktestState F).sample candle.openTimeMs added.lastFill.price
    else { s with position := some added }).trades = s.trades
  split <;> rfl

/-- A held position is not closed by the initial stop. -/
lemma heldStep_cases {position : OpenPosition F} (h : heldStep run index candle position s = .ok s') :
    NoEntryStop s s' := by
  unfold heldStep at h
  split at h
  · exact Or.inl (manageStep_trades h)
  · obtain ⟨⟨settled, t⟩, hexit, hrest⟩ := bind_eq_ok.mp h
    obtain ⟨decision, hdecision, hexit⟩ := bind_eq_ok.mp hexit
    rcases decision with _ | ⟨exitPrice, reason⟩
    · cases hexit
      exact Or.inl (manageStep_trades hrest)
    · cases hexit
      cases hrest
      refine Or.inr ⟨_, rfl, ?_⟩
      rcases riskExit_reason hdecision with rfl | ⟨rfl, -, -⟩
      · rintro ⟨⟩
      · rintro ⟨⟩

/-- A bar with nothing open trades nothing, or enters. -/
lemma flatStep_cases (h : flatStep run index candle s = .ok s') :
    s'.trades = s.trades ∧ s'.position = s.position ∨ ∃ bar price, Enters run s index candle bar price := by
  unfold flatStep at h
  split at h
  · exact signalStep_cases h
  · rename_i pending hresting
    split at h
    · -- the order expired: in its mode, a signal buys nothing
      rcases signalStep_cases h with hsame | ⟨bar, price, hentry⟩
      · exact Or.inl hsame
      · unfold restingEntry at hresting
        split at hresting
        · rename_i hmode
          cases hentry with
          | resting hnone =>
              simp only [restingEntry, hmode, if_true] at hnone
              cases hnone
          | signal _ _ hother => exact absurd hmode hother
        · cases hresting
    · rename_i hlive
      exact pendingStep_cases hresting hlive h

/-- **A trade that the initial stop closed was entered in the step that closed it.** -/
theorem barStep_cases (h : barStep run s (candle, index) = .ok s') : NoEntryStop s s' ∨
    s.position = none ∧ ∃ bar price, Enters run s index candle bar price := by
  unfold barStep at h
  split at h
  · rename_i hflat
    exact (flatStep_cases h).imp (fun hsame => Or.inl hsame.1) fun hentry => ⟨hflat, hentry⟩
  · exact Or.inl (heldStep_cases h)

/-! ## Whole runs -/

variable {candles : List (Candle F)} {context : ℤ → Option String} {config : StrategyConfig F} {startingEquity : F}
  {result : BacktestResult F}

/-- The backtest reaches the bar at `index` with nothing open, and its step buys on `bar` at `price`. -/
structure EntryOf (candles : List (Candle F)) (context : ℤ → Option String) (config : StrategyConfig F)
    (startingEquity : F) (index : ℕ) (s : BacktestState F) (candle bar : Candle F) (price : F) : Prop where
  long : 4 ≤ candles.length
  walked : 1 ≤ index
  current : candles[index]? = some candle
  reached : ∀ first, candles.head? = some first →
    reached (inputsOf candles context config) (startState first startingEquity) index = .ok s
  flat : s.position = none
  enters : Enters (inputsOf candles context config) s index candle bar price

/-- A trade that the step of an entry on `bar` at `price` closed by the initial stop. -/
def StoppedOnEntry (candles : List (Candle F)) (context : ℤ → Option String) (config : StrategyConfig F)
    (startingEquity : F) (trade : Trade F) (bar : Candle F) (price : F) : Prop :=
  ∃ index s s' candle, EntryOf candles context config startingEquity index s candle bar price ∧
    barStep (inputsOf candles context config) s (candle, index) = .ok s' ∧ s'.trades = s.trades ++ [trade] ∧
    trade.exitReason = .initialStop

/-- Positions bought above the open of their bar, and stopped out on it, are closed at their stop. -/
def StopsAtStop (candles : List (Candle F)) (context : ℤ → Option String) (config : StrategyConfig F)
    (startingEquity : F) (result : BacktestResult F) : Prop :=
  ∀ trade ∈ result.trades, ∀ bar price, StoppedOnEntry candles context config startingEquity trade bar price →
    bar.openPrice < price → trade.exitPrice = entryStop config price

/-- No entry above the open of its bar has its stop above that open, on a bar that reaches the stop. -/
def NoGap (candles : List (Candle F)) (context : ℤ → Option String) (config : StrategyConfig F)
    (startingEquity : F) : Prop :=
  ∀ index s candle bar price, EntryOf candles context config startingEquity index s candle bar price →
    bar.openPrice < price → bar.low ≤ entryStop config price → ¬bar.openPrice < entryStop config price

/-- A walk that goes on reached the bars before, and moved the books from there. -/
lemma reached_moves {start : BacktestState F} {i j : ℕ} (hpos : 1 ≤ i) (hle : i ≤ j) (hj : j ≤ run.candles.length)
    (h : reached run start j = .ok s') :
    ∃ s, reached run start i = .ok s ∧ Moves run.config (fun _ => True) s.books s'.books := by
  induction j, hle using Nat.le_induction generalizing s' with
  | base => exact ⟨s', h, .refl⟩
  | succ k hk ih =>
      obtain ⟨candle, hcandle⟩ : ∃ c, run.candles[k]? = some c := ⟨_, List.getElem?_eq_getElem (by omega)⟩
      obtain ⟨t, ht, hstep⟩ := (reached_succ (by omega) hcandle).mp h
      obtain ⟨s, hs, hmoves⟩ := ih (by omega) ht
      exact ⟨s, hs, hmoves.trans ((barStep_moves hstep).mono fun _ _ => trivial)⟩

/-- The trades of the bars before stay. -/
lemma reached_of_le {start : BacktestState F} {i j : ℕ} (hpos : 1 ≤ i) (hle : i ≤ j) (hj : j ≤ run.candles.length)
    (h : reached run start j = .ok s') :
    ∃ s, reached run start i = .ok s ∧ ∀ trade ∈ s.trades, trade ∈ s'.trades := by
  obtain ⟨s, hs, hmoves⟩ := reached_moves hpos hle hj h
  refine ⟨s, hs, fun trade htrade => hmoves.invariant (I := fun b => trade ∈ b.trades) ?_ htrade⟩
  rintro c b b' - (_ | _ | _) hb
  · exact hb
  · exact hb
  · exact List.mem_append_left _ hb

/-- The trades of the walk are trades of the result. -/
lemma trades_of_walk (hrun : runBacktest candles context config startingEquity = .ok result)
    {candle : Candle F} (h : EntryOf candles context config startingEquity index s candle bar price) :
    ∃ s', barStep (inputsOf candles context config) s (candle, index) = .ok s' ∧
      ∀ trade ∈ s'.trades, trade ∈ result.trades := by
  obtain ⟨first, t, hfirst, hwalk, rfl⟩ := runBacktest_eq_ok h.long hrun
  obtain ⟨hlt, -⟩ := List.getElem?_eq_some_iff.mp h.current
  rw [walk_eq_reached] at hwalk
  obtain ⟨s', hs', hsub⟩ := reached_of_le (i := index + 1) (by omega) hlt (le_refl _) hwalk
  obtain ⟨s₀, hs₀, hstep⟩ := (reached_succ h.walked h.current).mp hs'
  rw [h.reached first hfirst] at hs₀
  cases hs₀
  refine ⟨s', hstep, fun trade htrade => ?_⟩
  have hmem := hsub trade htrade
  change trade ∈ (finish (inputsOf candles context config) t).trades
  unfold finish
  split
  · exact List.mem_append_left _ hmem
  · exact hmem

variable [Comparable F]

/-- An entry above the open of its bar that the initial stop closes on it, is closed at the open if that is below the
stop. -/
lemma stoppedOnEntry_price {trade : Trade F}
    (h : StoppedOnEntry candles context config startingEquity trade bar price) :
    bar.low ≤ entryStop config price ∧ trade.exitPrice =
      if bar.openPrice < entryStop config price then bar.openPrice else entryStop config price := by
  obtain ⟨index, s, s', candle, hentry, hstep, htrades, hreason⟩ := h
  obtain ⟨t, t', ht, henter, hs', -⟩ := enter_of_enters hentry.flat hentry.enters hstep
  rcases enter_cases henter with (hsame | ⟨other, hother, hne⟩) | ⟨other, hother, -, hreached, hprice⟩
  · rw [hs', hsame, ht] at htrades
    simp at htrades
  · rw [hs', hother, ht] at htrades
    obtain rfl := List.singleton_injective (List.append_cancel_left htrades)
    exact absurd hreason hne
  · rw [hs', hother, ht] at htrades
    obtain rfl := List.singleton_injective (List.append_cancel_left htrades)
    refine ⟨hreached, hprice.trans ?_⟩
    exact sellStopFillPrice_of_reached hreached

/-- An entry above an open that is below its stop, on a bar that reaches the stop, is closed at that open. -/
lemma not_stopsAtStop_of_gap {candle : Candle F}
    (hrun : runBacktest candles context config startingEquity = .ok result)
    (hentry : EntryOf candles context config startingEquity index s candle bar price) (habove : bar.openPrice < price)
    (hreached : bar.low ≤ entryStop config price) (hgap : bar.openPrice < entryStop config price) :
    ¬StopsAtStop candles context config startingEquity result := by
  intro h
  obtain ⟨s', hstep, hmem⟩ := trades_of_walk hrun hentry
  obtain ⟨t, t', ht, henter, hs', -⟩ := enter_of_enters hentry.flat hentry.enters hstep
  obtain ⟨trade, htrade, hreason⟩ := enter_stopped henter hentry.enters.window hreached
  rw [ht, ← hs'] at htrade
  have hstopped : StoppedOnEntry candles context config startingEquity trade bar price :=
    ⟨index, s, s', candle, hentry, hstep, htrade, hreason⟩
  have hprice := h trade (hmem trade (by rw [htrade]; exact List.mem_append_right _ List.mem_cons_self)) bar price
    hstopped habove
  rw [(stoppedOnEntry_price hstopped).2, if_pos hgap] at hprice
  rw [hprice] at hgap
  exact Comparable.not_lt_of_le (Comparable.le_of_lt hgap) hgap

/-- **Entry-bar stops**: positions bought above the open of their bar and stopped out on it are closed at their stop,
exactly if none of them has its stop above that open. -/
theorem stopsAtStop_iff (hrun : runBacktest candles context config startingEquity = .ok result) :
    StopsAtStop candles context config startingEquity result ↔ NoGap candles context config startingEquity := by
  constructor
  · intro h index s candle bar price hentry habove hreached hgap
    exact not_stopsAtStop_of_gap hrun hentry habove hreached hgap h
  · intro h trade _ bar price hstopped habove
    obtain ⟨hreached, hprice⟩ := stoppedOnEntry_price hstopped
    obtain ⟨index, s, s', candle, hentry, -⟩ := hstopped
    rw [hprice, if_neg (h index s candle bar price hentry habove hreached)]

omit [Comparable F] in
/-- A trade of the walk that the initial stop closed was closed by the step of its entry. -/
lemma stoppedOnEntry_of_reached {first : Candle F} (hlong : 4 ≤ candles.length) (hfirst : candles.head? = some first)
    (hpos : 1 ≤ index) (hindex : index ≤ candles.length)
    (h : reached (inputsOf candles context config) (startState first startingEquity) index = .ok s) {trade : Trade F}
    (htrade : trade ∈ s.trades) (hreason : trade.exitReason = .initialStop) :
    ∃ bar price, StoppedOnEntry candles context config startingEquity trade bar price := by
  induction index, hpos using Nat.le_induction generalizing s with
  | base =>
      rw [reached_one] at h
      cases h
      exact absurd htrade List.not_mem_nil
  | succ i hi ih =>
      obtain ⟨candle, hcandle⟩ : ∃ c, candles[i]? = some c := ⟨_, List.getElem?_eq_getElem (by omega)⟩
      obtain ⟨t, ht, hstep⟩ := (reached_succ hi hcandle).mp h
      have hbefore : trade ∈ t.trades → ∃ bar price, StoppedOnEntry candles context config startingEquity trade bar price :=
        ih (by omega) ht
      rcases barStep_cases hstep with (hsame | ⟨other, hother, hne⟩) | ⟨hflat, bar, price, hentry⟩
      · exact hbefore (hsame ▸ htrade)
      · rw [hother, List.mem_append, List.mem_singleton] at htrade
        rcases htrade with hold | rfl
        · exact hbefore hold
        · exact absurd hreason hne
      · obtain ⟨u, u', hu, henter, hs, -⟩ := enter_of_enters hflat hentry hstep
        rcases enter_cases henter with (hsame | ⟨other, hother, hne⟩) | ⟨other, hother, hstop, -, -⟩
        · exact hbefore (by rwa [hs, hsame, hu] at htrade)
        · rw [hs, hother, hu, List.mem_append, List.mem_singleton] at htrade
          rcases htrade with hold | rfl
          · exact hbefore hold
          · exact absurd hreason hne
        · rw [hs, hother, hu, List.mem_append, List.mem_singleton] at htrade
          rcases htrade with hold | rfl
          · exact hbefore hold
          · refine ⟨bar, price, i, t, s, candle, ⟨hlong, hi, hcandle, fun f hf => ?_, hflat, hentry⟩, hstep, ?_, hstop⟩
            · rw [hfirst] at hf
              cases hf
              exact ht
            · rw [hs, hother, hu]

omit [Comparable F] in
/-- **Every trade that the initial stop closed was closed on the bar of its entry.** -/
theorem stoppedOnEntry_of_initialStop (hrun : runBacktest candles context config startingEquity = .ok result)
    {trade : Trade F} (htrade : trade ∈ result.trades) (hreason : trade.exitReason = .initialStop) :
    ∃ bar price, StoppedOnEntry candles context config startingEquity trade bar price := by
  by_cases hlong : 4 ≤ candles.length
  · obtain ⟨first, t, hfirst, hwalk, rfl⟩ := runBacktest_eq_ok hlong hrun
    have hne : candles ≠ [] := by
      rintro rfl
      cases hlong
    rw [walk_eq_reached] at hwalk
    refine stoppedOnEntry_of_reached hlong hfirst (Nat.le_trans (by decide) hlong) (le_refl _) hwalk ?_ hreason
    change trade ∈ (finish (inputsOf candles context config) t).trades at htrade
    rcases finish_cases (inputsOf candles context config) t hne with ⟨-, hfinish⟩ | ⟨position, -, hfinish⟩
    · rwa [hfinish] at htrade
    · rw [hfinish] at htrade
      rcases List.mem_append.mp htrade with hold | hnew
      · exact hold
      · rw [List.mem_singleton.mp hnew] at hreason
        cases hreason
  · rw [runBacktest_short hlong hrun] at htrade
    exact absurd htrade List.not_mem_nil

end entries

/-! ## A morning with a gap -/

/-- A retest at the third bar, and a next bar that opens below its high, breaks it, and falls. -/
def gapMorning : List (Candle ℚ) :=
  [morningBar 0 101 104 100 103, morningBar 1 103 110 103 109, morningBar 2 108 108.5 105 107,
    morningBar 3 105 110 104 109, morningBar 4 109 112 108 111]

/-- The default configuration: entries break the high of their signal. -/
def breakHighConfig : StrategyConfig ℚ := {}

/-- The backtest of that morning buys at 108.5, above the open of 105, with its stop at 106.33, and sells at the open. -/
theorem gapMorning_sells_at_open :
    let _ := mondayTime
    ∃ result, runBacktest gapMorning (fun _ => none) breakHighConfig 1000 = .ok result ∧
      ¬StopsAtStop gapMorning (fun _ => none) breakHighConfig 1000 result := by
  intro zone
  obtain ⟨result, hrun⟩ := exists_eq_ok_of_isOk
    (show (runBacktest gapMorning (fun _ => none) breakHighConfig 1000).isOk = true by decide +kernel)
  obtain ⟨s, hs⟩ := exists_eq_ok_of_isOk
    (show (reached (inputsOf gapMorning (fun _ => none) breakHighConfig)
      (startState (morningBar 0 101 104 100 103) 1000) 2).isOk = true by decide +kernel)
  have hflat : (reached (inputsOf gapMorning (fun _ => none) breakHighConfig)
      (startState (morningBar 0 101 104 100 103) 1000) 2).map (fun t => t.position.isNone) = .ok true := by
    decide +kernel
  rw [hs] at hflat
  obtain ⟨execution, hexecution⟩ := exists_eq_ok_of_isOk
    (show (shouldExecuteEntry gapMorning 2 (morningBar 3 105 110 104 109) 106.18 "yellow" breakHighConfig).isOk = true by
      decide +kernel)
  have haccepted : (shouldExecuteEntry gapMorning 2 (morningBar 3 105 110 104 109) 106.18 "yellow" breakHighConfig).map
      (fun e => (e.allowed, e.entryPrice)) = .ok (true, some 108.5) := by decide +kernel
  rw [hexecution] at haccepted
  obtain ⟨hallowed, hprice⟩ := Prod.mk.inj (Except.ok.inj haccepted)
  have hentry : EntryOf gapMorning (fun _ => none) breakHighConfig 1000 2 s (morningBar 2 108 108.5 105 107)
      (morningBar 3 105 110 104 109) 108.5 := by
    refine ⟨by decide, by decide, rfl, ?_, Option.isNone_iff_eq_none.mp (Except.ok.inj hflat), ?_⟩
    · rintro _ ⟨⟩
      exact hs
    · exact .signal rfl (by decide +kernel) (by decide) hexecution hallowed hprice (by decide +kernel)
  exact ⟨result, hrun, not_stopsAtStop_of_gap hrun hentry (by decide +kernel) (by decide +kernel) (by decide +kernel)⟩

/-- On the morning without a gap, both hold or both fail. -/
theorem stopsAtStop_iff_demo :
    let _ := mondayTime
    ∃ result, runBacktest morning (fun _ => none) breakHighConfig 1000 = .ok result ∧
      (StopsAtStop morning (fun _ => none) breakHighConfig 1000 result ↔
        NoGap morning (fun _ => none) breakHighConfig 1000) := by
  intro zone
  obtain ⟨result, hrun⟩ := exists_eq_ok_of_isOk
    (show (runBacktest morning (fun _ => none) breakHighConfig 1000).isOk = true by decide +kernel)
  exact ⟨result, hrun, stopsAtStop_iff hrun⟩

end MuStrategy.Backtest
