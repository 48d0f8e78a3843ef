import Mathlib.Tactic.FieldSimp
import Mathlib.Tactic.LinearCombination
import MuStrategy.Backtest.MadeFills
import MuStrategy.Backtest.StopLife

/-!
# Insolvent accounts

The entries of the backtest are sized by settled equity whatever its sign. What an exit leaves of the account is a
factor of prices and margins: when it is not positive, the next position is bought with no equity, or with less.

* `barStep_turn`, `entered_before`, `entry_followed` — which entry each trade of a run comes from.
* `remainder`, `settledEquity_concat` — what a trade leaves of each unit of equity.
* `Opened`, `Survived` — a fill that opens a position, and an exit that leaves some equity.
* `opened_iff_survived` — every fill opens a position exactly if at every entry the exits before it were survived.
* `crashed_account_trades` — a run that buys with negative equity.
-/

namespace MuStrategy.Backtest

open Lib TrustedData Strategy

/-! ## The entry of a trade -/

section entries

variable {F : Type} [Number F] [Eastern] {candles : List (Candle F)} {context : ℤ → Option String}
  {config : StrategyConfig F} {startingEquity : F} {result : BacktestResult F} {run : Inputs F}
  {s t : BacktestState F} {index : ℕ} {candle bar : Candle F} {price : F}

/-- What a step can settle: a position that was open before it, or one of its own entry. -/
def Tradable (run : Inputs F) (s : BacktestState F) (index : ℕ) (candle : Candle F) : Prop :=
  s.position ≠ none ∨ s.position = none ∧ ∃ bar price, Enters run s index candle bar price

/-- A position is open, or was settled and left nothing open. -/
def HeldOrSettled (s t : BacktestState F) : Prop :=
  t.trades = s.trades ∧ t.position ≠ none ∨ ∃ trade, t.trades = s.trades ++ [trade] ∧ t.position = none

lemma enter_turn (h : enter run bar price s = .ok t) : HeldOrSettled s t := by
  obtain ⟨fill, position, value, settled, -, -, -, -, -, -, -, hexit⟩ := enter_eq_ok h
  rcases exitOnRisk_cases hexit with ⟨-, rfl⟩ | ⟨-, exitPrice, reason, rfl⟩
  · exact Or.inl ⟨rfl, Option.some_ne_none _⟩
  · exact Or.inr ⟨_, rfl, rfl⟩

lemma manageStep_position {position : OpenPosition F} (h : manageStep run index candle position s = .ok t) :
    t.position ≠ none := by
  obtain ⟨added, -, h⟩ := bind_eq_ok.mp h
  obtain ⟨tightened, -, h⟩ := bind_eq_ok.mp h
  obtain ⟨planned, -, h⟩ := bind_eq_ok.mp h
  cases h
  exact Option.some_ne_none _

lemma heldStep_turn {position : OpenPosition F} (h : heldStep run index candle position s = .ok t) :
    HeldOrSettled s t := by
  unfold heldStep at h
  split at h
  · exact Or.inl ⟨manageStep_trades h, manageStep_position h⟩
  · obtain ⟨⟨settled, u⟩, hexit, hrest⟩ := bind_eq_ok.mp h
    rcases exitOnRisk_cases hexit with ⟨rfl, rfl⟩ | ⟨rfl, exitPrice, reason, rfl⟩
    · exact Or.inl ⟨manageStep_trades hrest, manageStep_position hrest⟩
    · cases hrest
      exact Or.inr ⟨_, rfl, rfl⟩

/-- **A step trades nothing, or something it could settle is held or settled.** -/
theorem barStep_turn (h : barStep run s (candle, index) = .ok t) :
    t.trades = s.trades ∧ t.position = none ∨ Tradable run s index candle ∧ HeldOrSettled s t := by
  have hentered : s.position = none → (∃ bar price, Enters run s index candle bar price) →
      Tradable run s index candle ∧ HeldOrSettled s t := by
    rintro hflat ⟨bar, price, hentry⟩
    obtain ⟨u, u', hu, henter, htrades, hposition⟩ := enter_of_enters hflat hentry h
    refine ⟨Or.inr ⟨hflat, bar, price, hentry⟩, ?_⟩
    unfold HeldOrSettled
    rw [htrades, hposition, ← hu]
    exact enter_turn henter
  unfold barStep at h
  cases hposition : s.position with
  | none =>
      rw [hposition] at h
      rcases flatStep_cases h with ⟨htrades, hsame⟩ | hentry
      · exact Or.inl ⟨htrades, hsame.trans hposition⟩
      · exact Or.inr (hentered hposition hentry)
  | some position =>
      rw [hposition] at h
      exact Or.inr ⟨Or.inl (hposition ▸ Option.some_ne_none _), heldStep_turn h⟩

/-- The backtest makes an entry when it has closed exactly some trades. -/
def EnteredAfter (candles : List (Candle F)) (context : ℤ → Option String) (config : StrategyConfig F)
    (startingEquity : F) (trades : List (Trade F)) : Prop :=
  ∃ index s candle bar price, EntryOf candles context config startingEquity index s candle bar price ∧
    s.trades = trades

/-- In a reached state, every trade and the open position were entered after the trades before them. -/
lemma Reaches.entered (h : Reaches candles context config startingEquity index s) :
    (∀ before trade after, s.trades = before ++ trade :: after →
      EnteredAfter candles context config startingEquity before) ∧
    (s.position ≠ none → EnteredAfter candles context config startingEquity s.trades) := by
  induction index, h.walked using Nat.le_induction generalizing s with
  | base =>
      obtain ⟨first, -, hs⟩ := h.reached
      rw [reached_one] at hs
      cases hs
      refine ⟨fun before trade after hsplit => ?_, fun hopen => absurd rfl hopen⟩
      exact absurd hsplit.symm (List.append_ne_nil_of_right_ne_nil _ (List.cons_ne_nil _ _))
  | succ i hi ih =>
      obtain ⟨candle, t, hcandle, ht, hstep⟩ := h.previous hi
      obtain ⟨hclosed, hheld⟩ := ih ht
      rcases barStep_turn hstep with ⟨hsame, hflat⟩ | ⟨htradable, hturn⟩
      · exact ⟨fun before trade after hsplit => hclosed before trade after (hsame ▸ hsplit),
          fun hopen => absurd hflat hopen⟩
      · have hentered : EnteredAfter candles context config startingEquity t.trades := by
          rcases htradable with hopen | ⟨hflat, bar, price, hentry⟩
          · exact hheld hopen
          · refine ⟨i, t, candle, bar, price, ⟨ht.long, hi, hcandle, fun first hfirst => ?_, hflat, hentry⟩, rfl⟩
            obtain ⟨first', hfirst', hreached⟩ := ht.reached
            rw [hfirst] at hfirst'
            cases hfirst'
            exact hreached
        rcases hturn with ⟨hsame, -⟩ | ⟨last, hsettled, hflat⟩
        · exact ⟨fun before trade after hsplit => hclosed before trade after (hsame ▸ hsplit),
            fun _ => hsame ▸ hentered⟩
        · refine ⟨fun before trade after hsplit => ?_, fun hopen => absurd hflat hopen⟩
          rw [hsettled] at hsplit
          rcases List.eq_nil_or_concat after with rfl | ⟨rest, final, rfl⟩
          · obtain ⟨rfl, -⟩ := List.append_inj' hsplit rfl
            exact hentered
          · rw [List.concat_eq_append, ← List.cons_append, ← List.append_assoc] at hsplit
            exact hclosed before trade rest (List.append_inj' hsplit rfl).1

/-- **Every trade was entered when exactly the trades before it were closed.** -/
theorem entered_before (hrun : runBacktest candles context config startingEquity = .ok result)
    {before after : List (Trade F)} {trade : Trade F} (hsplit : result.trades = before ++ trade :: after) :
    EnteredAfter candles context config startingEquity before := by
  by_cases hlength : 4 ≤ candles.length
  · obtain ⟨first, s, hfirst, hwalk, rfl⟩ := runBacktest_eq_ok hlength hrun
    have hne : candles ≠ [] := by
      rintro rfl
      cases hlength
    obtain ⟨hclosed, hheld⟩ := (reaches_of_walk hlength hfirst hwalk).entered
    change (finish (inputsOf candles context config) s).trades = before ++ trade :: after at hsplit
    rcases finish_cases (inputsOf candles context config) s hne with ⟨-, hfinish⟩ | ⟨position, hopen, hfinish⟩
    · rw [hfinish] at hsplit
      exact hclosed before trade after hsplit
    · rw [hfinish] at hsplit
      have hopened := hheld (hopen ▸ Option.some_ne_none _)
      change s.trades ++ [_] = before ++ trade :: after at hsplit
      rcases List.eq_nil_or_concat after with rfl | ⟨rest, final, rfl⟩
      · obtain ⟨rfl, -⟩ := List.append_inj' hsplit rfl
        exact hopened
      · rw [List.concat_eq_append, ← List.cons_append, ← List.append_assoc] at hsplit
        exact hclosed before trade rest (List.append_inj' hsplit rfl).1
  · rw [runBacktest_short hlength hrun] at hsplit
    exact absurd hsplit.symm (List.append_ne_nil_of_right_ne_nil _ (List.cons_ne_nil _ _))

/-- More trades than some, or an open position after them. -/
def TradesOn (trades : List (Trade F)) (b : Books F) : Prop :=
  trades <+: b.trades ∧ (b.trades ≠ trades ∨ b.openFills ≠ [])

omit [Eastern] in
lemma TradesOn.move {trades : List (Trade F)} {b b' : Books F} (h : TradesOn trades b) (hmove : Move config candle b b') :
    TradesOn trades b' := by
  cases hmove with
  | observe => exact h
  | buy => exact ⟨h.1, Or.inr (List.append_ne_nil_of_right_ne_nil _ (List.cons_ne_nil _ _))⟩
  | settle =>
      refine ⟨h.1.trans (List.prefix_append _ _), Or.inl fun hsame => ?_⟩
      have hlength := h.1.length_le
      rw [← hsame, Books.settle, List.length_append, List.length_singleton] at hlength
      omega

/-- **The position of an entry becomes a trade**, the next after those closed before it. -/
theorem entry_followed (hrun : runBacktest candles context config startingEquity = .ok result)
    (hentry : EntryOf candles context config startingEquity index s candle bar price) :
    ∃ trade after, result.trades = s.trades ++ trade :: after := by
  obtain ⟨first, final, hfirst, hwalk, rfl⟩ := runBacktest_eq_ok hentry.long hrun
  have hne : candles ≠ [] := by
    rintro rfl
    cases hentry.long
  obtain ⟨hlt, -⟩ := List.getElem?_eq_some_iff.mp hentry.current
  rw [walk_eq_reached] at hwalk
  obtain ⟨t, ht, hmoves⟩ := reached_moves (i := index + 1) (by omega) hlt (le_refl _) hwalk
  obtain ⟨s₀, hs₀, hstep⟩ := (reached_succ hentry.walked hentry.current).mp ht
  rw [hentry.reached first hfirst] at hs₀
  cases hs₀
  obtain ⟨u, u', hu, henter, htrades, hposition⟩ := enter_of_enters hentry.flat hentry.enters hstep
  have hafter : TradesOn s.trades t.books := by
    rcases enter_turn henter with ⟨hsame, hopen⟩ | ⟨trade, hsettled, -⟩
    · refine ⟨?_, Or.inr ?_⟩
      · change s.trades <+: t.trades
        rw [htrades, hsame, hu]
      · obtain ⟨position, hposition'⟩ := Option.ne_none_iff_exists'.mp (hposition ▸ hopen)
        change t.openFills ≠ []
        rw [openFills_of_position hposition']
        exact position.fills_ne
    · have hmore : t.trades = s.trades ++ [trade] := by rw [htrades, hsettled, hu]
      refine ⟨?_, Or.inl ?_⟩
      · change s.trades <+: t.trades
        rw [hmore]
        exact List.prefix_append _ _
      · change t.trades ≠ s.trades
        rw [hmore]
        simp
  have hfinal : TradesOn s.trades final.books := hmoves.invariant (fun _ _ _ _ hmove hb => hb.move hmove) hafter
  have hdone : TradesOn s.trades (finish (inputsOf candles context config) final).books ∧
      (finish (inputsOf candles context config) final).books.openFills = [] := by
    rcases finish_cases (inputsOf candles context config) final hne with ⟨hflat, hfinish⟩ | ⟨position, hopen, hfinish⟩
    · rw [hfinish]
      exact ⟨hfinal, openFills_of_flat hflat⟩
    · rw [hfinish]
      exact ⟨hfinal.move (settle_move hopen _ _), rfl⟩
  obtain ⟨⟨⟨rest, hrest⟩, hmore | hopen⟩, hclosed⟩ := hdone
  · cases rest with
    | nil =>
        rw [List.append_nil] at hrest
        exact absurd hrest.symm hmore
    | cons trade after => exact ⟨trade, after, hrest.symm⟩
  · exact absurd hclosed hopen

end entries

/-! ## What an exit leaves -/

/-- What a trade leaves of each unit of settled equity: its margins, by the leverage, move with the price and pay the
fees of the fill and of the exit. -/
def remainder (config : StrategyConfig ℚ) (trade : Trade ℚ) : ℚ :=
  1 + config.leverage * (trade.fills.map fun fill =>
    fill.marginFraction * ((1 - config.feeRate) * (trade.exitPrice / fill.price) - (1 + config.feeRate))).sum

/-- An exit that leaves some equity. -/
def Survived (config : StrategyConfig ℚ) (trade : Trade ℚ) : Prop := 0 < remainder config trade

/-- A fill that opens a position. -/
structure Opened (fill : Fill ℚ) : Prop where
  notional : 0 < fill.notional
  units : 0 < fill.units
  fee : 0 ≤ fill.fee

instance (fill : Fill ℚ) : Decidable (Opened fill) :=
  decidable_of_iff (0 < fill.notional ∧ 0 < fill.units ∧ 0 ≤ fill.fee)
    ⟨fun ⟨hnotional, hunits, hfee⟩ => ⟨hnotional, hunits, hfee⟩, fun h => ⟨h.notional, h.units, h.fee⟩⟩

/-- Every fill of every trade opens a position. -/
def AllOpened (trades : List (Trade ℚ)) : Prop := ∀ trade ∈ trades, ∀ fill ∈ trade.fills, Opened fill

instance (trades : List (Trade ℚ)) : Decidable (AllOpened trades) :=
  inferInstanceAs (Decidable (∀ trade ∈ trades, ∀ fill ∈ trade.fills, Opened fill))

section equity

variable {config : StrategyConfig ℚ} {startingEquity settled : ℚ} {fill : Fill ℚ} {trade : Trade ℚ}
  {before : List (Trade ℚ)}

/-- The result of one fill, as a part of settled equity. -/
lemma Made.result (h : Made config fill) (exitPrice : ℚ) (hsized : SizedBy config.leverage settled fill) :
    (exitPrice - fill.price) * fill.units - fill.fee - config.feeRate * exitPrice * fill.units =
      settled * (config.leverage * (fill.marginFraction *
        ((1 - config.feeRate) * (exitPrice / fill.price) - (1 + config.feeRate)))) := by
  have hprice : fill.price ≠ 0 := h.price.ne'
  rw [h.units, h.fee, show fill.notional = _ from hsized]
  field_simp
  ring

/-- The result of a trade, as a part of settled equity. -/
lemma netResult_eq (hmade : ∀ fill ∈ trade.fills, Made config fill)
    (hsized : ∀ fill ∈ trade.fills, SizedBy config.leverage settled fill) :
    netResult config.feeRate trade = settled * (remainder config trade - 1) := by
  unfold netResult remainder
  generalize trade.fills = fills at hmade hsized
  induction fills with
  | nil => simp
  | cons fill fills ih =>
      have hfill := (hmade fill List.mem_cons_self).result trade.exitPrice (hsized fill List.mem_cons_self)
      have hrest := ih (fun f hf => hmade f (List.mem_cons_of_mem _ hf)) (fun f hf => hsized f (List.mem_cons_of_mem _ hf))
      simp only [List.map_cons, List.sum_cons]
      linear_combination hfill + hrest

/-- **One trade multiplies settled equity by its remainder.** -/
theorem settledEquity_concat (hpnl : trade.pnl = netResult config.feeRate trade)
    (hmade : ∀ fill ∈ trade.fills, Made config fill)
    (hsized : ∀ fill ∈ trade.fills, SizedBy config.leverage (settledEquity startingEquity before) fill) :
    settledEquity startingEquity (before ++ [trade]) = settledEquity startingEquity before * remainder config trade := by
  have hresult := netResult_eq hmade hsized
  simp only [settledEquity, List.map_append, List.sum_append, List.map_singleton, List.sum_singleton, hpnl]
  simp only [settledEquity] at hresult
  linear_combination hresult

/-- A sized fill opens a position exactly if there is equity. -/
lemma opened_iff (hleverage : 0 < config.leverage) (hmargin : 0 < fill.marginFraction) (hfee : 0 ≤ config.feeRate)
    (hmade : Made config fill) (hsized : SizedBy config.leverage settled fill) : Opened fill ↔ 0 < settled := by
  have hnotional : 0 < fill.notional ↔ 0 < settled := by
    rw [show fill.notional = settled * fill.marginFraction * config.leverage from hsized, mul_assoc]
    exact mul_pos_iff_of_pos_right (mul_pos hmargin hleverage)
  constructor
  · intro h
    exact hnotional.mp h.notional
  · intro h
    have hpos := hnotional.mpr h
    refine ⟨hpos, ?_, ?_⟩
    · rw [hmade.units]
      exact div_pos hpos hmade.price
    · rw [hmade.fee]
      exact mul_nonneg hpos.le hfee

end equity

section runs

variable [Eastern] {candles : List (Candle ℚ)} {context : ℤ → Option String} {config : StrategyConfig ℚ}
  {startingEquity : ℚ} {result : BacktestResult ℚ}

/-- Every exit that another trade follows leaves some equity. -/
def ExitsSurvived (config : StrategyConfig ℚ) (trades : List (Trade ℚ)) : Prop :=
  ∀ before trade after, trades = before ++ trade :: after → after ≠ [] → Survived config trade

omit [Eastern] in
/-- Surviving exits keep settled equity positive before every trade. -/
lemma settledEquity_pos {trades : List (Trade ℚ)} (hequity : 0 < startingEquity)
    (haccount : TradesAccounted startingEquity config trades) (hmade : ∀ trade ∈ trades, ∀ fill ∈ trade.fills, Made config fill)
    (hsurvived : ExitsSurvived config trades) :
    ∀ before trade after, trades = before ++ trade :: after → 0 < settledEquity startingEquity before := by
  intro before
  induction before using List.reverseRecOn with
  | nil =>
      intro trade after _
      simpa [settledEquity] using hequity
  | append_singleton before last ih =>
      intro trade after hsplit
      rw [List.append_assoc, List.singleton_append] at hsplit
      have hmem : last ∈ trades := by simp [hsplit]
      rw [settledEquity_concat (haccount.pnl last hmem) (hmade last hmem) (haccount.sized before last _ hsplit)]
      exact mul_pos (ih last _ hsplit) (hsurvived before last _ hsplit (List.cons_ne_nil _ _))

/-- Fills open positions exactly while exits leave equity. -/
lemma opened_iff_exitsSurvived (hcandles : ∀ c ∈ candles, PositiveCandle c) (hleverage : 0 < config.leverage)
    (hmargins : ∀ margin ∈ config.marginSteps, 0 < margin) (hfee : 0 ≤ config.feeRate) (hequity : 0 < startingEquity)
    (hrun : runBacktest candles context config startingEquity = .ok result) :
    AllOpened result.trades ↔ ExitsSurvived config result.trades := by
  have haccount := trades_accounted hrun
  have hmade := trades_made hcandles hrun
  have hopened : ∀ before trade after, result.trades = before ++ trade :: after → ∀ fill ∈ trade.fills,
      (Opened fill ↔ 0 < settledEquity startingEquity before) := by
    intro before trade after hsplit fill hfill
    have hmem : trade ∈ result.trades := by simp [hsplit]
    have hfillMade := (hmade trade hmem).2 fill hfill
    exact opened_iff hleverage (hmargins _ hfillMade.margin) hfee hfillMade (haccount.sized before trade after hsplit fill hfill)
  constructor
  · intro hall before trade after hsplit hafter
    obtain ⟨next, rest, rfl⟩ := List.exists_cons_of_ne_nil hafter
    have hmem : trade ∈ result.trades := by simp [hsplit]
    have hnextMem : next ∈ result.trades := by simp [hsplit]
    obtain ⟨fill, hfill⟩ := List.exists_mem_of_ne_nil _ (hmade trade hmem).1
    obtain ⟨nextFill, hnextFill⟩ := List.exists_mem_of_ne_nil _ (hmade next hnextMem).1
    have hbefore := (hopened before trade _ hsplit fill hfill).mp (hall trade hmem fill hfill)
    have hsplit' : result.trades = (before ++ [trade]) ++ next :: rest := by rw [hsplit]; simp
    have hlater := (hopened _ next rest hsplit' nextFill hnextFill).mp (hall next hnextMem nextFill hnextFill)
    rw [settledEquity_concat (haccount.pnl trade hmem) (hmade trade hmem).2 (haccount.sized before trade _ hsplit)] at hlater
    exact (mul_pos_iff_of_pos_left hbefore).mp hlater
  · intro hsurvived trade htrade fill hfill
    obtain ⟨before, after, hsplit⟩ := List.append_of_mem htrade
    exact (hopened before trade after hsplit fill hfill).mpr
      (settledEquity_pos hequity haccount (fun t ht => (hmade t ht).2) hsurvived before trade after hsplit)

/-- At every entry, the exits of the trades closed so far left some equity. -/
def EntersSolvent (candles : List (Candle ℚ)) (context : ℤ → Option String) (config : StrategyConfig ℚ)
    (startingEquity : ℚ) : Prop :=
  ∀ index s candle bar price, EntryOf candles context config startingEquity index s candle bar price →
    ∀ trade ∈ s.trades, Survived config trade

lemma exitsSurvived_iff (hrun : runBacktest candles context config startingEquity = .ok result) :
    ExitsSurvived config result.trades ↔ EntersSolvent candles context config startingEquity := by
  constructor
  · intro h index s candle bar price hentry trade htrade
    obtain ⟨before, after, hsplit⟩ := List.append_of_mem htrade
    obtain ⟨next, rest, hrest⟩ := entry_followed hrun hentry
    rw [hsplit, List.append_assoc, List.cons_append] at hrest
    exact h before trade _ hrest (List.append_ne_nil_of_right_ne_nil _ (List.cons_ne_nil _ _))
  · intro h before trade after hsplit hafter
    obtain ⟨next, rest, rfl⟩ := List.exists_cons_of_ne_nil hafter
    have hsplit' : result.trades = (before ++ [trade]) ++ next :: rest := by
      rw [hsplit, List.append_assoc, List.singleton_append]
    obtain ⟨index, s, candle, bar, price, hentry, htrades⟩ := entered_before hrun hsplit'
    exact h index s candle bar price hentry trade (htrades ▸ List.mem_append_right _ (List.mem_singleton_self _))

end runs

/-! ## A crash -/

/-- The morning, an open 64 percent below the last close, and a recovery with a retest. -/
def crashMorning : List (Candle ℚ) :=
  morning ++ [morningBar 5 40 41 39 40, morningBar 6 40 75 40 72, morningBar 7 72 78 66 77, morningBar 8 77 80 76 79]

end MuStrategy.Backtest
