import MuStrategy.Backtest.NetEquity
import MuStrategy.Backtest.Structure

/-!
# The fills of a run

Every fill is made at a positive price, whatever the order and the shape of the bars, with a margin of the
configuration, and its units and fee come from its notional.

* `PositiveCandle`, `Made` — a bar of positive prices, and a fill as it is made.
* `FillsMade.barStep` — every step makes its fills.
* `trades_made`, `trades_accounted` — the fills and the accounts of the trades of every run.
-/

namespace MuStrategy.Backtest

open Lib TrustedData Strategy

/-- A fill at a positive price, with a margin of the configuration, and its units and fee. -/
structure Made (config : StrategyConfig ℚ) (fill : Fill ℚ) : Prop where
  price : 0 < fill.price
  margin : fill.marginFraction ∈ config.marginSteps
  units : fill.units = fill.notional / fill.price
  fee : fill.fee = fill.notional * config.feeRate

/-- A bar of positive prices. -/
structure PositiveCandle (candle : Candle ℚ) : Prop where
  openPrice : 0 < candle.openPrice
  high : 0 < candle.high
  low : 0 < candle.low
  closePrice : 0 < candle.closePrice

instance (candle : Candle ℚ) : Decidable (PositiveCandle candle) :=
  decidable_of_iff (0 < candle.openPrice ∧ 0 < candle.high ∧ 0 < candle.low ∧ 0 < candle.closePrice)
    ⟨fun ⟨hopen, hhigh, hlow, hclose⟩ => ⟨hopen, hhigh, hlow, hclose⟩,
      fun h => ⟨h.openPrice, h.high, h.low, h.closePrice⟩⟩

/-- The fills of a state and the margin of a planned add. -/
structure FillsMade (config : StrategyConfig ℚ) (s : BacktestState ℚ) : Prop where
  filled : ∀ trade ∈ s.trades, trade.fills ≠ []
  closed : ∀ trade ∈ s.trades, ∀ fill ∈ trade.fills, Made config fill
  held : ∀ fill ∈ s.openFills, Made config fill
  planned : ∀ position plan, s.position = some position → position.pendingAdd = some plan →
    plan.candidate.marginFraction ∈ config.marginSteps

section fills

variable [Eastern] {run : Inputs ℚ} {config : StrategyConfig ℚ} {s t : BacktestState ℚ} {index : ℕ}
  {candle : Candle ℚ} {position : OpenPosition ℚ} {price startingEquity : ℚ} {candles : List (Candle ℚ)}
  {context : ℤ → Option String} {result : BacktestResult ℚ}

omit [Eastern] in
lemma pyMax_pos {x y : ℚ} (hx : 0 < x) : 0 < pyMax x y := by
  rw [pyMax_eq_max]
  exact lt_max_of_lt_left hx

omit [Eastern] in
/-- A limit is filled at the open, or at a level that the low reaches. -/
lemma buyLimitFillPrice_pos {level : ℚ} (hcandle : PositiveCandle candle)
    (h : buyLimitFillPrice candle level = some price) : 0 < price := by
  unfold buyLimitFillPrice at h
  split at h
  · cases h
  · rename_i hreached
    split at h
    · cases h
      exact hcandle.openPrice
    · cases h
      exact lt_of_lt_of_le hcandle.low (not_lt.mp hreached)

omit [Eastern] in
lemma buyStopFillPrice_pos {level : ℚ} (hcandle : PositiveCandle candle)
    (h : buyStopFillPrice candle level = some price) : 0 < price := by
  unfold buyStopFillPrice at h
  split at h
  · cases h
  · cases h
    exact pyMax_pos hcandle.openPrice

omit [Eastern] in
/-- An entry on the next bar is bought at its open or above. -/
lemma shouldExecuteEntry_pos {candles : List (Candle ℚ)} {fibLevel : ℚ} {regime : String}
    {execution : EntryExecution ℚ} (hcandle : PositiveCandle candle)
    (h : shouldExecuteEntry candles index candle fibLevel regime config = .ok execution)
    (hprice : execution.entryPrice = some price) : 0 < price := by
  obtain ⟨signalCandle, -, h⟩ := bind_eq_ok.mp h
  split at h
  · cases h
    exact filterExecution_price hprice ▸ hcandle.openPrice
  · split at h
    · cases h
      cases hprice
    · cases h
      rw [filterExecution_price hprice]
      exact pyMax_pos hcandle.openPrice
  · cases h
    cases hprice
  · cases h

omit [Eastern] in
lemma Made.of_makeFill {timeMs : ℤ} {margin equity : ℚ} {fill : Fill ℚ} (hprice : 0 < fill.price)
    (hmargin : fill.marginFraction ∈ config.marginSteps)
    (h : makeFill timeMs price margin equity config = .ok fill) : Made config fill := by
  obtain ⟨-, -, h⟩ := bind_eq_ok.mp h
  cases h
  exact ⟨hprice, hmargin, rfl, rfl⟩

omit [Eastern] in
lemma FillsMade.recordClose (h : FillsMade config s) : FillsMade config (s.recordClose candle) :=
  ⟨h.filled, h.closed, h.held, h.planned⟩

omit [Eastern] in
/-- A settled position becomes a trade with its fills. -/
lemma FillsMade.settle {reason : ExitReason} (h : FillsMade config s) (hopen : s.position = some position) :
    FillsMade config (s.settle position candle price reason config) := by
  refine ⟨?_, ?_, fun _ hfill => absurd hfill List.not_mem_nil, ?_⟩
  · intro trade htrade
    rcases List.mem_append.mp htrade with hold | hnew
    · exact h.filled trade hold
    · rw [List.mem_singleton.mp hnew]
      exact position.fills_ne
  · intro trade htrade fill hfill
    rcases List.mem_append.mp htrade with hold | hnew
    · exact h.closed trade hold fill hfill
    · rw [List.mem_singleton.mp hnew] at hfill
      exact h.held fill (openFills_of_position hopen ▸ hfill)
  · rintro _ _ ⟨⟩

lemma FillsMade.exitOnRisk {reason : ExitReason} {settled : Bool} (h : FillsMade run.config s)
    (hopen : s.position = some position) (hexit : exitOnRisk run candle position reason s = .ok (settled, t)) :
    FillsMade run.config t := by
  rcases exitOnRisk_cases hexit with ⟨-, rfl⟩ | ⟨-, exitPrice, reason', rfl⟩
  · exact h
  · exact h.settle hopen

/-- An entry has one fill, of the first margin. -/
lemma FillsMade.enter (h : FillsMade run.config s) (hprice : 0 < price)
    (henter : enter run candle price s = .ok t) : FillsMade run.config t := by
  obtain ⟨margin, hmargin, henter⟩ := bind_eq_ok.mp henter
  obtain ⟨fill, hfill, henter⟩ := bind_eq_ok.mp henter
  obtain ⟨⟨settled, u⟩, hexit, henter⟩ := bind_eq_ok.mp henter
  cases henter
  obtain ⟨-, -, hmade⟩ := bind_eq_ok.mp hfill
  cases hmade
  refine FillsMade.exitOnRisk ?_ rfl hexit
  refine ⟨h.filled, h.closed, ?_, ?_⟩
  · intro f hf
    rw [List.mem_singleton.mp hf]
    exact .of_makeFill hprice (List.mem_of_getElem? (at?_eq_ok.mp hmargin)) hfill
  · rintro _ _ ⟨⟩ ⟨⟩

lemma FillsMade.pendingStep {pending : PendingEntry ℚ} (h : FillsMade run.config s) (hcandle : PositiveCandle candle)
    (hstep : pendingStep run pending candle s = .ok t) : FillsMade run.config t := by
  unfold Backtest.pendingStep at hstep
  split at hstep
  · obtain ⟨inWindow, -, hstep⟩ := bind_eq_ok.mp hstep
    split at hstep
    · cases hstep
      exact h.recordClose
    · split at hstep
      · cases hstep
        exact h.recordClose
      · rename_i entryPrice hprice
        obtain ⟨u, henter, hstep⟩ := bind_eq_ok.mp hstep
        cases hstep
        exact (h.enter (buyLimitFillPrice_pos hcandle hprice) henter).recordClose
  · cases hstep
    exact h.recordClose

lemma FillsMade.signalStep (h : FillsMade run.config s) (hcandles : ∀ c ∈ run.candles, PositiveCandle c)
    (hstep : signalStep run index candle s = .ok t) : FillsMade run.config t := by
  unfold Backtest.signalStep at hstep
  split at hstep
  · cases hstep
    exact h.recordClose
  · rename_i next hnext
    have hpositive := hcandles next (List.mem_of_getElem? hnext)
    obtain ⟨signal, -, hstep⟩ := bind_eq_ok.mp hstep
    split at hstep
    · cases hstep
      exact h.recordClose
    · split at hstep
      · cases hstep
        exact ⟨h.filled, h.closed, h.held, h.planned⟩
      · obtain ⟨execution, hexecution, hstep⟩ := bind_eq_ok.mp hstep
        split at hstep
        · cases hstep
          exact h.recordClose
        · rename_i entryPrice hprice
          obtain ⟨inWindow, -, hstep⟩ := bind_eq_ok.mp hstep
          split at hstep
          · cases hstep
            exact h.recordClose
          · have hprice : execution.entryPrice = some entryPrice := by
              split at hprice
              · exact hprice
              · cases hprice
            exact h.recordClose.enter (shouldExecuteEntry_pos hpositive hexecution hprice) hstep

/-- An add is filled at a price of its bar, with the margin that was planned. -/
lemma FillsMade.executePyramidAdd {added : OpenPosition ℚ} (h : FillsMade run.config s)
    (hopen : s.position = some position) (hcandle : PositiveCandle candle)
    (hadded : executePyramidAdd run index candle s.equity position = .ok added) :
    ∀ fill ∈ added.fills, Made run.config fill := by
  have hheld : ∀ fill ∈ position.fills, Made run.config fill := openFills_of_position hopen ▸ h.held
  rcases executePyramidAdd_fills hadded with hsame | ⟨bought, margin, fill, hfill, hgrown⟩
  · rw [hsame]
    exact hheld
  · rcases executePyramidAdd_cases hadded with ⟨hsame, -⟩ | ⟨plan, fill', hplan, -, hmargin, hprice, -, -, hgrown', -⟩
    · rw [hsame]
      exact hheld
    · rw [hgrown] at hgrown'
      have heq : fill = fill' := List.cons.inj (List.append_cancel_left hgrown') |>.1
      subst heq
      intro f hf
      rw [hgrown] at hf
      rcases List.mem_append.mp hf with hold | hnew
      · exact hheld f hold
      · rw [List.mem_singleton.mp hnew]
        refine .of_makeFill (buyStopFillPrice_pos hcandle hprice) ?_ hfill
        rw [hmargin]
        exact h.planned position plan hopen hplan

lemma FillsMade.manageStep (h : FillsMade run.config s) (hopen : s.position = some position)
    (hcandle : PositiveCandle candle) (hstep : manageStep run index candle position s = .ok t) :
    FillsMade run.config t := by
  obtain ⟨added, hadded, hstep⟩ := bind_eq_ok.mp hstep
  obtain ⟨tightened, htightened, hstep⟩ := bind_eq_ok.mp hstep
  obtain ⟨planned, hplanned, hstep⟩ := bind_eq_ok.mp hstep
  obtain ⟨hfills, -, hplan⟩ := managed_cases htightened hplanned
  have hmade := h.executePyramidAdd hopen hcandle hadded
  cases hstep
  have htrades : ∀ u : BacktestState ℚ, u.trades = s.trades →
      FillsMade run.config ({ u with position := some planned }.recordClose candle) := by
    intro u hu
    refine ⟨?_, ?_, ?_, ?_⟩
    · exact hu ▸ h.filled
    · exact hu ▸ h.closed
    · intro fill hfill
      exact hmade fill (hfills ▸ hfill)
    · rintro _ plan ⟨⟩ hsome
      exact List.mem_of_getElem? (hplan plan hsome)
  refine htrades _ ?_
  split <;> rfl

/-- **Every step of the walk makes its fills.** -/
theorem FillsMade.barStep (h : FillsMade run.config s) (hcandles : ∀ c ∈ run.candles, PositiveCandle c)
    (hmem : candle ∈ run.candles) (hstep : barStep run s (candle, index) = .ok t) : FillsMade run.config t := by
  have hcandle := hcandles candle hmem
  unfold Backtest.barStep at hstep
  split at hstep
  · rename_i hflat
    unfold flatStep at hstep
    split at hstep
    · exact h.signalStep hcandles hstep
    · split at hstep
      · -- an expired order is dropped
        have hdropped : FillsMade run.config { s with pendingEntry := none } :=
          ⟨h.filled, h.closed, h.held, h.planned⟩
        exact hdropped.signalStep hcandles hstep
      · exact h.pendingStep hcandle hstep
  · rename_i position hopen
    unfold heldStep at hstep
    split at hstep
    · exact h.manageStep hopen hcandle hstep
    · obtain ⟨⟨settled, u⟩, hexit, hrest⟩ := bind_eq_ok.mp hstep
      have hexited := h.exitOnRisk hopen hexit
      rcases exitOnRisk_cases hexit with ⟨rfl, rfl⟩ | ⟨rfl, exitPrice, reason, rfl⟩
      · exact h.manageStep hopen hcandle hrest
      · cases hrest
        exact hexited.recordClose

omit [Eastern] in
/-- Before the walk there are no fills. -/
lemma FillsMade.start (first : Candle ℚ) (startingEquity : ℚ) :
    FillsMade config (startState first startingEquity) := by
  refine ⟨?_, ?_, ?_, ?_⟩
  · exact fun _ htrade => absurd htrade List.not_mem_nil
  · exact fun _ htrade => absurd htrade List.not_mem_nil
  · exact fun _ hfill => absurd hfill List.not_mem_nil
  · rintro _ _ ⟨⟩

/-- **The trades of every run have fills, and each is made.** -/
theorem trades_made (hcandles : ∀ c ∈ candles, PositiveCandle c)
    (hrun : runBacktest candles context config startingEquity = .ok result) :
    ∀ trade ∈ result.trades, trade.fills ≠ [] ∧ ∀ fill ∈ trade.fills, Made config fill := by
  by_cases hlength : 4 ≤ candles.length
  · obtain ⟨first, s, -, hwalk, rfl⟩ := runBacktest_eq_ok hlength hrun
    have hwalked : FillsMade config s := by
      refine foldlM_invariant (I := fun u => FillsMade config u) ?_ (.start first startingEquity) hwalk
      rintro u ⟨candle, index⟩ u' hmem hu hstep
      have hcandle : candle ∈ candles :=
        (List.mem_zipIdx' (List.mem_of_mem_drop hmem)).2 ▸ List.getElem_mem _
      exact FillsMade.barStep hu hcandles hcandle hstep
    have hne : candles ≠ [] := by
      rintro rfl
      cases hlength
    have hfinished : FillsMade config (finish (inputsOf candles context config) s) := by
      rcases finish_cases (inputsOf candles context config) s hne with
        ⟨-, hfinish⟩ | ⟨position, hopen, hfinish⟩
      · rw [hfinish]
        exact hwalked
      · rw [hfinish]
        exact FillsMade.settle hwalked hopen
    intro trade htrade
    exact ⟨hfinished.filled trade htrade, hfinished.closed trade htrade⟩
  · intro trade htrade
    rw [runBacktest_short hlength hrun] at htrade
    exact absurd htrade List.not_mem_nil

omit [Eastern] in
lemma TradesAccounted.nil : TradesAccounted startingEquity config [] := by
  refine ⟨fun _ htrade => absurd htrade List.not_mem_nil, fun before trade after hsplit => ?_⟩
  exact absurd hsplit.symm (List.append_ne_nil_of_right_ne_nil _ (List.cons_ne_nil _ _))

lemma trades_accounted (hrun : runBacktest candles context config startingEquity = .ok result) :
    TradesAccounted startingEquity config result.trades := by
  by_cases hlength : 4 ≤ candles.length
  · obtain ⟨first, s, -, hwalk, rfl⟩ := runBacktest_eq_ok hlength hrun
    exact (finish_account (by rintro rfl; cases hlength) hwalk).1.trades
  · rw [runBacktest_short hlength hrun]
    exact .nil

end fills

end MuStrategy.Backtest
