import MuStrategy.Backtest.RestingOrder

/-!
# The shape of a backtest

On valid bars in order of time, every fill and every exit has a price of its bar, trades do not overlap, and each
bar, fill and trade is sampled once.

* `Candle.Holds` — a price within a bar; `…_holds` — the prices at which the walk buys and sells.
* `FillsShape`, `TradeShape` — the fills of a position, and a trade.
* `Upto`, `Ready` — what the walk keeps up to a time, and before the bar of that time.
* `barStep_upto` — one bar; `backtest_structure` — whole runs.
-/

namespace MuStrategy.Backtest

open Lib TrustedData Strategy

variable {F : Type} [Number F]

/-! ## Prices within a bar -/

/-- A price of a bar. -/
def Holds (candle : Candle F) (price : F) : Prop := candle.low ≤ price ∧ price ≤ candle.high

/-- The open and the close are prices of the bar. -/
def ValidCandle (candle : Candle F) : Prop := Holds candle candle.openPrice ∧ Holds candle candle.closePrice

section prices

variable [Comparable F] {candle next : Candle F} {level price : F}

/-- A limit that fills, fills within the bar. -/
lemma buyLimitFillPrice_holds (hcandle : ValidCandle candle) (hlevel : level ≤ level)
    (h : buyLimitFillPrice candle level = some price) : Holds candle price ∧ price ≤ candle.openPrice := by
  have hlow : candle.low ≤ candle.low := Comparable.self_left hcandle.1.1
  have hopen : candle.openPrice ≤ candle.openPrice := Comparable.self_right hcandle.1.1
  unfold buyLimitFillPrice at h
  split at h
  · cases h
  · rename_i hreached
    split at h
    · cases h
      exact ⟨hcandle.1, hopen⟩
    · rename_i hbelow
      cases h
      have hle : level ≤ candle.openPrice := Comparable.le_of_not_lt hopen hlevel hbelow
      exact ⟨⟨Comparable.le_of_not_lt hlevel hlow hreached, Comparable.le_trans hle hcandle.1.2⟩, hle⟩

/-- A stop that is reached, sells within the bar: at the open if that is below the stop. -/
lemma sellStopFillPrice_of_reached (hreached : candle.low ≤ level) :
    (sellStopFillPrice candle level).getD level = if candle.openPrice < level then candle.openPrice else level := by
  rw [sellStopFillPrice, if_neg (Comparable.not_lt_of_le hreached)]
  split <;> rfl

lemma sellStopFillPrice_holds (hcandle : ValidCandle candle) (hreached : candle.low ≤ level) :
    Holds candle ((sellStopFillPrice candle level).getD level) := by
  rw [sellStopFillPrice_of_reached hreached]
  split
  · exact hcandle.1
  · rename_i hbelow
    have hle := Comparable.le_of_not_lt (Comparable.self_right hcandle.1.1) (Comparable.self_right hreached) hbelow
    exact ⟨hreached, Comparable.le_trans hle hcandle.1.2⟩

/-- The greater of the open and a price that the bar reaches from below. -/
lemma pyMax_open_holds (hcandle : ValidCandle candle) (hreached : candle.openPrice < level → level ≤ candle.high) :
    Holds candle (pyMax candle.openPrice level) := by
  unfold pyMax
  split
  · rename_i habove
    exact ⟨Comparable.le_trans hcandle.1.1 (Comparable.le_of_lt habove), hreached habove⟩
  · exact hcandle.1

lemma buyStopFillPrice_holds (hcandle : ValidCandle candle) (h : buyStopFillPrice candle level = some price) :
    Holds candle price := by
  unfold buyStopFillPrice at h
  split at h
  · cases h
  · rename_i hreached
    cases h
    refine pyMax_open_holds hcandle fun habove => ?_
    exact Comparable.le_of_not_lt (Comparable.self_right hcandle.1.2)
      (Comparable.self_right (Comparable.le_of_lt habove)) hreached

omit [Comparable F] in
/-- The price of an accepted execution is the one that was filtered. -/
lemma filterExecution_price {candles : List (Candle F)} {index : ℕ} {entryPrice fibLevel : F} {regime : String}
    {config : StrategyConfig F}
    (h : (filterExecution candles index candle entryPrice fibLevel regime config).entryPrice = some price) :
    price = entryPrice := by
  unfold filterExecution at h
  dsimp only at h
  split_ifs at h
  all_goals first
    | cases h
    | (split at h
       · cases h
       · exact (Option.some.inj h).symm)

/-- An entry on the next bar is bought within it. -/
lemma shouldExecuteEntry_holds {candles : List (Candle F)} {index : ℕ} {fibLevel : F} {regime : String}
    {config : StrategyConfig F} {execution : EntryExecution F} (hvalid : ∀ c ∈ candles, ValidCandle c)
    (hnext : ValidCandle next)
    (h : shouldExecuteEntry candles index next fibLevel regime config = .ok execution)
    (hprice : execution.entryPrice = some price) : Holds next price := by
  obtain ⟨candle, hcandle, h⟩ := bind_eq_ok.mp h
  have hhigh : candle.high ≤ candle.high := by
    obtain hcandle := orThrow_eq_ok.mp hcandle
    exact Comparable.self_right (hvalid candle (List.mem_of_getElem? hcandle)).1.2
  split at h
  · cases h
    exact filterExecution_price hprice ▸ hnext.1
  · split at h
    · cases h
      cases hprice
    · rename_i hbreak
      cases h
      rw [filterExecution_price hprice]
      refine pyMax_open_holds hnext fun _ => ?_
      -- the next bar breaks the high of the signal
      exact (Comparable.total hhigh (Comparable.self_right hnext.1.2)).resolve_right hbreak
  · cases h
    cases hprice
  · cases h

end prices

/-! ## Fills and trades -/

section shapes

variable [Eastern]

/-- A price of the bar that opens at a time. -/
def TradedAt (candles : List (Candle F)) (timeMs : ℤ) (price : F) : Prop :=
  ∃ candle ∈ candles, candle.openTimeMs = timeMs ∧ Holds candle price

/-- Fills at prices of their bars, in windows, one bar after the other, with the margins of the stages. -/
structure FillsShape (candles : List (Candle F)) (config : StrategyConfig F) (fills : List (Fill F)) : Prop where
  traded : ∀ fill ∈ fills, TradedAt candles fill.timeMs fill.price
  windows : ∀ fill ∈ fills, isPreferredUsCashWindow fill.timeMs config = .ok true
  increasing : fills.Pairwise fun fill later => fill.timeMs < later.timeMs
  margins : fills.map Fill.marginFraction = config.marginSteps.take fills.length
  stages : fills.length ≤ config.marginSteps.length

/-- A trade: its fills, one for each stage, and an exit at a price of a bar that is not before them. -/
structure TradeShape (candles : List (Candle F)) (config : StrategyConfig F) (trade : Trade F) : Prop where
  fills : FillsShape candles config trade.fills
  filled : trade.fills ≠ []
  stage : trade.maxStage = trade.fills.length
  exited : TradedAt candles trade.exitTimeMs trade.exitPrice
  exitedLast : ∀ fill ∈ trade.fills, fill.timeMs ≤ trade.exitTimeMs

/-- A trade ended before every fill of a later one. -/
def EndsBefore (trade later : Trade F) : Prop := ∀ fill ∈ later.fills, trade.exitTimeMs < fill.timeMs

variable {candles : List (Candle F)} {config : StrategyConfig F} {fills : List (Fill F)} {fill : Fill F}

lemma FillsShape.nil : FillsShape candles config [] :=
  ⟨fun _ h => absurd h List.not_mem_nil, fun _ h => absurd h List.not_mem_nil, List.Pairwise.nil, rfl, Nat.zero_le _⟩

/-- A later fill with the margin of the next stage. -/
lemma FillsShape.concat (h : FillsShape candles config fills) (htraded : TradedAt candles fill.timeMs fill.price)
    (hwindow : isPreferredUsCashWindow fill.timeMs config = .ok true)
    (hlater : ∀ f ∈ fills, f.timeMs < fill.timeMs)
    (hmargin : config.marginSteps[fills.length]? = some fill.marginFraction) :
    FillsShape candles config (fills ++ [fill]) := by
  obtain ⟨hlt, hmargin⟩ := List.getElem?_eq_some_iff.mp hmargin
  refine ⟨?_, ?_, ?_, ?_, ?_⟩
  · intro f hf
    rcases List.mem_append.mp hf with hold | hnew
    · exact h.traded f hold
    · exact List.mem_singleton.mp hnew ▸ htraded
  · intro f hf
    rcases List.mem_append.mp hf with hold | hnew
    · exact h.windows f hold
    · exact List.mem_singleton.mp hnew ▸ hwindow
  · refine List.pairwise_append.mpr ⟨h.increasing, List.pairwise_singleton _ _, fun f hf g hg => ?_⟩
    exact List.mem_singleton.mp hg ▸ hlater f hf
  · rw [List.map_append, h.margins, List.map_singleton, List.length_append, List.length_singleton,
      ← List.take_append_getElem hlt, hmargin]
  · rw [List.length_append, List.length_singleton]
    omega

end shapes

/-! ## What the walk keeps -/

section invariant

variable [Eastern]

/-- The number of fills of the trades. -/
def fillCount (trades : List (Trade F)) : ℕ := (trades.map fun trade => trade.fills.length).sum

/-- A state whose last event is not after a time, with `n` samples that are no events. -/
structure Upto (run : Inputs F) (n : ℕ) (timeMs : ℤ) (s : BacktestState F) : Prop where
  trades : ∀ trade ∈ s.trades, TradeShape run.candles run.config trade
  exited : ∀ trade ∈ s.trades, trade.exitTimeMs ≤ timeMs
  apart : s.trades.Pairwise EndsBefore
  fills : FillsShape run.candles run.config s.openFills
  filled : ∀ fill ∈ s.openFills, fill.timeMs ≤ timeMs
  fresh : ∀ trade ∈ s.trades, ∀ fill ∈ s.openFills, trade.exitTimeMs < fill.timeMs
  stage : ∀ position, s.position = some position → position.maxStage = position.fills.length
  planned : ∀ position plan, s.position = some position → position.pendingAdd = some plan →
    run.config.marginSteps[plan.candidate.stage - 1]? = some plan.candidate.marginFraction
  resting : ∀ pending, s.pendingEntry = some pending → pending.fibLevel ≤ pending.fibLevel
  ordered : s.equityCurve.Pairwise fun sample later => sample.1 ≤ later.1
  sampled : ∀ sample ∈ s.equityCurve, sample.1 ≤ timeMs
  samples : s.equityCurve.length = n + (fillCount s.trades + s.openFills.length) + s.trades.length

/-- A state before the bar of a time: an add and a resting order can still be filled on it. -/
structure Ready (run : Inputs F) (n : ℕ) (timeMs : ℤ) (s : BacktestState F) : Prop extends Upto run n timeMs s where
  addable : ∀ position, s.position = some position → position.pendingAdd ≠ none →
    ∀ fill ∈ position.fills, fill.timeMs < timeMs
  enterable : s.position = none → s.pendingEntry ≠ none → ∀ trade ∈ s.trades, trade.exitTimeMs < timeMs

variable {run : Inputs F} {n : ℕ} {timeMs later : ℤ} {s s' : BacktestState F} {candle : Candle F}
  {position : OpenPosition F}

omit [Number F] [Eastern] in
lemma openFills_of_position (h : s.position = some position) : s.openFills = position.fills := by
  simp only [BacktestState.openFills, h]

omit [Number F] [Eastern] in
lemma openFills_of_flat (h : s.position = none) : s.openFills = [] := by
  simp only [BacktestState.openFills, h]

lemma Upto.mono (h : Upto run n timeMs s) (hle : timeMs ≤ later) : Upto run n later s :=
  { h with
    exited := fun trade htrade => (h.exited trade htrade).trans hle
    filled := fun fill hfill => (h.filled fill hfill).trans hle
    sampled := fun sample hsample => (h.sampled sample hsample).trans hle }

/-- Nothing is in the way on a later bar. -/
lemma Upto.ready (h : Upto run n timeMs s) (hlt : timeMs < later) : Ready run n later s :=
  { h.mono hlt.le with
    addable := fun _ hopen _ fill hfill =>
      (h.filled fill (openFills_of_position hopen ▸ hfill)).trans_lt hlt
    enterable := fun _ _ trade htrade => (h.exited trade htrade).trans_lt hlt }

omit [Number F] [Eastern] in
/-- One more label. -/
lemma ordered_concat {curve : List (ℤ × F)} (value : F) (hordered : curve.Pairwise fun sample later => sample.1 ≤ later.1)
    (hsampled : ∀ sample ∈ curve, sample.1 ≤ timeMs) :
    (curve ++ [(timeMs, value)]).Pairwise (fun sample later => sample.1 ≤ later.1) ∧
      ∀ sample ∈ curve ++ [(timeMs, value)], sample.1 ≤ timeMs := by
  refine ⟨List.pairwise_append.mpr ⟨hordered, List.pairwise_singleton _ _, fun sample hsample l hl => ?_⟩,
    fun sample hsample => ?_⟩
  · exact List.mem_singleton.mp hl ▸ hsampled sample hsample
  · rcases List.mem_append.mp hsample with hold | hnew
    · exact hsampled sample hold
    · exact (List.mem_singleton.mp hnew ▸ le_refl timeMs : sample.1 ≤ timeMs)

/-- The close of a bar is one more sample. -/
lemma Upto.recordClose (h : Upto run n timeMs s) (hle : timeMs ≤ candle.openTimeMs) :
    Upto run (n + 1) candle.openTimeMs (s.recordClose candle) := by
  obtain ⟨hordered, hsampled⟩ := ordered_concat (markedEquity s.equity s.position candle.closePrice) h.ordered
    (h.mono hle).sampled
  refine { h.mono hle with ordered := hordered, sampled := hsampled, samples := ?_ }
  change (s.equityCurve ++ [_]).length = n + 1 + (fillCount s.trades + s.openFills.length) + s.trades.length
  rw [List.length_append, List.length_singleton, h.samples]
  omega

/-- A position is settled at a price of a bar that is not before its fills. -/
lemma Upto.settle {price : F} (h : Upto run n candle.openTimeMs s) (hopen : s.position = some position)
    (hcandle : candle ∈ run.candles) (hprice : Holds candle price) (reason : ExitReason) :
    Upto run n candle.openTimeMs (s.settle position candle price reason run.config) := by
  have hfills := openFills_of_position hopen
  set trade := (closePosition position candle price s.equity reason run.config).2 with htrade
  have htradeFills : trade.fills = position.fills := rfl
  obtain ⟨hordered, hsampled⟩ := ordered_concat
    (closePosition position candle price s.equity reason run.config).1 h.ordered h.sampled
  have htrades : (s.settle position candle price reason run.config).trades = s.trades ++ [trade] := rfl
  have hflat : (s.settle position candle price reason run.config).openFills = [] := rfl
  have hmem : ∀ t ∈ s.trades ++ [trade], t ∈ s.trades ∨ t = trade := fun t ht =>
    (List.mem_append.mp ht).imp_right List.mem_singleton.mp
  refine ⟨?_, ?_, ?_, hflat ▸ FillsShape.nil, ?_, ?_, ?_, ?_, h.resting, hordered, hsampled, ?_⟩
  · intro t ht
    rcases hmem t ht with hold | rfl
    · exact h.trades t hold
    · refine ⟨?_, position.fills_ne, h.stage position hopen, ⟨candle, hcandle, rfl, hprice⟩,
        fun fill hfill => h.filled fill (hfills ▸ hfill)⟩
      rw [htradeFills, ← hfills]
      exact h.fills
  · intro t ht
    rcases hmem t ht with hold | rfl
    · exact h.exited t hold
    · exact le_refl _
  · refine List.pairwise_append.mpr ⟨h.apart, List.pairwise_singleton _ _, fun t ht l hl => ?_⟩
    rw [List.mem_singleton.mp hl]
    exact fun fill hfill => h.fresh t ht fill (hfills ▸ hfill)
  · rw [hflat]
    exact fun _ hnil => absurd hnil List.not_mem_nil
  · rw [hflat]
    exact fun _ _ _ hnil => absurd hnil List.not_mem_nil
  · rintro _ ⟨⟩
  · rintro _ _ ⟨⟩
  · rw [htrades, hflat]
    change (s.equityCurve ++ [_]).length = _
    simp only [List.length_append, List.length_singleton, h.samples, fillCount, List.map_append, List.map_singleton,
      List.sum_append, List.sum_singleton, htradeFills, hfills, List.length_nil]
    omega

/-- A fill at a price of its bar, after every fill before it and after the last exit. -/
lemma Upto.buy {value : F} {fill : Fill F} {pending : Option (PendingEntry F)} (h : Upto run n timeMs s)
    (hle : timeMs ≤ fill.timeMs) (hlater : ∀ f ∈ s.openFills, f.timeMs < fill.timeMs)
    (hfree : ∀ trade ∈ s.trades, trade.exitTimeMs < fill.timeMs)
    (htraded : TradedAt run.candles fill.timeMs fill.price)
    (hwindow : isPreferredUsCashWindow fill.timeMs run.config = .ok true)
    (hmargin : run.config.marginSteps[s.openFills.length]? = some fill.marginFraction)
    (hfills : position.fills = s.openFills ++ [fill]) (hstage : position.maxStage = s.openFills.length + 1)
    (hplan : ∀ plan, position.pendingAdd = some plan →
      run.config.marginSteps[plan.candidate.stage - 1]? = some plan.candidate.marginFraction)
    (hpending : ∀ order, pending = some order → order.fibLevel ≤ order.fibLevel) :
    Upto run n fill.timeMs
      ⟨s.equity, s.equityCurve ++ [(fill.timeMs, value)], s.trades, some position, pending⟩ := by
  obtain ⟨hordered, hsampled⟩ := ordered_concat value h.ordered (h.mono hle).sampled
  have hmem : ∀ f ∈ position.fills, f ∈ s.openFills ∨ f = fill := fun f hf => by
    rw [hfills] at hf
    exact (List.mem_append.mp hf).imp_right List.mem_singleton.mp
  refine ⟨h.trades, (h.mono hle).exited, h.apart, ?_, ?_, ?_, ?_, ?_, hpending, hordered, hsampled, ?_⟩
  · change FillsShape run.candles run.config position.fills
    rw [hfills]
    exact h.fills.concat htraded hwindow hlater hmargin
  · intro f hf
    rcases hmem f hf with hold | rfl
    · exact (hlater f hold).le
    · exact le_refl _
  · intro trade htrade f hf
    rcases hmem f hf with hold | rfl
    · exact h.fresh trade htrade f hold
    · exact hfree trade htrade
  · rintro _ ⟨⟩
    rw [hstage, hfills, List.length_append, List.length_singleton]
  · rintro _ plan ⟨⟩ hsome
    exact hplan plan hsome
  · change (s.equityCurve ++ [_]).length = n + (fillCount s.trades + position.fills.length) + s.trades.length
    rw [hfills, List.length_append, List.length_append, List.length_singleton, List.length_singleton, h.samples]
    omega

/-- A new stop and a new plan. -/
lemma Upto.manage {managed : OpenPosition F} (h : Upto run n timeMs s) (hopen : s.position = some position)
    (hfills : managed.fills = position.fills) (hstage : managed.maxStage = position.maxStage)
    (hplan : ∀ plan, managed.pendingAdd = some plan →
      run.config.marginSteps[plan.candidate.stage - 1]? = some plan.candidate.marginFraction) :
    Upto run n timeMs { s with position := some managed } := by
  have hopenFills : ({ s with position := some managed } : BacktestState F).openFills = s.openFills := by
    rw [openFills_of_position hopen]
    exact hfills
  refine ⟨h.trades, h.exited, h.apart, hopenFills ▸ h.fills, hopenFills ▸ h.filled, hopenFills ▸ h.fresh, ?_, ?_,
    h.resting, h.ordered, h.sampled, hopenFills ▸ h.samples⟩
  · rintro _ ⟨⟩
    rw [hstage, hfills, h.stage position hopen]
  · rintro _ plan ⟨⟩ hsome
    exact hplan plan hsome

/-! ## One bar -/

variable [Comparable F]

/-- A risk exit sells within the bar. -/
lemma riskExit_holds {reason reason' : ExitReason} {price : F} (hvalid : ValidCandle candle)
    (h : riskExit run candle position reason = .ok (some (price, reason'))) : Holds candle price := by
  obtain ⟨risky, hrisky, h⟩ := bind_eq_ok.mp h
  split at h
  · rename_i hrisk
    subst hrisk
    obtain ⟨threshold, hthreshold, h⟩ := bind_eq_ok.mp h
    cases h
    refine sellStopFillPrice_holds hvalid ?_
    obtain ⟨inWindow, -, hrisky⟩ := bind_eq_ok.mp hrisky
    split at hrisky
    · cases hrisky
    · obtain ⟨level, hlevel, hrisky⟩ := bind_eq_ok.mp hrisky
      rw [hthreshold] at hlevel
      cases hlevel
      simpa using hrisky
  · split at h
    · rename_i hreached
      cases h
      exact sellStopFillPrice_holds hvalid hreached
    · cases h

/-- A risk check keeps the state, or settles the position on the bar. -/
lemma Upto.exitOnRisk {reason : ExitReason} {settled : Bool} (h : Upto run n candle.openTimeMs s)
    (hopen : s.position = some position) (hcandle : candle ∈ run.candles) (hvalid : ValidCandle candle)
    (hexit : exitOnRisk run candle position reason s = .ok (settled, s')) :
    Upto run n candle.openTimeMs s' ∧ s'.pendingEntry = s.pendingEntry ∧
      (settled = false ∧ s' = s ∨ settled = true ∧ s'.position = none) := by
  obtain ⟨decision, hdecision, hexit⟩ := bind_eq_ok.mp hexit
  rcases decision with _ | ⟨price, reason'⟩
  · cases hexit
    exact ⟨h, rfl, Or.inl ⟨rfl, rfl⟩⟩
  · cases hexit
    exact ⟨h.settle hopen hcandle (riskExit_holds hvalid hdecision) reason', rfl, Or.inr ⟨rfl, rfl⟩⟩

omit [Comparable F] in
/-- The parts of an entry: its fill, its position, and the risk check of the bar. -/
lemma enter_eq_ok {price : F} (h : Backtest.enter run candle price s = .ok s') :
    ∃ (fill : Fill F) (position : OpenPosition F) (value : F) (settled : Bool),
      fill.timeMs = candle.openTimeMs ∧ fill.price = price ∧
      run.config.marginSteps[0]? = some fill.marginFraction ∧ position.fills = [fill] ∧ position.maxStage = 1 ∧
      position.pendingAdd = none ∧ position.stopPrice = price * (1 - run.config.initialStopPct) ∧
      Backtest.exitOnRisk run candle position .initialStop
        ⟨s.equity, s.equityCurve ++ [(candle.openTimeMs, value)], s.trades, some position, none⟩ = .ok (settled, s') := by
  obtain ⟨margin, hmargin, h⟩ := bind_eq_ok.mp h
  obtain ⟨fill, hfill, h⟩ := bind_eq_ok.mp h
  obtain ⟨⟨settled, t⟩, hexit, h⟩ := bind_eq_ok.mp h
  cases h
  obtain ⟨-, -, hfill⟩ := bind_eq_ok.mp hfill
  cases hfill
  exact ⟨_, _, _, settled, rfl, rfl, at?_eq_ok.mp hmargin, rfl, rfl, rfl, rfl, hexit⟩

/-- An entry on a bar after the last exit. -/
lemma Upto.enter {price : F} (h : Upto run n timeMs s) (hle : timeMs ≤ candle.openTimeMs) (hflat : s.position = none)
    (hfree : ∀ trade ∈ s.trades, trade.exitTimeMs < candle.openTimeMs) (hcandle : candle ∈ run.candles)
    (hvalid : ValidCandle candle) (hprice : Holds candle price)
    (hwindow : isPreferredUsCashWindow candle.openTimeMs run.config = .ok true)
    (henter : Backtest.enter run candle price s = .ok s') : Ready run n candle.openTimeMs s' := by
  obtain ⟨fill, position, value, settled, htime, rfl, hmargin, hfills, hstage, hplan, -, hexit⟩ := enter_eq_ok henter
  rw [← htime] at hle hfree hwindow
  have hopenFills := openFills_of_flat hflat
  have hbought : Upto run n fill.timeMs
      ⟨s.equity, s.equityCurve ++ [(fill.timeMs, value)], s.trades, some position, none⟩ := by
    refine h.buy hle ?_ hfree ⟨candle, hcandle, htime.symm, hprice⟩ hwindow ?_ ?_ ?_ ?_ ?_
    · rw [hopenFills]
      exact fun _ hnil => absurd hnil List.not_mem_nil
    · rw [hopenFills]
      exact hmargin
    · rw [hopenFills]
      exact hfills
    · rw [hopenFills]
      exact hstage
    · intro plan hsome
      rw [hplan] at hsome
      cases hsome
    · rintro _ ⟨⟩
  rw [htime] at hbought
  obtain ⟨hupto, hpending, hcases⟩ := hbought.exitOnRisk rfl hcandle hvalid hexit
  refine { hupto with addable := ?_, enterable := fun _ hsome => absurd hpending hsome }
  rcases hcases with ⟨-, rfl⟩ | ⟨-, hnone⟩
  · rintro _ ⟨⟩ hsome
    exact absurd hplan hsome
  · intro p hp
    rw [hnone] at hp
    cases hp

/-- A signal rests an order at a number. -/
lemma signalAt_level {index : ℕ} {fibLevel : F} (h : signalAt run index candle = .ok (some fibLevel)) :
    fibLevel ≤ fibLevel := by
  obtain ⟨inWindow, -, h⟩ := bind_eq_ok.mp h
  split at h
  · cases h
  · obtain ⟨level, -, h⟩ := bind_eq_ok.mp h
    cases level with
    | none => cases h
    | some level =>
        obtain ⟨rsi, -, h⟩ := bind_eq_ok.mp h
        obtain ⟨hist, -, h⟩ := bind_eq_ok.mp h
        obtain ⟨previous, -, h⟩ := bind_eq_ok.mp h
        simp only [pure_eq_ok_iff] at h
        split at h
        · rename_i hallowed
          cases h
          exact Comparable.self_left (reclaimed_of_allowed (Bool.and_eq_true_iff.mp hallowed).1)
        · cases h

/-- A bar on which an order rests. -/
lemma Ready.pendingStep {pending : PendingEntry F} (h : Ready run n candle.openTimeMs s) (hflat : s.position = none)
    (hpending : s.pendingEntry = some pending) (hcandle : candle ∈ run.candles) (hvalid : ValidCandle candle)
    (hstep : pendingStep run pending candle s = .ok s') : Upto run (n + 1) candle.openTimeMs s' := by
  unfold Backtest.pendingStep at hstep
  split at hstep
  · obtain ⟨inWindow, hwindow, hstep⟩ := bind_eq_ok.mp hstep
    split at hstep
    · cases hstep
      exact h.toUpto.recordClose (le_refl _)
    · rename_i hinside
      split at hstep
      · cases hstep
        exact h.toUpto.recordClose (le_refl _)
      · rename_i entryPrice hprice
        obtain ⟨t, henter, hstep⟩ := bind_eq_ok.mp hstep
        cases hstep
        have hholds := (buyLimitFillPrice_holds hvalid (h.resting pending hpending) hprice).1
        have hfree := h.enterable hflat (by rw [hpending]; exact Option.some_ne_none _)
        simp only [Bool.not_eq_true, Bool.not_eq_false'] at hinside
        subst hinside
        exact (h.toUpto.enter (le_refl _) hflat hfree hcandle hvalid hholds hwindow henter).recordClose (le_refl _)
  · cases hstep
    exact h.toUpto.recordClose (le_refl _)

/-- A bar with nothing open: its close, and at most an entry on the next bar. -/
lemma Upto.signalStep {index : ℕ} (h : Upto run n candle.openTimeMs s) (hflat : s.position = none)
    (hvalid : ∀ c ∈ run.candles, ValidCandle c)
    (hnext : ∀ c, run.candles[index + 1]? = some c → candle.openTimeMs < c.openTimeMs)
    (hstep : signalStep run index candle s = .ok s') :
    Upto run (n + 1) candle.openTimeMs s' ∨
      ∃ next, run.candles[index + 1]? = some next ∧ Ready run (n + 1) next.openTimeMs s' := by
  have hclosed := h.recordClose (le_refl _)
  unfold Backtest.signalStep at hstep
  split at hstep
  · cases hstep
    exact Or.inl hclosed
  · rename_i next hsome
    obtain ⟨signal, hsignal, hstep⟩ := bind_eq_ok.mp hstep
    split at hstep
    · cases hstep
      exact Or.inl hclosed
    · rename_i fibLevel
      split at hstep
      · -- the signal rests an order
        cases hstep
        refine Or.inl { hclosed with resting := ?_ }
        rintro _ ⟨⟩
        exact signalAt_level hsignal
      · obtain ⟨execution, hexecution, hstep⟩ := bind_eq_ok.mp hstep
        split at hstep
        · cases hstep
          exact Or.inl hclosed
        · rename_i entryPrice hprice
          obtain ⟨inWindow, hwindow, hstep⟩ := bind_eq_ok.mp hstep
          split at hstep
          · cases hstep
            exact Or.inl hclosed
          · rename_i hinside
            simp only [Bool.not_eq_true, Bool.not_eq_false'] at hinside
            subst hinside
            have hmem := List.mem_of_getElem? hsome
            have hlater := hnext next hsome
            have hprice : execution.entryPrice = some entryPrice := by
              split at hprice
              · exact hprice
              · cases hprice
            have hholds := shouldExecuteEntry_holds hvalid (hvalid next hmem) hexecution hprice
            refine Or.inr ⟨next, hsome, hclosed.enter hlater.le hflat ?_ hmem (hvalid next hmem) hholds hwindow hstep⟩
            exact fun trade htrade => (hclosed.exited trade htrade).trans_lt hlater

omit [Comparable F] in
/-- The margin of an add is the one of its stage. -/
lemma decidePyramidAdd_margin {snapshot : PositionStateSnapshot F} {rsiValue macdHist previousMacdHist : F}
    {regime : String} {config : StrategyConfig F} {candidate : PyramidAddDecision F}
    (h : decidePyramidAdd snapshot candle rsiValue macdHist previousMacdHist regime config = .ok (some candidate)) :
    config.marginSteps[candidate.stage - 1]? = some candidate.marginFraction := by
  unfold decidePyramidAdd at h
  dsimp only at h
  split at h
  · cases h
  · obtain ⟨inWindow, -, h⟩ := bind_eq_ok.mp h
    split at h
    · cases h
    · obtain ⟨threshold, -, h⟩ := bind_eq_ok.mp h
      split at h
      · cases h
      · split at h
        · cases h
        · split at h
          · cases h
          · obtain ⟨margin, hmargin, h⟩ := bind_eq_ok.mp h
            cases h
            exact at?_eq_ok.mp hmargin

omit [Comparable F] in
/-- An add that was planned is filled in a window, at the price of the bar and with the margin of its plan. -/
lemma executePyramidAdd_cases {index : ℕ} {equity : F} {added : OpenPosition F}
    (h : executePyramidAdd run index candle equity position = .ok added) :
    added.fills = position.fills ∧ added.maxStage = position.maxStage ∨
      ∃ (plan : PendingPyramidAdd F) (fill : Fill F), position.pendingAdd = some plan ∧
        fill.timeMs = candle.openTimeMs ∧ fill.marginFraction = plan.candidate.marginFraction ∧
        buyStopFillPrice candle plan.candidate.triggerPrice = some fill.price ∧
        isPreferredUsCashWindow candle.openTimeMs run.config = .ok true ∧
        position.maxStage + 1 = plan.candidate.stage ∧ added.fills = position.fills ++ [fill] ∧
        added.maxStage = plan.candidate.stage := by
  unfold executePyramidAdd at h
  split at h
  · cases h
    exact Or.inl ⟨rfl, rfl⟩
  · rename_i plan hplan
    obtain ⟨price, hprice, h⟩ := bind_eq_ok.mp h
    split at h
    · cases h
      exact Or.inl ⟨rfl, rfl⟩
    · rename_i fillPrice
      obtain ⟨fill, hfill, h⟩ := bind_eq_ok.mp h
      cases h
      obtain ⟨-, -, hfill⟩ := bind_eq_ok.mp hfill
      cases hfill
      unfold pyramidAddPrice at hprice
      dsimp only at hprice
      split at hprice
      · cases hprice
      · rename_i hvalid
        obtain ⟨inWindow, hwindow, hprice⟩ := bind_eq_ok.mp hprice
        split at hprice
        · cases hprice
        · rename_i hinside
          simp only [Bool.not_eq_true, Bool.not_eq_false'] at hinside
          subst hinside
          obtain ⟨signalCandle, -, hprice⟩ := bind_eq_ok.mp hprice
          obtain ⟨rsi, -, hprice⟩ := bind_eq_ok.mp hprice
          obtain ⟨hist, -, hprice⟩ := bind_eq_ok.mp hprice
          obtain ⟨previous, -, hprice⟩ := bind_eq_ok.mp hprice
          obtain ⟨decision, -, hprice⟩ := bind_eq_ok.mp hprice
          simp only [pure_eq_ok_iff] at hprice
          split at hprice
          · cases hprice
          · refine Or.inr ⟨plan, _, hplan, rfl, rfl, hprice, hwindow, ?_, rfl, rfl⟩
            by_contra hstage
            exact hvalid (Or.inr (Or.inr hstage))

omit [Comparable F] in
/-- The stop and the plan of a bar: the fills and the stage stay, and a plan has the margin of its stage. -/
lemma managed_cases {index : ℕ} {tightened planned : OpenPosition F}
    (htightened : tightenPositionStop run index candle position = .ok tightened)
    (hplanned : planPyramidAdd run index candle tightened = .ok planned) :
    planned.fills = position.fills ∧ planned.maxStage = position.maxStage ∧
      ∀ plan, planned.pendingAdd = some plan →
        run.config.marginSteps[plan.candidate.stage - 1]? = some plan.candidate.marginFraction := by
  obtain ⟨outcome, -, htightened⟩ := bind_eq_ok.mp htightened
  obtain ⟨rsi, -, hplanned⟩ := bind_eq_ok.mp hplanned
  obtain ⟨hist, -, hplanned⟩ := bind_eq_ok.mp hplanned
  obtain ⟨previous, -, hplanned⟩ := bind_eq_ok.mp hplanned
  obtain ⟨candidate, hcandidate, hplanned⟩ := bind_eq_ok.mp hplanned
  cases htightened
  cases hplanned
  refine ⟨rfl, rfl, fun plan hplan => ?_⟩
  obtain ⟨decision, rfl, rfl⟩ := Option.map_eq_some_iff.mp hplan
  exact decidePyramidAdd_margin hcandidate

/-- The adds and the stop of a position on a bar. -/
lemma Ready.manageStep {index : ℕ} (h : Ready run n candle.openTimeMs s) (hopen : s.position = some position)
    (hcandle : candle ∈ run.candles) (hvalid : ValidCandle candle)
    (hstep : manageStep run index candle position s = .ok s') : Upto run (n + 1) candle.openTimeMs s' := by
  obtain ⟨added, hadded, hstep⟩ := bind_eq_ok.mp hstep
  obtain ⟨tightened, htightened, hstep⟩ := bind_eq_ok.mp hstep
  obtain ⟨planned, hplanned, hstep⟩ := bind_eq_ok.mp hstep
  obtain ⟨hfills, hstage, hplan⟩ := managed_cases htightened hplanned
  have hopenFills := openFills_of_position hopen
  cases hstep
  refine Upto.recordClose ?_ (le_refl _)
  rcases executePyramidAdd_cases hadded with
    ⟨hsame, hsameStage⟩ | ⟨plan, fill, hsome, htime, hmargin, hprice, hwindow, hnext, hgrown, hnewStage⟩
  · rw [if_neg (by rw [hsame]; omega)]
    exact h.toUpto.manage hopen (hfills.trans hsame) (hstage.trans hsameStage) hplan
  · rw [if_pos (by rw [hgrown, List.length_append, List.length_singleton]; omega)]
    have hlater := h.addable position hopen (by rw [hsome]; exact Option.some_ne_none _)
    have hcount := h.stage position hopen
    -- the position opened after the last exit
    have hfree : ∀ trade ∈ s.trades, trade.exitTimeMs < fill.timeMs := by
      intro trade htrade
      have hfirst := h.fresh trade htrade position.firstFill (hopenFills ▸ List.head_mem position.fills_ne)
      rw [htime]
      exact hfirst.trans_le (hlater _ (List.head_mem position.fills_ne)).le
    have hbought : Upto run n fill.timeMs ⟨s.equity,
        s.equityCurve ++ [(fill.timeMs, markedEquity s.equity (some added) added.lastFill.price)], s.trades, some planned,
        s.pendingEntry⟩ := by
      refine h.toUpto.buy htime.ge (by rw [hopenFills, htime]; exact hlater) hfree
        ⟨candle, hcandle, htime.symm, buyStopFillPrice_holds hvalid hprice⟩ (htime ▸ hwindow) ?_
        (by rw [hopenFills, hfills, hgrown]) (by rw [hopenFills, hstage, hnewStage]; omega) hplan h.resting
      rw [hopenFills, ← hcount, hmargin, ← h.planned position plan hopen hsome, ← hnext, Nat.add_sub_cancel]
    rw [htime] at hbought
    exact hbought

/-- A bar with an open position. -/
lemma Ready.heldStep {index : ℕ} (h : Ready run n candle.openTimeMs s) (hopen : s.position = some position)
    (hcandle : candle ∈ run.candles) (hvalid : ValidCandle candle)
    (hstep : heldStep run index candle position s = .ok s') : Upto run (n + 1) candle.openTimeMs s' := by
  unfold Backtest.heldStep at hstep
  split at hstep
  · exact h.manageStep hopen hcandle hvalid hstep
  · obtain ⟨⟨settled, t⟩, hexit, hrest⟩ := bind_eq_ok.mp hstep
    obtain ⟨hupto, -, ⟨rfl, rfl⟩ | ⟨rfl, -⟩⟩ := h.toUpto.exitOnRisk hopen hcandle hvalid hexit
    · exact h.manageStep hopen hcandle hvalid hrest
    · cases hrest
      exact hupto.recordClose (le_refl _)

/-- **One bar**: all is up to its time, or an entry on the next bar is made and that bar is ready. -/
theorem Ready.barStep {index : ℕ} (h : Ready run n candle.openTimeMs s) (hvalid : ∀ c ∈ run.candles, ValidCandle c)
    (hcandle : candle ∈ run.candles)
    (hnext : ∀ c, run.candles[index + 1]? = some c → candle.openTimeMs < c.openTimeMs)
    (hstep : barStep run s (candle, index) = .ok s') :
    Upto run (n + 1) candle.openTimeMs s' ∨
      ∃ next, run.candles[index + 1]? = some next ∧ Ready run (n + 1) next.openTimeMs s' := by
  unfold Backtest.barStep at hstep
  split at hstep
  · rename_i hflat
    unfold flatStep at hstep
    split at hstep
    · exact h.toUpto.signalStep hflat hvalid hnext hstep
    · rename_i pending hresting
      have hpending : s.pendingEntry = some pending := by
        unfold restingEntry at hresting
        split at hresting
        · exact hresting
        · cases hresting
      split at hstep
      · -- an expired order is dropped
        have hdropped : Upto run n candle.openTimeMs { s with pendingEntry := none } :=
          { h.toUpto with resting := fun _ hnone => by cases hnone }
        exact hdropped.signalStep hflat hvalid hnext hstep
      · exact Or.inl (h.pendingStep hflat hpending hcandle (hvalid candle hcandle) hstep)
  · rename_i position hopen
    exact Or.inl (h.heldStep hopen hcandle (hvalid candle hcandle) hstep)

/-! ## Whole runs -/

/-- Bars in order of time. -/
def Ascending (candles : List (Candle F)) : Prop :=
  candles.Pairwise fun candle later => candle.openTimeMs < later.openTimeMs

omit [Number F] [Eastern] [Comparable F] in
lemma Ascending.lt_of_getElem? {candles : List (Candle F)} {i j : ℕ} {earlier late : Candle F}
    (h : Ascending candles) (hlt : i < j) (hi : candles[i]? = some earlier) (hj : candles[j]? = some late) :
    earlier.openTimeMs < late.openTimeMs := by
  obtain ⟨hi', rfl⟩ := List.getElem?_eq_some_iff.mp hi
  obtain ⟨hj', rfl⟩ := List.getElem?_eq_some_iff.mp hj
  exact List.pairwise_iff_getElem.mp h i j hi' hj' hlt

/-- **The walk**: when it reaches a bar, the bar is ready, and every bar before is sampled once. -/
theorem reached_ready {index : ℕ} {start : BacktestState F} {first : Candle F} (hvalid : ∀ c ∈ run.candles, ValidCandle c)
    (hsorted : Ascending run.candles) (hfirst : run.candles[0]? = some first)
    (hstart : Upto run 1 first.openTimeMs start) (hpos : 1 ≤ index) (hindex : index ≤ run.candles.length)
    (h : reached run start index = .ok s) :
    (∀ c, run.candles[index]? = some c → Ready run index c.openTimeMs s) ∧
      ∀ c, run.candles[index - 1]? = some c → run.candles[index]? = none → Upto run index c.openTimeMs s := by
  induction index, hpos using Nat.le_induction generalizing s with
  | base =>
      rw [reached_one] at h
      cases h
      refine ⟨fun c hc => hstart.ready (hsorted.lt_of_getElem? Nat.zero_lt_one hfirst hc), fun c hc _ => ?_⟩
      rw [Nat.sub_self, hfirst] at hc
      cases hc
      exact hstart
  | succ i hi ih =>
      obtain ⟨candle, hcandle⟩ : ∃ c, run.candles[i]? = some c := ⟨_, List.getElem?_eq_getElem (by omega)⟩
      obtain ⟨t, ht, hstep⟩ := (reached_succ hi hcandle).mp h
      have hready := (ih (by omega) ht).1 candle hcandle
      have hnext : ∀ c, run.candles[i + 1]? = some c → candle.openTimeMs < c.openTimeMs := fun c hc =>
        hsorted.lt_of_getElem? (Nat.lt_succ_self i) hcandle hc
      rcases hready.barStep hvalid (List.mem_of_getElem? hcandle) hnext hstep with hupto | ⟨next, hsome, hlater⟩
      · refine ⟨fun c hc => hupto.ready (hnext c hc), fun c hc _ => ?_⟩
        rw [Nat.add_sub_cancel, hcandle] at hc
        cases hc
        exact hupto
      · refine ⟨fun c hc => ?_, fun c _ hnone => ?_⟩
        · rw [hsome] at hc
          cases hc
          exact hlater
        · rw [hsome] at hnone
          cases hnone

omit [Comparable F] in
lemma walk_eq_reached (start : BacktestState F) : walk run start = reached run start run.candles.length := by
  rw [walk, reached, List.take_length]

omit [Comparable F] in
/-- The state before the walk. -/
lemma Upto.start (first : Candle F) (startingEquity : F) :
    Upto run 1 first.openTimeMs (startState first startingEquity) := by
  refine ⟨?_, ?_, List.Pairwise.nil, FillsShape.nil, ?_, ?_, ?_, ?_, ?_, List.pairwise_singleton _ _, ?_, rfl⟩
  · exact fun _ h => absurd h List.not_mem_nil
  · exact fun _ h => absurd h List.not_mem_nil
  · exact fun _ h => absurd h List.not_mem_nil
  · exact fun _ h => absurd h List.not_mem_nil
  · rintro _ ⟨⟩
  · rintro _ _ ⟨⟩
  · rintro _ ⟨⟩
  · intro sample hsample
    rw [List.mem_singleton.mp hsample]

omit [Comparable F] in
/-- The end of the data settles an open position at the last close. -/
lemma Upto.finish {last : Candle F} (h : Upto run n last.openTimeMs s) (hlast : run.candles.getLast? = some last)
    (hvalid : ValidCandle last) :
    Upto run n last.openTimeMs (finish run s) ∧ (finish run s).openFills = [] := by
  have hmem : last ∈ run.candles := List.mem_of_getLast? hlast
  unfold Backtest.finish
  rw [hlast]
  cases hopen : s.position with
  | none => exact ⟨h, openFills_of_flat hopen⟩
  | some position => exact ⟨h.settle hopen hmem hvalid.2 _, rfl⟩

/-- The shape of a result. -/
structure BacktestShape (candles : List (Candle F)) (config : StrategyConfig F) (result : BacktestResult F) : Prop where
  trades : ∀ trade ∈ result.trades, TradeShape candles config trade
  apart : result.trades.Pairwise EndsBefore
  ordered : result.equityCurve.Pairwise fun sample later => sample.1 ≤ later.1
  samples : result.equityCurve.length = candles.length + fillCount result.trades + result.trades.length

/-- **Backtest structure**: prices lie in their bars, fills are one bar after the other in trading windows with the
margins of their stages, trades do not overlap, labels never decrease, and there is one sample for each bar, fill
and trade. -/
theorem backtest_structure {candles : List (Candle F)} {context : ℤ → Option String} {config : StrategyConfig F}
    {startingEquity : F} {result : BacktestResult F} (hlength : 4 ≤ candles.length)
    (hvalid : ∀ c ∈ candles, ValidCandle c) (hsorted : Ascending candles)
    (hrun : runBacktest candles context config startingEquity = .ok result) : BacktestShape candles config result := by
  obtain ⟨first, s, hfirst, hwalk, rfl⟩ := runBacktest_eq_ok hlength hrun
  have hne : candles ≠ [] := by
    rintro rfl
    cases hlength
  have hlast : candles.getLast? = some (candles.getLast hne) := List.getLast?_eq_getLast_of_ne_nil hne
  have hpos : 1 ≤ candles.length := by omega
  rw [walk_eq_reached] at hwalk
  have hready := (reached_ready hvalid hsorted (List.head?_eq_getElem? ▸ hfirst) (Upto.start first startingEquity)
    hpos (le_refl _) hwalk).2 (candles.getLast hne) (List.getLast?_eq_getElem? ▸ hlast)
    (List.getElem?_eq_none (le_refl _))
  obtain ⟨hupto, hflat⟩ := hready.finish hlast (hvalid _ (List.getLast_mem hne))
  refine ⟨hupto.trades, hupto.apart, hupto.ordered, ?_⟩
  have hsamples := hupto.samples
  rw [hflat, List.length_nil, Nat.add_zero] at hsamples
  exact hsamples

end invariant

/-- The shape of a morning with an entry and an add. -/
theorem backtest_structure_demo :
    let _ := mondayTime
    ∃ result, runBacktest morning (fun _ => none) morningConfig 1000 = .ok result ∧
      BacktestShape morning morningConfig result := by
  intro zone
  obtain ⟨result, hrun⟩ := exists_eq_ok_of_isOk
    (show (runBacktest morning (fun _ => none) morningConfig 1000).isOk = true by decide +kernel)
  refine ⟨result, hrun, backtest_structure (by decide) ?_ ?_ hrun⟩
  · unfold ValidCandle Holds
    decide +kernel
  · unfold Ascending
    decide +kernel

end MuStrategy.Backtest
