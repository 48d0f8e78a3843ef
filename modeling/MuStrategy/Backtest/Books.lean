import Mathlib.Logic.Relation
import MuStrategy.Backtest.RunBacktest

/-!
# The books of a backtest

What a run keeps of money: settled equity, open fills, closed trades, and samples of marked equity. Only
three moves change the books, and every step of the walk is a sequence of them.

* `Books`, `Books.marked` — the books and their net value at a mark.
* `Move`, `Moves` — observing the close of a bar, buying a fill, settling the open fills.
* `barStep_moves`, `walk_moves` — what a step and the walk do to the books.
* `finish_cases`, `runBacktest_eq_ok` — the parts of a whole run.
-/

namespace MuStrategy.Backtest

open Lib TrustedData Strategy

variable {F : Type} [Number F]

/-- The books. -/
structure Books (F : Type) where
  equity : F
  openFills : List (Fill F)
  trades : List (Trade F)
  equityCurve : List (ℤ × F)

namespace Books

variable (b : Books F)

/-- Settled equity, and the open gain less the open fees at a mark. -/
def marked (mark : F) : F :=
  if b.openFills.isEmpty then b.equity else b.equity + gainOf b.openFills mark - feesOf b.openFills

/-- One more sample, of the marked equity. -/
def observe (timeMs : ℤ) (mark : F) : Books F :=
  { b with equityCurve := b.equityCurve ++ [(timeMs, b.marked mark)] }

/-- One more open fill. -/
def buy (fill : Fill F) : Books F := { b with openFills := b.openFills ++ [fill] }

/-- The open fills become a trade, and its result is sampled. -/
def settle (trade : Trade F) : Books F where
  equity := b.equity + trade.pnl
  openFills := []
  trades := b.trades ++ [trade]
  equityCurve := b.equityCurve ++ [(trade.exitTimeMs, b.equity + trade.pnl)]

end Books

/-- The net result of settling fills at a price. -/
def netPnl (fills : List (Fill F)) (exitPrice : F) (config : StrategyConfig F) : F :=
  gainOf fills exitPrice - feesOf fills - exitPrice * unitsOf fills * config.feeRate

/-- A move of the books on a bar. -/
inductive Move (config : StrategyConfig F) (candle : Candle F) : Books F → Books F → Prop
  | observe (b : Books F) : Move config candle b (b.observe candle.openTimeMs candle.closePrice)
  | buy {b : Books F} {price margin : F} {fill : Fill F} :
      makeFill candle.openTimeMs price margin b.equity config = .ok fill →
      Move config candle b ((b.buy fill).observe candle.openTimeMs fill.price)
  | settle {b : Books F} {trade : Trade F} :
      b.openFills ≠ [] → trade.fills = b.openFills → trade.exitTimeMs = candle.openTimeMs →
      trade.pnl = netPnl b.openFills trade.exitPrice config → Move config candle b (b.settle trade)

/-- Moves on bars of a set. -/
def Moves (config : StrategyConfig F) (bars : Candle F → Prop) : Books F → Books F → Prop :=
  Relation.ReflTransGen fun b b' => ∃ candle, bars candle ∧ Move config candle b b'

namespace Moves

variable {config : StrategyConfig F} {bars others : Candle F → Prop} {b b' b'' : Books F}

lemma refl : Moves config bars b b := Relation.ReflTransGen.refl

lemma trans (h : Moves config bars b b') (h' : Moves config bars b' b'') : Moves config bars b b'' :=
  Relation.ReflTransGen.trans h h'

lemma single {candle : Candle F} (hbar : bars candle) (h : Move config candle b b') : Moves config bars b b' :=
  Relation.ReflTransGen.single ⟨candle, hbar, h⟩

lemma tail {candle : Candle F} (h : Moves config bars b b') (hbar : bars candle) (h' : Move config candle b' b'') :
    Moves config bars b b'' :=
  Relation.ReflTransGen.tail h ⟨candle, hbar, h'⟩

lemma mono (hsub : ∀ candle, bars candle → others candle) (h : Moves config bars b b') :
    Moves config others b b' :=
  Relation.ReflTransGen.mono (fun _ _ ⟨candle, hbar, hmove⟩ => ⟨candle, hsub candle hbar, hmove⟩) _ _ h

/-- What every move on the bars preserves, the moves preserve. -/
lemma invariant {I : Books F → Prop}
    (hmove : ∀ candle b b', bars candle → Move config candle b b' → I b → I b') (h : Moves config bars b b')
    (hb : I b) : I b' := by
  induction h with
  | refl => exact hb
  | tail _ hlast ih =>
      obtain ⟨candle, hbar, hlast⟩ := hlast
      exact hmove candle _ _ hbar hlast ih

end Moves

/-! ## The books of a state -/

/-- The open fills of a state. -/
def BacktestState.openFills (s : BacktestState F) : List (Fill F) :=
  match s.position with
  | none => []
  | some position => position.fills

/-- The books of a state. -/
def BacktestState.books (s : BacktestState F) : Books F where
  equity := s.equity
  openFills := s.openFills
  trades := s.trades
  equityCurve := s.equityCurve

variable {s s' : BacktestState F} {position : OpenPosition F} {candle : Candle F} {config : StrategyConfig F}

lemma books_marked (mark : F) : s.books.marked mark = markedEquity s.equity s.position mark := by
  unfold Books.marked BacktestState.books BacktestState.openFills markedEquity
  cases s.position with
  | none => rfl
  | some position =>
      rw [if_neg]
      · rfl
      · simpa using position.fills_ne

lemma books_sample (timeMs : ℤ) (mark : F) : (s.sample timeMs mark).books = s.books.observe timeMs mark := by
  unfold Books.observe
  rw [books_marked]
  rfl

lemma recordClose_move : Move config candle s.books (s.recordClose candle).books := by
  rw [BacktestState.recordClose, books_sample]
  exact .observe _

lemma settle_move (hopen : s.position = some position) (exitPrice : F) (reason : ExitReason) :
    Move config candle s.books (s.settle position candle exitPrice reason config).books := by
  have hfills : s.books.openFills = position.fills := by
    simp only [BacktestState.books, BacktestState.openFills, hopen]
  change Move config candle s.books (s.books.settle (closePosition position candle exitPrice s.equity reason config).2)
  refine Move.settle ?_ hfills.symm rfl ?_
  · rw [hfills]
    exact position.fills_ne
  · rw [hfills]
    rfl

section steps

variable [Eastern] {run : Inputs F} {index : ℕ}

/-- The bars whose label a step may write: its own and the next. -/
def StepBars (run : Inputs F) (index : ℕ) (candle bar : Candle F) : Prop :=
  bar = candle ∨ run.candles[index + 1]? = some bar

/-- A risk check leaves the state as it is, or settles the position. -/
lemma exitOnRisk_cases {reason : ExitReason} {settled : Bool}
    (h : exitOnRisk run candle position reason s = .ok (settled, s')) :
    settled = false ∧ s' = s ∨
      settled = true ∧ ∃ price reason', s' = s.settle position candle price reason' run.config := by
  obtain ⟨decision, -, h⟩ := bind_eq_ok.mp h
  rcases decision with _ | ⟨price, reason'⟩
  · cases h
    exact Or.inl ⟨rfl, rfl⟩
  · cases h
    exact Or.inr ⟨rfl, price, reason', rfl⟩

lemma exitOnRisk_moves {reason : ExitReason} {settled : Bool} {bars : Candle F → Prop} (hbar : bars candle)
    (hopen : s.position = some position) (h : exitOnRisk run candle position reason s = .ok (settled, s')) :
    Moves run.config bars s.books s'.books := by
  rcases exitOnRisk_cases h with ⟨-, rfl⟩ | ⟨-, price, reason', rfl⟩
  · exact .refl
  · exact .single hbar (settle_move hopen price reason')

/-- An entry buys its first fill, and may settle it on the same bar. -/
lemma enter_moves {price : F} {bars : Candle F → Prop} (hbar : bars candle) (hflat : s.position = none)
    (h : enter run candle price s = .ok s') : Moves run.config bars s.books s'.books := by
  obtain ⟨margin, -, h⟩ := bind_eq_ok.mp h
  obtain ⟨fill, hfill, h⟩ := bind_eq_ok.mp h
  obtain ⟨⟨settled, t⟩, hexit, h⟩ := bind_eq_ok.mp h
  cases h
  refine .trans (.single hbar ?_) (exitOnRisk_moves hbar rfl hexit)
  have hprice : fill.price = price := by
    obtain ⟨-, -, h⟩ := bind_eq_ok.mp hfill
    cases h
    rfl
  rw [books_sample, ← hprice]
  have hbooks : s.books.openFills = [] := by
    simp only [BacktestState.books, BacktestState.openFills, hflat]
  have hbuy := Move.buy (b := s.books) hfill
  rw [Books.buy, hbooks] at hbuy
  exact hbuy

lemma pendingStep_moves {pending : PendingEntry F} {bars : Candle F → Prop} (hbar : bars candle)
    (hflat : s.position = none) (h : pendingStep run pending candle s = .ok s') :
    Moves run.config bars s.books s'.books := by
  unfold pendingStep at h
  split at h
  · obtain ⟨inWindow, -, h⟩ := bind_eq_ok.mp h
    split at h
    · cases h
      exact .single hbar recordClose_move
    · split at h
      · cases h
        exact .single hbar recordClose_move
      · obtain ⟨t, henter, h⟩ := bind_eq_ok.mp h
        cases h
        exact (enter_moves hbar hflat henter).tail hbar recordClose_move
  · cases h
    exact .single hbar recordClose_move

/-- After the close of its bar, a signal moves the books on the next bar only. -/
lemma signalStep_moves (hflat : s.position = none) (h : signalStep run index candle s = .ok s') :
    Moves run.config (fun bar => run.candles[index + 1]? = some bar) (s.recordClose candle).books s'.books := by
  unfold signalStep at h
  split at h
  · cases h
    exact .refl
  · rename_i nextCandle hnext
    obtain ⟨signal, -, h⟩ := bind_eq_ok.mp h
    split at h
    · cases h
      exact .refl
    · split at h
      · cases h
        exact .refl
      · obtain ⟨execution, -, h⟩ := bind_eq_ok.mp h
        split at h
        · cases h
          exact .refl
        · obtain ⟨inWindow, -, h⟩ := bind_eq_ok.mp h
          split at h
          · cases h
            exact .refl
          · exact enter_moves hnext hflat h

/-- An add appends a fill, or leaves the fills as they are. -/
lemma executePyramidAdd_fills {equity : F} {added : OpenPosition F}
    (h : executePyramidAdd run index candle equity position = .ok added) :
    added.fills = position.fills ∨ ∃ price margin fill,
      makeFill candle.openTimeMs price margin equity run.config = .ok fill ∧ added.fills = position.fills ++ [fill] := by
  unfold executePyramidAdd at h
  split at h
  · cases h
    exact Or.inl rfl
  · rename_i plan hplan
    obtain ⟨price, -, h⟩ := bind_eq_ok.mp h
    split at h
    · cases h
      exact Or.inl rfl
    · rename_i fillPrice
      obtain ⟨fill, hfill, h⟩ := bind_eq_ok.mp h
      cases h
      exact Or.inr ⟨fillPrice, _, fill, hfill, rfl⟩

omit [Eastern] in
/-- The stop and the plan of a position do not touch its fills. -/
lemma tightenPositionStop_fills {tightened : OpenPosition F}
    (h : tightenPositionStop run index candle position = .ok tightened) : tightened.fills = position.fills := by
  obtain ⟨outcome, -, h⟩ := bind_eq_ok.mp h
  cases h
  rfl

lemma planPyramidAdd_fills {planned : OpenPosition F}
    (h : planPyramidAdd run index candle position = .ok planned) : planned.fills = position.fills := by
  obtain ⟨rsi, -, h⟩ := bind_eq_ok.mp h
  obtain ⟨hist, -, h⟩ := bind_eq_ok.mp h
  obtain ⟨previous, -, h⟩ := bind_eq_ok.mp h
  obtain ⟨candidate, -, h⟩ := bind_eq_ok.mp h
  cases h
  rfl

lemma manageStep_moves {bars : Candle F → Prop} (hbar : bars candle) (hopen : s.position = some position)
    (h : manageStep run index candle position s = .ok s') : Moves run.config bars s.books s'.books := by
  obtain ⟨added, hadded, h⟩ := bind_eq_ok.mp h
  obtain ⟨tightened, htightened, h⟩ := bind_eq_ok.mp h
  obtain ⟨planned, hplanned, h⟩ := bind_eq_ok.mp h
  cases h
  have hplannedFills : planned.fills = added.fills := by
    rw [planPyramidAdd_fills hplanned, tightenPositionStop_fills htightened]
  have hbooks : s.books.openFills = position.fills := by
    simp only [BacktestState.books, BacktestState.openFills, hopen]
  refine .tail ?_ hbar recordClose_move
  rcases executePyramidAdd_fills hadded with hsame | ⟨price, margin, fill, hfill, hgrown⟩
  · -- no add: only the stop and the plan change
    have hunchanged : ¬position.fills.length < added.fills.length := by
      rw [hsame]
      omega
    rw [if_neg hunchanged]
    have heq : ({ s with position := some planned } : BacktestState F).books = s.books := by
      simp only [BacktestState.books, BacktestState.openFills, hopen, hplannedFills, hsame]
    rw [heq]
    exact .refl
  · have hlonger : position.fills.length < added.fills.length := by
      rw [hgrown, List.length_append, List.length_singleton]
      omega
    rw [if_pos hlonger]
    have hlast : added.lastFill = fill := by
      simp only [OpenPosition.lastFill, hgrown, List.getLast_concat]
    have hbuy : Move run.config candle s.books ((s.books.buy fill).observe candle.openTimeMs fill.price) := .buy hfill
    refine .single hbar ?_
    have heq : ((s.books.buy fill).observe candle.openTimeMs fill.price) =
        ({ ({ s with position := some added } : BacktestState F).sample candle.openTimeMs added.lastFill.price with
          position := some planned } : BacktestState F).books := by
      have hafter : s.books.buy fill = ({ s with position := some added } : BacktestState F).books := by
        rw [Books.buy, hbooks]
        simp only [BacktestState.books, BacktestState.openFills, hgrown]
      rw [hlast, hafter, ← books_sample]
      simp only [BacktestState.books, BacktestState.openFills, BacktestState.sample, hplannedFills]
    rw [← heq]
    exact hbuy

lemma heldStep_moves {bars : Candle F → Prop} (hbar : bars candle) (hopen : s.position = some position)
    (h : heldStep run index candle position s = .ok s') : Moves run.config bars s.books s'.books := by
  unfold heldStep at h
  split at h
  · exact manageStep_moves hbar hopen h
  · obtain ⟨⟨settled, t⟩, hexit, hrest⟩ := bind_eq_ok.mp h
    rcases exitOnRisk_cases hexit with ⟨rfl, rfl⟩ | ⟨rfl, price, reason, rfl⟩
    · exact manageStep_moves hbar hopen hrest
    · cases hrest
      exact (exitOnRisk_moves hbar hopen hexit).tail hbar recordClose_move

/-- **Every step of the walk is moves of the books on its bar and the next.** -/
theorem barStep_moves (h : barStep run s (candle, index) = .ok s') :
    Moves run.config (StepBars run index candle) s.books s'.books := by
  have hbar : StepBars run index candle candle := Or.inl rfl
  unfold barStep at h
  split at h
  · rename_i hflat
    unfold flatStep at h
    split at h
    · exact .trans (.single hbar recordClose_move)
        ((signalStep_moves hflat h).mono fun bar hnext => Or.inr hnext)
    · split at h
      · -- an expired order leaves the books as they are
        have hmoves := signalStep_moves (s := { s with pendingEntry := none }) hflat h
        refine .trans (.single hbar ?_) (hmoves.mono fun bar hnext => Or.inr hnext)
        exact recordClose_move (s := { s with pendingEntry := none })
      · exact pendingStep_moves hbar hflat h
  · rename_i position hopen
    exact heldStep_moves hbar hopen h

/-- The bars of a run whose open times satisfy a condition on all bars a walk visits. -/
lemma foldlM_moves {bars : List (Candle F × ℕ)} {known : Candle F → Prop}
    (hknown : ∀ bar ∈ bars, ∀ c, StepBars run bar.2 bar.1 c → known c)
    (h : bars.foldlM (barStep run) s = .ok s') : Moves run.config known s.books s'.books := by
  refine foldlM_invariant (I := fun t => Moves run.config known s.books t.books) ?_ Moves.refl h
  intro t bar t' hmem hmoves hstep
  exact hmoves.trans ((barStep_moves hstep).mono (hknown bar hmem))

/-- **The walk is moves of the books on the bars of the run.** -/
theorem walk_moves (h : walk run s = .ok s') : Moves run.config (· ∈ run.candles) s.books s'.books := by
  refine foldlM_moves ?_ h
  rintro ⟨candle, index⟩ hmem c (rfl | hnext)
  · exact (List.mem_zipIdx' (List.mem_of_mem_drop hmem)).2 ▸ List.getElem_mem _
  · exact List.mem_of_getElem? hnext

end steps

/-! ## Whole runs -/

/-- The end of the data settles an open position, or changes nothing. -/
lemma finish_cases (run : Inputs F) (s : BacktestState F) (hne : run.candles ≠ []) :
    (s.position = none ∧ finish run s = s) ∨
      ∃ position, s.position = some position ∧ finish run s =
        s.settle position (run.candles.getLast hne) (run.candles.getLast hne).closePrice .endOfData run.config := by
  unfold finish
  rw [List.getLast?_eq_getLast_of_ne_nil hne]
  cases s.position with
  | none => exact Or.inl ⟨rfl, rfl⟩
  | some position => exact Or.inr ⟨position, rfl, rfl⟩

/-- The result of a walk that stopped in `s`. -/
def resultOf (startingEquity : F) (s : BacktestState F) : BacktestResult F :=
  ⟨startingEquity, s.equity, s.trades, s.equityCurve⟩

/-- A run over at least four bars is the walk and the settlement. -/
lemma runBacktest_eq_ok [Eastern] {candles : List (Candle F)} {context : ℤ → Option String} {startingEquity : F}
    {result : BacktestResult F} (hlength : 4 ≤ candles.length)
    (h : runBacktest candles context config startingEquity = .ok result) :
    ∃ first s, candles.head? = some first ∧
      walk (inputsOf candles context config) (startState first startingEquity) = .ok s ∧
      result = resultOf startingEquity (finish (inputsOf candles context config) s) := by
  match candles, hlength with
  | first :: _ :: _ :: _ :: _, _ =>
      obtain ⟨s, hwalk, h⟩ := bind_eq_ok.mp h
      cases h
      exact ⟨first, s, rfl, hwalk, rfl⟩

/-- A walk and its settlement are a run. -/
lemma runBacktest_of_walk [Eastern] {candles : List (Candle F)} {context : ℤ → Option String} {startingEquity : F}
    {first : Candle F} (hlength : 4 ≤ candles.length) (hfirst : candles.head? = some first)
    (hwalk : walk (inputsOf candles context config) (startState first startingEquity) = .ok s) :
    runBacktest candles context config startingEquity =
      .ok (resultOf startingEquity (finish (inputsOf candles context config) s)) := by
  match candles, hlength with
  | _ :: _ :: _ :: _ :: _, _ =>
      cases hfirst
      exact bind_eq_ok.mpr ⟨s, hwalk, rfl⟩

/-- Fewer bars trade nothing. -/
lemma runBacktest_few [Eastern] {candles : List (Candle F)} (hlength : ¬4 ≤ candles.length)
    (context : ℤ → Option String) (config : StrategyConfig F) (startingEquity : F) :
    runBacktest candles context config startingEquity = .ok ⟨startingEquity, startingEquity, [], []⟩ := by
  match candles, hlength with
  | [], _ => rfl
  | [_], _ => rfl
  | [_, _], _ => rfl
  | [_, _, _], _ => rfl
  | _ :: _ :: _ :: _ :: _, hlength => simp at hlength

lemma runBacktest_short [Eastern] {candles : List (Candle F)} {context : ℤ → Option String} {startingEquity : F}
    {result : BacktestResult F} (hlength : ¬4 ≤ candles.length)
    (h : runBacktest candles context config startingEquity = .ok result) :
    result = ⟨startingEquity, startingEquity, [], []⟩ := by
  rw [runBacktest_few hlength] at h
  exact (Except.ok.inj h).symm

end MuStrategy.Backtest
