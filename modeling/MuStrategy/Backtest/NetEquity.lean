import Mathlib.Algebra.BigOperators.Group.List.Basic
import Mathlib.Data.List.Chain
import Mathlib.Tactic.Ring
import MuStrategy.Backtest.Books

/-!
# Net equity

In exact arithmetic the samples of a run are net equity: what closed trades brought, and what the open fills
are worth at the mark less their fees.

* `Moment`, `Moment.netEquity`, `Moment.Next` — the account at a sample, its value, and how one sample follows
  another.
* `Account` — what the books keep; `Account.move` — every move keeps it.
* `net_equity` — the accounts of every run.
-/

namespace MuStrategy.Backtest

open Lib TrustedData Strategy

/-- The account when a sample is taken: the mark, the trades closed before, the fills open then. -/
structure Moment where
  timeMs : ℤ
  mark : ℚ
  closed : List (Trade ℚ)
  openFills : List (Fill ℚ)

/-- Starting equity and what trades brought. -/
def settledEquity (startingEquity : ℚ) (trades : List (Trade ℚ)) : ℚ :=
  startingEquity + (trades.map Trade.pnl).sum

/-- Settled equity, the gain of the open fills at the mark, less their fees. -/
def Moment.netEquity (startingEquity : ℚ) (m : Moment) : ℚ :=
  settledEquity startingEquity m.closed + (m.openFills.map fun fill => (m.mark - fill.price) * fill.units).sum -
    (m.openFills.map Fill.fee).sum

/-- The result of a trade: its gain, less the fee of each of its fills once and the exit fee once. -/
def netResult (feeRate : ℚ) (trade : Trade ℚ) : ℚ :=
  (trade.fills.map fun fill => (trade.exitPrice - fill.price) * fill.units).sum - (trade.fills.map Fill.fee).sum -
    feeRate * trade.exitPrice * (trade.fills.map Fill.units).sum

/-- The notional of a fill: settled equity, by its margin and the leverage. -/
def SizedBy (leverage settled : ℚ) (fill : Fill ℚ) : Prop := fill.notional = settled * fill.marginFraction * leverage

/-- How a sample follows another: the close of a bar is observed, a fill is bought at its price, or the open
fills are settled. -/
inductive Moment.Next (startingEquity : ℚ) (config : StrategyConfig ℚ) (candles : List (Candle ℚ)) :
    Moment → Moment → Prop
  | close {m : Moment} {candle : Candle ℚ} : candle ∈ candles →
      Next startingEquity config candles m ⟨candle.openTimeMs, candle.closePrice, m.closed, m.openFills⟩
  | fill {m : Moment} {fill : Fill ℚ} : SizedBy config.leverage (settledEquity startingEquity m.closed) fill →
      Next startingEquity config candles m ⟨fill.timeMs, fill.price, m.closed, m.openFills ++ [fill]⟩
  | settle {m : Moment} {trade : Trade ℚ} : m.openFills ≠ [] → trade.fills = m.openFills →
      Next startingEquity config candles m ⟨trade.exitTimeMs, trade.exitPrice, m.closed ++ [trade], []⟩

/-- A list of samples from an account with nothing closed and nothing open, to one with given trades and fills. -/
structure History (startingEquity : ℚ) (config : StrategyConfig ℚ) (candles : List (Candle ℚ))
    (history : List Moment) (closed : List (Trade ℚ)) (openFills : List (Fill ℚ)) : Prop where
  next : history.IsChain (Moment.Next startingEquity config candles)
  first : ∃ m, history.head? = some m ∧ m.closed = [] ∧ m.openFills = []
  last : ∃ m, history.getLast? = some m ∧ m.closed = closed ∧ m.openFills = openFills

section books

variable (startingEquity : ℚ) (config : StrategyConfig ℚ) (candles : List (Candle ℚ))

/-- Each trade brought its net result, and its fills were sized by what was settled before it. -/
structure TradesAccounted (trades : List (Trade ℚ)) : Prop where
  pnl : ∀ trade ∈ trades, trade.pnl = netResult config.feeRate trade
  sized : ∀ before trade after, trades = before ++ trade :: after →
    ∀ fill ∈ trade.fills, SizedBy config.leverage (settledEquity startingEquity before) fill

/-- What the books keep. -/
structure Account (b : Books ℚ) : Prop where
  settled : b.equity = settledEquity startingEquity b.trades
  trades : TradesAccounted startingEquity config b.trades
  openSized : ∀ fill ∈ b.openFills, SizedBy config.leverage b.equity fill
  history : ∃ history, History startingEquity config candles history b.trades b.openFills ∧
    b.equityCurve = history.map fun m => (m.timeMs, m.netEquity startingEquity)

variable {startingEquity config candles} {b b' : Books ℚ} {candle : Candle ℚ}

lemma History.concat {history : List Moment} {closed closed' : List (Trade ℚ)} {openFills openFills' : List (Fill ℚ)}
    (h : History startingEquity config candles history closed openFills) {m : Moment}
    (hnext : ∀ l : Moment, l.closed = closed → l.openFills = openFills →
      Moment.Next startingEquity config candles l m) (hclosed : m.closed = closed') (hopen : m.openFills = openFills') :
    History startingEquity config candles (history ++ [m]) closed' openFills' := by
  obtain ⟨first, hfirst, hfirstClosed, hfirstOpen⟩ := h.first
  obtain ⟨last, hlast, hlastClosed, hlastOpen⟩ := h.last
  refine ⟨h.next.append (List.isChain_singleton m) ?_, ⟨first, ?_, hfirstClosed, hfirstOpen⟩,
    ⟨m, List.getLast?_concat .., hclosed, hopen⟩⟩
  · intro l hl m' hm'
    rw [hlast, Option.mem_some_iff] at hl
    rw [List.head?_singleton, Option.mem_some_iff] at hm'
    subst hl hm'
    exact hnext last hlastClosed hlastOpen
  · rw [List.head?_append, hfirst, Option.some_or]

/-- In exact arithmetic an account with nothing open is worth what it settled. -/
lemma marked_eq (mark : ℚ) : b.marked mark =
    b.equity + (b.openFills.map fun fill => (mark - fill.price) * fill.units).sum - (b.openFills.map Fill.fee).sum := by
  unfold Books.marked
  cases hopen : b.openFills with
  | nil => simp
  | cons fill fills => rfl

lemma Account.observe (h : Account startingEquity config candles b) (hcandle : candle ∈ candles) :
    Account startingEquity config candles (b.observe candle.openTimeMs candle.closePrice) := by
  obtain ⟨history, hhistory, hcurve⟩ := h.history
  refine ⟨h.settled, h.trades, h.openSized, history ++ [⟨candle.openTimeMs, candle.closePrice, b.trades, b.openFills⟩],
    hhistory.concat (fun l hclosed hopen => ?_) rfl rfl, ?_⟩
  · rw [← hclosed, ← hopen]
    exact .close hcandle
  · rw [List.map_append, ← hcurve, List.map_singleton, Moment.netEquity, ← h.settled, ← marked_eq]
    rfl

lemma Account.buy {price margin : ℚ} {fill : Fill ℚ} (h : Account startingEquity config candles b)
    (hfill : makeFill candle.openTimeMs price margin b.equity config = .ok fill) :
    Account startingEquity config candles ((b.buy fill).observe candle.openTimeMs fill.price) := by
  obtain ⟨history, hhistory, hcurve⟩ := h.history
  have hsized : SizedBy config.leverage b.equity fill ∧ fill.timeMs = candle.openTimeMs := by
    obtain ⟨-, -, hfill⟩ := bind_eq_ok.mp hfill
    cases hfill
    exact ⟨rfl, rfl⟩
  refine ⟨h.settled, h.trades, ?_, history ++ [⟨fill.timeMs, fill.price, b.trades, b.openFills ++ [fill]⟩],
    hhistory.concat (fun l hclosed hopen => ?_) rfl rfl, ?_⟩
  · intro f hmem
    rcases List.mem_append.mp hmem with hold | hnew
    · exact h.openSized f hold
    · rw [List.mem_singleton.mp hnew]
      exact hsized.1
  · rw [← hclosed, ← hopen]
    refine .fill ?_
    rw [hclosed, ← h.settled]
    exact hsized.1
  · rw [List.map_append, ← hcurve, List.map_singleton, Moment.netEquity, ← h.settled, hsized.2]
    change _ ++ [(_, (b.buy fill).marked fill.price)] = _
    rw [marked_eq]
    rfl

lemma Account.settle {trade : Trade ℚ} (h : Account startingEquity config candles b) (hopen : b.openFills ≠ [])
    (hfills : trade.fills = b.openFills) (hpnl : trade.pnl = netPnl b.openFills trade.exitPrice config) :
    Account startingEquity config candles (b.settle trade) := by
  obtain ⟨history, hhistory, hcurve⟩ := h.history
  have hsettled : (b.settle trade).equity = settledEquity startingEquity (b.trades ++ [trade]) := by
    simp only [Books.settle, h.settled, settledEquity, List.map_append, List.sum_append, List.map_singleton,
      List.sum_singleton, add_assoc]
  refine ⟨hsettled, ⟨?_, ?_⟩, ?_, history ++ [⟨trade.exitTimeMs, trade.exitPrice, b.trades ++ [trade], []⟩],
    hhistory.concat (fun l hclosed hopen' => ?_) rfl rfl, ?_⟩
  · intro t hmem
    rcases List.mem_append.mp hmem with hold | hnew
    · exact h.trades.pnl t hold
    · rw [List.mem_singleton.mp hnew, hpnl, netResult, hfills]
      simp only [netPnl, gainOf, feesOf, unitsOf, Number.sum]
      ring
  · intro before t after hsplit
    change b.trades ++ [trade] = before ++ t :: after at hsplit
    rcases List.eq_nil_or_concat after with rfl | ⟨rest, last, rfl⟩
    · -- the trade that was just closed
      obtain ⟨rfl, hlast⟩ := List.append_inj' hsplit rfl
      cases hlast
      rw [hfills, ← h.settled]
      exact h.openSized
    · rw [List.concat_eq_append, ← List.cons_append, ← List.append_assoc] at hsplit
      exact h.trades.sized before t rest (List.append_inj' hsplit rfl).1
  · intro fill hmem
    cases hmem
  · rw [← hclosed]
    exact .settle (by rwa [hopen']) (by rw [hopen', hfills])
  · rw [List.map_append, ← hcurve, List.map_singleton, Moment.netEquity, ← hsettled]
    simp only [Books.settle, List.map_nil, List.sum_nil, add_zero, sub_zero]

/-- **Every move keeps the account.** -/
theorem Account.move (hcandle : candle ∈ candles) (hmove : Move config candle b b')
    (h : Account startingEquity config candles b) : Account startingEquity config candles b' := by
  cases hmove with
  | observe => exact h.observe hcandle
  | buy hfill => exact h.buy hfill
  | settle hopen hfills _ hpnl => exact h.settle hopen hfills hpnl

end books

section runs

variable [Eastern] {startingEquity : ℚ} {config : StrategyConfig ℚ} {candles : List (Candle ℚ)}
  {context : ℤ → Option String}

omit [Eastern] in
/-- The books before the walk. -/
lemma Account.start (first : Candle ℚ) : Account startingEquity config candles (startState first startingEquity).books := by
  have hsettled : startingEquity = settledEquity startingEquity [] := by
    simp only [settledEquity, List.map_nil, List.sum_nil, add_zero]
  have hvalue : startingEquity = Moment.netEquity startingEquity ⟨first.openTimeMs, 0, [], []⟩ := by
    simp only [Moment.netEquity, ← hsettled, List.map_nil, List.sum_nil, add_zero, sub_zero]
  refine ⟨hsettled, ⟨?_, ?_⟩, ?_, [⟨first.openTimeMs, 0, [], []⟩],
    ⟨List.isChain_singleton _, ⟨_, rfl, rfl, rfl⟩, ⟨_, rfl, rfl, rfl⟩⟩, ?_⟩
  · intro trade hmem
    cases hmem
  · intro before trade after hsplit
    exact absurd (congrArg List.length hsplit) (by simp [BacktestState.books, startState])
  · intro fill hmem
    cases hmem
  · rw [List.map_singleton, ← hvalue]
    rfl

/-- **The books of a whole run are accounted**, and nothing is open at its end. -/
theorem finish_account {s : BacktestState ℚ} {first : Candle ℚ} (hne : candles ≠ [])
    (hwalk : walk (inputsOf candles context config) (startState first startingEquity) = .ok s) :
    Account startingEquity config candles (finish (inputsOf candles context config) s).books ∧
      (finish (inputsOf candles context config) s).books.openFills = [] := by
  have hs : Account startingEquity config candles s.books :=
    (walk_moves hwalk).invariant (fun candle b b' hcandle hmove => Account.move hcandle hmove) (Account.start first)
  rcases finish_cases (inputsOf candles context config) s hne with ⟨hflat, hfinish⟩ | ⟨position, hopen, hfinish⟩
  · rw [hfinish]
    exact ⟨hs, by simp only [BacktestState.books, BacktestState.openFills, hflat]⟩
  · rw [hfinish]
    exact ⟨hs.move (List.getLast_mem hne) (settle_move hopen _ _), rfl⟩

/-- The accounts of a result. -/
structure NetEquity (startingEquity : ℚ) (config : StrategyConfig ℚ) (candles : List (Candle ℚ))
    (result : BacktestResult ℚ) : Prop where
  samples : ∃ history, result.equityCurve = history.map (fun m => (m.timeMs, m.netEquity startingEquity)) ∧
    (candles.length < 4 → history = []) ∧
    (4 ≤ candles.length → History startingEquity config candles history result.trades [])
  trades : TradesAccounted startingEquity config result.trades
  ending : result.endingEquity = settledEquity startingEquity result.trades
  lastSample : 4 ≤ candles.length → result.equityCurve.getLast?.map Prod.snd = some result.endingEquity

/-- **Net-equity accounting**: every sample is net equity at its moment, every trade brought its net result, every
fill was sized by settled equity, and the run ends with what the trades brought. -/
theorem net_equity {result : BacktestResult ℚ} (hrun : runBacktest candles context config startingEquity = .ok result) :
    NetEquity startingEquity config candles result := by
  by_cases hlength : 4 ≤ candles.length
  · obtain ⟨first, s, -, hwalk, rfl⟩ := runBacktest_eq_ok hlength hrun
    obtain ⟨haccount, hclosed⟩ := finish_account (by rintro rfl; cases hlength) hwalk
    obtain ⟨history, hhistory, hcurve⟩ := haccount.history
    rw [hclosed] at hhistory
    refine ⟨⟨history, hcurve, fun hshort => absurd hshort (by omega), fun _ => hhistory⟩, haccount.trades,
      haccount.settled, fun _ => ?_⟩
    -- the last sample is taken with nothing open
    obtain ⟨m, hm, hmclosed, hmopen⟩ := hhistory.last
    change (finish (inputsOf candles context config) s).books.equityCurve.getLast?.map Prod.snd =
      some (finish (inputsOf candles context config) s).books.equity
    rw [hcurve, List.getLast?_map, hm, haccount.settled]
    simp only [Option.map_some, Moment.netEquity, hmclosed, hmopen, List.map_nil, List.sum_nil, add_zero, sub_zero]
  · have hshort := runBacktest_short hlength hrun
    subst hshort
    refine ⟨⟨[], rfl, fun _ => rfl, fun hlong => absurd hlong hlength⟩, ⟨?_, ?_⟩, ?_, fun hlong => absurd hlong hlength⟩
    · intro trade hmem
      cases hmem
    · intro before trade after hsplit
      exact absurd (congrArg List.length hsplit) (by simp)
    · simp only [settledEquity, List.map_nil, List.sum_nil, add_zero]

end runs

/-- The accounts of a morning with an entry and an add. -/
theorem net_equity_demo :
    let _ := mondayTime
    ∃ result, runBacktest morning (fun _ => none) morningConfig 1000 = .ok result ∧
      NetEquity 1000 morningConfig morning result := by
  intro zone
  obtain ⟨result, hrun⟩ := exists_eq_ok_of_isOk
    (show (runBacktest morning (fun _ => none) morningConfig 1000).isOk = true by decide +kernel)
  exact ⟨result, hrun, net_equity hrun⟩

end MuStrategy.Backtest
