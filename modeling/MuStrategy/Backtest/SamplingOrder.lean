import MuStrategy.Backtest.NetEquity
import MuStrategy.Backtest.StopLife

/-!
# The order of the samples

Samples of a bar share its label, and their order carries what happened on it: a fill is the first of its bar, a stop
comes before everything else on a later bar and right after the fill on the bar of the entry, and the end of the data
comes last.

* `Moment.Follows`, `Recorded` — how one sample follows another, and the samples of a run.
* `Past`, `Ahead` — what the label of a sample says of the trades closed before it, and of those closed later.
* `SampledOnExitBar` — the trades that were open at a sample with the label of their exit.
* `Sampled`, `exists_recorded` — every run is recorded so.
-/

namespace MuStrategy.Backtest

open Lib TrustedData Strategy

/-! ## Recorded samples -/

/-- How a sample follows another on candles in order of time. -/
inductive Moment.Follows (candles : List (Candle ℚ)) : Moment → Moment → Prop
  | close {m : Moment} {candle : Candle ℚ} : candle ∈ candles → m.timeMs ≤ candle.openTimeMs →
      Follows candles m ⟨candle.openTimeMs, candle.closePrice, m.closed, m.openFills⟩
  | fill {m : Moment} {fill : Fill ℚ} : m.timeMs < fill.timeMs →
      Follows candles m ⟨fill.timeMs, fill.price, m.closed, m.openFills ++ [fill]⟩
  | stop {m : Moment} {trade : Trade ℚ} : m.openFills ≠ [] → trade.fills = m.openFills →
      m.timeMs < trade.exitTimeMs → trade.exitReason ≠ .endOfData →
      Follows candles m ⟨trade.exitTimeMs, trade.exitPrice, m.closed ++ [trade], []⟩
  | entryStop {m : Moment} {trade : Trade ℚ} {fill : Fill ℚ} : m.openFills = [fill] → trade.fills = [fill] →
      m.timeMs = trade.exitTimeMs → fill.timeMs = trade.exitTimeMs →
      Follows candles m ⟨trade.exitTimeMs, trade.exitPrice, m.closed ++ [trade], []⟩
  | endOfData {m : Moment} {trade : Trade ℚ} : m.openFills ≠ [] → trade.fills = m.openFills →
      m.timeMs = trade.exitTimeMs → trade.exitReason = .endOfData →
      Follows candles m ⟨trade.exitTimeMs, trade.exitPrice, m.closed ++ [trade], []⟩

/-- The samples of a run, each with the account it was taken of. -/
structure Recorded (startingEquity : ℚ) (candles : List (Candle ℚ)) (result : BacktestResult ℚ) (history : List Moment) :
    Prop where
  follows : history.IsChain (Moment.Follows candles)
  first : ∃ m, history.head? = some m ∧ m.closed = [] ∧ m.openFills = []
  last : ∃ m, history.getLast? = some m ∧ m.closed = result.trades ∧ m.openFills = []
  curve : result.equityCurve = history.map fun m => (m.timeMs, m.netEquity startingEquity)

/-- A trade that was open at a sample of the bar of its exit. -/
def SampledOnExitBar (trade : Trade ℚ) : Prop :=
  trade.exitReason = .endOfData ∨ ∃ fill ∈ trade.fills, fill.timeMs = trade.exitTimeMs

/-- What is in the account of a sample is not after it. -/
structure Past (m : Moment) : Prop where
  closed : ∀ trade ∈ m.closed, trade.exitTimeMs ≤ m.timeMs
  openFills : ∀ fill ∈ m.openFills, fill.timeMs ≤ m.timeMs

/-- A trade that is entered after a time. -/
structure EntersAfter (timeMs : ℤ) (trade : Trade ℚ) : Prop where
  exit : timeMs < trade.exitTimeMs
  fills : ∀ fill ∈ trade.fills, timeMs < fill.timeMs

/-- The trades that are closed after a sample: first the open one, that may have the label of the sample. -/
structure Ahead (m : Moment) (later : List (Trade ℚ)) : Prop where
  flat : m.openFills = [] → ∀ trade ∈ later, EntersAfter m.timeMs trade
  held : m.openFills ≠ [] → ∃ trade rest more, later = trade :: rest ∧ trade.fills = m.openFills ++ more ∧
    (∀ fill ∈ more, m.timeMs < fill.timeMs) ∧ (∀ other ∈ rest, EntersAfter m.timeMs other) ∧
    (m.timeMs < trade.exitTimeMs ∨ m.timeMs = trade.exitTimeMs ∧ more = [] ∧ SampledOnExitBar trade)

section recorded

variable {candles : List (Candle ℚ)} {m n : Moment} {later : List (Trade ℚ)} {trade : Trade ℚ} {timeMs : ℤ}
  {history post : List Moment} {startingEquity : ℚ} {result : BacktestResult ℚ}

lemma EntersAfter.mono {timeMs' : ℤ} (h : EntersAfter timeMs' trade) (hle : timeMs ≤ timeMs') : EntersAfter timeMs trade :=
  ⟨hle.trans_lt h.exit, fun fill hfill => hle.trans_lt (h.fills fill hfill)⟩

lemma Past.observe (h : Past m) (hle : m.timeMs ≤ timeMs) (mark : ℚ) : Past ⟨timeMs, mark, m.closed, m.openFills⟩ :=
  ⟨fun trade htrade => (h.closed trade htrade).trans hle, fun fill hfill => (h.openFills fill hfill).trans hle⟩

lemma Past.settle (h : Past m) (hle : m.timeMs ≤ trade.exitTimeMs) (mark : ℚ) :
    Past ⟨trade.exitTimeMs, mark, m.closed ++ [trade], []⟩ := by
  refine ⟨fun other hother => ?_, fun fill hfill => absurd hfill List.not_mem_nil⟩
  rcases List.mem_append.mp hother with hother | hother
  · exact (h.closed other hother).trans hle
  · exact (List.mem_singleton.mp hother ▸ le_refl trade.exitTimeMs : other.exitTimeMs ≤ trade.exitTimeMs)

/-- A sample that follows keeps the account behind its label. -/
lemma Moment.Follows.past (h : Moment.Follows candles m n) (hpast : Past m) : Past n := by
  cases h with
  | close _ hle => exact hpast.observe hle _
  | @fill fill hlt =>
      refine ⟨fun trade htrade => (hpast.closed trade htrade).trans hlt.le, fun other hother => ?_⟩
      rcases List.mem_append.mp hother with hother | hother
      · exact (hpast.openFills other hother).trans hlt.le
      · exact (List.mem_singleton.mp hother ▸ le_refl fill.timeMs : other.timeMs ≤ fill.timeMs)
  | stop _ _ hlt _ => exact hpast.settle hlt.le _
  | entryStop _ _ htime _ => exact hpast.settle htime.le _
  | endOfData _ _ htime _ => exact hpast.settle htime.le _

/-- The close of a bar keeps what is ahead. -/
lemma Ahead.of_close {mark : ℚ} (h : Ahead ⟨timeMs, mark, m.closed, m.openFills⟩ later) (hle : m.timeMs ≤ timeMs) :
    Ahead m later := by
  refine ⟨fun hflat trade htrade => (h.flat hflat trade htrade).mono hle, fun hheld => ?_⟩
  obtain ⟨trade, rest, more, hlater, hfills, hmore, hrest, hexit⟩ := h.held hheld
  refine ⟨trade, rest, more, hlater, hfills, fun fill hfill => hle.trans_lt (hmore fill hfill),
    fun other hother => (hrest other hother).mono hle, ?_⟩
  rcases hexit with hlt | ⟨htime, hrecorded⟩
  · exact .inl (hle.trans_lt hlt)
  · rcases hle.lt_or_eq with hlt | heq
    · exact .inl (htime ▸ hlt)
    · exact .inr ⟨heq.trans htime, hrecorded⟩

/-- Before a fill, the trade it belongs to is ahead. -/
lemma Ahead.of_fill {fill : Fill ℚ} (h : Ahead ⟨fill.timeMs, fill.price, m.closed, m.openFills ++ [fill]⟩ later)
    (hlt : m.timeMs < fill.timeMs) : Ahead m later := by
  obtain ⟨trade, rest, more, rfl, hfills, hmore, hrest, hexit⟩ :=
    h.held (List.append_ne_nil_of_right_ne_nil _ (List.cons_ne_nil _ _))
  rw [List.append_assoc] at hfills
  have hexit' : m.timeMs < trade.exitTimeMs := by
    rcases hexit with hexit | ⟨htime, -⟩
    · exact hlt.trans hexit
    · exact htime ▸ hlt
  have hmore' : ∀ other ∈ [fill] ++ more, m.timeMs < other.timeMs := by
    intro other hother
    rcases List.mem_append.mp hother with hother | hother
    · exact List.mem_singleton.mp hother ▸ hlt
    · exact hlt.trans (hmore other hother)
  have hrest' : ∀ other ∈ rest, EntersAfter m.timeMs other := fun other hother => (hrest other hother).mono hlt.le
  refine ⟨fun hflat => List.forall_mem_cons.mpr ⟨⟨hexit', ?_⟩, hrest'⟩,
    fun _ => ⟨trade, rest, [fill] ++ more, rfl, hfills, hmore', hrest', .inl hexit'⟩⟩
  rw [hfills, hflat, List.nil_append]
  exact hmore'

/-- Before a settlement, its trade is ahead. -/
lemma Ahead.of_settle {mark : ℚ} (h : Ahead ⟨trade.exitTimeMs, mark, m.closed ++ [trade], []⟩ later)
    (hopen : m.openFills ≠ []) (hfills : trade.fills = m.openFills)
    (htime : m.timeMs < trade.exitTimeMs ∨ m.timeMs = trade.exitTimeMs ∧ SampledOnExitBar trade) :
    Ahead m (trade :: later) := by
  have hle : m.timeMs ≤ trade.exitTimeMs := htime.elim le_of_lt fun h => h.1.le
  refine ⟨fun hflat => absurd hflat hopen, fun _ => ⟨trade, later, [], rfl, ?_, ?_, ?_, ?_⟩⟩
  · rw [hfills, List.append_nil]
  · exact fun _ hnil => absurd hnil List.not_mem_nil
  · exact fun other hother => (h.flat rfl other hother).mono hle
  · exact htime.imp_right fun h => ⟨h.1, rfl, h.2⟩

/-- What closes a trade on the label of the sample before it. -/
lemma Moment.Follows.cases (h : Moment.Follows candles m n) :
    n.closed = m.closed ∧ (∀ later, Ahead n later → Ahead m later) ∨
    ∃ trade, n.closed = m.closed ++ [trade] ∧ trade.fills = m.openFills ∧
      (∀ later, Ahead n later → Ahead m (trade :: later)) ∧
      (m.timeMs < trade.exitTimeMs ∧ trade.exitReason ≠ .endOfData ∨
        m.timeMs = trade.exitTimeMs ∧ SampledOnExitBar trade) := by
  cases h with
  | close _ hle => exact .inl ⟨rfl, fun later h => h.of_close hle⟩
  | fill hlt => exact .inl ⟨rfl, fun later h => h.of_fill hlt⟩
  | stop hopen hfills hlt hreason =>
      exact .inr ⟨_, rfl, hfills, fun later h => h.of_settle hopen hfills (.inl hlt), .inl ⟨hlt, hreason⟩⟩
  | @entryStop trade fill hopen hfills htime hfill =>
      have hsampled : SampledOnExitBar trade := .inr ⟨fill, by rw [hfills]; exact List.mem_cons_self, hfill⟩
      have hne : m.openFills ≠ [] := by
        rw [hopen]
        exact List.cons_ne_nil _ _
      exact .inr ⟨trade, rfl, hfills.trans hopen.symm,
        fun later h => h.of_settle hne (hfills.trans hopen.symm) (.inr ⟨htime, hsampled⟩), .inr ⟨htime, hsampled⟩⟩
  | endOfData hopen hfills htime hreason =>
      exact .inr ⟨_, rfl, hfills, fun later h => h.of_settle hopen hfills (.inr ⟨htime, .inl hreason⟩),
        .inr ⟨htime, .inl hreason⟩⟩

/-- **The trades ahead of a sample** are those the record ends with. -/
lemma exists_ahead {trades : List (Trade ℚ)} (h : (m :: post).IsChain (Moment.Follows candles))
    (hlast : ∃ l, (m :: post).getLast? = some l ∧ l.closed = trades ∧ l.openFills = []) :
    ∃ later, trades = m.closed ++ later ∧ Ahead m later := by
  induction post generalizing m with
  | nil =>
      obtain ⟨l, hl, rfl, hflat⟩ := hlast
      obtain rfl := Option.some.inj hl
      exact ⟨[], (List.append_nil _).symm, fun _ _ hnil => absurd hnil List.not_mem_nil, fun hheld => absurd hflat hheld⟩
  | cons n post ih =>
      obtain ⟨hfollows, hchain⟩ := List.isChain_cons_cons.mp h
      rw [List.getLast?_cons_cons] at hlast
      obtain ⟨later, htrades, hahead⟩ := ih hchain hlast
      rcases hfollows.cases with ⟨hclosed, hkeep⟩ | ⟨trade, hclosed, -, hkeep, -⟩
      · exact ⟨later, hclosed ▸ htrades, hkeep later hahead⟩
      · refine ⟨trade :: later, ?_, hkeep later hahead⟩
        rw [htrades, hclosed, List.append_assoc]
        rfl

/-- Every account of a record is behind its label. -/
lemma forall_past (h : (m :: post).IsChain (Moment.Follows candles)) (hpast : Past m) : ∀ n ∈ m :: post, Past n := by
  induction post generalizing m with
  | nil => exact List.forall_mem_singleton.mpr hpast
  | cons n post ih =>
      obtain ⟨hfollows, hchain⟩ := List.isChain_cons_cons.mp h
      exact List.forall_mem_cons.mpr ⟨hpast, ih hchain (hfollows.past hpast)⟩

/-- A trade that was open at a sample of the bar of its exit: that sample. -/
lemma exists_sample {trades : List (Trade ℚ)} (h : (m :: post).IsChain (Moment.Follows candles)) (hpast : Past m)
    (hlast : ∃ l, (m :: post).getLast? = some l ∧ l.closed = trades ∧ l.openFills = [])
    (htrades : trades = m.closed ++ later) (htrade : trade ∈ later) (hsampled : SampledOnExitBar trade) :
    ∃ n ∈ m :: post, n.openFills = trade.fills ∧ n.timeMs = trade.exitTimeMs ∧
      ∃ rest, trades = n.closed ++ trade :: rest := by
  induction post generalizing m later with
  | nil =>
      obtain ⟨l, hl, rfl, -⟩ := hlast
      obtain rfl := Option.some.inj hl
      rw [List.self_eq_append_right.mp htrades] at htrade
      cases htrade
  | cons n post ih =>
      obtain ⟨hfollows, hchain⟩ := List.isChain_cons_cons.mp h
      rw [List.getLast?_cons_cons] at hlast
      obtain ⟨later', htrades', -⟩ := exists_ahead hchain hlast
      have hnext : trade ∈ later' → ∃ x ∈ m :: n :: post, x.openFills = trade.fills ∧ x.timeMs = trade.exitTimeMs ∧
          ∃ rest, trades = x.closed ++ trade :: rest := by
        intro hmem
        obtain ⟨x, hx, hrest⟩ := ih hchain (hfollows.past hpast) hlast htrades' hmem
        exact ⟨x, List.mem_cons_of_mem m hx, hrest⟩
      rcases hfollows.cases with ⟨hclosed, -⟩ | ⟨other, hclosed, hfills, -, hexit⟩
      · rw [htrades, hclosed] at htrades'
        exact hnext (List.append_cancel_left htrades' ▸ htrade)
      · rw [hclosed, List.append_assoc] at htrades'
        obtain rfl : later = other :: later' := List.append_cancel_left (htrades.symm.trans htrades')
        rcases List.mem_cons.mp htrade with rfl | hmem
        · rcases hexit with ⟨hlt, hreason⟩ | ⟨htime, -⟩
          · -- a stop on a later bar finds no fill on that bar
            rcases hsampled with hend | ⟨fill, hfill, htime⟩
            · exact absurd hend hreason
            · have hle := hpast.openFills fill (hfills ▸ hfill)
              omega
          · exact ⟨m, List.mem_cons_self, hfills.symm, htime, later', htrades⟩
        · exact hnext hmem

/-- What the labels of a record say. -/
lemma Recorded.forall_ahead (h : Recorded startingEquity candles result history) :
    ∀ m ∈ history, Past m ∧ ∃ later, result.trades = m.closed ++ later ∧ Ahead m later := by
  intro m hm
  obtain ⟨first, hfirst, hclosed, hflat⟩ := h.first
  have hpast : Past first := by
    refine ⟨?_, ?_⟩
    · rw [hclosed]
      exact fun _ hnil => absurd hnil List.not_mem_nil
    · rw [hflat]
      exact fun _ hnil => absurd hnil List.not_mem_nil
  obtain ⟨rest, rfl⟩ := List.head?_eq_some_iff.mp hfirst
  refine ⟨forall_past h.follows hpast m hm, ?_⟩
  obtain ⟨pre, post, heq⟩ := List.append_of_mem hm
  have hchain : (m :: post).IsChain (Moment.Follows candles) := by
    have hfollows := h.follows
    rw [heq] at hfollows
    exact hfollows.right_of_append
  refine exists_ahead hchain ?_
  have hlast := h.last
  rwa [heq, List.getLast?_append_of_ne_nil pre (List.cons_ne_nil m post)] at hlast

/-- The sample of a trade on the bar of its exit. -/
lemma Recorded.exists_sample (h : Recorded startingEquity candles result history) (htrade : trade ∈ result.trades)
    (hsampled : SampledOnExitBar trade) : ∃ m ∈ history, m.openFills = trade.fills ∧ m.timeMs = trade.exitTimeMs ∧
      ∃ rest, result.trades = m.closed ++ trade :: rest := by
  obtain ⟨first, hfirst, hclosed, hflat⟩ := h.first
  have hpast := (h.forall_ahead first (List.mem_of_head? hfirst)).1
  obtain ⟨rest, rfl⟩ := List.head?_eq_some_iff.mp hfirst
  exact Backtest.exists_sample h.follows hpast h.last (by rw [hclosed, List.nil_append]) htrade hsampled

end recorded

/-! ## Every run is recorded -/

/-- The samples of a state so far; the last one has a label. -/
structure Sampled (startingEquity : ℚ) (candles : List (Candle ℚ)) (label : ℤ) (s : BacktestState ℚ) : Prop where
  settled : s.equity = settledEquity startingEquity s.trades
  history : ∃ history : List Moment, history.IsChain (Moment.Follows candles) ∧
    (∃ m, history.head? = some m ∧ m.closed = [] ∧ m.openFills = []) ∧
    (∃ m, history.getLast? = some m ∧ m.closed = s.trades ∧ m.openFills = s.openFills ∧ m.timeMs = label) ∧
    s.equityCurve = history.map fun m => (m.timeMs, m.netEquity startingEquity)

/-- A state before a bar: nothing has happened on it, or an entry was made in advance. -/
structure BarReady (startingEquity : ℚ) (run : Inputs ℚ) (candle : Candle ℚ) (label : ℤ) (s : BacktestState ℚ) : Prop where
  sampled : Sampled startingEquity run.candles label s
  le : label ≤ candle.openTimeMs
  advance : label = candle.openTimeMs → restingEntry run s = none ∧ ∀ position, s.position = some position →
    position.pendingAdd = none ∧ position.firstFill.timeMs = candle.openTimeMs

section runs

variable {startingEquity : ℚ} {candles : List (Candle ℚ)} {config : StrategyConfig ℚ} {label timeMs : ℤ}
  {s t : BacktestState ℚ} {candle : Candle ℚ} {position : OpenPosition ℚ} {run : Inputs ℚ}

/-- One more sample. -/
lemma Sampled.concat (h : Sampled startingEquity candles label s) {m : Moment} {equity : ℚ}
    (hfollows : ∀ l : Moment, l.closed = s.trades → l.openFills = s.openFills → l.timeMs = label →
      Moment.Follows candles l m)
    (hsettled : t.equity = settledEquity startingEquity t.trades) (hclosed : m.closed = t.trades)
    (hopen : m.openFills = t.openFills) (hvalue : m.netEquity startingEquity = equity)
    (hcurve : t.equityCurve = s.equityCurve ++ [(m.timeMs, equity)]) : Sampled startingEquity candles m.timeMs t := by
  obtain ⟨history, hchain, ⟨first, hfirst, hempty⟩, ⟨last, hlast, hlastClosed, hlastOpen, hlabel⟩, hsamples⟩ := h.history
  refine ⟨hsettled, history ++ [m], hchain.append (List.isChain_singleton m) ?_, ⟨first, ?_, hempty⟩,
    ⟨m, List.getLast?_concat .., hclosed, hopen, rfl⟩, ?_⟩
  · intro l hl m' hm'
    rw [hlast, Option.mem_some_iff] at hl
    rw [List.head?_singleton, Option.mem_some_iff] at hm'
    subst hl hm'
    exact hfollows last hlastClosed hlastOpen hlabel
  · rw [List.head?_append, hfirst, Option.some_or]
  · rw [hcurve, hsamples, List.map_append, List.map_singleton, hvalue]

/-- The value of an account is its net equity. -/
lemma netEquity_eq (hsettled : s.equity = settledEquity startingEquity s.trades) (timeMs : ℤ) (mark : ℚ) :
    Moment.netEquity startingEquity ⟨timeMs, mark, s.trades, s.openFills⟩ = markedEquity s.equity s.position mark := by
  rw [← books_marked, marked_eq, Moment.netEquity, ← hsettled]
  rfl

lemma Sampled.recordClose (h : Sampled startingEquity candles label s) (hle : label ≤ candle.openTimeMs)
    (hcandle : candle ∈ candles) : Sampled startingEquity candles candle.openTimeMs (s.recordClose candle) :=
  h.concat (m := ⟨candle.openTimeMs, candle.closePrice, s.trades, s.openFills⟩)
    (fun _ hclosed hopen hlabel => hclosed ▸ hopen ▸ .close hcandle (hlabel ▸ hle)) h.settled rfl rfl
    (netEquity_eq h.settled _ _) rfl

/-- A fill is the first sample of its bar. -/
lemma Sampled.buy (h : Sampled startingEquity candles label s) {fill : Fill ℚ} (hlt : label < fill.timeMs)
    (hfills : position.fills = s.openFills ++ [fill]) (pending : Option (PendingEntry ℚ)) :
    Sampled startingEquity candles fill.timeMs ⟨s.equity,
      s.equityCurve ++ [(fill.timeMs, markedEquity s.equity (some position) fill.price)], s.trades, some position,
      pending⟩ := by
  have hvalue := netEquity_eq (s := ⟨s.equity, s.equityCurve, s.trades, some position, pending⟩) h.settled fill.timeMs
    fill.price
  refine h.concat (m := ⟨fill.timeMs, fill.price, s.trades, s.openFills ++ [fill]⟩)
    (fun l hclosed hopen hlabel => hclosed ▸ hopen ▸ .fill (hlabel ▸ hlt)) h.settled rfl hfills.symm ?_ rfl
  rw [← hvalue, ← hfills]
  rfl

/-- A settlement is a sample with nothing open. -/
lemma Sampled.settle (h : Sampled startingEquity candles label s) (hopen : s.position = some position) {price : ℚ}
    {reason : ExitReason}
    (hfollows : ∀ l : Moment, l.openFills = position.fills → l.timeMs = label → Moment.Follows candles l
      ⟨candle.openTimeMs, price, l.closed ++ [(closePosition position candle price s.equity reason config).2], []⟩) :
    Sampled startingEquity candles candle.openTimeMs (s.settle position candle price reason config) := by
  have hsettled : (s.settle position candle price reason config).equity =
      settledEquity startingEquity (s.settle position candle price reason config).trades := by
    change s.equity + (closePosition position candle price s.equity reason config).2.pnl =
      settledEquity startingEquity (s.trades ++ [(closePosition position candle price s.equity reason config).2])
    simp only [h.settled, settledEquity, List.map_append, List.sum_append, List.map_singleton, List.sum_singleton, add_assoc]
  refine h.concat (m := ⟨candle.openTimeMs, price, (s.settle position candle price reason config).trades, []⟩)
    (fun l hclosed hopenFills hlabel => ?_) hsettled rfl rfl ?_ rfl
  · have hlast := hfollows l (hopenFills.trans (openFills_of_position hopen)) hlabel
    rwa [hclosed] at hlast
  · rw [Moment.netEquity, ← hsettled]
    simp only [List.map_nil, List.sum_nil, add_zero, sub_zero]
    rfl

/-- A stop on a later bar. -/
lemma Sampled.stop (h : Sampled startingEquity candles label s) (hopen : s.position = some position) {price : ℚ}
    {reason : ExitReason} (hlt : label < candle.openTimeMs) (hreason : reason ≠ .endOfData) :
    Sampled startingEquity candles candle.openTimeMs (s.settle position candle price reason config) :=
  h.settle hopen fun l hfills hlabel =>
    @Moment.Follows.stop candles l (closePosition position candle price s.equity reason config).2
      (by rw [hfills]; exact position.fills_ne) hfills.symm (hlabel ▸ hlt) hreason

/-- A stop on the bar of the entry. -/
lemma Sampled.entryStop (h : Sampled startingEquity candles label s) (hopen : s.position = some position) {price : ℚ}
    {reason : ExitReason} {fill : Fill ℚ} (hfill : position.fills = [fill]) (htime : fill.timeMs = candle.openTimeMs)
    (hlabel : label = candle.openTimeMs) :
    Sampled startingEquity candles candle.openTimeMs (s.settle position candle price reason config) :=
  h.settle hopen fun l hfills hl =>
    @Moment.Follows.entryStop candles l (closePosition position candle price s.equity reason config).2 fill
      (hfills.trans hfill) hfill (hl.trans hlabel) htime

/-- The end of the data, after the close of the last bar. -/
lemma Sampled.endOfData (h : Sampled startingEquity candles candle.openTimeMs s) (hopen : s.position = some position)
    {price : ℚ} : Sampled startingEquity candles candle.openTimeMs (s.settle position candle price .endOfData config) :=
  h.settle hopen fun l hfills hlabel =>
    @Moment.Follows.endOfData candles l (closePosition position candle price s.equity .endOfData config).2
      (by rw [hfills]; exact position.fills_ne) hfills.symm hlabel rfl

/-- The plans and the stop of a position are not sampled. -/
lemma Sampled.manage (h : Sampled startingEquity candles label s) {managed : OpenPosition ℚ}
    (hopen : s.position = some position) (hfills : managed.fills = position.fills) :
    Sampled startingEquity candles label { s with position := some managed } := by
  have hsame : ({ s with position := some managed } : BacktestState ℚ).openFills = s.openFills :=
    hfills.trans (openFills_of_position hopen).symm
  refine ⟨h.settled, ?_⟩
  rw [hsame]
  exact h.history

/-- Nor is an order. -/
lemma Sampled.rest (h : Sampled startingEquity candles label s) (pending : Option (PendingEntry ℚ)) :
    Sampled startingEquity candles label { s with pendingEntry := pending } := ⟨h.settled, h.history⟩

variable [Eastern]

/-- An entry, on a bar without a sample: it is kept, or stopped at once. -/
lemma Sampled.enter (h : Sampled startingEquity run.candles label s) (hflat : s.position = none) {price : ℚ}
    (hlt : label < candle.openTimeMs) (henter : enter run candle price s = .ok t) :
    Sampled startingEquity run.candles candle.openTimeMs t ∧ t.pendingEntry = none ∧
      ∀ position, t.position = some position →
        position.pendingAdd = none ∧ position.firstFill.timeMs = candle.openTimeMs := by
  obtain ⟨margin, -, henter⟩ := bind_eq_ok.mp henter
  obtain ⟨fill, hfill, henter⟩ := bind_eq_ok.mp henter
  obtain ⟨⟨settled, u⟩, hexit, henter⟩ := bind_eq_ok.mp henter
  obtain rfl := pure_eq_ok_iff.mp henter
  obtain ⟨-, -, hfill⟩ := bind_eq_ok.mp hfill
  obtain rfl := pure_eq_ok_iff.mp hfill
  obtain ⟨fill, hfill⟩ : ∃ fill : Fill ℚ, fill = ⟨candle.openTimeMs, price, margin, s.equity * margin * run.config.leverage,
    s.equity * margin * run.config.leverage / price, s.equity * margin * run.config.leverage * run.config.feeRate⟩ :=
    ⟨_, rfl⟩
  have htime : fill.timeMs = candle.openTimeMs := by rw [hfill]
  have hprice : fill.price = price := by rw [hfill]
  have hbought : Sampled startingEquity run.candles candle.openTimeMs ⟨s.equity,
      s.equityCurve ++ [(candle.openTimeMs, markedEquity s.equity (some (entryPosition run.config fill)) price)], s.trades,
      some (entryPosition run.config fill), none⟩ := by
    have hfills : (entryPosition run.config fill).fills = s.openFills ++ [fill] := by rw [openFills_of_flat hflat]; rfl
    have hbuy := h.buy (htime ▸ hlt) hfills none
    rwa [htime, hprice] at hbuy
  rw [hfill] at hbought
  rcases exitOnRisk_cases hexit with ⟨-, rfl⟩ | ⟨-, exitPrice, reason, rfl⟩
  · refine ⟨hbought, rfl, fun position hposition => ?_⟩
    obtain rfl := Option.some.inj hposition
    exact ⟨rfl, rfl⟩
  · exact ⟨hbought.entryStop rfl rfl rfl rfl, rfl, fun position hposition => by cases hposition⟩

/-- A position on a bar: an add is the first sample of it, and its close is another. -/
lemma Sampled.manageStep {index : ℕ} (h : Sampled startingEquity run.candles label s) (hopen : s.position = some position)
    (hle : label ≤ candle.openTimeMs) (hplan : label = candle.openTimeMs → position.pendingAdd = none)
    (hcandle : candle ∈ run.candles) (hstep : manageStep run index candle position s = .ok t) :
    Sampled startingEquity run.candles candle.openTimeMs t := by
  obtain ⟨added, hadded, hstep⟩ := bind_eq_ok.mp hstep
  obtain ⟨tightened, htightened, hstep⟩ := bind_eq_ok.mp hstep
  obtain ⟨planned, hplanned, hstep⟩ := bind_eq_ok.mp hstep
  obtain ⟨hfills, -, -⟩ := managed_cases htightened hplanned
  obtain rfl := pure_eq_ok_iff.mp hstep
  rcases executePyramidAdd_cases hadded with
    ⟨hsame, -⟩ | ⟨plan, fill, hsome, htime, -, -, -, -, hgrown, -⟩
  · rw [if_neg (by rw [hsame]; omega)]
    exact (h.manage hopen (hfills.trans hsame)).recordClose hle hcandle
  · rw [if_pos (by rw [hgrown, List.length_append, List.length_singleton]; omega)]
    have hlt : label < candle.openTimeMs := hle.lt_of_ne fun heq => by
      rw [hplan heq] at hsome
      cases hsome
    have hlast : added.lastFill = fill := by simp only [OpenPosition.lastFill, hgrown, List.getLast_concat]
    have hfills' : added.fills = s.openFills ++ [fill] :=
      hgrown.trans (congrArg (· ++ [fill]) (openFills_of_position hopen).symm)
    have hbought := h.buy (htime ▸ hlt) hfills' s.pendingEntry
    rw [htime, ← hlast] at hbought
    exact (hbought.manage rfl hfills).recordClose le_rfl hcandle

/-- A bar with an open position. -/
lemma BarReady.heldStep {index : ℕ} (h : BarReady startingEquity run candle label s) (hopen : s.position = some position)
    (hcandle : candle ∈ run.candles) (hstep : heldStep run index candle position s = .ok t) :
    Sampled startingEquity run.candles candle.openTimeMs t := by
  have hplan : label = candle.openTimeMs → position.pendingAdd = none := fun heq => ((h.advance heq).2 position hopen).1
  unfold Backtest.heldStep at hstep
  split at hstep
  · exact h.sampled.manageStep hopen h.le hplan hcandle hstep
  · rename_i hearlier
    have hlt : label < candle.openTimeMs := h.le.lt_of_ne fun heq => hearlier ((h.advance heq).2 position hopen).2
    obtain ⟨⟨settled, u⟩, hexit, hrest⟩ := bind_eq_ok.mp hstep
    obtain ⟨decision, hdecision, hexit⟩ := bind_eq_ok.mp hexit
    rcases decision with _ | ⟨exitPrice, reason⟩
    · cases hexit
      exact h.sampled.manageStep hopen h.le hplan hcandle hrest
    · cases hexit
      cases hrest
      have hreason : reason ≠ .endOfData := by
        rcases riskExit_reason hdecision with rfl | ⟨rfl, -⟩ <;> rintro ⟨⟩
      exact (h.sampled.stop hopen hlt hreason).recordClose le_rfl hcandle

/-- A bar on which an order rests. -/
lemma BarReady.pendingStep {pending : PendingEntry ℚ} (h : BarReady startingEquity run candle label s)
    (hflat : s.position = none) (hresting : restingEntry run s = some pending) (hcandle : candle ∈ run.candles)
    (hstep : pendingStep run pending candle s = .ok t) : Sampled startingEquity run.candles candle.openTimeMs t := by
  have hlt : label < candle.openTimeMs := h.le.lt_of_ne fun heq => by
    rw [(h.advance heq).1] at hresting
    cases hresting
  unfold Backtest.pendingStep at hstep
  split at hstep
  · obtain ⟨inWindow, -, hstep⟩ := bind_eq_ok.mp hstep
    split at hstep
    · obtain rfl := pure_eq_ok_iff.mp hstep
      exact h.sampled.recordClose h.le hcandle
    · split at hstep
      · obtain rfl := pure_eq_ok_iff.mp hstep
        exact h.sampled.recordClose h.le hcandle
      · obtain ⟨u, henter, hstep⟩ := bind_eq_ok.mp hstep
        obtain rfl := pure_eq_ok_iff.mp hstep
        exact (h.sampled.enter hflat hlt henter).1.recordClose le_rfl hcandle
  · obtain rfl := pure_eq_ok_iff.mp hstep
    exact h.sampled.recordClose h.le hcandle

/-- A bar with nothing open: its close, and at most an entry on the next bar. -/
lemma Sampled.signalStep {index : ℕ} (h : Sampled startingEquity run.candles label s) (hflat : s.position = none)
    (hle : label ≤ candle.openTimeMs) (hcandle : candle ∈ run.candles)
    (hnext : ∀ c, run.candles[index + 1]? = some c → candle.openTimeMs < c.openTimeMs)
    (hstep : signalStep run index candle s = .ok t) :
    Sampled startingEquity run.candles candle.openTimeMs t ∨
      ∃ next, run.candles[index + 1]? = some next ∧ BarReady startingEquity run next next.openTimeMs t := by
  have hclosed := h.recordClose hle hcandle
  unfold Backtest.signalStep at hstep
  split at hstep
  · obtain rfl := pure_eq_ok_iff.mp hstep
    exact .inl hclosed
  · rename_i next hsome
    obtain ⟨signal, -, hstep⟩ := bind_eq_ok.mp hstep
    split at hstep
    · obtain rfl := pure_eq_ok_iff.mp hstep
      exact .inl hclosed
    · split at hstep
      · obtain rfl := pure_eq_ok_iff.mp hstep
        exact .inl ((h.rest _).recordClose hle hcandle)
      · obtain ⟨execution, -, hstep⟩ := bind_eq_ok.mp hstep
        split at hstep
        · obtain rfl := pure_eq_ok_iff.mp hstep
          exact .inl hclosed
        · obtain ⟨inWindow, -, hstep⟩ := bind_eq_ok.mp hstep
          split at hstep
          · obtain rfl := pure_eq_ok_iff.mp hstep
            exact .inl hclosed
          · obtain ⟨hsampled, hpending, hposition⟩ := hclosed.enter hflat (hnext next hsome) hstep
            refine .inr ⟨next, hsome, hsampled, le_rfl, fun _ => ⟨?_, hposition⟩⟩
            rw [restingEntry, hpending, ite_self]

/-- **One bar** is sampled, or an entry on the next bar is made and that bar is ready. -/
theorem BarReady.barStep {index : ℕ} (h : BarReady startingEquity run candle label s) (hcandle : candle ∈ run.candles)
    (hnext : ∀ c, run.candles[index + 1]? = some c → candle.openTimeMs < c.openTimeMs)
    (hstep : barStep run s (candle, index) = .ok t) :
    Sampled startingEquity run.candles candle.openTimeMs t ∨
      ∃ next, run.candles[index + 1]? = some next ∧ BarReady startingEquity run next next.openTimeMs t := by
  unfold Backtest.barStep at hstep
  split at hstep
  · rename_i hflat
    unfold flatStep at hstep
    split at hstep
    · exact h.sampled.signalStep hflat h.le hcandle hnext hstep
    · rename_i pending hresting
      split at hstep
      · -- an expired order is dropped
        exact (h.sampled.rest none).signalStep hflat h.le hcandle hnext hstep
      · exact .inl (h.pendingStep hflat hresting hcandle hstep)
  · rename_i position hopen
    exact .inl (h.heldStep hopen hcandle hstep)

/-- **The walk**: when it reaches a bar, the bar is ready; behind the last bar, that bar is sampled. -/
theorem reached_barReady {index : ℕ} {first : Candle ℚ} (hsorted : Ascending run.candles)
    (hfirst : run.candles[0]? = some first) (hpos : 1 ≤ index) (hindex : index ≤ run.candles.length)
    (h : reached run (startState first startingEquity) index = .ok s) :
    (∀ c, run.candles[index]? = some c → ∃ label, BarReady startingEquity run c label s) ∧
      ∀ c, run.candles[index - 1]? = some c → run.candles[index]? = none →
        Sampled startingEquity run.candles c.openTimeMs s := by
  induction index, hpos using Nat.le_induction generalizing s with
  | base =>
      rw [reached_one] at h
      cases h
      have hstart : Sampled startingEquity run.candles first.openTimeMs (startState first startingEquity) := by
        have hsettled : startingEquity = settledEquity startingEquity [] := (add_zero _).symm
        refine ⟨hsettled, [⟨first.openTimeMs, 0, [], []⟩], List.isChain_singleton _, ⟨_, rfl, rfl, rfl⟩,
          ⟨_, rfl, rfl, rfl, rfl⟩, ?_⟩
        simp [startState, Moment.netEquity, ← hsettled]
      refine ⟨fun c hc => ?_, fun c hc _ => ?_⟩
      · have hlt := hsorted.lt_of_getElem? Nat.zero_lt_one hfirst hc
        exact ⟨_, hstart, hlt.le, fun heq => absurd heq hlt.ne⟩
      · rw [Nat.sub_self, hfirst] at hc
        cases hc
        exact hstart
  | succ i hi ih =>
      obtain ⟨candle, hcandle⟩ : ∃ c, run.candles[i]? = some c := ⟨_, List.getElem?_eq_getElem (by omega)⟩
      obtain ⟨t, ht, hstep⟩ := (reached_succ hi hcandle).mp h
      obtain ⟨label, hready⟩ := (ih (by omega) ht).1 candle hcandle
      have hnext : ∀ c, run.candles[i + 1]? = some c → candle.openTimeMs < c.openTimeMs := fun c hc =>
        hsorted.lt_of_getElem? (Nat.lt_succ_self i) hcandle hc
      rcases hready.barStep (List.mem_of_getElem? hcandle) hnext hstep with hsampled | ⟨next, hsome, hlater⟩
      · refine ⟨fun c hc => ⟨_, hsampled, (hnext c hc).le, fun heq => absurd heq (hnext c hc).ne⟩, fun c hc _ => ?_⟩
        rw [Nat.add_sub_cancel, hcandle] at hc
        cases hc
        exact hsampled
      · refine ⟨fun c hc => ?_, fun c _ hnone => ?_⟩
        · rw [hsome] at hc
          cases hc
          exact ⟨_, hlater⟩
        · rw [hsome] at hnone
          cases hnone

/-- **Every run is recorded.** -/
theorem exists_recorded {context : ℤ → Option String} {result : BacktestResult ℚ} (hlength : 4 ≤ candles.length)
    (hsorted : Ascending candles) (hrun : runBacktest candles context config startingEquity = .ok result) :
    ∃ history, Recorded startingEquity candles result history := by
  obtain ⟨first, s, hfirst, hwalk, rfl⟩ := runBacktest_eq_ok hlength hrun
  have hne : candles ≠ [] := by
    rintro rfl
    cases hlength
  have hlast : candles.getLast? = some (candles.getLast hne) := List.getLast?_eq_getLast_of_ne_nil hne
  rw [walk_eq_reached] at hwalk
  have hsampled : Sampled startingEquity candles (candles.getLast hne).openTimeMs s :=
    (reached_barReady hsorted (List.head?_eq_getElem? ▸ hfirst) (by change 1 ≤ candles.length; omega) le_rfl hwalk).2
      (candles.getLast hne) (List.getLast?_eq_getElem? ▸ hlast) (List.getElem?_eq_none le_rfl)
  have hfinished : ∃ label, Sampled startingEquity candles label (finish (inputsOf candles context config) s) ∧
      (finish (inputsOf candles context config) s).openFills = [] := by
    rcases finish_cases (inputsOf candles context config) s hne with ⟨hflat, hfinish⟩ | ⟨position, hopen, hfinish⟩
    · rw [hfinish]
      exact ⟨_, hsampled, openFills_of_flat hflat⟩
    · rw [hfinish]
      exact ⟨_, hsampled.endOfData hopen, rfl⟩
  obtain ⟨label, hall, hflat⟩ := hfinished
  obtain ⟨history, hchain, hstart, ⟨last, hlast, hclosed, hopen, -⟩, hcurve⟩ := hall.history
  exact ⟨history, hchain, hstart, ⟨last, hlast, hclosed, hopen.trans hflat⟩, hcurve⟩

end runs

end MuStrategy.Backtest
