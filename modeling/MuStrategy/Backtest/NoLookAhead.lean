import MuStrategy.Backtest.Books

/-!
# No look-ahead

Two runs on histories that share their first bars do the same on those bars.

* `SameUpTo` — inputs that agree on the first `k` bars, their context and their indicator values.
* `barStep_congr` — a step whose bar and next bar are shared is the same step.
* `Seen` — what a run shows of the shared bars: fills, exits and samples.
* `no_look_ahead` — the result on the shared bars does not depend on what follows them.
-/

namespace MuStrategy.Backtest

open Lib TrustedData Strategy

variable {F : Type} [Number F]

/-- Inputs that agree on the first `k` bars. -/
structure SameUpTo (k : ℕ) (run other : Inputs F) : Prop where
  candles : run.candles.take k = other.candles.take k
  context : ∀ candle ∈ run.candles.take k,
    run.hourlyContext candle.openTimeMs = other.hourlyContext candle.openTimeMs
  config : run.config = other.config
  rsi : run.rsiValues.take k = other.rsiValues.take k
  hist : run.histValues.take k = other.histValues.take k

/-- The indicator arrays are causal, so bars that agree have inputs that agree. -/
lemma inputsOf_sameUpTo {k : ℕ} {candles others : List (Candle F)} {context otherContext : ℤ → Option String}
    (config : StrategyConfig F) (htake : candles.take k = others.take k)
    (hcontext : ∀ candle ∈ candles.take k, context candle.openTimeMs = otherContext candle.openTimeMs) :
    SameUpTo k (inputsOf candles context config) (inputsOf others otherContext config) := by
  have hcloses : (candles.map Candle.closePrice).take k = (others.map Candle.closePrice).take k := by
    rw [← List.map_take, ← List.map_take, htake]
  refine ⟨htake, hcontext, rfl, ?_, ?_⟩
  · simp only [inputsOf, (causal_rsi 14).take_eq, hcloses]
  · have hcausal := causal_histogram (F := F)
    change ((macd (candles.map Candle.closePrice)).2.2).take k = ((macd (others.map Candle.closePrice)).2.2).take k
    rw [hcausal.take_eq, hcausal.take_eq, hcloses]

/-! ## Steps on shared bars -/

section congruence

variable [Eastern] {k index : ℕ} {run other : Inputs F} {candle : Candle F} {s : BacktestState F}
  {position : OpenPosition F}

omit [Eastern] in
lemma SameUpTo.regimeAt (h : SameUpTo k run other) (hcandle : candle ∈ run.candles.take k) :
    run.regimeAt candle = other.regimeAt candle := by
  rw [Inputs.regimeAt, Inputs.regimeAt, h.context candle hcandle]

lemma exitOnRisk_congr (h : run.config = other.config) (reason : ExitReason) :
    exitOnRisk run candle position reason s = exitOnRisk other candle position reason s := by
  unfold exitOnRisk riskExit hasNonSessionLiquidationRisk
  rw [h]

lemma enter_congr (h : run.config = other.config) (price : F) :
    enter run candle price s = enter other candle price s := by
  unfold enter
  simp only [exitOnRisk_congr h, h]

lemma pendingStep_congr (h : run.config = other.config) (pending : PendingEntry F) :
    pendingStep run pending candle s = pendingStep other pending candle s := by
  unfold pendingStep
  simp only [enter_congr h, h]

lemma signalAt_congr (h : SameUpTo k run other) (hindex : index < k) (hcandle : candle ∈ run.candles.take k) :
    signalAt run index candle = signalAt other index candle := by
  unfold signalAt
  rw [h.config, nearestFibRetestLevel_congr hindex h.candles, h.regimeAt hcandle, at?_congr hindex h.rsi,
    at?_congr hindex h.hist, at?_congr (Nat.lt_of_le_of_lt (Nat.sub_le _ _) hindex) h.hist]

lemma signalStep_congr (h : SameUpTo k run other) (hindex : index < k) (hcandle : candle ∈ run.candles.take k)
    (hnext : run.candles[index + 1]? = other.candles[index + 1]?) :
    signalStep run index candle s = signalStep other index candle s := by
  unfold signalStep
  simp only [hnext, signalAt_congr h hindex hcandle, h.config, h.regimeAt hcandle,
    shouldExecuteEntry_congr hindex h.candles, enter_congr h.config]

lemma pyramidAddPrice_congr (h : SameUpTo k run other) (hindex : index < k) (hcandle : candle ∈ run.candles.take k)
    (plan : PendingPyramidAdd F) :
    pyramidAddPrice run index candle position plan = pyramidAddPrice other index candle position plan := by
  unfold pyramidAddPrice
  by_cases hplan : index = plan.signalIndex + 1
  · -- the plan was made on the bar before
    have hsignal : plan.signalIndex < k := by omega
    rw [h.config, h.regimeAt hcandle, at?_congr hsignal h.candles, at?_congr hsignal h.rsi, at?_congr hsignal h.hist,
      at?_congr (Nat.lt_of_le_of_lt (Nat.sub_le _ _) hsignal) h.hist]
  · simp only [ne_eq, hplan, not_false_eq_true, true_or, if_true]

lemma executePyramidAdd_congr (h : SameUpTo k run other) (hindex : index < k)
    (hcandle : candle ∈ run.candles.take k) (equity : F) :
    executePyramidAdd run index candle equity position = executePyramidAdd other index candle equity position := by
  unfold executePyramidAdd
  simp only [pyramidAddPrice_congr h hindex hcandle, h.config]

omit [Eastern] in
lemma tightenPositionStop_congr (h : SameUpTo k run other) (hindex : index < k)
    (hcandle : candle ∈ run.candles.take k)
    (hfilled : position.lastFill.timeMs ∈ (run.candles.take k).map Candle.openTimeMs) :
    tightenPositionStop run index candle position = tightenPositionStop other index candle position := by
  have hlast : (positionSnapshot position).lastFill.timeMs = position.lastFill.timeMs := by
    simp only [PositionStateSnapshot.lastFill, positionSnapshot, List.getLast_map, OpenPosition.lastFill]
  unfold tightenPositionStop
  rw [h.regimeAt hcandle, h.config, tightenStop_congr hindex h.candles (by rwa [hlast])]

lemma planPyramidAdd_congr (h : SameUpTo k run other) (hindex : index < k) (hcandle : candle ∈ run.candles.take k) :
    planPyramidAdd run index candle position = planPyramidAdd other index candle position := by
  unfold planPyramidAdd
  rw [h.config, h.regimeAt hcandle, at?_congr hindex h.rsi, at?_congr hindex h.hist,
    at?_congr (Nat.lt_of_le_of_lt (Nat.sub_le _ _) hindex) h.hist]

/-- After an add on a shared bar, the last fill is on a shared bar. -/
lemma executePyramidAdd_filled {equity : F} {added : OpenPosition F} (hcandle : candle ∈ run.candles.take k)
    (hfilled : ∀ fill ∈ position.fills, fill.timeMs ∈ (run.candles.take k).map Candle.openTimeMs)
    (h : executePyramidAdd run index candle equity position = .ok added) :
    added.lastFill.timeMs ∈ (run.candles.take k).map Candle.openTimeMs := by
  have hlast : added.lastFill ∈ added.fills := List.getLast_mem added.fills_ne
  rcases executePyramidAdd_fills h with hsame | ⟨price, margin, fill, hfill, hgrown⟩
  · rw [hsame] at hlast
    exact hfilled _ hlast
  · rw [hgrown, List.mem_append, List.mem_singleton] at hlast
    rcases hlast with hold | hnew
    · exact hfilled _ hold
    · obtain ⟨-, -, hfill⟩ := bind_eq_ok.mp hfill
      cases hfill
      rw [hnew]
      exact List.mem_map_of_mem hcandle

lemma manageStep_congr (h : SameUpTo k run other) (hindex : index < k) (hcandle : candle ∈ run.candles.take k)
    (hfilled : ∀ fill ∈ position.fills, fill.timeMs ∈ (run.candles.take k).map Candle.openTimeMs) :
    manageStep run index candle position s = manageStep other index candle position s := by
  unfold manageStep
  rw [← executePyramidAdd_congr h hindex hcandle]
  cases hadded : executePyramidAdd run index candle s.equity position with
  | error e => rfl
  | ok added =>
      simp only [ok_bind]
      rw [tightenPositionStop_congr h hindex hcandle (executePyramidAdd_filled hcandle hfilled hadded)]
      simp only [planPyramidAdd_congr h hindex hcandle]

lemma heldStep_congr (h : SameUpTo k run other) (hindex : index < k) (hcandle : candle ∈ run.candles.take k)
    (hfilled : ∀ fill ∈ position.fills, fill.timeMs ∈ (run.candles.take k).map Candle.openTimeMs) :
    heldStep run index candle position s = heldStep other index candle position s := by
  unfold heldStep
  simp only [exitOnRisk_congr h.config, manageStep_congr h hindex hcandle hfilled]

/-- The open fills of a state are on the first `k` bars. -/
def FilledIn (k : ℕ) (run : Inputs F) (b : Books F) : Prop :=
  ∀ fill ∈ b.openFills, fill.timeMs ∈ (run.candles.take k).map Candle.openTimeMs

omit [Eastern] in
lemma FilledIn.of_position (h : FilledIn k run s.books) (hopen : s.position = some position) :
    ∀ fill ∈ position.fills, fill.timeMs ∈ (run.candles.take k).map Candle.openTimeMs := by
  intro fill hmem
  refine h fill ?_
  simpa only [BacktestState.books, BacktestState.openFills, hopen] using hmem

/-- **A step whose bar and next bar are shared is the same step.** -/
theorem barStep_congr (h : SameUpTo k run other) (hindex : index < k) (hcandle : candle ∈ run.candles.take k)
    (hnext : run.candles[index + 1]? = other.candles[index + 1]?) (hfilled : FilledIn k run s.books) :
    barStep run s (candle, index) = barStep other s (candle, index) := by
  unfold barStep
  cases hopen : s.position with
  | none =>
      simp only [flatStep, restingEntry, h.config, signalStep_congr h hindex hcandle hnext,
        pendingStep_congr h.config]
  | some position => exact heldStep_congr h hindex hcandle (hfilled.of_position hopen)

end congruence

/-! ## What a run shows of the shared bars -/

section seen

variable {k : ℕ} {run : Inputs F} {candle : Candle F}

/-- The fills at given times. -/
def fillsAt (times : List ℤ) (fills : List (Fill F)) : List (Fill F) :=
  fills.filter fun fill => fill.timeMs ∈ times

/-- Time, price, reason and result of the exits at given times, less the settlement at the end of the data. -/
def exitsAt (times : List ℤ) (trades : List (Trade F)) : List (ℤ × F × ExitReason × F) :=
  (trades.filter fun trade => trade.exitReason ≠ .endOfData ∧ trade.exitTimeMs ∈ times).map fun trade =>
    (trade.exitTimeMs, trade.exitPrice, trade.exitReason, trade.pnl)

/-- The samples labelled with given times. -/
def samplesAt (times : List ℤ) (curve : List (ℤ × F)) : List (ℤ × F) := curve.filter fun sample => sample.1 ∈ times

/-- What the books show at given times. -/
def Books.seen (times : List ℤ) (b : Books F) : List (Fill F) × List (ℤ × F × ExitReason × F) × List (ℤ × F) :=
  (fillsAt times (b.trades.flatMap Trade.fills ++ b.openFills), exitsAt times b.trades, samplesAt times b.equityCurve)

variable {times : List ℤ} {config : StrategyConfig F} {b b' : Books F}

omit [Number F] in
lemma samplesAt_append_of_notMem {curve : List (ℤ × F)} {timeMs : ℤ} {value : F} (h : timeMs ∉ times) :
    samplesAt times (curve ++ [(timeMs, value)]) = samplesAt times curve := by
  simp [samplesAt, h]

/-- **A move on a bar at another time is not seen.** -/
lemma Move.seen_eq (h : Move config candle b b') (htime : candle.openTimeMs ∉ times) : b'.seen times = b.seen times := by
  cases h with
  | observe => simp only [Books.seen, Books.observe, samplesAt_append_of_notMem htime]
  | buy hfill =>
      obtain ⟨-, -, hfill⟩ := bind_eq_ok.mp hfill
      cases hfill
      simp only [Books.seen, Books.observe, Books.buy, samplesAt_append_of_notMem htime]
      simp [fillsAt, htime]
  | settle hopen hfills hexit hpnl =>
      rename_i trade
      have hexit' : trade.exitTimeMs ∉ times := hexit ▸ htime
      simp only [Books.seen, Books.settle, samplesAt_append_of_notMem hexit']
      simp [fillsAt, exitsAt, hexit', hfills]

lemma Moves.seen_eq {bars : Candle F → Prop} (hbars : ∀ c, bars c → c.openTimeMs ∉ times)
    (h : Moves config bars b b') : b'.seen times = b.seen times :=
  h.invariant (I := fun c => c.seen times = b.seen times)
    (fun c _ _ hbar hmove hseen => (hmove.seen_eq (hbars c hbar)).trans hseen) rfl

lemma Moves.filledIn {bars : Candle F → Prop} (hbars : ∀ c, bars c → c ∈ run.candles.take k)
    (h : Moves config bars b b') (hb : FilledIn k run b) : FilledIn k run b' := by
  refine h.invariant (I := FilledIn k run) ?_ hb
  rintro c b b' hbar (_ | hfill | _) hb
  · exact hb
  · intro fill hmem
    obtain ⟨-, -, hfill⟩ := bind_eq_ok.mp hfill
    cases hfill
    rcases List.mem_append.mp hmem with hold | hnew
    · exact hb fill hold
    · rw [List.mem_singleton.mp hnew]
      exact List.mem_map_of_mem (hbars c hbar)
  · intro fill hmem
    cases hmem

end seen

/-! ## Whole runs -/

section runs

variable [Eastern] {k : ℕ} {run other : Inputs F} {s t t' : BacktestState F}

omit [Number F] [Eastern] in
/-- The walk over the first bars, the walk over the others. -/
lemma bars_split (hk : 1 ≤ k) (candles : List (Candle F)) :
    candles.zipIdx.drop 1 = (candles.take k).zipIdx.drop 1 ++ (candles.drop k).zipIdx k := by
  by_cases hshort : candles.length < k
  · rw [List.take_of_length_le (Nat.le_of_lt hshort), List.drop_of_length_le (Nat.le_of_lt hshort), List.zipIdx_nil,
      List.append_nil]
  · have hlength : (candles.take k).zipIdx.length = k := by
      rw [List.length_zipIdx, List.length_take]
      omega
    conv_lhs => rw [← List.take_append_drop k candles]
    rw [List.zipIdx_append, List.drop_append_of_le_length (by omega), List.length_take, Nat.min_eq_left (by omega),
      Nat.zero_add]

omit [Number F] [Eastern] in
lemma index_lt_of_mem {n : ℕ} {candles : List (Candle F)} {bar : Candle F × ℕ}
    (h : bar ∈ (candles.take n).zipIdx.drop 1) : bar.2 < n ∧ bar.1 ∈ candles.take n := by
  obtain ⟨hindex, hbar⟩ := List.mem_zipIdx' (List.mem_of_mem_drop h)
  rw [List.length_take] at hindex
  exact ⟨by omega, hbar ▸ List.getElem_mem _⟩

/-- A signal on the last shared bar shows its close only. -/
lemma signalStep_seen {times : List ℤ} {index : ℕ} {candle : Candle F} (hflat : s.position = none)
    (hnext : ∀ c, run.candles[index + 1]? = some c → c.openTimeMs ∉ times)
    (h : signalStep run index candle s = .ok t) : t.books.seen times = (s.recordClose candle).books.seen times :=
  (signalStep_moves hflat h).seen_eq hnext

/-- The step on the last shared bar shows the same, whatever the next bar is. -/
lemma barStep_seen {times : List ℤ} {index : ℕ} {candle : Candle F} (h : SameUpTo k run other) (hindex : index < k)
    (hcandle : candle ∈ run.candles.take k) (hfilled : FilledIn k run s.books)
    (hnext : ∀ c, run.candles[index + 1]? = some c ∨ other.candles[index + 1]? = some c → c.openTimeMs ∉ times)
    (hstep : barStep run s (candle, index) = .ok t) (hstep' : barStep other s (candle, index) = .ok t') :
    t.books.seen times = t'.books.seen times := by
  have hnext₁ := fun c hc => hnext c (Or.inl hc)
  have hnext₂ := fun c hc => hnext c (Or.inr hc)
  unfold barStep at hstep hstep'
  cases hopen : s.position with
  | some position =>
      simp only [hopen] at hstep hstep'
      rw [heldStep_congr h hindex hcandle (hfilled.of_position hopen), hstep'] at hstep
      rw [Except.ok.inj hstep]
  | none =>
      simp only [hopen, flatStep] at hstep hstep'
      have hresting : restingEntry run s = restingEntry other s := by rw [restingEntry, restingEntry, h.config]
      rw [← hresting] at hstep'
      cases hpending : restingEntry run s with
      | none =>
          simp only [hpending] at hstep hstep'
          rw [signalStep_seen hopen hnext₁ hstep, signalStep_seen hopen hnext₂ hstep']
      | some pending =>
          simp only [hpending] at hstep hstep'
          by_cases hexpired : pending.expiresIndex < index
          · rw [if_pos hexpired] at hstep hstep'
            rw [signalStep_seen (s := { s with position := none, pendingEntry := none }) rfl hnext₁ hstep,
              signalStep_seen (s := { s with position := none, pendingEntry := none }) rfl hnext₂ hstep']
          · rw [if_neg hexpired] at hstep hstep'
            rw [pendingStep_congr h.config, hstep'] at hstep
            rw [Except.ok.inj hstep]

/-- **Shared bars are walked alike**: the states after them show the same, and are the same if the next bar is
shared. -/
theorem shared_walk (h : SameUpTo k run other) (hk : k ≤ run.candles.length) (hs : FilledIn k run s.books)
    (hrun : ((run.candles.take k).zipIdx.drop 1).foldlM (barStep run) s = .ok t)
    (hother : ((run.candles.take k).zipIdx.drop 1).foldlM (barStep other) s = .ok t')
    (hnew : ∀ c, run.candles[k]? = some c ∨ other.candles[k]? = some c →
      c.openTimeMs ∉ (run.candles.take k).map Candle.openTimeMs) :
    t.books.seen ((run.candles.take k).map Candle.openTimeMs) =
        t'.books.seen ((run.candles.take k).map Candle.openTimeMs) ∧
      (run.candles[k]? = other.candles[k]? → t = t') := by
  match k, h, hk, hs, hrun, hother, hnew with
  | 0, _, _, _, hrun, hother, _ =>
      cases hrun
      cases hother
      exact ⟨rfl, fun _ => rfl⟩
  | 1, _, _, _, hrun, hother, _ =>
      have hnone : (run.candles.take 1).zipIdx.drop 1 = [] := by
        rw [List.drop_eq_nil_iff, List.length_zipIdx, List.length_take]
        omega
      rw [hnone] at hrun hother
      cases hrun
      cases hother
      exact ⟨rfl, fun _ => rfl⟩
  | m + 2, h, hk, hs, hrun, hother, hnew =>
      have hlast : m + 1 < run.candles.length := by omega
      have hbars : (run.candles.take (m + 2)).zipIdx.drop 1 =
          (run.candles.take (m + 1)).zipIdx.drop 1 ++ [(run.candles[m + 1], m + 1)] := by
        rw [← List.take_append_getElem hlast, List.zipIdx_append, List.drop_append_of_le_length, List.length_take,
          Nat.min_eq_left (by omega)]
        · simp
        · rw [List.length_zipIdx, List.length_take]
          omega
      rw [hbars, foldlM_append_eq_ok] at hrun hother
      obtain ⟨u, hu, hstep⟩ := hrun
      obtain ⟨u', hu', hstep'⟩ := hother
      rw [List.foldlM_cons, bind_eq_ok] at hstep hstep'
      obtain ⟨_, hstep, hnil⟩ := hstep
      obtain ⟨_, hstep', hnil'⟩ := hstep'
      cases hnil
      cases hnil'
      have hnextShared : ∀ i, i + 1 < m + 2 → run.candles[i + 1]? = other.candles[i + 1]? := by
        intro i hi
        rw [← List.getElem?_take_of_lt hi, h.candles, List.getElem?_take_of_lt hi]
      have hinitial : ∀ c, c ∈ run.candles.take (m + 1) → c ∈ run.candles.take (m + 2) := fun c hc =>
        (List.take_sublist_take_left (by omega)).subset hc
      have hkeep : ∀ v bar v', bar ∈ (run.candles.take (m + 1)).zipIdx.drop 1 → FilledIn (m + 2) run v.books →
          barStep run v bar = .ok v' → FilledIn (m + 2) run v'.books := by
        rintro v ⟨candle, i⟩ v' hmem hv hv'
        obtain ⟨hi, hcandle⟩ := index_lt_of_mem hmem
        refine Moves.filledIn ?_ (barStep_moves hv') hv
        rintro c (rfl | hc)
        · exact hinitial _ hcandle
        · rw [← List.getElem?_take_of_lt (by omega : i + 1 < m + 2)] at hc
          exact List.mem_of_getElem? hc
      have hfilled : FilledIn (m + 2) run u.books := foldlM_invariant hkeep hs hu
      have hsame : u = u' := by
        have hcongr := foldlM_congr (g := barStep other) hkeep (fun v bar hmem hv => ?_) hs
        · rw [hcongr, hu'] at hu
          exact (Except.ok.inj hu).symm
        · obtain ⟨hi, hcandle⟩ := index_lt_of_mem hmem
          exact barStep_congr h (by omega) (hinitial _ hcandle) (hnextShared _ (by omega)) hv
      subst hsame
      have hcandle : run.candles[m + 1] ∈ run.candles.take (m + 2) := by
        rw [← List.take_append_getElem hlast]
        exact List.mem_append_right _ List.mem_cons_self
      refine ⟨?_, fun hnext => ?_⟩
      · exact barStep_seen h (by omega) hcandle hfilled hnew hstep hstep'
      · rw [barStep_congr h (by omega) hcandle hnext hfilled, hstep'] at hstep
        exact (Except.ok.inj hstep).symm

/-- One result ends with a settlement sample that the other lacks. -/
def ExtraSettlement (times : List ℤ) (result result' : BacktestResult F) : Prop :=
  ∃ trade, result.trades.getLast? = some trade ∧ trade.exitReason = .endOfData ∧
    result.equityCurve.getLast? = some (trade.exitTimeMs, result.endingEquity) ∧
    samplesAt times result.equityCurve =
      samplesAt times result'.equityCurve ++ [(trade.exitTimeMs, result.endingEquity)]

/-- Results that are the same at given times, except for the final settlement sample of one of them. -/
structure SameAt (times : List ℤ) (result result' : BacktestResult F) : Prop where
  fills : fillsAt times (result.trades.flatMap Trade.fills) = fillsAt times (result'.trades.flatMap Trade.fills)
  exits : exitsAt times result.trades = exitsAt times result'.trades
  samples : samplesAt times result.equityCurve = samplesAt times result'.equityCurve ∨
    ExtraSettlement times result result' ∨ ExtraSettlement times result' result

omit [Eastern] in
/-- The settlement at the end of the data shows no fill and no exit, and at most its own sample. -/
lemma finish_seen (times : List ℤ) (hne : run.candles ≠ []) (s : BacktestState F) :
    fillsAt times ((finish run s).trades.flatMap Trade.fills) = (s.books.seen times).1 ∧
      exitsAt times (finish run s).trades = (s.books.seen times).2.1 ∧
      (samplesAt times (finish run s).equityCurve = (s.books.seen times).2.2 ∨
        (run.candles.getLast hne).openTimeMs ∈ times ∧ ∃ trade, (finish run s).trades.getLast? = some trade ∧
          trade.exitReason = .endOfData ∧
          (finish run s).equityCurve.getLast? = some (trade.exitTimeMs, (finish run s).equity) ∧
          samplesAt times (finish run s).equityCurve =
            (s.books.seen times).2.2 ++ [(trade.exitTimeMs, (finish run s).equity)]) := by
  rcases finish_cases run s hne with ⟨hflat, hfinish⟩ | ⟨position, hopen, hfinish⟩
  · rw [hfinish]
    simp only [Books.seen, BacktestState.books, BacktestState.openFills, hflat, List.append_nil, true_and]
    exact Or.inl trivial
  · rw [hfinish]
    simp only [Books.seen, BacktestState.books, BacktestState.openFills, hopen, BacktestState.settle]
    refine ⟨by simp [closePosition], by simp [exitsAt, closePosition], ?_⟩
    by_cases hfinal : (run.candles.getLast hne).openTimeMs ∈ times
    · refine Or.inr ⟨hfinal, _, List.getLast?_concat .., rfl, List.getLast?_concat .., ?_⟩
      simp [samplesAt, closePosition, hfinal]
    · exact Or.inl (samplesAt_append_of_notMem hfinal)

omit [Number F] [Eastern] in
/-- Bars after the first `k` have other open times. -/
lemma time_notMem_of_mem_drop {candles : List (Candle F)} (hincreasing : (candles.map Candle.openTimeMs).Pairwise (· < ·))
    (k : ℕ) {c : Candle F} (hc : c ∈ candles.drop k) : c.openTimeMs ∉ (candles.take k).map Candle.openTimeMs := by
  rw [← List.take_append_drop k candles, List.map_append, List.pairwise_append] at hincreasing
  intro hmem
  exact lt_irrefl _ (hincreasing.2.2 _ hmem _ (List.mem_map_of_mem hc))

omit [Number F] [Eastern] in
/-- If the last bar is among the first `k`, there are no more. -/
lemma length_eq_of_last_mem {candles : List (Candle F)} (hincreasing : (candles.map Candle.openTimeMs).Pairwise (· < ·))
    (hne : candles ≠ []) (hk : k ≤ candles.length)
    (hlast : (candles.getLast hne).openTimeMs ∈ (candles.take k).map Candle.openTimeMs) : candles.length = k := by
  by_contra hlonger
  have hdrop : candles.drop k ≠ [] := List.ne_nil_of_length_pos (by rw [List.length_drop]; omega)
  have hmem := List.getLast_mem hdrop
  rw [List.getLast_drop] at hmem
  exact time_notMem_of_mem_drop hincreasing k hmem hlast

/-- The walk over later bars shows nothing of the first `k`. -/
lemma later_seen {k : ℕ} (hincreasing : (run.candles.map Candle.openTimeMs).Pairwise (· < ·))
    (h : ((run.candles.drop k).zipIdx k).foldlM (barStep run) s = .ok t) :
    t.books.seen ((run.candles.take k).map Candle.openTimeMs) =
      s.books.seen ((run.candles.take k).map Candle.openTimeMs) := by
  have hmoves : Moves run.config (· ∈ run.candles.drop k) s.books t.books := by
    refine foldlM_moves ?_ h
    rintro ⟨candle, index⟩ hmem c (rfl | hnext)
    · exact List.fst_mem_of_mem_zipIdx hmem
    · have hindex : k ≤ index + 1 := Nat.le_succ_of_le (List.le_snd_of_mem_zipIdx hmem)
      change run.candles[index + 1]? = some c at hnext
      rw [← Nat.add_sub_cancel' hindex, ← List.getElem?_drop] at hnext
      exact List.mem_of_getElem? hnext
  exact hmoves.seen_eq fun c hc => time_notMem_of_mem_drop hincreasing k hc

/-- Runs over the same candles that read the same context are the same. -/
lemma walk_eq_of_all_shared (h : SameUpTo k run other) (hrunLength : run.candles.length = k)
    (hotherLength : other.candles.length = k) (hs : FilledIn k run s.books)
    (hrun : walk run s = .ok t) (hother : walk other s = .ok t') : finish run t = finish other t' := by
  have hcandles : run.candles = other.candles := by
    have htake := h.candles
    rwa [List.take_of_length_le (Nat.le_of_eq hrunLength), List.take_of_length_le (Nat.le_of_eq hotherLength)] at htake
  have hall : run.candles.take k = run.candles := List.take_of_length_le (Nat.le_of_eq hrunLength)
  have hnone : run.candles[k]? = none := List.getElem?_eq_none (Nat.le_of_eq hrunLength)
  rw [walk, ← hcandles] at hother
  rw [walk] at hrun
  rw [← hall] at hrun hother
  have hsame := (shared_walk h (Nat.le_of_eq hrunLength.symm) hs hrun hother (fun c hc => ?_)).2 (by rw [hcandles])
  · rw [hsame, finish, finish, hcandles, h.config]
  · rw [← hcandles, hnone] at hc
    rcases hc with hc | hc <;> cases hc

/-- **No look-ahead**: on the first `k` bars, the fills, the exits and the samples of a run do not depend on what
follows them, except for the settlement of a position that is open where the shorter history ends. -/
theorem no_look_ahead (config : StrategyConfig F) (startingEquity : F) (k : ℕ) (candles candles' : List (Candle F))
    (context context' : ℤ → Option String) (hlength : 4 ≤ candles.length) (hlength' : 4 ≤ candles'.length)
    (hincreasing : (candles.map Candle.openTimeMs).Pairwise (· < ·))
    (hincreasing' : (candles'.map Candle.openTimeMs).Pairwise (· < ·))
    (hk : k ≤ candles.length) (hk' : k ≤ candles'.length) (hcandles : candles.take k = candles'.take k)
    (hcontext : ∀ candle ∈ candles.take k, context candle.openTimeMs = context' candle.openTimeMs)
    {result result' : BacktestResult F} (hrun : runBacktest candles context config startingEquity = .ok result)
    (hrun' : runBacktest candles' context' config startingEquity = .ok result') :
    SameAt ((candles.take k).map Candle.openTimeMs) result result' := by
  obtain ⟨first, t, hfirst, hwalk, rfl⟩ := runBacktest_eq_ok hlength hrun
  obtain ⟨first', t', hfirst', hwalk', rfl⟩ := runBacktest_eq_ok hlength' hrun'
  rcases Nat.eq_zero_or_pos k with rfl | hpos
  · exact ⟨by simp [fillsAt], by simp [exitsAt], Or.inl (by simp [samplesAt])⟩
  have h := inputsOf_sameUpTo config hcandles hcontext
  have hne : candles ≠ [] := by
    rintro rfl
    cases hlength
  have hne' : candles' ≠ [] := by
    rintro rfl
    cases hlength'
  obtain rfl : first = first' := by
    have hhead := congrArg List.head? hcandles
    rw [List.head?_take, List.head?_take, if_neg (by omega), if_neg (by omega), hfirst, hfirst'] at hhead
    exact Option.some.inj hhead
  have hs : FilledIn k (inputsOf candles context config) (startState first startingEquity).books := by
    intro fill hmem
    cases hmem
  -- the shared bars
  have hsplit := hwalk
  have hsplit' := hwalk'
  rw [walk, bars_split hpos, foldlM_append_eq_ok] at hsplit hsplit'
  obtain ⟨u, hu, hlater⟩ := hsplit
  obtain ⟨u', hu', hlater'⟩ := hsplit'
  rw [← h.candles] at hu'
  have hnew : ∀ c, candles[k]? = some c ∨ candles'[k]? = some c →
      c.openTimeMs ∉ (candles.take k).map Candle.openTimeMs := by
    have hdrop : ∀ (all : List (Candle F)) c, all[k]? = some c → c ∈ all.drop k := fun all c hc => by
      rw [← Nat.add_zero k, ← List.getElem?_drop] at hc
      exact List.mem_of_getElem? hc
    rintro c (hc | hc)
    · exact time_notMem_of_mem_drop hincreasing k (hdrop candles c hc)
    · rw [hcandles]
      exact time_notMem_of_mem_drop hincreasing' k (hdrop candles' c hc)
  have hshared := (shared_walk h hk hs hu hu' hnew).1
  -- the bars after them
  have hseen : t.books.seen ((candles.take k).map Candle.openTimeMs) =
      t'.books.seen ((candles.take k).map Candle.openTimeMs) := by
    have hleft := later_seen hincreasing hlater
    have hright := later_seen hincreasing' hlater'
    rw [← h.candles] at hright
    exact hleft.trans (hshared.trans hright.symm)
  -- the end of the data
  obtain ⟨hfills, hexits, hsamples⟩ := finish_seen ((candles.take k).map Candle.openTimeMs)
    (show (inputsOf candles context config).candles ≠ [] from hne) t
  obtain ⟨hfills', hexits', hsamples'⟩ := finish_seen ((candles.take k).map Candle.openTimeMs)
    (show (inputsOf candles' context' config).candles ≠ [] from hne') t'
  rw [← hseen] at hfills' hexits' hsamples'
  refine ⟨hfills.trans hfills'.symm, hexits.trans hexits'.symm, ?_⟩
  rcases hsamples with hsame | ⟨hfinal, trade, htrade⟩
  · rcases hsamples' with hsame' | ⟨-, trade, hlast, hreason, hcurve, hextra⟩
    · exact Or.inl (hsame.trans hsame'.symm)
    · exact Or.inr (Or.inr ⟨trade, hlast, hreason, hcurve, by rw [← hsame] at hextra; exact hextra⟩)
  · rcases hsamples' with hsame' | ⟨hfinal', -⟩
    · obtain ⟨hlast, hreason, hcurve, hextra⟩ := htrade
      exact Or.inr (Or.inl ⟨trade, hlast, hreason, hcurve, by rw [← hsame'] at hextra; exact hextra⟩)
    · -- both histories end with the shared bars
      have hend := length_eq_of_last_mem hincreasing hne hk hfinal
      have hend' := length_eq_of_last_mem hincreasing' hne' hk' (by rw [← hcandles]; exact hfinal')
      rw [walk_eq_of_all_shared h hend hend' hs hwalk hwalk']
      exact Or.inl rfl

end runs

/-- A position that one history settles at its end is still open in the other. -/
theorem no_look_ahead_demo :
    let _ := mondayTime
    ∃ result result', runBacktest (morning.take 4) (fun _ => none) morningConfig 1000 = .ok result ∧
      runBacktest morning (fun _ => none) morningConfig 1000 = .ok result' ∧
      SameAt ((morning.take 4).map Candle.openTimeMs) result result' := by
  intro zone
  obtain ⟨result, hrun⟩ := exists_eq_ok_of_isOk
    (show (runBacktest (morning.take 4) (fun _ => none) morningConfig 1000).isOk = true by decide +kernel)
  obtain ⟨result', hrun'⟩ := exists_eq_ok_of_isOk
    (show (runBacktest morning (fun _ => none) morningConfig 1000).isOk = true by decide +kernel)
  exact ⟨result, result', hrun, hrun', no_look_ahead morningConfig 1000 4 (morning.take 4) morning _ _ (by decide)
    (by decide) (by decide +kernel) (by decide +kernel) (by decide) (by decide) rfl (fun _ _ => rfl) hrun hrun'⟩

end MuStrategy.Backtest
