import MuStrategy.Strategy.Signals

/-!
# The hourly context

The regime of the 1h candles that were closed when a 15m bar opened.

* `oneHourRegime`, `hourlyStates` — the regime of each hourly candle, from its close on.
* `buildHourlyContext` — the regime at the open times of the 15m bars.
* `buildHourlyContext_append` — later bars do not change it at earlier ones.
-/

namespace MuStrategy.Strategy

open Lib TrustedData

variable {F : Type} [Number F]

/-- Source: `strategy.py` `one_hour_regime`. -/
def oneHourRegime (close ema21 rsi14 macdHist macdHistPrev : F) : String :=
  if rsi14 < 45 ∨ close < ema21 * 0.985 ∨ macdHist < 0 ∧ macdHist < macdHistPrev then "red"
  else if ema21 < close ∧ 50 ≤ rsi14 ∧ macdHistPrev ≤ macdHist then "green"
  else "yellow"

/-- Source: `market_context.py` `_HOUR_MS`. -/
def hourMs : ℤ := 3600000

/-- The close time and the regime of each hourly candle. Source: `market_context.py` `build_hourly_context`,
its list `hourly_states`. -/
def hourlyStates (candles1h : List (Candle F)) : Except StrategyError (List (ℤ × String)) :=
  let closes := candles1h.map Candle.closePrice
  let ema21Values := ema 21 closes
  let rsiValues := rsi 14 closes
  let histValues := (macd closes).2.2
  candles1h.zipIdx.mapM fun (candle, index) => do
    let ema21 ← at? ema21Values index
    let rsi14 ← at? rsiValues index
    let hist ← at? histValues index
    let previousHist ← at? histValues (index - 1)
    pure (candle.openTimeMs + hourMs, oneHourRegime candle.closePrice ema21 rsi14 hist previousHist)

/-- The states that are reached at a time are consumed, and the last of them is current. -/
def advance (openTimeMs : ℤ) : List (ℤ × String) → String → List (ℤ × String) × String
  | [], current => ([], current)
  | (timeMs, state) :: states, current =>
      if timeMs ≤ openTimeMs then advance openTimeMs states state else ((timeMs, state) :: states, current)

/-- The entries of the context, in the order of the bars. -/
def contextEntries (states : List (ℤ × String)) (candles15m : List (Candle F)) : List (ℤ × String) :=
  transduce (fun (cursor : List (ℤ × String) × String) (bar : Candle F) =>
    let next := advance bar.openTimeMs cursor.1 cursor.2
    (next, (bar.openTimeMs, next.2))) (states, "yellow") candles15m

/-- The context as a dictionary: the entry of an open time that was set last. With no hourly candle all bars
are yellow. Source: `market_context.py` `build_hourly_context`. -/
def buildHourlyContext (candles15m candles1h : List (Candle F)) : Except StrategyError (ℤ → Option String) := do
  let states ← hourlyStates candles1h
  let entries := contextEntries states candles15m
  pure fun openTimeMs => (entries.reverse.find? fun entry => entry.1 = openTimeMs).map Prod.snd

omit [Number F] in
lemma times_contextEntries (states : List (ℤ × String)) (candles15m : List (Candle F)) :
    (contextEntries states candles15m).map Prod.fst = candles15m.map Candle.openTimeMs := by
  unfold contextEntries
  generalize (states, "yellow") = cursor
  induction candles15m generalizing cursor with
  | nil => rfl
  | cons bar bars ih => simp only [transduce, List.map_cons, ih]

/-- **Later bars do not change the context at earlier ones.** -/
theorem buildHourlyContext_append {candles15m later candles1h : List (Candle F)} {context context' : ℤ → Option String}
    (hlater : ∀ bar ∈ candles15m, ∀ bar' ∈ later, bar.openTimeMs ≠ bar'.openTimeMs)
    (h : buildHourlyContext candles15m candles1h = .ok context)
    (h' : buildHourlyContext (candles15m ++ later) candles1h = .ok context') {bar : Candle F} (hbar : bar ∈ candles15m) :
    context bar.openTimeMs = context' bar.openTimeMs := by
  obtain ⟨states, hstates, h⟩ := bind_eq_ok.mp h
  obtain ⟨states', hstates', h'⟩ := bind_eq_ok.mp h'
  obtain rfl := Except.ok.inj (hstates.symm.trans hstates')
  cases h
  cases h'
  have hsplit : contextEntries states (candles15m ++ later) = contextEntries states candles15m ++
      (contextEntries states (candles15m ++ later)).drop candles15m.length := by
    have htake : (contextEntries states (candles15m ++ later)).take candles15m.length =
        contextEntries states candles15m := (causal_transduce _).take_append candles15m later
    rw [← htake, List.take_append_drop]
  have hother : ∀ entry ∈ (contextEntries states (candles15m ++ later)).drop candles15m.length,
      entry.1 ≠ bar.openTimeMs := by
    intro entry hmem heq
    have htimes : entry.1 ∈ later.map Candle.openTimeMs := by
      have hmap := List.mem_map_of_mem (f := Prod.fst) hmem
      rwa [List.map_drop, times_contextEntries, List.map_append, List.drop_left' (List.length_map _)] at hmap
    obtain ⟨bar', hbar', htime⟩ := List.mem_map.mp htimes
    exact hlater bar hbar bar' hbar' (by rw [htime, heq])
  simp only
  rw [hsplit, List.reverse_append, List.find?_append]
  have hnone : ((contextEntries states (candles15m ++ later)).drop candles15m.length).reverse.find?
      (fun entry => entry.1 = bar.openTimeMs) = none := by
    rw [List.find?_eq_none]
    intro entry hmem
    simpa using hother entry (List.mem_reverse.mp hmem)
  rw [hnone, Option.none_or]

end MuStrategy.Strategy
