import MuStrategy.Strategy.MarketContext

/-!
# The hourly context is causal

The context is a merge: a cursor moves over regimes that were computed on the whole hourly series.
What it assigns to a bar is the regime of the hourly candles that had closed when the bar opened, and
of nothing else.

* `regimeAfter` — the regime after a history, from the closes of the history.
* `hourlyStates_eq` — the states of the whole series are the regimes of its prefixes.
* `advance_advance`, `contextEntries_eq` — the cursor of a bar is where a fresh cursor would stop.
* `buildHourlyContext_eq` — the context at a bar is the regime after `closedBy`.
* `CausalContext`, `hourly_context_causal` — the last closed candle decides, later candles and later bars do not matter.
-/

namespace MuStrategy.Strategy

open Lib TrustedData

variable {F : Type} [Number F]

/-! ## The regime after a history -/

/-- The regime of the last candle of a history, from the closes of the history. The first candle has no
predecessor, and its own histogram stands for the previous one. -/
def regimeAfter (history : List (Candle F)) : Option String := do
  let closes := history.map Candle.closePrice
  let histogram := (macd closes).2.2
  let candle ← history.getLast?
  let ema21 ← (ema 21 closes).getLast?
  let rsi14 ← (rsi 14 closes).getLast?
  let hist ← histogram.getLast?
  let previousHist ← histogram[histogram.length - 2]?
  pure (oneHourRegime candle.closePrice ema21 rsi14 hist previousHist)

/-- The candles that have closed at a time. -/
def closedBy (timeMs : ℤ) (candles1h : List (Candle F)) : List (Candle F) :=
  candles1h.filter fun candle => candle.openTimeMs + hourMs ≤ timeMs

/-- The regime that is known at a time. -/
def knownRegime (timeMs : ℤ) (candles1h : List (Candle F)) : String :=
  (regimeAfter (closedBy timeMs candles1h)).getD "yellow"

@[simp] lemma regimeAfter_nil : regimeAfter ([] : List (Candle F)) = none := rfl

omit [Number F] in
/-- The closes of a prefix, through a causal indicator. -/
lemma indicator_getLast? {f : List F → List F} (hf : Causal f) {candles1h : List (Candle F)} {i : ℕ}
    (hi : i < candles1h.length) :
    (f ((candles1h.take (i + 1)).map Candle.closePrice)).getLast? = (f (candles1h.map Candle.closePrice))[i]? := by
  rw [List.map_take]
  exact hf.getLast?_take (by rwa [List.length_map])

/-- The histogram before the last candle of a prefix. -/
lemma histogram_previous {candles1h : List (Candle F)} {i : ℕ} (hi : i < candles1h.length) :
    let histogram := (macd ((candles1h.take (i + 1)).map Candle.closePrice)).2.2
    histogram[histogram.length - 2]? = (macd (candles1h.map Candle.closePrice)).2.2[i - 1]? := by
  intro histogram
  have hlength : histogram.length = i + 1 := by
    rw [causal_histogram.length_eq, List.length_map, List.length_take]
    omega
  have htake : ((candles1h.take (i + 1)).map Candle.closePrice).take (i + 1) =
      (candles1h.map Candle.closePrice).take (i + 1) := by
    rw [List.map_take, List.take_take, Nat.min_self]
  rw [hlength, show i + 1 - 2 = i - 1 by omega]
  exact causal_histogram.getElem?_congr (by omega) htake

omit [Number F] in
/-- A causal indicator has a value at every position. -/
lemma exists_indicator {f : List F → List F} (hf : Causal f) {candles1h : List (Candle F)} {i : ℕ}
    (hi : i < candles1h.length) : ∃ value, (f (candles1h.map Candle.closePrice))[i]? = some value := by
  refine ⟨_, List.getElem?_eq_getElem ?_⟩
  rwa [hf.length_eq, List.length_map]

/-- The regime of a prefix, from the indicators of the whole series at its last position. -/
lemma regimeAfter_take {candles1h : List (Candle F)} {i : ℕ} {candle : Candle F} (h : candles1h[i]? = some candle) :
    let closes := candles1h.map Candle.closePrice
    ∃ ema21 rsi14 hist previousHist, (ema 21 closes)[i]? = some ema21 ∧ (rsi 14 closes)[i]? = some rsi14 ∧
      (macd closes).2.2[i]? = some hist ∧ (macd closes).2.2[i - 1]? = some previousHist ∧
      regimeAfter (candles1h.take (i + 1)) =
        some (oneHourRegime candle.closePrice ema21 rsi14 hist previousHist) := by
  intro closes
  have hi : i < candles1h.length := (List.getElem?_eq_some_iff.mp h).1
  have hprevious : i - 1 < candles1h.length := (Nat.sub_le i 1).trans_lt hi
  have hlast : (candles1h.take (i + 1)).getLast? = some candle := by
    have htake := (causal_map (id : Candle F → Candle F)).getLast?_take hi
    rwa [List.map_id, List.map_id, h] at htake
  obtain ⟨ema21, hema⟩ := exists_indicator (causal_ema 21) hi
  obtain ⟨rsi14, hrsi⟩ := exists_indicator (causal_rsi 14) hi
  obtain ⟨hist, hhist⟩ := exists_indicator causal_histogram hi
  obtain ⟨previousHist, hprev⟩ := exists_indicator causal_histogram hprevious
  refine ⟨ema21, rsi14, hist, previousHist, hema, hrsi, hhist, hprev, ?_⟩
  unfold regimeAfter
  simp only [hlast, indicator_getLast? (causal_ema 21) hi, indicator_getLast? (causal_rsi 14) hi,
    indicator_getLast? causal_histogram hi, histogram_previous hi, hema, hrsi, hhist, hprev]
  rfl

/-- **The states of the whole series are the regimes of its prefixes.** -/
theorem hourlyStates_eq (candles1h : List (Candle F)) :
    hourlyStates candles1h = .ok (candles1h.zipIdx.map fun (candle, index) =>
      (candle.openTimeMs + hourMs, (regimeAfter (candles1h.take (index + 1))).getD "yellow")) := by
  unfold hourlyStates
  refine mapM_eq_ok ?_
  rintro ⟨candle, index⟩ hmem
  have hcandle : candles1h[index]? = some candle := List.mem_zipIdx_iff_getElem?.mp hmem
  obtain ⟨ema21, rsi14, hist, previousHist, hema, hrsi, hhist, hprevious, hregime⟩ := regimeAfter_take hcandle
  simp only [at?, hema, hrsi, hhist, hprevious, orThrow_some, ok_bind, hregime, Option.getD_some]
  rfl

/-! ## The cursor -/

/-- A cursor that stopped at a time goes on as a fresh one would. -/
lemma advance_advance {timeMs later : ℤ} (h : timeMs ≤ later) (states : List (ℤ × String)) (current : String) :
    advance later (advance timeMs states current).1 (advance timeMs states current).2 =
      advance later states current := by
  induction states generalizing current with
  | nil => rfl
  | cons entry states ih =>
      obtain ⟨stateMs, state⟩ := entry
      by_cases hreached : stateMs ≤ timeMs
      · simp only [advance, if_pos hreached, if_pos (hreached.trans h), ih]
      · simp only [advance, if_neg hreached]

omit [Number F] in
/-- **The cursor of a bar is where a fresh cursor would stop.** -/
theorem contextEntries_eq {candles15m : List (Candle F)}
    (hincreasing : (candles15m.map Candle.openTimeMs).Pairwise (· < ·)) (states : List (ℤ × String)) :
    contextEntries states candles15m =
      candles15m.map fun bar => (bar.openTimeMs, (advance bar.openTimeMs states "yellow").2) := by
  -- the cursor was moved to a time that no bar to come is before
  suffices h : ∀ cursor : List (ℤ × String) × String,
      (∀ bar ∈ candles15m, advance bar.openTimeMs cursor.1 cursor.2 = advance bar.openTimeMs states "yellow") →
      transduce (fun (cursor : List (ℤ × String) × String) (bar : Candle F) =>
        let next := advance bar.openTimeMs cursor.1 cursor.2
        (next, (bar.openTimeMs, next.2))) cursor candles15m =
      candles15m.map fun bar => (bar.openTimeMs, (advance bar.openTimeMs states "yellow").2) from
    h (states, "yellow") fun _ _ => rfl
  induction candles15m with
  | nil => exact fun _ _ => rfl
  | cons bar bars ih =>
      intro cursor hcursor
      rw [List.map_cons, List.pairwise_cons] at hincreasing
      simp only [transduce, List.map_cons, hcursor bar List.mem_cons_self, List.cons.injEq, true_and]
      refine ih hincreasing.2 _ fun later hlater => ?_
      exact advance_advance (hincreasing.1 _ (List.mem_map_of_mem hlater)).le _ _

/-- Reached states are consumed. -/
lemma advance_append {timeMs : ℤ} {reached : List (ℤ × String)} (h : ∀ entry ∈ reached, entry.1 ≤ timeMs)
    (states : List (ℤ × String)) (current : String) :
    advance timeMs (reached ++ states) current =
      advance timeMs states ((reached.getLast?.map Prod.snd).getD current) := by
  induction reached generalizing current with
  | nil => rfl
  | cons entry reached ih =>
      obtain ⟨stateMs, state⟩ := entry
      have hreached : stateMs ≤ timeMs := h _ List.mem_cons_self
      simp only [List.cons_append, advance, if_pos hreached]
      rw [ih (fun entry hmem => h entry (List.mem_cons_of_mem _ hmem)), List.getLast?_cons]
      cases reached.getLast? <;> rfl

/-- States to come stop the cursor. -/
lemma advance_of_lt {timeMs : ℤ} {states : List (ℤ × String)} (h : ∀ entry ∈ states, timeMs < entry.1)
    (current : String) : advance timeMs states current = (states, current) := by
  cases states with
  | nil => rfl
  | cons entry states =>
      obtain ⟨stateMs, state⟩ := entry
      rw [advance, if_neg (not_le.mpr (h _ List.mem_cons_self))]

/-! ## The context -/

omit [Number F] in
/-- The closed candles of a sorted series are a prefix of it, and the others come after. -/
lemma closedBy_eq_take {candles1h : List (Candle F)} (hincreasing : (candles1h.map Candle.openTimeMs).Pairwise (· < ·))
    (timeMs : ℤ) : ∃ n ≤ candles1h.length, closedBy timeMs candles1h = candles1h.take n ∧
      (∀ candle ∈ candles1h.take n, candle.openTimeMs + hourMs ≤ timeMs) ∧
      ∀ candle ∈ candles1h.drop n, timeMs < candle.openTimeMs + hourMs := by
  induction candles1h with
  | nil => exact ⟨0, le_rfl, rfl, fun _ h => absurd h List.not_mem_nil, fun _ h => absurd h List.not_mem_nil⟩
  | cons candle candles ih =>
      rw [List.map_cons, List.pairwise_cons] at hincreasing
      by_cases hclosed : candle.openTimeMs + hourMs ≤ timeMs
      · obtain ⟨n, hn, heq, hbefore, hafter⟩ := ih hincreasing.2
        refine ⟨n + 1, Nat.succ_le_succ hn, ?_, ?_, hafter⟩
        · rw [closedBy, List.filter_cons_of_pos (by simpa using hclosed), List.take_succ_cons]
          exact congrArg _ heq
        · intro c hc
          rcases List.mem_cons.mp hc with rfl | hc
          · exact hclosed
          · exact hbefore c hc
      · have hlater : ∀ c ∈ candle :: candles, timeMs < c.openTimeMs + hourMs := by
          intro c hc
          rcases List.mem_cons.mp hc with rfl | hc
          · omega
          · have := hincreasing.1 _ (List.mem_map_of_mem hc)
            omega
        refine ⟨0, Nat.zero_le _, ?_, fun _ h => absurd h List.not_mem_nil, hlater⟩
        refine List.filter_eq_nil_iff.mpr fun c hc => ?_
        have := hlater c hc
        simpa using this

/-- A fresh cursor stops at the regime that is known. -/
lemma advance_hourlyStates {candles1h : List (Candle F)} {states : List (ℤ × String)}
    (hincreasing : (candles1h.map Candle.openTimeMs).Pairwise (· < ·)) (hstates : hourlyStates candles1h = .ok states)
    (timeMs : ℤ) : (advance timeMs states "yellow").2 = knownRegime timeMs candles1h := by
  obtain ⟨n, hn, hclosed, hbefore, hafter⟩ := closedBy_eq_take hincreasing timeMs
  rw [hourlyStates_eq] at hstates
  have hlength : states.length = candles1h.length := by
    rw [← Except.ok.inj hstates, List.length_map, List.length_zipIdx]
  have hget : ∀ {i : ℕ} {entry : ℤ × String}, states[i]? = some entry → ∃ candle, candles1h[i]? = some candle ∧
      entry = (candle.openTimeMs + hourMs, (regimeAfter (candles1h.take (i + 1))).getD "yellow") := by
    intro i entry hentry
    rw [← Except.ok.inj hstates, List.getElem?_map, List.getElem?_zipIdx, Option.map_map] at hentry
    obtain ⟨candle, hcandle, rfl⟩ := Option.map_eq_some_iff.mp hentry
    exact ⟨candle, hcandle, by simp only [Function.comp, Nat.zero_add]⟩
  have hreached : ∀ entry ∈ states.take n, entry.1 ≤ timeMs := by
    intro entry hmem
    obtain ⟨i, hi⟩ := List.mem_iff_getElem?.mp hmem
    have hin : i < n := by
      by_contra hge
      rw [List.getElem?_eq_none (by rw [List.length_take]; omega)] at hi
      cases hi
    rw [List.getElem?_take_of_lt hin] at hi
    obtain ⟨candle, hcandle, rfl⟩ := hget hi
    refine hbefore candle (List.mem_of_getElem? (i := i) ?_)
    rwa [List.getElem?_take_of_lt hin]
  have hcoming : ∀ entry ∈ states.drop n, timeMs < entry.1 := by
    intro entry hmem
    obtain ⟨i, hi⟩ := List.mem_iff_getElem?.mp hmem
    rw [List.getElem?_drop] at hi
    obtain ⟨candle, hcandle, rfl⟩ := hget hi
    refine hafter candle (List.mem_of_getElem? (i := i) ?_)
    rwa [List.getElem?_drop]
  rw [knownRegime, hclosed, ← List.take_append_drop n states, advance_append hreached, advance_of_lt hcoming]
  rcases Nat.eq_zero_or_pos n with rfl | hpos
  · rfl
  · -- the last consumed state is that of the last closed candle
    have hlast : (states.take n).getLast? = states[n - 1]? := by
      rw [List.getLast?_eq_getElem?, List.length_take, hlength, Nat.min_eq_left hn,
        List.getElem?_take_of_lt (by omega)]
    have hentry : states[n - 1]? = some states[n - 1] := List.getElem?_eq_getElem (by omega)
    obtain ⟨candle, -, heq⟩ := hget hentry
    rw [hlast, hentry, heq, Nat.sub_add_cancel hpos]
    rfl

/-- **The context at a bar is the regime after the hourly candles that had closed**, and it has no other
entries. -/
theorem buildHourlyContext_eq {candles15m candles1h : List (Candle F)}
    (hincreasing15m : (candles15m.map Candle.openTimeMs).Pairwise (· < ·))
    (hincreasing1h : (candles1h.map Candle.openTimeMs).Pairwise (· < ·)) :
    ∃ context, buildHourlyContext candles15m candles1h = .ok context ∧ ∀ timeMs, context timeMs =
      if timeMs ∈ candles15m.map Candle.openTimeMs then some (knownRegime timeMs candles1h) else none := by
  obtain ⟨states, hstates⟩ : ∃ states, hourlyStates candles1h = .ok states := ⟨_, hourlyStates_eq candles1h⟩
  refine ⟨_, by rw [buildHourlyContext, hstates, ok_bind]; rfl, fun timeMs => ?_⟩
  rw [contextEntries_eq hincreasing15m, ← List.map_reverse, List.find?_map, Option.map_map]
  by_cases hmem : timeMs ∈ candles15m.map Candle.openTimeMs
  · rw [if_pos hmem]
    obtain ⟨bar, hbar, rfl⟩ := List.mem_map.mp hmem
    obtain ⟨found, hfound⟩ : ∃ found, candles15m.reverse.find?
        ((fun entry : ℤ × String => decide (entry.1 = bar.openTimeMs)) ∘ fun bar : Candle F =>
          (bar.openTimeMs, (advance bar.openTimeMs states "yellow").2)) = some found := by
      rw [← Option.isSome_iff_exists, List.find?_isSome]
      exact ⟨bar, List.mem_reverse.mpr hbar, by simp⟩
    have htime : found.openTimeMs = bar.openTimeMs := by simpa using List.find?_some hfound
    rw [hfound, Option.map_some, Function.comp, htime, advance_hourlyStates hincreasing1h hstates]
  · rw [if_neg hmem, Option.map_eq_none_iff, List.find?_eq_none]
    intro bar hbar heq
    refine hmem (List.mem_map.mpr ⟨bar, List.mem_reverse.mp hbar, by simpa using heq⟩)

/-! ## Causality -/

/-- What the context of a series says, and what it does not depend on. -/
structure CausalContext (candles15m candles1h : List (Candle F)) (context : ℤ → Option String) : Prop where
  /-- The last hourly candle that had closed decides, through the closes up to its own. -/
  last_closed : ∀ bar ∈ candles15m, ∀ k candle, candles1h[k]? = some candle →
    candle.openTimeMs + hourMs ≤ bar.openTimeMs →
    (∀ next, candles1h[k + 1]? = some next → bar.openTimeMs < next.openTimeMs + hourMs) →
    ∃ regime, regimeAfter (candles1h.take (k + 1)) = some regime ∧ context bar.openTimeMs = some regime
  none_closed : ∀ bar ∈ candles15m, (∀ candle ∈ candles1h, bar.openTimeMs < candle.openTimeMs + hourMs) →
    context bar.openTimeMs = some "yellow"
  /-- Any other series with the same candles closed by a time. -/
  later_hours : ∀ timeMs (candles1h' : List (Candle F)), (candles1h'.map Candle.openTimeMs).Pairwise (· < ·) →
    closedBy timeMs candles1h' = closedBy timeMs candles1h →
    ∃ context', buildHourlyContext candles15m candles1h' = .ok context' ∧
      ∀ earlierMs ≤ timeMs, context' earlierMs = context earlierMs
  later_bars : ∀ later : List (Candle F), ((candles15m ++ later).map Candle.openTimeMs).Pairwise (· < ·) →
    ∃ context', buildHourlyContext (candles15m ++ later) candles1h = .ok context' ∧
      ∀ bar ∈ candles15m, context' bar.openTimeMs = context bar.openTimeMs

omit [Number F] in
/-- The candles closed earlier are among those closed by a time. -/
lemma closedBy_closedBy {earlierMs timeMs : ℤ} (h : earlierMs ≤ timeMs) (candles1h : List (Candle F)) :
    closedBy earlierMs (closedBy timeMs candles1h) = closedBy earlierMs candles1h := by
  rw [closedBy, closedBy, List.filter_filter]
  refine List.filter_congr fun candle _ => ?_
  by_cases hclosed : candle.openTimeMs + hourMs ≤ earlierMs
  · simp [hclosed, hclosed.trans h]
  · simp [hclosed]

omit [Number F] in
/-- The last closed candle ends the closed prefix. -/
lemma closedBy_of_last {candles1h : List (Candle F)} (hincreasing : (candles1h.map Candle.openTimeMs).Pairwise (· < ·))
    {timeMs : ℤ} {k : ℕ} {candle : Candle F} (hcandle : candles1h[k]? = some candle)
    (hclosed : candle.openTimeMs + hourMs ≤ timeMs)
    (hnext : ∀ next, candles1h[k + 1]? = some next → timeMs < next.openTimeMs + hourMs) :
    closedBy timeMs candles1h = candles1h.take (k + 1) := by
  obtain ⟨n, hn, heq, hbefore, hafter⟩ := closedBy_eq_take hincreasing timeMs
  have hk : k < candles1h.length := (List.getElem?_eq_some_iff.mp hcandle).1
  have hlow : k < n := by
    by_contra hge
    have hmem : candle ∈ candles1h.drop n := by
      refine List.mem_of_getElem? (i := k - n) ?_
      rwa [List.getElem?_drop, Nat.add_sub_cancel' (not_lt.mp hge)]
    have := hafter candle hmem
    omega
  have hhigh : n ≤ k + 1 := by
    by_contra hgt
    have hget : candles1h[k + 1]? = some candles1h[k + 1] := List.getElem?_eq_getElem (by omega)
    have hmem : candles1h[k + 1] ∈ candles1h.take n := by
      refine List.mem_of_getElem? (i := k + 1) ?_
      rwa [List.getElem?_take_of_lt (not_le.mp hgt)]
    have := hnext _ hget
    have := hbefore _ hmem
    omega
  rw [heq, Nat.le_antisymm hhigh hlow]

/-- **The hourly context is causal.** -/
theorem hourly_context_causal {candles15m candles1h : List (Candle F)}
    (hincreasing15m : (candles15m.map Candle.openTimeMs).Pairwise (· < ·))
    (hincreasing1h : (candles1h.map Candle.openTimeMs).Pairwise (· < ·)) :
    ∃ context, buildHourlyContext candles15m candles1h = .ok context ∧ CausalContext candles15m candles1h context := by
  obtain ⟨context, hcontext, hget⟩ := buildHourlyContext_eq hincreasing15m hincreasing1h
  have hbar : ∀ bar ∈ candles15m, context bar.openTimeMs = some (knownRegime bar.openTimeMs candles1h) :=
    fun bar hmem => by rw [hget, if_pos (List.mem_map_of_mem hmem)]
  refine ⟨context, hcontext, ?_, ?_, ?_, ?_⟩
  · intro bar hmem k candle hcandle hclosed hnext
    obtain ⟨ema21, rsi14, hist, previousHist, -, -, -, -, hregime⟩ := regimeAfter_take hcandle
    refine ⟨_, hregime, ?_⟩
    rw [hbar bar hmem, knownRegime, closedBy_of_last hincreasing1h hcandle hclosed hnext, hregime, Option.getD_some]
  · intro bar hmem hopen
    have hnone : closedBy bar.openTimeMs candles1h = [] := by
      refine List.filter_eq_nil_iff.mpr fun candle hcandle => ?_
      simpa using hopen candle hcandle
    rw [hbar bar hmem, knownRegime, hnone, regimeAfter_nil, Option.getD_none]
  · intro timeMs candles1h' hincreasing1h' hclosed
    obtain ⟨context', hcontext', hget'⟩ := buildHourlyContext_eq hincreasing15m hincreasing1h'
    refine ⟨context', hcontext', fun earlierMs hearlier => ?_⟩
    have hsame : knownRegime earlierMs candles1h' = knownRegime earlierMs candles1h := by
      rw [knownRegime, knownRegime, ← closedBy_closedBy hearlier candles1h', hclosed, closedBy_closedBy hearlier]
    rw [hget, hget', hsame]
  · intro later hincreasing
    obtain ⟨context', hcontext', hget'⟩ := buildHourlyContext_eq hincreasing hincreasing1h
    refine ⟨context', hcontext', fun bar hmem => ?_⟩
    rw [hbar bar hmem, hget', if_pos (by rw [List.map_append]; exact List.mem_append_left _ (List.mem_map_of_mem hmem))]

/-- A flat candle. -/
def flatCandle (openTimeMs : ℤ) (price : ℚ) : Candle ℚ := ⟨openTimeMs, price, price, price, price, 1⟩

/-- Two hours and the bars at the end of the first and of the second. -/
theorem hourly_context_causal_demo :
    let candles15m := [flatCandle 3600000 100, flatCandle 7200000 104]
    let candles1h := [flatCandle 0 100, flatCandle 3600000 104]
    ∃ context, buildHourlyContext candles15m candles1h = .ok context ∧ CausalContext candles15m candles1h context :=
  hourly_context_causal (by decide) (by decide)

end MuStrategy.Strategy
