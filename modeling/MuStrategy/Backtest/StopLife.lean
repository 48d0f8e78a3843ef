import MuStrategy.Backtest.EntryBarStop
import MuStrategy.Strategy.StopBounds

/-!
# The life of a stop

A position enters with its initial stop, and every bar it is held raises its stop or leaves it.

* `Reaches`, `Reaches.induct` — the states of a backtest, and the rule for what holds of all of them.
* `Carries`, `barStep_carries` — the position after a bar: none, an entry, or the one before, managed.
* `Guarded` — what ties the stop, the initial stop and the start of the transition together.
* `StopsTighten`, `stops_tighten` — stops over whole runs.
* `SnapshotOf`, `stop_modes_ordered` — the stops of the modes, over any history.
-/

namespace MuStrategy.Backtest

open Lib TrustedData Strategy

/-! ## Reached states -/

section reaches

variable {F : Type} [Number F] [Eastern] {candles : List (Candle F)} {context : ℤ → Option String}
  {config : StrategyConfig F} {startingEquity : F} {index : ℕ} {s : BacktestState F}

/-- The backtest reaches a state before the bar at `index`. -/
structure Reaches (candles : List (Candle F)) (context : ℤ → Option String) (config : StrategyConfig F)
    (startingEquity : F) (index : ℕ) (s : BacktestState F) : Prop where
  long : 4 ≤ candles.length
  walked : 1 ≤ index
  within : index ≤ candles.length
  reached : ∃ first, candles.head? = some first ∧
    reached (inputsOf candles context config) (startState first startingEquity) index = .ok s

/-- One state is reached before a bar. -/
lemma Reaches.unique {t : BacktestState F} (h : Reaches candles context config startingEquity index s)
    (h' : Reaches candles context config startingEquity index t) : s = t := by
  obtain ⟨first, hfirst, hs⟩ := h.reached
  obtain ⟨first', hfirst', ht⟩ := h'.reached
  rw [hfirst] at hfirst'
  cases hfirst'
  rw [hs] at ht
  exact Except.ok.inj ht

/-- A reached state after the first bar follows a reached state. -/
lemma Reaches.previous (h : Reaches candles context config startingEquity (index + 1) s) (hpos : 1 ≤ index) :
    ∃ candle t, candles[index]? = some candle ∧ Reaches candles context config startingEquity index t ∧
      barStep (inputsOf candles context config) t (candle, index) = .ok s := by
  obtain ⟨first, hfirst, hs⟩ := h.reached
  have hlt : index < candles.length := h.within
  obtain ⟨candle, hcandle⟩ : ∃ c, candles[index]? = some c := ⟨_, List.getElem?_eq_getElem hlt⟩
  obtain ⟨t, ht, hstep⟩ := (reached_succ hpos hcandle).mp hs
  exact ⟨candle, t, hcandle, ⟨h.long, hpos, by omega, first, hfirst, ht⟩, hstep⟩

/-- **What the start has and every bar keeps, holds of every reached state.** -/
theorem Reaches.induct {I : ℕ → BacktestState F → Prop} (hstart : ∀ first, I 1 (startState first startingEquity))
    (hstep : ∀ index candle s t, candles[index]? = some candle → I index s →
      barStep (inputsOf candles context config) s (candle, index) = .ok t → I (index + 1) t)
    (h : Reaches candles context config startingEquity index s) : I index s := by
  induction index, h.walked using Nat.le_induction generalizing s with
  | base =>
      obtain ⟨first, -, hs⟩ := h.reached
      rw [reached_one] at hs
      cases hs
      exact hstart first
  | succ i hi ih =>
      obtain ⟨candle, t, hcandle, ht, hbar⟩ := h.previous hi
      exact hstep i candle t s hcandle (ih ht) hbar

/-- The walk reaches the state behind the last bar. -/
lemma reaches_of_walk {first : Candle F} (hlong : 4 ≤ candles.length) (hfirst : candles.head? = some first)
    (h : walk (inputsOf candles context config) (startState first startingEquity) = .ok s) :
    Reaches candles context config startingEquity candles.length s := by
  rw [walk_eq_reached] at h
  exact ⟨hlong, by omega, le_refl _, first, hfirst, h⟩

lemma Reaches.walk (h : Reaches candles context config startingEquity candles.length s) :
    ∃ first, candles.head? = some first ∧
      walk (inputsOf candles context config) (startState first startingEquity) = .ok s := by
  obtain ⟨first, hfirst, hs⟩ := h.reached
  refine ⟨first, hfirst, ?_⟩
  rw [walk_eq_reached]
  exact hs

/-- A position is held in every state that is reached from one bar to another: it is the same position. -/
def HeldThroughout (candles : List (Candle F)) (context : ℤ → Option String) (config : StrategyConfig F)
    (startingEquity : F) (i j : ℕ) : Prop :=
  ∀ k s, i ≤ k → k ≤ j → Reaches candles context config startingEquity k s → s.position ≠ none

end reaches

/-! ## The position after a bar -/

section carries

variable {F : Type} [Number F]

/-- The position of a first fill. Source: `backtest.py` `run_backtest`, the `OpenPosition` of an entry. -/
def entryPosition (config : StrategyConfig F) (fill : Fill F) : OpenPosition F where
  fills := [fill]
  fills_ne := firstFill_ne fill
  stopPrice := fill.price * (1 - config.initialStopPct)
  entryAnchor := fill.price
  initialStopPrice := fill.price * (1 - config.initialStopPct)
  maxStage := 1
  stopTransitionFillCount := 0
  stopTransitionStart := 0
  pendingAdd := none

variable [Eastern]

/-- The position after a bar: none, an entry on it or on the next bar, or the position before, managed. -/
inductive Carries (run : Inputs F) (s : BacktestState F) (index : ℕ) (candle : Candle F) : Option (OpenPosition F) → Prop
  | flat : Carries run s index candle none
  | entered {bar : Candle F} {fill : Fill F} : s.position = none → StepBars run index candle bar →
      fill.timeMs = bar.openTimeMs → Carries run s index candle (some (entryPosition run.config fill))
  | managed {position added tightened planned : OpenPosition F} : s.position = some position →
      executePyramidAdd run index candle s.equity position = .ok added →
      tightenPositionStop run index candle added = .ok tightened →
      planPyramidAdd run index candle tightened = .ok planned → Carries run s index candle (some planned)

variable {run : Inputs F} {s t : BacktestState F} {index : ℕ} {candle bar : Candle F} {price : F}

/-- A position that an entry on one of some bars can leave: its own, or none after the risk check of its bar. -/
def Fresh (config : StrategyConfig F) (bars : Candle F → Prop) (position : Option (OpenPosition F)) : Prop :=
  position = none ∨
    ∃ bar fill, bars bar ∧ fill.timeMs = bar.openTimeMs ∧ position = some (entryPosition config fill)

lemma enter_position {bars : Candle F → Prop} (hbar : bars bar) (h : enter run bar price s = .ok t) :
    Fresh run.config bars t.position := by
  obtain ⟨margin, -, h⟩ := bind_eq_ok.mp h
  obtain ⟨fill, hfill, h⟩ := bind_eq_ok.mp h
  obtain ⟨⟨settled, u⟩, hexit, h⟩ := bind_eq_ok.mp h
  cases h
  obtain ⟨-, -, hfill⟩ := bind_eq_ok.mp hfill
  cases hfill
  rcases exitOnRisk_cases hexit with ⟨-, rfl⟩ | ⟨-, exitPrice, reason, rfl⟩
  · exact Or.inr ⟨bar, _, hbar, rfl, rfl⟩
  · exact Or.inl rfl

lemma signalStep_position (hflat : s.position = none) (h : signalStep run index candle s = .ok t) :
    Fresh run.config (StepBars run index candle) t.position := by
  unfold signalStep at h
  split at h
  · cases h
    exact Or.inl hflat
  · rename_i next hnext
    obtain ⟨signal, -, h⟩ := bind_eq_ok.mp h
    cases signal with
    | none =>
        cases h
        exact Or.inl hflat
    | some fibLevel =>
        simp only at h
        split at h
        · cases h
          exact Or.inl hflat
        · obtain ⟨execution, -, h⟩ := bind_eq_ok.mp h
          split at h
          · cases h
            exact Or.inl hflat
          · obtain ⟨inWindow, -, h⟩ := bind_eq_ok.mp h
            split at h
            · cases h
              exact Or.inl hflat
            · exact enter_position (Or.inr hnext) h

lemma pendingStep_position {pending : PendingEntry F} (hflat : s.position = none)
    (h : pendingStep run pending candle s = .ok t) : Fresh run.config (StepBars run index candle) t.position := by
  unfold pendingStep at h
  split at h
  · obtain ⟨inWindow, -, h⟩ := bind_eq_ok.mp h
    split at h
    · cases h
      exact Or.inl hflat
    · split at h
      · cases h
        exact Or.inl hflat
      · obtain ⟨u, henter, h⟩ := bind_eq_ok.mp h
        cases h
        have hown : StepBars run index candle candle := Or.inl rfl
        exact (enter_position hown henter : Fresh run.config (StepBars run index candle) u.position)
  · cases h
    exact Or.inl hflat

lemma flatStep_position (hflat : s.position = none) (h : flatStep run index candle s = .ok t) :
    Fresh run.config (StepBars run index candle) t.position := by
  unfold flatStep at h
  split at h
  · exact signalStep_position hflat h
  · split at h
    · have hcleared : ({ s with pendingEntry := none } : BacktestState F).position = none := hflat
      exact signalStep_position hcleared h
    · exact pendingStep_position hflat h

/-- A managed position is the one before with an add, its stop and its plan. -/
lemma manageStep_carries {position : OpenPosition F} (hopen : s.position = some position)
    (h : manageStep run index candle position s = .ok t) : Carries run s index candle t.position := by
  obtain ⟨added, hadded, h⟩ := bind_eq_ok.mp h
  obtain ⟨tightened, htightened, h⟩ := bind_eq_ok.mp h
  obtain ⟨planned, hplanned, h⟩ := bind_eq_ok.mp h
  cases h
  exact .managed hopen hadded htightened hplanned

/-- **What a bar does to the position.** -/
theorem barStep_carries (h : barStep run s (candle, index) = .ok t) : Carries run s index candle t.position := by
  unfold barStep at h
  split at h
  · rename_i hflat
    rcases flatStep_position hflat h with hnone | ⟨bar, fill, hbar, htime, hentered⟩
    · rw [hnone]
      exact .flat
    · rw [hentered]
      exact .entered hflat hbar htime
  · rename_i position hopen
    unfold heldStep at h
    split at h
    · exact manageStep_carries hopen h
    · obtain ⟨⟨settled, u⟩, hexit, hrest⟩ := bind_eq_ok.mp h
      rcases exitOnRisk_cases hexit with ⟨rfl, rfl⟩ | ⟨rfl, exitPrice, reason, rfl⟩
      · exact manageStep_carries hopen hrest
      · cases hrest
        exact .flat

/-- An add leaves the stop, the transition and the fills before it; without one, only the plan goes. -/
lemma executePyramidAdd_eq {equity : F} {position added : OpenPosition F}
    (h : executePyramidAdd run index candle equity position = .ok added) :
    added = { position with pendingAdd := none } ∨ ∃ fill stage hne, fill.timeMs = candle.openTimeMs ∧
      added = { position with
        fills := position.fills ++ [fill], fills_ne := hne, maxStage := stage, pendingAdd := none } := by
  unfold executePyramidAdd at h
  split at h
  · cases h
    exact Or.inl rfl
  · obtain ⟨price, -, h⟩ := bind_eq_ok.mp h
    split at h
    · cases h
      exact Or.inl rfl
    · obtain ⟨fill, hfill, h⟩ := bind_eq_ok.mp h
      obtain ⟨-, -, hfill⟩ := bind_eq_ok.mp hfill
      cases hfill
      cases h
      exact Or.inr ⟨_, _, _, rfl, rfl⟩

lemma planPyramidAdd_eq {position planned : OpenPosition F} (h : planPyramidAdd run index candle position = .ok planned) :
    ∃ plan, planned = { position with pendingAdd := plan } := by
  obtain ⟨rsi, -, h⟩ := bind_eq_ok.mp h
  obtain ⟨hist, -, h⟩ := bind_eq_ok.mp h
  obtain ⟨previous, -, h⟩ := bind_eq_ok.mp h
  obtain ⟨candidate, -, h⟩ := bind_eq_ok.mp h
  cases h
  exact ⟨_, rfl⟩

omit [Eastern] in
lemma tightenPositionStop_eq {position tightened : OpenPosition F}
    (h : tightenPositionStop run index candle position = .ok tightened) :
    ∃ outcome, tightenStop (positionSnapshot position) index run.candles run.config candle (run.regimeAt candle) =
        .ok outcome ∧
      tightened = { position with
        stopPrice := outcome.stopPrice
        stopTransitionFillCount := outcome.transitionFillCount
        stopTransitionStart := outcome.transitionStart } := by
  obtain ⟨outcome, houtcome, h⟩ := bind_eq_ok.mp h
  cases h
  exact ⟨outcome, houtcome, rfl⟩

end carries

/-! ## Guarded positions -/

section guarded

variable [Eastern] {run : Inputs ℚ} {config : StrategyConfig ℚ} {s t : BacktestState ℚ} {index : ℕ} {candle : Candle ℚ}
  {position added tightened planned : OpenPosition ℚ}

/-- The initial stop is below the stop, and a transition that is on started between them. -/
structure Guarded (config : StrategyConfig ℚ) (position : OpenPosition ℚ) : Prop where
  initial : position.initialStopPrice = position.firstFill.price * (1 - config.initialStopPct)
  above : position.initialStopPrice ≤ position.stopPrice
  started : position.stopTransitionFillCount ≠ 0 → position.initialStopPrice ≤ position.stopTransitionStart ∧
    position.stopTransitionStart ≤ position.stopPrice

omit [Eastern] in
lemma Guarded.entry (config : StrategyConfig ℚ) (fill : Fill ℚ) : Guarded config (entryPosition config fill) :=
  ⟨rfl, le_refl _, fun h => absurd rfl h⟩

lemma Guarded.add (h : Guarded config position) {equity : ℚ}
    (hadded : executePyramidAdd run index candle equity position = .ok added) : Guarded config added := by
  rcases executePyramidAdd_eq hadded with rfl | ⟨fill, stage, hne, -, rfl⟩
  · exact ⟨h.initial, h.above, h.started⟩
  · refine ⟨?_, h.above, h.started⟩
    rw [OpenPosition.firstFill, List.head_append_of_ne_nil position.fills_ne]
    exact h.initial

omit [Eastern] in
lemma Guarded.tighten (h : Guarded config position)
    (htightened : tightenPositionStop run index candle position = .ok tightened) :
    Guarded config tightened ∧ position.stopPrice ≤ tightened.stopPrice := by
  obtain ⟨outcome, houtcome, rfl⟩ := tightenPositionStop_eq htightened
  obtain ⟨hrises, hstart⟩ := tightenStop_ge houtcome
  have hrises : position.stopPrice ≤ outcome.stopPrice := hrises
  refine ⟨⟨h.initial, h.above.trans hrises, fun hcount => ?_⟩, hrises⟩
  rcases hstart with hstart | ⟨hsame, hstart⟩
  · have hstart : outcome.transitionStart = position.stopPrice := hstart
    rw [hstart]
    exact ⟨h.above, hrises⟩
  · have hsame : outcome.transitionFillCount = position.stopTransitionFillCount := hsame
    have hstart : outcome.transitionStart = position.stopTransitionStart := hstart
    rw [hsame] at hcount
    rw [hstart]
    exact ⟨(h.started hcount).1, (h.started hcount).2.trans hrises⟩

lemma Guarded.plan (h : Guarded config position) (hplanned : planPyramidAdd run index candle position = .ok planned) :
    Guarded config planned := by
  obtain ⟨plan, rfl⟩ := planPyramidAdd_eq hplanned
  exact ⟨h.initial, h.above, h.started⟩

/-- **A bar keeps the position guarded.** -/
lemma barStep_guarded (h : barStep run s (candle, index) = .ok t)
    (hs : ∀ position, s.position = some position → Guarded run.config position) :
    ∀ position, t.position = some position → Guarded run.config position := by
  intro position hposition
  have hcarries := barStep_carries h
  rw [hposition] at hcarries
  cases hcarries with
  | entered => exact .entry _ _
  | managed hopen hadded htightened hplanned =>
      exact (((hs _ hopen).add hadded).tighten htightened).1.plan hplanned

/-- **A bar does not lower the stop of a position it keeps.** -/
lemma barStep_rises (h : barStep run s (candle, index) = .ok t) (hs : Guarded run.config position)
    (hopen : s.position = some position) {later : OpenPosition ℚ} (hlater : t.position = some later) :
    position.stopPrice ≤ later.stopPrice := by
  have hcarries := barStep_carries h
  rw [hlater] at hcarries
  cases hcarries with
  | entered hflat =>
      rw [hflat] at hopen
      cases hopen
  | managed hbefore hadded htightened hplanned =>
      rw [hopen] at hbefore
      cases hbefore
      have hrises := ((hs.add hadded).tighten htightened).2
      obtain ⟨plan, rfl⟩ := planPyramidAdd_eq hplanned
      rcases executePyramidAdd_eq hadded with rfl | ⟨fill, stage, hne, -, rfl⟩
      · exact hrises
      · exact hrises

end guarded

/-! ## Whole runs -/

section runs

variable [Eastern] {candles : List (Candle ℚ)} {context : ℤ → Option String} {config : StrategyConfig ℚ}
  {startingEquity : ℚ} {index : ℕ} {s : BacktestState ℚ} {candle : Candle ℚ} {position added : OpenPosition ℚ}
  {outcome : StopTighteningOutcome ℚ}

/-- A call of the stop rules on a bar of the backtest, with the position after the adds of the bar.
Source: `backtest.py` `_tighten_stop`. -/
structure Tightening (candles : List (Candle ℚ)) (context : ℤ → Option String) (config : StrategyConfig ℚ)
    (startingEquity : ℚ) (index : ℕ) (candle : Candle ℚ) (added : OpenPosition ℚ) (outcome : StopTighteningOutcome ℚ) :
    Prop where
  current : candles[index]? = some candle
  held : ∃ s position, Reaches candles context config startingEquity index s ∧ s.position = some position ∧
    executePyramidAdd (inputsOf candles context config) index candle s.equity position = .ok added
  tightened : tightenStop (positionSnapshot added) index candles config candle
    ((inputsOf candles context config).regimeAt candle) = .ok outcome

/-- A call of the stop rules in the delayed mode. -/
structure DelayedTightening (candles : List (Candle ℚ)) (context : ℤ → Option String) (config : StrategyConfig ℚ)
    (startingEquity : ℚ) (index : ℕ) (candle : Candle ℚ) (added : OpenPosition ℚ) (outcome : StopTighteningOutcome ℚ) :
    Prop extends Tightening candles context config startingEquity index candle added outcome where
  delayed : resolvedStopTightening ((inputsOf candles context config).regimeAt candle) config = .delayedBaseline

/-- Stops only tighten, and the delayed stop of the positions of a kind never outruns the baseline stop. -/
structure StopsTighten (candles : List (Candle ℚ)) (context : ℤ → Option String) (config : StrategyConfig ℚ)
    (startingEquity : ℚ) (kind : OpenPosition ℚ → Prop) : Prop where
  rises : ∀ i j s t position later, i ≤ j → Reaches candles context config startingEquity i s →
    Reaches candles context config startingEquity j t → HeldThroughout candles context config startingEquity i j →
    s.position = some position → t.position = some later → position.stopPrice ≤ later.stopPrice
  started : ∀ i s position, Reaches candles context config startingEquity i s → s.position = some position →
    position.stopTransitionFillCount ≠ 0 → position.stopTransitionStart ≤ position.stopPrice
  carried : ∀ i candle added outcome,
    DelayedTightening candles context config startingEquity i candle added outcome → added.stopPrice ≤ outcome.stopPrice
  bounded : ∀ i candle added outcome,
    DelayedTightening candles context config startingEquity i candle added outcome → kind added →
    outcome.stopPrice ≤ tightenStopBaseline (positionSnapshot added) i candles config
  complete : ∀ i candle added outcome,
    DelayedTightening candles context config startingEquity i candle added outcome →
    (∀ filled, fillIndex candles added.lastFill.timeMs = .ok filled → config.stopTransitionBars ≤ (i - filled : ℕ)) →
    outcome.stopPrice = tightenStopBaseline (positionSnapshot added) i candles config
  gradual : ∀ i candle added outcome,
    DelayedTightening candles context config startingEquity i candle added outcome → kind added →
    ∀ (j k : ℕ) (candle' candle'' : Candle ℚ) (regime' regime'' : String) (outcome' outcome'' : StopTighteningOutcome ℚ),
      j ≤ k →
      resolvedStopTightening regime' config = .delayedBaseline →
      resolvedStopTightening regime'' config = .delayedBaseline →
      baselineStopTarget (positionSnapshot added) k candles config =
        baselineStopTarget (positionSnapshot added) j candles config →
      tightenStop (positionSnapshot added) j candles config candle' regime' = .ok outcome' →
      tightenStop (positionSnapshot added) k candles config candle'' regime'' = .ok outcome'' →
      outcome'.stopPrice ≤ outcome''.stopPrice

lemma Reaches.guarded (h : Reaches candles context config startingEquity index s) :
    ∀ position, s.position = some position → Guarded config position :=
  h.induct (fun _ _ hnone => by cases hnone) fun _ _ _ _ _ hs hstep => barStep_guarded hstep hs

lemma Tightening.guarded (h : Tightening candles context config startingEquity index candle added outcome) :
    Guarded config added := by
  obtain ⟨s, position, hs, hopen, hadded⟩ := h.held
  exact (hs.guarded position hopen).add hadded

omit [Eastern] in
/-- The initial stop of a guarded position is below its stop. -/
lemma Guarded.initialStop_le (h : Guarded config position) :
    (positionSnapshot position).initialStop ≤ (positionSnapshot position).stopPrice :=
  orElse_le h.above (le_refl position.stopPrice)

omit [Eastern] in
/-- The transition of a guarded position with a positive price starts above zero, and not above its stop. -/
lemma Guarded.transitionStart_bounds (h : Guarded config position) (hpct : config.initialStopPct < 1)
    (hprice : 0 < position.firstFill.price) :
    transitionStart (positionSnapshot position) ≠ 0 ∧
      transitionStart (positionSnapshot position) ≤ (positionSnapshot position).stopPrice := by
  have hinitial : 0 < position.initialStopPrice := by
    rw [h.initial]
    exact mul_pos hprice (by linarith)
  have hstop : 0 < position.stopPrice := hinitial.trans_le h.above
  unfold transitionStart
  split
  · exact ⟨hstop.ne', le_refl _⟩
  · rename_i hsame
    have hcount : position.stopTransitionFillCount = (positionSnapshot position).fills.length := not_not.mp hsame
    have hfilled : 0 < (positionSnapshot position).fills.length :=
      List.length_pos_iff.mpr (positionSnapshot position).fills_ne
    obtain ⟨hlow, hhigh⟩ := h.started (by omega)
    exact ⟨(hinitial.trans_le hlow).ne', hhigh⟩

/-- A stop does not fall between two bars at which its position is held. -/
lemma Reaches.rises {i j : ℕ} {t : BacktestState ℚ} {later : OpenPosition ℚ} (hle : i ≤ j)
    (hs : Reaches candles context config startingEquity i s) (ht : Reaches candles context config startingEquity j t)
    (hheld : HeldThroughout candles context config startingEquity i j) (hopen : s.position = some position)
    (hlater : t.position = some later) : position.stopPrice ≤ later.stopPrice := by
  induction j, hle using Nat.le_induction generalizing t later with
  | base =>
      rw [hs.unique ht, hlater] at hopen
      cases hopen
      exact le_refl _
  | succ k hk ih =>
      obtain ⟨candle, u, -, hu, hstep⟩ := ht.previous (hs.walked.trans hk)
      obtain ⟨between, hbetween⟩ := Option.ne_none_iff_exists'.mp (hheld k u hk (Nat.le_succ k) hu)
      have hbefore := ih hu (fun m v him hmk => hheld m v him (Nat.le_succ_of_le hmk)) hbetween
      exact hbefore.trans (barStep_rises hstep (hu.guarded between hbetween) hbetween hlater)

/-- The positions whose snapshots the backtest takes: carried into a bar, after its adds, and after its stop.
Source: `backtest.py` `_position_snapshot`, with its callers. -/
inductive SnapshotOf (candles : List (Candle ℚ)) (context : ℤ → Option String) (config : StrategyConfig ℚ)
    (startingEquity : ℚ) : OpenPosition ℚ → Prop
  | carried {index : ℕ} {s : BacktestState ℚ} {position : OpenPosition ℚ} :
      Reaches candles context config startingEquity index s → s.position = some position →
      SnapshotOf candles context config startingEquity position
  | added {index : ℕ} {s : BacktestState ℚ} {candle : Candle ℚ} {position added : OpenPosition ℚ} :
      Reaches candles context config startingEquity index s → s.position = some position →
      candles[index]? = some candle →
      executePyramidAdd (inputsOf candles context config) index candle s.equity position = .ok added →
      SnapshotOf candles context config startingEquity added
  | tightened {index : ℕ} {s : BacktestState ℚ} {candle : Candle ℚ} {position added tightened : OpenPosition ℚ} :
      Reaches candles context config startingEquity index s → s.position = some position →
      candles[index]? = some candle →
      executePyramidAdd (inputsOf candles context config) index candle s.equity position = .ok added →
      tightenPositionStop (inputsOf candles context config) index candle added = .ok tightened →
      SnapshotOf candles context config startingEquity tightened

lemma SnapshotOf.guarded (h : SnapshotOf candles context config startingEquity position) : Guarded config position := by
  cases h with
  | carried hs hopen => exact hs.guarded _ hopen
  | added hs hopen _ hadded => exact (hs.guarded _ hopen).add hadded
  | tightened hs hopen _ hadded htightened => exact (((hs.guarded _ hopen).add hadded).tighten htightened).1

/-- The stops of the modes over a kind of histories: the wide stop is not above half protection, nor that above the
baseline. -/
def StopModesOrdered (config : StrategyConfig ℚ) (position : OpenPosition ℚ) (kind : List (Candle ℚ) → Prop) : Prop :=
  ∀ (history : List (Candle ℚ)) (i : ℕ), kind history →
    tightenStopGreenWide (positionSnapshot position) i history config ≤
        tightenStopHalfProtect (positionSnapshot position) i history config ∧
      tightenStopHalfProtect (positionSnapshot position) i history config ≤
        tightenStopBaseline (positionSnapshot position) i history config

/-- **A wider mode gives no higher stop**, over every history whose lows are not negative. -/
theorem stop_modes_ordered (hbuffers : config.stopBufferPct ≤ config.greenWideStopBufferPct)
    (h : SnapshotOf candles context config startingEquity position) :
    StopModesOrdered config position fun history => ∀ candle ∈ history, 0 ≤ candle.low := by
  intro history i hlows
  exact ⟨wide_le_halfProtect hbuffers hlows, halfProtect_le_baseline h.guarded.initialStop_le⟩

/-- The call of the stop rules on a bar, if a position is carried into it. -/
def tighteningAt (candles : List (Candle ℚ)) (context : ℤ → Option String) (config : StrategyConfig ℚ)
    (startingEquity : ℚ) (index : ℕ) (candle : Candle ℚ) :
    Except StrategyError (Option (OpenPosition ℚ × StopTighteningOutcome ℚ)) :=
  match candles.head? with
  | none => pure none
  | some first => do
      let run := inputsOf candles context config
      let s ← reached run (startState first startingEquity) index
      match s.position with
      | none => pure none
      | some position => do
          let added ← executePyramidAdd run index candle s.equity position
          let outcome ← tightenStop (positionSnapshot added) index candles config candle (run.regimeAt candle)
          pure (some (added, outcome))

lemma tightening_of_eq (hlong : 4 ≤ candles.length) (hwalked : 1 ≤ index) (hcandle : candles[index]? = some candle)
    (h : tighteningAt candles context config startingEquity index candle = .ok (some (added, outcome))) :
    Tightening candles context config startingEquity index candle added outcome := by
  obtain ⟨hlt, -⟩ := List.getElem?_eq_some_iff.mp hcandle
  unfold tighteningAt at h
  split at h
  · cases h
  · rename_i first hfirst
    obtain ⟨s, hs, h⟩ := bind_eq_ok.mp h
    split at h
    · cases h
    · rename_i position hopen
      obtain ⟨added, hadded, h⟩ := bind_eq_ok.mp h
      obtain ⟨outcome, houtcome, h⟩ := bind_eq_ok.mp h
      cases h
      exact ⟨hcandle, ⟨s, position, ⟨hlong, hwalked, hlt.le, first, hfirst, hs⟩, hopen, hadded⟩, houtcome⟩

end runs

/-! ## A climb -/

/-- A rise with a retest at the third bar and an open of the next bar, that goes on through four stages. -/
def climb (openPrice : ℚ) : List (Candle ℚ) :=
  [morningBar 0 101 104 100 103, morningBar 1 103 110 103 109, morningBar 2 108 108.5 105 107,
    morningBar 3 openPrice 110 106 109, morningBar 4 109 112 108 111, morningBar 5 111 116 110 115,
    morningBar 6 115 121 114 120, morningBar 7 120 127 119 126]

/-- A regime that is green before the last bar of the climb. -/
def coolingRegime (timeMs : ℤ) : Option String := if timeMs < monday + 660 * 60000 then some "green" else some "yellow"

/-- Wide stops while the regime is green, delayed ones when it is yellow. -/
def coolingConfig (greenWideStopBufferPct : ℚ) : StrategyConfig ℚ :=
  { entryExecution := .directNextOpen
    greenStopTightening := some .wide
    yellowStopTightening := some .delayedBaseline
    greenWideStopBufferPct := greenWideStopBufferPct }

/-- Whether a stop is tightened, and `test` holds of the position and of its new stop. -/
def tightenedWith (test : OpenPosition ℚ → StopTighteningOutcome ℚ → Bool) :
    Except StrategyError (Option (OpenPosition ℚ × StopTighteningOutcome ℚ)) → Bool
  | .ok (some (added, outcome)) => test added outcome
  | _ => false

lemma exists_of_tightenedWith {test : OpenPosition ℚ → StopTighteningOutcome ℚ → Bool}
    {result : Except StrategyError (Option (OpenPosition ℚ × StopTighteningOutcome ℚ))}
    (h : tightenedWith test result = true) :
    ∃ added outcome, result = .ok (some (added, outcome)) ∧ test added outcome = true := by
  unfold tightenedWith at h
  split at h
  · exact ⟨_, _, rfl, h⟩
  · cases h

/-- Three bars with a low far below zero. -/
def sunken : List (Candle ℚ) := List.replicate 3 (morningBar 0 1 2 (-1000) 1)

/-- The climb, with the stops of its modes over itself. -/
theorem stop_modes_ordered_demo :
    let _ := mondayTime
    ∃ position, SnapshotOf (climb 107) coolingRegime (coolingConfig 3) 1000 position ∧ position.maxStage = 4 ∧
      StopModesOrdered (coolingConfig 3) position fun history => ∀ candle ∈ history, 0 ≤ candle.low := by
  intro zone
  obtain ⟨added, outcome, hcall, hstage⟩ := exists_of_tightenedWith (by decide +kernel : tightenedWith
    (fun added _ => decide (added.maxStage = 4))
    (tighteningAt (climb 107) coolingRegime (coolingConfig 3) 1000 7 (morningBar 7 120 127 119 126)) = true)
  obtain ⟨s, position, hs, hopen, hadded⟩ := (tightening_of_eq (by decide) (by decide) rfl hcall).held
  have hsnapshot := SnapshotOf.added hs hopen rfl hadded
  exact ⟨added, hsnapshot, of_decide_eq_true hstage, stop_modes_ordered (by decide +kernel) hsnapshot⟩

/-- **A wide stop is above half protection** over a history with a negative low, if its buffer is above one. -/
theorem wide_above_halfProtect :
    let _ := mondayTime
    ∃ position, SnapshotOf (climb 107) coolingRegime (coolingConfig 3) 1000 position ∧
      (∀ threshold ∈ (coolingConfig 3).addThresholds, 0 ≤ threshold) ∧
      0 < (coolingConfig 3).initialStopPct ∧ (coolingConfig 3).initialStopPct < 1 ∧
      (coolingConfig 3).stopBufferPct ≤ (coolingConfig 3).greenWideStopBufferPct ∧
      ¬StopModesOrdered (coolingConfig 3) position fun _ => True := by
  intro zone
  obtain ⟨added, outcome, hcall, habove⟩ := exists_of_tightenedWith (by decide +kernel : tightenedWith
    (fun added _ => decide (tightenStopHalfProtect (positionSnapshot added) 3 sunken (coolingConfig 3) <
      tightenStopGreenWide (positionSnapshot added) 3 sunken (coolingConfig 3)))
    (tighteningAt (climb 107) coolingRegime (coolingConfig 3) 1000 7 (morningBar 7 120 127 119 126)) = true)
  obtain ⟨s, position, hs, hopen, hadded⟩ := (tightening_of_eq (by decide) (by decide) rfl hcall).held
  refine ⟨added, .added hs hopen rfl hadded, by decide +kernel, by decide +kernel, by decide +kernel, by decide +kernel,
    fun h => ?_⟩
  exact absurd (h sunken 3 trivial).1 (not_le.mpr (of_decide_eq_true habove))

end MuStrategy.Backtest
