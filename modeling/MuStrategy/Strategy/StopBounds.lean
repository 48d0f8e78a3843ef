import MuStrategy.Lib.Easing
import MuStrategy.Strategy.PositionRules

/-!
# Bounds of stops

In exact arithmetic: no rule lowers a stop, the delayed stop is between the carried stop and the baseline stop, and
a wider rule gives no higher stop.

* `raiseToBaseline` — the anchors of the baseline, over any stop.
* `tightenStopBaseline_eq` — the baseline stop is its target, or the carried stop.
* `delayed_le_baseline`, `delayed_complete`, `delayed_mono` — the delayed stop.
* `tightenStop_ge` — every mode keeps the carried stop as its floor.
* `wide_le_halfProtect`, `halfProtect_le_baseline` — the rules by width.
-/

namespace MuStrategy.Strategy

open Lib TrustedData

variable {position : PositionStateSnapshot ℚ} {index : ℕ} {candles : List (Candle ℚ)} {config : StrategyConfig ℚ}

/-! ## The higher low -/

lemma le_raiseToHigherLow {floor stop : ℚ} {f : ℚ → ℚ} (hstop : floor ≤ stop) (hf : ∀ higherLow, floor ≤ f higherLow) :
    floor ≤ raiseToHigherLow index candles stop f := by
  unfold raiseToHigherLow
  split
  · exact hstop
  · split
    · exact hstop
    · exact hf _

/-- What is greater without the higher low and with it is greater. -/
lemma raiseToHigherLow_mono {stop stop' : ℚ} {f f' : ℚ → ℚ} (hstop : stop ≤ stop')
    (hf : ∀ higherLow, recentHigherLow candles index = some higherLow → f higherLow ≤ f' higherLow) :
    raiseToHigherLow index candles stop f ≤ raiseToHigherLow index candles stop' f' := by
  unfold raiseToHigherLow
  split
  · exact hstop
  · rename_i higherLow hlow
    split
    · exact hstop
    · exact hf higherLow hlow

/-- A higher low is the low of a candle. -/
lemma recentHigherLow_mem {higherLow : ℚ} (h : recentHigherLow candles index = some higherLow) :
    ∃ candle ∈ candles, candle.low = higherLow := by
  unfold recentHigherLow at h
  dsimp only at h
  split at h
  · cases h
  · obtain ⟨candle, hmem, hlow⟩ := List.mem_map.mp (minimum?_mem h)
    exact ⟨candle, List.mem_of_mem_take (List.mem_of_mem_drop (List.mem_of_mem_drop hmem)), hlow⟩

/-! ## The baseline -/

section baseline

variable (position index candles config)

/-- The anchors of the baseline, over a stop: the first entry, the average entry and the higher low, by stage. -/
def raiseToBaseline (stop : ℚ) : ℚ :=
  let stop := if 2 ≤ position.maxStage then pyMax stop position.firstFill.price else stop
  let stop := if 3 ≤ position.maxStage then pyMax stop position.entryPrice else stop
  if 4 ≤ position.maxStage then
    raiseToHigherLow index candles stop fun higherLow => pyMax stop (higherLow * (1 - config.stopBufferPct))
  else stop

lemma raiseToBaseline_stopPrice :
    raiseToBaseline position index candles config position.stopPrice = tightenStopBaseline position index candles config :=
  rfl

lemma raiseToBaseline_initialStop :
    raiseToBaseline position index candles config position.initialStop = baselineStopTarget position index candles config :=
  rfl

/-- The anchors raise the greater of two stops as they raise one of them. -/
lemma raiseToBaseline_max (a b : ℚ) :
    raiseToBaseline position index candles config (max a b) = max a (raiseToBaseline position index candles config b) := by
  have hanchor : ∀ (stage : ℕ) (stop anchor : ℚ),
      (if stage ≤ position.maxStage then pyMax (max a stop) anchor else max a stop) =
        max a (if stage ≤ position.maxStage then pyMax stop anchor else stop) := by
    intro stage stop anchor
    simp only [pyMax_eq_max, max_assoc]
    split <;> rfl
  have hlow : ∀ stop : ℚ,
      (raiseToHigherLow index candles (max a stop) fun low => pyMax (max a stop) (low * (1 - config.stopBufferPct))) =
        max a (raiseToHigherLow index candles stop fun low => pyMax stop (low * (1 - config.stopBufferPct))) := by
    intro stop
    unfold raiseToHigherLow
    simp only [pyMax_eq_max, max_assoc]
    split
    · rfl
    · split <;> rfl
  unfold raiseToBaseline
  simp only [hanchor, hlow]
  split <;> rfl

end baseline

/-- **The baseline stop** is its target, or the carried stop above it. -/
lemma tightenStopBaseline_eq (hinitial : position.initialStop ≤ position.stopPrice) :
    tightenStopBaseline position index candles config =
      max position.stopPrice (baselineStopTarget position index candles config) := by
  rw [← raiseToBaseline_stopPrice, ← raiseToBaseline_initialStop, ← raiseToBaseline_max, max_eq_left hinitial]

/-! ## Floors -/

lemma le_pyMax_of_le {floor stop : ℚ} (h : floor ≤ stop) (anchor : ℚ) : floor ≤ pyMax stop anchor := by
  rw [pyMax_eq_max]
  exact h.trans (le_max_left _ _)

lemma le_anchored {floor stop : ℚ} (h : floor ≤ stop) (c : Prop) [Decidable c] (anchor : ℚ) :
    floor ≤ if c then pyMax stop anchor else stop := by
  split
  · exact le_pyMax_of_le h anchor
  · exact h

lemma tightenStopBaseline_ge : position.stopPrice ≤ tightenStopBaseline position index candles config := by
  unfold tightenStopBaseline
  have hstop := le_anchored (le_anchored (le_refl position.stopPrice) (2 ≤ position.maxStage) position.firstFill.price)
    (3 ≤ position.maxStage) position.entryPrice
  dsimp only
  split
  · exact le_raiseToHigherLow hstop fun _ => le_pyMax_of_le hstop _
  · exact hstop

lemma tightenStopHalfProtect_ge : position.stopPrice ≤ tightenStopHalfProtect position index candles config := by
  unfold tightenStopHalfProtect
  have hstop := le_anchored (le_anchored (le_refl position.stopPrice) (2 ≤ position.maxStage)
    ((position.initialStop + position.firstFill.price) / 2)) (3 ≤ position.maxStage) position.firstFill.price
  dsimp only
  split
  · exact le_raiseToHigherLow hstop fun _ => le_pyMax_of_le (le_pyMax_of_le hstop _) _
  · exact hstop

lemma tightenStopGreenWide_ge : position.stopPrice ≤ tightenStopGreenWide position index candles config := by
  unfold tightenStopGreenWide
  have hstop := le_anchored (le_anchored (le_refl position.stopPrice) (2 ≤ position.maxStage)
    ((position.initialStop + position.firstFill.price) / 2)) (3 ≤ position.maxStage) position.firstFill.price
  dsimp only
  split
  · exact le_raiseToHigherLow hstop fun _ => le_pyMax_of_le (le_pyMax_of_le hstop _) _
  · exact hstop

/-! ## The delayed stop -/

/-- The curve of a configuration, if it is supported. Source: `position_rules.py` `_apply_stop_transition_curve`. -/
def easingOf : StopTransitionCurve → Option (Easing ℚ)
  | .linear => some .linear
  | .slowStart => some .slowStart
  | .fastStart => some .fastStart
  | .smooth => some .smooth
  | .unsupported _ => none

lemma applyStopTransitionCurve_eq {curve : StopTransitionCurve} {p q : ℚ}
    (h : applyStopTransitionCurve p curve = .ok q) : ∃ e, easingOf curve = some e ∧ q = e.curve p := by
  cases curve with
  | unsupported value => cases h
  | linear | slowStart | fastStart | smooth =>
      cases h
      exact ⟨_, rfl, rfl⟩

/-- The progress is the share of the bars that have passed since the last fill. -/
lemma stopTransitionProgress_eq {p : ℚ} (h : stopTransitionProgress position index candles config = .ok p) :
    config.stopTransitionBars ≤ 0 ∧ p = 1 ∨
      0 < config.stopTransitionBars ∧ ∃ filled, fillIndex candles position.lastFill.timeMs = .ok filled ∧
        p = share config.stopTransitionBars.toNat (index - filled) := by
  unfold stopTransitionProgress at h
  split at h
  · rename_i hnone
    cases h
    exact Or.inl ⟨hnone, rfl⟩
  · rename_i hbars
    obtain ⟨filled, hfilled, h⟩ := bind_eq_ok.mp h
    cases h
    exact Or.inr ⟨by omega, filled, hfilled, pyMin_eq_min _ _⟩

lemma stopTransitionProgress_mem {p : ℚ} (h : stopTransitionProgress position index candles config = .ok p) :
    p ∈ Set.Icc (0 : ℚ) 1 := by
  rcases stopTransitionProgress_eq h with ⟨-, rfl⟩ | ⟨-, filled, -, rfl⟩
  · exact Set.right_mem_Icc.mpr zero_le_one
  · exact share_mem _ _

/-- The delayed stop is a blend of its start and the target of the baseline, over the carried stop. -/
lemma tightenStopDelayedBaseline_eq {start stop : ℚ}
    (h : tightenStopDelayedBaseline position index candles config start = .ok stop) :
    ∃ (e : Easing ℚ) (p : ℚ), easingOf config.stopTransitionCurve = some e ∧
      stopTransitionProgress position index candles config = .ok p ∧
      stop = max position.stopPrice
        (e.blend (orElse start (previousBaselineStopTarget position)) (baselineStopTarget position index candles config) p) := by
  obtain ⟨p, hp, h⟩ := bind_eq_ok.mp h
  obtain ⟨q, hq, h⟩ := bind_eq_ok.mp h
  obtain ⟨e, he, rfl⟩ := applyStopTransitionCurve_eq hq
  cases h
  exact ⟨e, p, he, hp, pyMax_eq_max _ _⟩

section delayed

variable {start stop : ℚ}

/-- **The delayed stop never outruns the baseline.** -/
lemma delayed_le_baseline (hinitial : position.initialStop ≤ position.stopPrice) (hne : start ≠ 0)
    (hstart : start ≤ position.stopPrice)
    (h : tightenStopDelayedBaseline position index candles config start = .ok stop) :
    stop ≤ tightenStopBaseline position index candles config := by
  obtain ⟨e, p, -, hp, rfl⟩ := tightenStopDelayedBaseline_eq h
  rw [tightenStopBaseline_eq hinitial, orElse_of_ne hne]
  refine max_le (le_max_left _ _) ((e.blend_le_max (stopTransitionProgress_mem hp)).trans ?_)
  exact max_le (hstart.trans (le_max_left _ _)) (le_max_right _ _)

/-- **The delayed stop arrives at the baseline.** -/
lemma delayed_complete (hinitial : position.initialStop ≤ position.stopPrice)
    (hpassed : ∀ filled, fillIndex candles position.lastFill.timeMs = .ok filled →
      config.stopTransitionBars ≤ (index - filled : ℕ))
    (h : tightenStopDelayedBaseline position index candles config start = .ok stop) :
    stop = tightenStopBaseline position index candles config := by
  obtain ⟨e, p, -, hp, rfl⟩ := tightenStopDelayedBaseline_eq h
  have hone : p = 1 := by
    rcases stopTransitionProgress_eq hp with ⟨-, rfl⟩ | ⟨hbars, filled, hfilled, rfl⟩
    · rfl
    · have hlong := hpassed filled hfilled
      exact share_eq_one (by omega) (by omega)
  rw [hone, e.blend_one, tightenStopBaseline_eq hinitial]

/-- **A later bar with the same target gives no lower delayed stop.** -/
lemma delayed_mono {later : ℕ} {stop' : ℚ} (hne : start ≠ 0) (hstart : start ≤ position.stopPrice) (hlater : index ≤ later)
    (htarget : baselineStopTarget position later candles config = baselineStopTarget position index candles config)
    (h : tightenStopDelayedBaseline position index candles config start = .ok stop)
    (h' : tightenStopDelayedBaseline position later candles config start = .ok stop') : stop ≤ stop' := by
  obtain ⟨e, p, he, hp, rfl⟩ := tightenStopDelayedBaseline_eq h
  obtain ⟨e', q, he', hq, rfl⟩ := tightenStopDelayedBaseline_eq h'
  rw [he] at he'
  cases he'
  rw [orElse_of_ne hne, htarget]
  refine e.max_blend_mono hstart (stopTransitionProgress_mem hp) (stopTransitionProgress_mem hq) ?_
  rcases stopTransitionProgress_eq hp with ⟨hnone, rfl⟩ | ⟨hbars, filled, hfilled, rfl⟩
  · rcases stopTransitionProgress_eq hq with ⟨-, rfl⟩ | ⟨hbars, -⟩
    · exact le_refl 1
    · omega
  · rcases stopTransitionProgress_eq hq with ⟨hnone, -⟩ | ⟨-, filled', hfilled', rfl⟩
    · omega
    · rw [hfilled] at hfilled'
      cases hfilled'
      exact share_mono (by omega)

end delayed

/-! ## The stop after a bar -/

/-- The start of the transition on a bar: the carried stop after a new fill.
Source: `position_rules.py` `tighten_stop`, `transition_start`. -/
def transitionStart (position : PositionStateSnapshot ℚ) : ℚ :=
  if position.stopTransitionFillCount ≠ position.fills.length then position.stopPrice else position.stopTransitionStart

section outcome

variable {candle : Candle ℚ} {regime : String} {outcome : StopTighteningOutcome ℚ}

lemma tightenStop_delayed (hmode : resolvedStopTightening regime config = .delayedBaseline)
    (h : tightenStop position index candles config candle regime = .ok outcome) :
    tightenStopDelayedBaseline position index candles config (transitionStart position) = .ok outcome.stopPrice ∧
      outcome.transitionStart = transitionStart position := by
  obtain ⟨-, -, h⟩ := bind_eq_ok.mp h
  rw [hmode] at h
  obtain ⟨stop, hstop, h⟩ := bind_eq_ok.mp h
  cases h
  exact ⟨hstop, rfl⟩

/-- **No mode lowers the stop**, and a transition starts at the carried stop, or goes on. -/
lemma tightenStop_ge (h : tightenStop position index candles config candle regime = .ok outcome) :
    position.stopPrice ≤ outcome.stopPrice ∧ (outcome.transitionStart = position.stopPrice ∨
      outcome.transitionFillCount = position.stopTransitionFillCount ∧
        outcome.transitionStart = position.stopTransitionStart) := by
  obtain ⟨-, -, h⟩ := bind_eq_ok.mp h
  dsimp only at h
  split at h
  · cases h
    exact ⟨tightenStopBaseline_ge, Or.inr ⟨rfl, rfl⟩⟩
  · cases h
    exact ⟨tightenStopHalfProtect_ge, Or.inr ⟨rfl, rfl⟩⟩
  · cases h
    exact ⟨tightenStopGreenWide_ge, Or.inr ⟨rfl, rfl⟩⟩
  · obtain ⟨stop, hstop, h⟩ := bind_eq_ok.mp h
    obtain ⟨e, p, -, -, rfl⟩ := tightenStopDelayedBaseline_eq hstop
    cases h
    refine ⟨le_max_left _ _, ?_⟩
    dsimp only
    split
    · exact Or.inl rfl
    · exact Or.inr ⟨rfl, rfl⟩
  · cases h

end outcome

/-! ## The rules by width -/

/-- The midpoint of the initial stop and the first entry is not above both. -/
lemma midpoint_le (hinitial : position.initialStop ≤ position.stopPrice) :
    (position.initialStop + position.firstFill.price) / 2 ≤ max position.stopPrice position.firstFill.price := by
  have hleft := hinitial.trans (le_max_left position.stopPrice position.firstFill.price)
  have hright := le_max_right position.stopPrice position.firstFill.price
  linarith

/-- **Half protection is not above the baseline.** -/
lemma halfProtect_le_baseline (hinitial : position.initialStop ≤ position.stopPrice) :
    tightenStopHalfProtect position index candles config ≤ tightenStopBaseline position index candles config := by
  have hmid := midpoint_le hinitial
  unfold tightenStopHalfProtect tightenStopBaseline
  simp only [pyMax_eq_max]
  by_cases h2 : 2 ≤ position.maxStage
  · by_cases h3 : 3 ≤ position.maxStage
    · have hstop : max (max position.stopPrice ((position.initialStop + position.firstFill.price) / 2))
          position.firstFill.price ≤ max (max position.stopPrice position.firstFill.price) position.entryPrice :=
        (max_le (max_le (le_max_left _ _) hmid) (le_max_right _ _)).trans (le_max_left _ _)
      simp only [if_pos h2, if_pos h3]
      split
      · refine raiseToHigherLow_mono hstop fun higherLow _ => ?_
        exact max_le_max (max_le hstop (le_max_right _ _)) (le_refl _)
      · exact hstop
    · simp only [if_pos h2, if_neg h3, if_neg fun h4 : 4 ≤ position.maxStage => h3 (by omega)]
      exact max_le (le_max_left _ _) hmid
  · simp only [if_neg h2, if_neg fun h3 : 3 ≤ position.maxStage => h2 (by omega),
      if_neg fun h4 : 4 ≤ position.maxStage => h2 (by omega)]
    exact le_refl _

/-- **The wide rule is not above half protection**, over a history whose lows are not negative. -/
lemma wide_le_halfProtect (hbuffers : config.stopBufferPct ≤ config.greenWideStopBufferPct)
    (hlows : ∀ candle ∈ candles, 0 ≤ candle.low) :
    tightenStopGreenWide position index candles config ≤ tightenStopHalfProtect position index candles config := by
  unfold tightenStopGreenWide tightenStopHalfProtect
  simp only [pyMax_eq_max]
  by_cases h4 : 4 ≤ position.maxStage
  · simp only [if_pos h4, if_pos (show 3 ≤ position.maxStage by omega)]
    refine raiseToHigherLow_mono (le_refl _) fun higherLow hlow => ?_
    obtain ⟨candle, hmem, rfl⟩ := recentHigherLow_mem hlow
    have hwide : candle.low * (1 - config.greenWideStopBufferPct) ≤ candle.low * (1 - config.stopBufferPct) :=
      mul_le_mul_of_nonneg_left (by linarith) (hlows candle hmem)
    -- the first entry is below the stop of the third stage
    exact max_le_max (max_le (le_max_left _ _) ((le_max_right _ _).trans (le_max_left _ _))) hwide
  · simp only [if_neg h4]
    exact le_refl _

end MuStrategy.Strategy
