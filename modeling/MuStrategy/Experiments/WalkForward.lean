import MuStrategy.Experiments.StrategyLadder
import MuStrategy.Strategy.MarketContext

/-!
# Walk-forward windows

The candles are cut into windows that end with the last candle, and a strategy starts anew on each of them.

* `EvaluatorResult`, `maxDrawdownPct` — what a strategy makes of a window.
* `splitIntoWindows`, `runEvaluatorWalkForwardBacktests` — the windows, and the results on them.
* `forall₂_walkForward` — what two strategies have in common on every window.
-/

namespace MuStrategy.Experiments

open Lib TrustedData Strategy

/-- What an evaluation raises. -/
inductive EvaluationError where
  /-- Of a long-only candidate, and of the windows. -/
  | ladder (error : LadderError)
  /-- Of the baseline, and of the hourly context. -/
  | strategy (error : StrategyError)
  deriving DecidableEq

variable {F T : Type}

/-! ## Results -/

/-- The result on a window; its trades are of any kind. Source: `models.py` `BacktestResult`. -/
structure EvaluatorResult (F T : Type) where
  startingEquity : F
  endingEquity : F
  trades : List T
  equityCurve : List (ℤ × F)

/-- Source: `walk_forward.py` `WindowBacktest`. -/
structure WindowBacktest (F T : Type) where
  index : ℕ
  startTimeMs : ℤ
  endTimeMs : ℤ
  result : EvaluatorResult F T
  candleCount : ℕ

/-- Source: `walk_forward.py` `WalkForwardEvaluator`. -/
abbrev WalkForwardEvaluator (F T : Type) : Type :=
  List (Candle F) → List (Candle F) → (ℤ → Option String) → Except EvaluationError (EvaluatorResult F T)

/-- Source: `utils.py` `infer_candle_interval_ms`. -/
def inferCandleIntervalMs (candles : List (Candle F)) : ℤ :=
  let gaps := (candles.zip candles.tail).map fun pair => pair.2.openTimeMs - pair.1.openTimeMs
  (gaps.filter (0 < ·)).min?.getD 0

/-- `DAY_MS`. -/
def dayMs : ℤ := 86400000

section windows

variable [Number F]

/-- The peak and the deepest drawdown, after one more sample. -/
def drawdownStep (s : F × F) (sample : ℤ × F) : F × F :=
  let peak := pyMax s.1 sample.2
  (peak, if isZero peak then s.2 else pyMin s.2 (sample.2 / peak - 1))

/-- Source: `models.py` `BacktestResult.max_drawdown_pct`. -/
def maxDrawdownPct (equityCurve : List (ℤ × F)) : F :=
  match equityCurve with
  | [] => 0
  | first :: _ => (equityCurve.foldl drawdownStep (first.2, 0)).2

/-- Source: `walk_forward.py` `split_into_windows`. -/
def splitIntoWindows (candles : List (Candle F)) (windowDays windows : ℤ) :
    Except LadderError (List (List (Candle F))) := do
  require (0 < windowDays) (.value "window_days must be positive")
  require (0 < windows) (.value "windows must be positive")
  let ordered := orderedBars candles
  match ordered.getLast? with
  | none => pure (List.replicate windows.toNat [])
  | some last =>
      let windowMs := windowDays * dayMs
      let startAll := last.openTimeMs + inferCandleIntervalMs ordered - windowMs * windows
      pure ((List.range windows.toNat).map fun offset =>
        let start := startAll + offset * windowMs
        ordered.filter fun bar => start ≤ bar.openTimeMs && bar.openTimeMs < start + windowMs)

/-- One window: its segment with its number. No candles are no trades. -/
def runWindow (ordered15m ordered1h : List (Candle F)) (fullContext : ℤ → Option String)
    (evaluator : WalkForwardEvaluator F T) (historyHours : ℤ) (window : List (Candle F) × ℕ) :
    Except EvaluationError (WindowBacktest F T) :=
  match window.1.head?, window.1.getLast? with
  | some first, some last => do
      let endTimeMs := last.openTimeMs + inferCandleIntervalMs ordered15m
      let context := fun timeMs => if timeMs ∈ window.1.map Candle.openTimeMs then fullContext timeMs else none
      let segment1h := ordered1h.filter fun bar =>
        first.openTimeMs - historyHours * hourMs ≤ bar.openTimeMs && bar.openTimeMs < endTimeMs
      let result ← evaluator window.1 segment1h context
      pure ⟨window.2, first.openTimeMs, endTimeMs, result, window.1.length⟩
  | _, _ => pure ⟨window.2, 0, 0, ⟨10000, 10000, [], []⟩, 0⟩

/-- Source: `walk_forward.py` `run_evaluator_walk_forward_backtests`. -/
def runEvaluatorWalkForwardBacktests (candles15m candles1h : List (Candle F)) (evaluator : WalkForwardEvaluator F T)
    (windowDays windows historyHours : ℤ) : Except EvaluationError (List (WindowBacktest F T)) := do
  require (0 ≤ historyHours) (.ladder (.value "history_hours must be non-negative"))
  let ordered15m := orderedBars candles15m
  let ordered1h := orderedBars candles1h
  let segments ← raiseAs .ladder (splitIntoWindows ordered15m windowDays windows)
  let fullContext ← raiseAs .strategy (buildHourlyContext ordered15m ordered1h)
  (segments.zipIdx 1).mapM (runWindow ordered15m ordered1h fullContext evaluator historyHours)

/-! ## Two strategies -/

/-- What two computations make of one element, they make of a list. -/
lemma forall₂_of_mapM₂ {ε α β γ : Type} {f : α → Except ε β} {g : α → Except ε γ} {R : β → γ → Prop} {xs : List α}
    {ys : List β} {zs : List γ} (h : ∀ x ∈ xs, ∀ y z, f x = .ok y → g x = .ok z → R y z) (hf : xs.mapM f = .ok ys)
    (hg : xs.mapM g = .ok zs) : List.Forall₂ R ys zs := by
  induction xs generalizing ys zs with
  | nil =>
      obtain rfl := pure_eq_ok_iff.mp hf
      obtain rfl := pure_eq_ok_iff.mp hg
      exact .nil
  | cons x xs ih =>
      rw [List.mapM_cons] at hf hg
      obtain ⟨y, hy, hf⟩ := bind_eq_ok.mp hf
      obtain ⟨ys', hys, hf⟩ := bind_eq_ok.mp hf
      obtain ⟨z, hz, hg⟩ := bind_eq_ok.mp hg
      obtain ⟨zs', hzs, hg⟩ := bind_eq_ok.mp hg
      obtain rfl := pure_eq_ok_iff.mp hf
      obtain rfl := pure_eq_ok_iff.mp hg
      exact .cons (h x List.mem_cons_self y z hy hz) (ih (fun x hx => h x (List.mem_cons_of_mem _ hx)) hys hzs)

/-- A property of results with no trades, and of the results of two strategies on one window, is one of all windows. -/
theorem forall₂_walkForward {f g : WalkForwardEvaluator F T} {R : EvaluatorResult F T → EvaluatorResult F T → Prop}
    (hnone : R ⟨10000, 10000, [], []⟩ ⟨10000, 10000, [], []⟩)
    (heval : ∀ segment15m segment1h context result₁ result₂, f segment15m segment1h context = .ok result₁ →
      g segment15m segment1h context = .ok result₂ → R result₁ result₂)
    {candles15m candles1h : List (Candle F)} {windowDays windows historyHours : ℤ}
    {windows₁ windows₂ : List (WindowBacktest F T)}
    (h₁ : runEvaluatorWalkForwardBacktests candles15m candles1h f windowDays windows historyHours = .ok windows₁)
    (h₂ : runEvaluatorWalkForwardBacktests candles15m candles1h g windowDays windows historyHours = .ok windows₂) :
    List.Forall₂ (fun window₁ window₂ => R window₁.result window₂.result) windows₁ windows₂ := by
  obtain ⟨_, _, h₁⟩ := bind_eq_ok.mp h₁
  obtain ⟨_, _, h₂⟩ := bind_eq_ok.mp h₂
  obtain ⟨segments, hsegments, h₁⟩ := bind_eq_ok.mp h₁
  obtain ⟨segments', hsegments', h₂⟩ := bind_eq_ok.mp h₂
  obtain rfl : segments = segments' := Except.ok.inj (hsegments.symm.trans hsegments')
  obtain ⟨context, hcontext, h₁⟩ := bind_eq_ok.mp h₁
  obtain ⟨context', hcontext', h₂⟩ := bind_eq_ok.mp h₂
  obtain rfl : context = context' := Except.ok.inj (hcontext.symm.trans hcontext')
  refine forall₂_of_mapM₂ (fun window _ window₁ window₂ hrun₁ hrun₂ => ?_) h₁ h₂
  unfold runWindow at hrun₁ hrun₂
  cases hfirst : window.1.head? with
  | none =>
      rw [hfirst] at hrun₁ hrun₂
      obtain rfl := pure_eq_ok_iff.mp hrun₁
      obtain rfl := pure_eq_ok_iff.mp hrun₂
      exact hnone
  | some first =>
      cases hlast : window.1.getLast? with
      | none =>
          rw [hfirst, hlast] at hrun₁ hrun₂
          obtain rfl := pure_eq_ok_iff.mp hrun₁
          obtain rfl := pure_eq_ok_iff.mp hrun₂
          exact hnone
      | some last =>
          rw [hfirst, hlast] at hrun₁ hrun₂
          obtain ⟨result₁, hresult₁, hrun₁⟩ := bind_eq_ok.mp hrun₁
          obtain ⟨result₂, hresult₂, hrun₂⟩ := bind_eq_ok.mp hrun₂
          obtain rfl := pure_eq_ok_iff.mp hrun₁
          obtain rfl := pure_eq_ok_iff.mp hrun₂
          exact heval _ _ _ _ _ hresult₁ hresult₂

end windows

end MuStrategy.Experiments
