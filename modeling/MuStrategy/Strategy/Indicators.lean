import MuStrategy.Lib.Causal
import MuStrategy.Lib.Number

/-!
# Indicators

The indicator arrays of a price series. Each is computed over the whole series at once.

* `ema`, `rsi`, `macd` — the arrays, as the code computes them.
* `causal_ema`, `causal_rsi`, `causal_histogram` — a value depends only on the prices up to its
  position.
-/

namespace MuStrategy.Strategy

open Lib

variable {F : Type} [Number F]

/-! ## Moving averages -/

/-- One bar of an exponential moving average. -/
def emaStep (alpha previous value : F) : F × F :=
  let next := value * alpha + previous * (1 - alpha)
  (next, next)

/-- `period` is a positive constant of the caller. Source: `indicators.py` `ema`. -/
def ema (period : ℕ) (values : List F) : List F :=
  match values with
  | [] => []
  | first :: _ =>
      let alpha : F := 2 / ((period : F) + 1)
      transduce (emaStep alpha) first values

lemma causal_ema (period : ℕ) : Causal (ema (F := F) period) where
  length_eq values := by
    cases values with
    | nil => rfl
    | cons first values => exact length_transduce _ _
  take_append values later := by
    cases values with
    | nil => rfl
    | cons first values => exact (causal_transduce _).take_append (first :: values) later

/-! ## Relative strength -/

/-- Source: `indicators.py` `_rsi_from_averages`. -/
def rsiFromAverages (avgGain avgLoss : F) : F :=
  if isZero avgLoss then 100
  else
    let relativeStrength := avgGain / avgLoss
    100 - 100 / (1 + relativeStrength)

/-- The change from each value to the next. -/
def changes (values : List F) : List F :=
  List.zipWith (fun previous value => value - previous) values values.tail

/-- The gains and losses among changes. -/
def gainsAndLosses (changes : List F) : F × F :=
  changes.foldl (fun (gains, losses) change =>
    if 0 ≤ change then (gains + change, losses) else (gains, losses - change)) (0, 0)

/-- One bar of the smoothed averages. -/
def rsiStep (period : ℕ) (averages : F × F) (change : F) : (F × F) × F :=
  let gain := pyMax change 0
  let loss := pyMax (-change) 0
  let avgGain := (averages.1 * ((period - 1 : ℕ) : F) + gain) / (period : F)
  let avgLoss := (averages.2 * ((period - 1 : ℕ) : F) + loss) / (period : F)
  ((avgGain, avgLoss), rsiFromAverages avgGain avgLoss)

/-- `period` is a positive constant of the caller. Source: `indicators.py` `rsi`. -/
def rsi (period : ℕ) (values : List F) : List F :=
  if values.length ≤ period then values.map fun _ => 50
  else
    let (gains, losses) := gainsAndLosses ((changes values).take period)
    let avgGain := gains / (period : F)
    let avgLoss := losses / (period : F)
    List.replicate period 50 ++ rsiFromAverages avgGain avgLoss ::
      transduce (rsiStep period) (avgGain, avgLoss) ((changes values).drop period)

lemma length_changes (values : List F) : (changes values).length = values.length - 1 := by
  rw [changes, List.length_zipWith, List.length_tail]
  omega

/-- Later values only add changes. -/
lemma changes_append {values : List F} (later : List F) (h : values ≠ []) :
    ∃ more, changes (values ++ later) = changes values ++ more := by
  refine ⟨(changes (values ++ later)).drop (values.length - 1), ?_⟩
  have htake : (changes (values ++ later)).take (values.length - 1) = changes values := by
    obtain ⟨first, rest, rfl⟩ := List.exists_cons_of_ne_nil h
    simp only [changes, List.cons_append, List.tail_cons, List.take_zipWith, List.length_cons,
      Nat.add_sub_cancel, List.take_left']
    rw [← List.cons_append, List.take_append_of_le_length (by simp)]
    conv_rhs => rw [← List.take_length (l := List.zipWith _ _ _)]
    rw [List.take_zipWith]
    simp [List.length_zipWith]
  rw [← htake, List.take_append_drop]

/-- **The relative strength at a bar depends only on the bars up to it.** -/
theorem causal_rsi (period : ℕ) : Causal (rsi (F := F) period) where
  length_eq values := by
    unfold rsi
    split_ifs with h
    · exact List.length_map _
    · simp only [List.length_append, List.length_replicate, List.length_cons, length_transduce,
        List.length_drop, length_changes]
      omega
  take_append values later := by
    by_cases hlong : (values ++ later).length ≤ period
    · have hshort : values.length ≤ period := by
        rw [List.length_append] at hlong
        omega
      rw [rsi, if_pos hlong, rsi, if_pos hshort, List.map_append, List.take_left' (List.length_map _)]
    · by_cases hshort : values.length ≤ period
      · -- the common part is the warm-up of the longer series
        rw [rsi, if_neg hlong, rsi, if_pos hshort, List.take_append_of_le_length (by simpa),
          List.take_replicate, Nat.min_eq_left hshort]
        exact List.map_const'.symm
      · -- both warm up on the same changes, then run the same averages
        have hne : values ≠ [] := by
          rintro rfl
          simp at hshort
        obtain ⟨more, hmore⟩ := changes_append later hne
        have hperiod : period ≤ (changes values).length := by
          rw [length_changes]
          omega
        simp only [rsi, if_neg hlong, if_neg hshort, hmore, List.take_append_of_le_length hperiod,
          List.drop_append_of_le_length hperiod, transduce_append]
        rw [← List.cons_append, ← List.append_assoc]
        refine List.take_left' ?_
        simp only [List.length_append, List.length_replicate, List.length_cons, length_transduce,
          List.length_drop, length_changes]
        omega

/-! ## Convergence and divergence -/

/-- The line, the signal and the histogram. Source: `indicators.py` `macd`, with its default periods. -/
def macd (values : List F) : List F × List F × List F :=
  let fast := ema 12 values
  let slow := ema 26 values
  let line := List.zipWith (fun fastValue slowValue => fastValue - slowValue) fast slow
  let signal := ema 9 line
  let histogram := List.zipWith (fun lineValue signalValue => lineValue - signalValue) line signal
  (line, signal, histogram)

/-- **The histogram at a bar depends only on the bars up to it.** -/
theorem causal_histogram : Causal fun values : List F => (macd values).2.2 := by
  have hline : Causal fun values : List F => (macd values).1 :=
    (causal_ema 12).zipWith (causal_ema 26) _
  exact hline.zipWith ((causal_ema 9).comp hline) _

end MuStrategy.Strategy
