import Mathlib.Tactic.Linarith
import Mathlib.Tactic.Positivity
import Mathlib.Tactic.Ring
import MuStrategy.Strategy.Indicators
import MuStrategy.Strategy.TradingCalendar

/-!
# The loops of the indicators

The indicators as the code runs them: loops over positions that read and assign items, and raise where Python raises.
Prices are exact.

* `ema`, `rsi`, `macd` — the functions, with what they raise.
* `ema_eq`, `rsi_eq`, `macd_eq` — valid periods raise nothing and give the arrays.
* `between_of_mem_ema`, `percent_of_mem_rsi` — bounds of the values.
* `indicators_well_defined` — the whole.
-/

namespace MuStrategy.Strategy.IndicatorLoops

open Lib

/-! ## The functions -/

section loops

variable {F : Type} [Number F]

/-- `x / y`. -/
def divide (x y : F) : Except StrategyError F := do
  require (!isZero y) .zeroDivision
  pure (x / y)

/-- `values[index]`. -/
def item (values : List F) (index : ℕ) : Except StrategyError F := orThrow values[index]? .index

/-- `output[index] = value`. -/
def assign (output : List F) (index : ℕ) (value : F) : Except StrategyError (List F) := do
  require (index < output.length) .index
  pure (output.set index value)

/-- `range(start, stop)`. -/
def range (start stop : ℕ) : List ℕ := List.range' start (stop - start)

/-- `values[index] - values[index - 1]`. -/
def change (values : List F) (index : ℕ) : Except StrategyError F := do
  let value ← item values index
  let previous ← item values (index - 1)
  pure (value - previous)

/-- Source: `indicators.py` `ema`. -/
def ema (values : List F) (period : ℤ) : Except StrategyError (List F) := do
  require (0 < period) (.value "period must be positive")
  match values with
  | [] => pure []
  | first :: _ =>
      let alpha ← divide 2 ((period + 1).toNat : F)
      let (_, output) := values.foldl (fun (previous, output) value =>
        let previous := value * alpha + previous * (1 - alpha)
        (previous, output ++ [previous])) (first, [])
      pure output

/-- Source: `indicators.py` `_rsi_from_averages`. -/
def rsiFromAverages (avgGain avgLoss : F) : Except StrategyError F :=
  if isZero avgLoss then pure 100
  else do
    let relativeStrength ← divide avgGain avgLoss
    let part ← divide 100 (1 + relativeStrength)
    pure (100 - part)

/-- A position of the first loop of `rsi`. -/
def addChange (values : List F) (sums : F × F) (index : ℕ) : Except StrategyError (F × F) := do
  let change ← change values index
  pure (if 0 ≤ change then (sums.1 + change, sums.2) else (sums.1, sums.2 - change))

/-- A position of the second loop of `rsi`: the averages and the output. -/
def smooth (values : List F) (period : ℕ) (s : (F × F) × List F) (index : ℕ) :
    Except StrategyError ((F × F) × List F) := do
  let change ← change values index
  let gain := pyMax change 0
  let loss := pyMax (-change) 0
  let avgGain ← divide (s.1.1 * ((period - 1 : ℕ) : F) + gain) (period : F)
  let avgLoss ← divide (s.1.2 * ((period - 1 : ℕ) : F) + loss) (period : F)
  let value ← rsiFromAverages avgGain avgLoss
  let output ← assign s.2 index value
  pure ((avgGain, avgLoss), output)

/-- Source: `indicators.py` `rsi`. -/
def rsi (values : List F) (period : ℤ) : Except StrategyError (List F) := do
  require (0 < period) (.value "period must be positive")
  if values.isEmpty then pure []
  else if values.length = 1 then pure [50]
  else
    let period := period.toNat
    let output := List.replicate values.length (50 : F)
    let (gains, losses) ← (range 1 (min (period + 1) values.length)).foldlM (addChange values) (0, 0)
    if values.length ≤ period then pure output
    else
      let avgGain ← divide gains (period : F)
      let avgLoss ← divide losses (period : F)
      let value ← rsiFromAverages avgGain avgLoss
      let output ← assign output period value
      let (_, output) ← (range (period + 1) values.length).foldlM (smooth values period) ((avgGain, avgLoss), output)
      pure output

/-- Source: `indicators.py` `macd`. -/
def macd (values : List F) (fastPeriod slowPeriod signalPeriod : ℤ) :
    Except StrategyError (List F × List F × List F) := do
  require (fastPeriod < slowPeriod) (.value "slow_period must be greater than fast_period")
  let fast ← ema values fastPeriod
  let slow ← ema values slowPeriod
  let line := List.zipWith (fun fastValue slowValue => fastValue - slowValue) fast slow
  let signal ← ema line signalPeriod
  let histogram := List.zipWith (fun lineValue signalValue => lineValue - signalValue) line signal
  pure (line, signal, histogram)

/-- A change that a position has. -/
lemma change_eq {values : List F} {index : ℕ} (h : index < (changes values).length) :
    change values (index + 1) = .ok (changes values)[index] := by
  have hlength := length_changes values
  have hget : values[index + 1]? = some values[index + 1] := List.getElem?_eq_getElem (by omega)
  have hprevious : values[index]? = some values[index] := List.getElem?_eq_getElem (by omega)
  rw [change, item, item, hget, Nat.add_sub_cancel, hprevious]
  simp only [changes, List.getElem_zipWith, List.getElem_tail]
  rfl

/-- The first loop adds up changes. -/
lemma addChange_loop (values : List F) (start m : ℕ) (h : start + m ≤ (changes values).length) (sums : F × F) :
    (List.range' (start + 1) m).foldlM (addChange values) sums =
      .ok ((((changes values).drop start).take m).foldl (fun (gains, losses) change =>
        if 0 ≤ change then (gains + change, losses) else (gains, losses - change)) sums) := by
  induction m generalizing start sums with
  | zero => rfl
  | succ m ih =>
      rw [List.range'_succ, List.foldlM_cons, addChange, change_eq (by omega), ok_bind,
        List.drop_eq_getElem_cons (by omega), List.take_succ_cons, List.foldl_cons]
      exact ih (start + 1) (by omega) _

end loops

/-! ## Valid periods raise nothing -/

lemma divide_eq {x y : ℚ} (h : y ≠ 0) : divide x y = .ok (x / y) := by
  have hzero : isZero y = false := by
    rw [← Bool.not_eq_true, isZero_eq_true]
    exact h
  rw [divide, hzero]
  rfl

lemma ema_eq {period : ℤ} (h : 0 < period) (values : List ℚ) :
    ema values period = .ok (Strategy.ema period.toNat values) := by
  obtain ⟨n, rfl⟩ := Int.eq_ofNat_of_zero_le h.le
  unfold ema
  rw [decide_eq_true h, require_true, ok_bind]
  cases values with
  | nil => rfl
  | cons first values =>
      have halpha : (((n : ℤ) + 1).toNat : ℚ) = (n : ℚ) + 1 := by
        rw [show ((n : ℤ) + 1).toNat = n + 1 by omega, Nat.cast_add, Nat.cast_one]
      have hne : (n : ℚ) + 1 ≠ 0 := by positivity
      dsimp only
      rw [halpha, divide_eq hne, ok_bind]
      exact congrArg Except.ok (@foldl_append_transduce _ _ _ (emaStep (2 / ((n : ℚ) + 1))) first [] (first :: values))

lemma rsiFromAverages_eq {avgGain avgLoss : ℚ} (hgain : 0 ≤ avgGain) (hloss : 0 ≤ avgLoss) :
    rsiFromAverages avgGain avgLoss = .ok (Strategy.rsiFromAverages avgGain avgLoss) := by
  unfold rsiFromAverages Strategy.rsiFromAverages
  split
  · rfl
  · rename_i hzero
    have hne : avgLoss ≠ 0 := fun h => hzero (isZero_eq_true.mpr h)
    have hsum : 1 + avgGain / avgLoss ≠ 0 := by positivity
    rw [divide_eq hne, ok_bind, divide_eq hsum]
    rfl

/-- An index of relative strength is a percentage. -/
lemma rsiFromAverages_percent {avgGain avgLoss : ℚ} (hgain : 0 ≤ avgGain) (hloss : 0 ≤ avgLoss) :
    0 ≤ Strategy.rsiFromAverages avgGain avgLoss ∧ Strategy.rsiFromAverages avgGain avgLoss ≤ 100 := by
  unfold Strategy.rsiFromAverages
  split
  · norm_num
  · have hstrength : 0 ≤ avgGain / avgLoss := div_nonneg hgain hloss
    have hpos : 0 < 1 + avgGain / avgLoss := by linarith
    have hle : 100 / (1 + avgGain / avgLoss) ≤ 100 := div_le_self (by norm_num) (by linarith)
    have hnonneg : 0 ≤ 100 / (1 + avgGain / avgLoss) := div_nonneg (by norm_num) hpos.le
    exact ⟨by linarith, by linarith⟩

/-- Averages are not negative. -/
def NonnegPair (averages : ℚ × ℚ) : Prop := 0 ≤ averages.1 ∧ 0 ≤ averages.2

lemma nonneg_gainsAndLosses (changes : List ℚ) : NonnegPair (gainsAndLosses changes) := by
  have hfold : ∀ sums : ℚ × ℚ, NonnegPair sums → NonnegPair (changes.foldl (fun (gains, losses) change =>
      if 0 ≤ change then (gains + change, losses) else (gains, losses - change)) sums) := by
    induction changes with
    | nil => exact fun _ hsums => hsums
    | cons change changes ih =>
        intro sums hsums
        refine ih _ ?_
        dsimp only
        split
        · rename_i hchange
          exact ⟨add_nonneg hsums.1 hchange, hsums.2⟩
        · rename_i hchange
          exact ⟨hsums.1, sub_nonneg.mpr ((not_le.mp hchange).le.trans hsums.2)⟩
  exact hfold (0, 0) ⟨le_rfl, le_rfl⟩

lemma nonneg_rsiStep (period : ℕ) {averages : ℚ × ℚ} (h : NonnegPair averages) (change : ℚ) :
    NonnegPair (rsiStep period averages change).1 := by
  have hmax : ∀ x : ℚ, 0 ≤ pyMax x 0 := by
    intro x
    rw [pyMax_eq_max]
    exact le_max_right x 0
  have haverage : ∀ x y : ℚ, 0 ≤ x → 0 ≤ y → 0 ≤ (x * ((period - 1 : ℕ) : ℚ) + y) / (period : ℚ) :=
    fun x y hx hy => div_nonneg (add_nonneg (mul_nonneg hx (Nat.cast_nonneg _)) hy) (Nat.cast_nonneg _)
  exact ⟨haverage _ _ h.1 (hmax change), haverage _ _ h.2 (hmax (-change))⟩

lemma percent_rsiStep (period : ℕ) {averages : ℚ × ℚ} (h : NonnegPair averages) (change : ℚ) :
    0 ≤ (rsiStep period averages change).2 ∧ (rsiStep period averages change).2 ≤ 100 := by
  obtain ⟨hgain, hloss⟩ := nonneg_rsiStep period h change
  exact rsiFromAverages_percent hgain hloss

/-- A position of the second loop. -/
lemma smooth_eq {values : List ℚ} {period : ℕ} (hperiod : period ≠ 0) {averages : ℚ × ℚ} (h : NonnegPair averages)
    {index : ℕ} (hindex : index < (changes values).length) (done more : List ℚ) (hdone : done.length = index + 1)
    (old : ℚ) :
    smooth values period (averages, done ++ old :: more) (index + 1) =
      .ok ((rsiStep period averages (changes values)[index]).1,
        done ++ (rsiStep period averages (changes values)[index]).2 :: more) := by
  have hne : (period : ℚ) ≠ 0 := Nat.cast_ne_zero.mpr hperiod
  obtain ⟨hgain, hloss⟩ := nonneg_rsiStep period h (changes values)[index]
  have hvalue := rsiFromAverages_eq hgain hloss
  dsimp only [rsiStep] at hvalue
  rw [smooth, change_eq hindex, ok_bind]
  dsimp only
  rw [divide_eq hne, ok_bind, divide_eq hne, ok_bind, hvalue, ok_bind, assign, decide_eq_true (by simp [hdone]), require_true, ok_bind, ← hdone, List.set_append_right _ _ le_rfl, Nat.sub_self]
  rfl

/-- The second loop overwrites the rest of the output. -/
lemma smooth_loop {values : List ℚ} {period : ℕ} (hperiod : period ≠ 0) (start m : ℕ)
    (h : start + m = (changes values).length) {averages : ℚ × ℚ} (haverages : NonnegPair averages) (done : List ℚ)
    (hdone : done.length = start + 1) :
    ∃ last, (List.range' (start + 1) m).foldlM (smooth values period) (averages, done ++ List.replicate m 50) =
      .ok (last, done ++ transduce (rsiStep period) averages ((changes values).drop start)) := by
  induction m generalizing start averages done with
  | zero =>
      refine ⟨averages, ?_⟩
      rw [List.drop_of_length_le (by omega)]
      rfl
  | succ m ih =>
      have hindex : start < (changes values).length := by omega
      obtain ⟨last, hlast⟩ := ih (start + 1) (by omega)
        (nonneg_rsiStep period haverages (changes values)[start])
        (done ++ [(rsiStep period averages (changes values)[start]).2])
        (by rw [List.length_append, List.length_singleton, hdone])
      refine ⟨last, ?_⟩
      rw [List.range'_succ, List.foldlM_cons, List.replicate_succ,
        smooth_eq hperiod haverages hindex done (List.replicate m 50) hdone, ok_bind,
        List.drop_eq_getElem_cons hindex, transduce]
      rw [List.append_assoc, List.append_assoc, List.singleton_append, List.singleton_append] at hlast
      exact hlast

/-- The first value behind the warm-up. -/
lemma assign_replicate (n m : ℕ) (value : ℚ) : assign (List.replicate (n + 1 + m) 50) n value =
    .ok (List.replicate n 50 ++ [value] ++ List.replicate m 50) := by
  rw [assign, List.length_replicate, decide_eq_true (by omega), require_true, ok_bind, Nat.add_assoc, List.replicate_add,
    List.set_append_right _ _ (by simp), List.length_replicate, Nat.sub_self, Nat.add_comm 1 m, List.replicate_succ,
    List.set_cons_zero, List.append_assoc]
  rfl

lemma rsi_eq {period : ℤ} (h : 0 < period) (values : List ℚ) :
    rsi values period = .ok (Strategy.rsi period.toNat values) := by
  obtain ⟨n, rfl⟩ := Int.eq_ofNat_of_zero_le h.le
  have hn : n ≠ 0 := by omega
  have hperiod : (n : ℚ) ≠ 0 := Nat.cast_ne_zero.mpr hn
  have hchanges := length_changes values
  unfold rsi Strategy.rsi
  rw [decide_eq_true h, require_true, ok_bind, Int.toNat_natCast]
  dsimp only
  rcases values with _ | ⟨first, _ | ⟨second, rest⟩⟩
  · rfl
  · rw [if_neg (by simp), if_pos List.length_singleton, if_pos (show [first].length ≤ n by rw [List.length_singleton]; omega)]
    rfl
  · generalize hvalues : first :: second :: rest = values at *
    have hlength : 2 ≤ values.length := by
      rw [← hvalues, List.length_cons, List.length_cons]
      omega
    have hempty : ¬ values.isEmpty = true := by
      rw [← hvalues]
      exact Bool.false_ne_true
    rw [if_neg hempty, if_neg (by omega)]
    by_cases hshort : values.length ≤ n
    · -- the warm-up is all there is
      rw [range, Nat.min_eq_right (by omega), addChange_loop values 0 _ (by omega), ok_bind, if_pos hshort,
        if_pos hshort, List.map_const']
      rfl
    · obtain ⟨m, hm⟩ : ∃ m, values.length = n + 1 + m := ⟨values.length - (n + 1), by omega⟩
      obtain ⟨hgain, hloss⟩ := nonneg_gainsAndLosses ((changes values).take n)
      have hgains : 0 ≤ (gainsAndLosses ((changes values).take n)).1 / (n : ℚ) := div_nonneg hgain (Nat.cast_nonneg n)
      have hlosses : 0 ≤ (gainsAndLosses ((changes values).take n)).2 / (n : ℚ) := div_nonneg hloss (Nat.cast_nonneg n)
      have haverages : NonnegPair ((gainsAndLosses ((changes values).take n)).1 / (n : ℚ),
          (gainsAndLosses ((changes values).take n)).2 / (n : ℚ)) := ⟨hgains, hlosses⟩
      obtain ⟨last, hlast⟩ := smooth_loop hn n m (show n + m = (changes values).length by omega) haverages
        (List.replicate n 50 ++ [Strategy.rsiFromAverages ((gainsAndLosses ((changes values).take n)).1 / (n : ℚ))
          ((gainsAndLosses ((changes values).take n)).2 / (n : ℚ))]) (by simp)
      rw [range, Nat.min_eq_left (by omega), Nat.add_sub_cancel, addChange_loop values 0 n (by omega), ok_bind,
        if_neg hshort, if_neg hshort, List.drop_zero]
      change (divide (gainsAndLosses ((changes values).take n)).1 (n : ℚ) >>= fun avgGain =>
        divide (gainsAndLosses ((changes values).take n)).2 (n : ℚ) >>= fun avgLoss => _) = _
      rw [divide_eq hperiod, ok_bind, divide_eq hperiod, ok_bind, rsiFromAverages_eq hgains hlosses, ok_bind, hm,
        assign_replicate, ok_bind, range, Nat.add_sub_cancel_left, hlast, ok_bind, List.append_assoc,
        List.singleton_append]
      rfl

lemma macd_eq {fast slow signal : ℤ} (hfast : 0 < fast) (hslow : fast < slow) (hsignal : 0 < signal) (values : List ℚ) :
    macd values fast slow signal =
      (let line := List.zipWith (fun fastValue slowValue => fastValue - slowValue)
        (Strategy.ema fast.toNat values) (Strategy.ema slow.toNat values)
      .ok (line, Strategy.ema signal.toNat line,
        List.zipWith (fun lineValue signalValue => lineValue - signalValue) line (Strategy.ema signal.toNat line))) := by
  rw [macd, decide_eq_true hslow, require_true, ok_bind, ema_eq hfast, ok_bind, ema_eq (hfast.trans hslow), ok_bind]
  dsimp only
  rw [ema_eq hsignal, ok_bind]
  rfl

/-! ## Bounds -/

/-- An average of a value and what came before lies between them. -/
lemma between_emaStep {alpha lo hi previous value : ℚ} (halpha : 0 ≤ alpha) (hone : alpha ≤ 1)
    (hprevious : lo ≤ previous ∧ previous ≤ hi) (hvalue : lo ≤ value ∧ value ≤ hi) :
    lo ≤ (emaStep alpha previous value).1 ∧ (emaStep alpha previous value).1 ≤ hi := by
  have hrest : 0 ≤ 1 - alpha := sub_nonneg.mpr hone
  have hsplit : ∀ bound : ℚ, bound = bound * alpha + bound * (1 - alpha) := fun bound => by ring
  change lo ≤ value * alpha + previous * (1 - alpha) ∧ value * alpha + previous * (1 - alpha) ≤ hi
  constructor
  · rw [hsplit lo]
    exact add_le_add (mul_le_mul_of_nonneg_right hvalue.1 halpha) (mul_le_mul_of_nonneg_right hprevious.1 hrest)
  · rw [hsplit hi]
    exact add_le_add (mul_le_mul_of_nonneg_right hvalue.2 halpha) (mul_le_mul_of_nonneg_right hprevious.2 hrest)

lemma between_of_mem_ema {n : ℕ} (hn : n ≠ 0) {values : List ℚ} {lo hi : ℚ}
    (hvalues : ∀ value ∈ values, lo ≤ value ∧ value ≤ hi) : ∀ x ∈ Strategy.ema n values, lo ≤ x ∧ x ≤ hi := by
  cases values with
  | nil => exact fun x hx => absurd hx List.not_mem_nil
  | cons first values =>
      have hnext : (0 : ℚ) < (n : ℚ) + 1 := by positivity
      have hone : (1 : ℚ) ≤ (n : ℚ) := Nat.one_le_cast.mpr (Nat.one_le_iff_ne_zero.mpr hn)
      have halpha : (2 : ℚ) / ((n : ℚ) + 1) ≤ 1 := (div_le_one hnext).mpr (by linarith)
      refine transduce_forall (I := fun previous => lo ≤ previous ∧ previous ≤ hi) (fun previous value hmem hprevious => ?_)
        (hvalues first List.mem_cons_self)
      have hstep := between_emaStep (div_nonneg (by norm_num) hnext.le) halpha hprevious (hvalues value hmem)
      exact ⟨hstep, hstep⟩

lemma percent_of_mem_rsi (n : ℕ) (values : List ℚ) : ∀ x ∈ Strategy.rsi n values, 0 ≤ x ∧ x ≤ 100 := by
  intro x hx
  unfold Strategy.rsi at hx
  split at hx
  · obtain ⟨_, -, rfl⟩ := List.mem_map.mp hx
    norm_num
  · obtain ⟨hgain, hloss⟩ := nonneg_gainsAndLosses ((changes values).take n)
    have hgains := div_nonneg hgain (Nat.cast_nonneg (α := ℚ) n)
    have hlosses := div_nonneg hloss (Nat.cast_nonneg (α := ℚ) n)
    rcases List.mem_append.mp hx with hx | hx
    · rw [List.eq_of_mem_replicate hx]
      norm_num
    · rcases List.mem_cons.mp hx with rfl | hx
      · exact rsiFromAverages_percent hgains hlosses
      · exact transduce_forall (I := NonnegPair) (P := fun x => 0 ≤ x ∧ x ≤ 100)
          (fun _ change _ h => ⟨nonneg_rsiStep n h change, percent_rsiStep n h change⟩) ⟨hgains, hlosses⟩ x hx

/-! ## The result -/

/-- It raises nothing and has one output for each value, and what comes later changes no output. -/
structure CausalArray (f : List ℚ → Except StrategyError (List ℚ)) : Prop where
  returns : ∀ values, ∃ output, f values = .ok output ∧ output.length = values.length
  agree : ∀ (values values' output output' : List ℚ) (k : ℕ), values.take k = values'.take k →
    f values = .ok output → f values' = .ok output' → output.take k = output'.take k

lemma CausalArray.of_causal {f : List ℚ → Except StrategyError (List ℚ)} {g : List ℚ → List ℚ} (hg : Causal g)
    (h : ∀ values, f values = .ok (g values)) : CausalArray f where
  returns values := ⟨g values, h values, hg.length_eq values⟩
  agree values values' output output' k htake houtput houtput' := by
    rw [h, Except.ok.injEq] at houtput houtput'
    rw [← houtput, ← houtput', hg.take_eq, hg.take_eq, htake]

/-- The values up to an index bound the output there. -/
lemma between_of_getElem?_ema {period : ℤ} (h : 0 < period) {values output : List ℚ}
    (houtput : ema values period = .ok output) {index : ℕ} {x : ℚ} (hx : output[index]? = some x) :
    ∃ lo hi, (values.take (index + 1)).min? = some lo ∧ (values.take (index + 1)).max? = some hi ∧ lo ≤ x ∧ x ≤ hi := by
  have hperiod : period.toNat ≠ 0 := by omega
  have hcausal := causal_ema (F := ℚ) period.toNat
  rw [ema_eq h, Except.ok.injEq] at houtput
  subst houtput
  obtain ⟨hindex, rfl⟩ := List.getElem?_eq_some_iff.mp hx
  have hlt : index < values.length := by
    rw [hcausal.length_eq] at hindex
    exact hindex
  have hne : values.take (index + 1) ≠ [] := by
    rw [← List.length_pos_iff, List.length_take]
    omega
  obtain ⟨lo, hlo⟩ := Option.isSome_iff_exists.mp (List.isSome_min?_of_ne_nil hne)
  obtain ⟨hi, hhi⟩ := Option.isSome_iff_exists.mp (List.isSome_max?_of_ne_nil hne)
  have hbounds : ∀ value ∈ values.take (index + 1), lo ≤ value ∧ value ≤ hi := fun value hvalue =>
    ⟨(List.min?_eq_some_iff.mp hlo).2 value hvalue, (List.max?_eq_some_iff.mp hhi).2 value hvalue⟩
  refine ⟨lo, hi, hlo, hhi, between_of_mem_ema hperiod hbounds _ ?_⟩
  rw [← hcausal.take_eq]
  exact List.mem_take_iff_getElem.mpr ⟨index, by omega, rfl⟩

/-- **Indicators are causal and well defined**, for every valid period: they raise nothing, have one output for each
value, and what comes later changes no output; averages stay between the values so far, and relative strengths are
percentages. -/
theorem indicators_well_defined :
    (∀ period : ℤ, 0 < period →
      CausalArray (fun values => ema values period) ∧
      ∀ (values output : List ℚ), ema values period = .ok output → ∀ (index : ℕ) (x : ℚ), output[index]? = some x →
        ∃ lo hi, (values.take (index + 1)).min? = some lo ∧ (values.take (index + 1)).max? = some hi ∧ lo ≤ x ∧ x ≤ hi) ∧
    (∀ period : ℤ, 0 < period →
      CausalArray (fun values => rsi values period) ∧
      ∀ (values output : List ℚ), rsi values period = .ok output → ∀ x ∈ output, 0 ≤ x ∧ x ≤ 100) ∧
    ∀ fast slow signal : ℤ, 0 < fast → fast < slow → 0 < signal →
      CausalArray (fun values => (fun arrays => arrays.1) <$> macd values fast slow signal) ∧
      CausalArray (fun values => (fun arrays => arrays.2.1) <$> macd values fast slow signal) ∧
      CausalArray (fun values => (fun arrays => arrays.2.2) <$> macd values fast slow signal) := by
  refine ⟨fun period h => ⟨.of_causal (causal_ema _) (ema_eq h), fun values output houtput index x hx =>
    between_of_getElem?_ema h houtput hx⟩, fun period h => ⟨.of_causal (causal_rsi _) (rsi_eq h),
    fun values output houtput x hx => ?_⟩, fun fast slow signal hfast hslow hsignal => ?_⟩
  · rw [rsi_eq h, Except.ok.injEq] at houtput
    subst houtput
    exact percent_of_mem_rsi _ values x hx
  · have hline := (causal_ema (F := ℚ) fast.toNat).zipWith (causal_ema slow.toNat)
      fun fastValue slowValue => fastValue - slowValue
    have hsignals := (causal_ema (F := ℚ) signal.toNat).comp hline
    have harrays := macd_eq hfast hslow hsignal
    refine ⟨.of_causal hline fun values => ?_, .of_causal hsignals fun values => ?_, .of_causal (hline.zipWith hsignals
      fun lineValue signalValue => lineValue - signalValue) fun values => ?_⟩ <;> rw [harrays values] <;> rfl

/-- Five prices: the averages of two, and the relative strength after two. -/
theorem indicators_well_defined_demo :
    (∃ output, ema ([1, 4, 2, 5, 3] : List ℚ) 2 = .ok output ∧ output.length = 5) ∧
    (∀ output, rsi ([1, 4, 2, 5, 3] : List ℚ) 2 = .ok output → ∀ x ∈ output, 0 ≤ x ∧ x ≤ 100) ∧
    CausalArray (fun values => (fun arrays => arrays.2.2) <$> macd values 1 2 3) :=
  ⟨(indicators_well_defined.1 2 (by decide)).1.returns [1, 4, 2, 5, 3],
    (indicators_well_defined.2.1 2 (by decide)).2 [1, 4, 2, 5, 3],
    (indicators_well_defined.2.2 1 2 3 (by decide) (by decide) (by decide)).2.2⟩

end MuStrategy.Strategy.IndicatorLoops
