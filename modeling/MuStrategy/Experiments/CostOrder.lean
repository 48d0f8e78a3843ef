import MuStrategy.Experiments.CandidateRuns

/-!
# Higher costs earn less

The costs of a long-only candidate move its prices and its fees, and not its signals. A trade multiplies the equity, and
higher costs lower the factor: a run at higher costs makes the same trades, and does not end with more.

* `growth` — the factor of a trade.
* `Dearer` — two accounts after the same bars, the second at higher costs.
* `Dearer.stepBar`, `Dearer.foldlM`, `dearer_of_runs` — a bar, some bars, and the run.
-/

namespace MuStrategy.Experiments

open Lib TrustedData Backtest

/-- When a trade was entered and left, and why. -/
def CandidateTrade.course {F : Type} (trade : CandidateTrade F) : ℤ × ℤ × CandidateExit :=
  (trade.entryTimeMs, trade.exitTimeMs, trade.exitReason)

/-- A run at other costs. -/
def CandidateRun.withCosts {F : Type} (run : CandidateRun F) (feeBpsPerSide slippageTicks : ℤ) : CandidateRun F :=
  { run with feeBpsPerSide, slippageTicks }

lemma withCosts_targetLongByOpenTime {F : Type} (run : CandidateRun F) (fee ticks : ℤ) :
    (run.withCosts fee ticks).targetLongByOpenTime = run.targetLongByOpenTime := rfl

/-- The settled equity stays positive. -/
def StaysPositive (startingEquity : ℚ) (trades : List (CandidateTrade ℚ)) : Prop :=
  ∀ closed, closed <+: trades → 0 < startingEquity + profit closed

/-- What a trade multiplies the equity by. -/
def growth (feeRate entryPrice exitPrice : ℚ) : ℚ := exitPrice / entryPrice * (1 - feeRate) - feeRate

/-- Higher costs lower the factor, as long as it is positive. -/
lemma growth_anti {fee₁ fee₂ entry₁ entry₂ exit₁ exit₂ : ℚ} (hfee : 0 ≤ fee₁) (hfees : fee₁ ≤ fee₂)
    (hentry : 0 < entry₁) (hentries : entry₁ ≤ entry₂) (hexit : 0 < exit₂) (hexits : exit₂ ≤ exit₁)
    (hpos : 0 < growth fee₂ entry₂ exit₂) : growth fee₂ entry₂ exit₂ ≤ growth fee₁ entry₁ exit₁ := by
  have hratio : exit₂ / entry₂ ≤ exit₁ / entry₁ := div_le_div₀ (hexit.le.trans hexits) hexits hentry hentries
  have hratioPos : 0 < exit₂ / entry₂ := div_pos hexit (hentry.trans_le hentries)
  -- the fees leave something of the position
  have hkept : 0 < 1 - fee₂ := by
    by_contra hnot
    have hfee₂ : 0 ≤ fee₂ := hfee.trans hfees
    have hnone := mul_nonpos_of_nonneg_of_nonpos hratioPos.le (not_lt.mp hnot)
    unfold growth at hpos
    linarith
  have hproduct : exit₂ / entry₂ * (1 - fee₂) ≤ exit₁ / entry₁ * (1 - fee₁) :=
    mul_le_mul hratio (by linarith) hkept.le (hratioPos.le.trans hratio)
  unfold growth
  linarith

/-! ## Two accounts -/

variable {run run₁ run₂ : CandidateRun ℚ} {s s₁ s₂ t₁ t₂ : CandidateState ℚ} {bar : Candle ℚ}
  {ordered candles : List (Candle ℚ)}

/-- A position that was opened with an equity at an open. -/
structure Bought (run : CandidateRun ℚ) (equity openPrice : ℚ) (fill : Fill ℚ) : Prop where
  price : fill.price = openPrice + run.slip
  positive : 0 < fill.price
  units : fill.units * fill.price = equity
  fee : fill.fee = equity * run.feeRate

/-- The costs of the second run are not lower. -/
structure CostsLe (run₁ run₂ : CandidateRun ℚ) : Prop where
  fee_nonneg : 0 ≤ run₁.feeRate
  fee : run₁.feeRate ≤ run₂.feeRate
  slip : run₁.slip ≤ run₂.slip

/-- What both runs hold. -/
inductive SameHolding (run₁ run₂ : CandidateRun ℚ) (s₁ s₂ : CandidateState ℚ) : Prop where
  | flat (h₁ : s₁.openFill = none) (h₂ : s₂.openFill = none)
  | long {fill₁ fill₂ : Fill ℚ} {openPrice : ℚ} (h₁ : s₁.openFill = some fill₁) (h₂ : s₂.openFill = some fill₂)
      (time : fill₁.timeMs = fill₂.timeMs) (bought₁ : Bought run₁ s₁.equity openPrice fill₁)
      (bought₂ : Bought run₂ s₂.equity openPrice fill₂)

/-- Two accounts after the same bars, the second at higher costs. -/
structure Dearer (run₁ run₂ : CandidateRun ℚ) (s₁ s₂ : CandidateState ℚ) : Prop where
  courses : s₁.trades.map CandidateTrade.course = s₂.trades.map CandidateTrade.course
  settled : s₂.equity = run₂.startingEquity + profit s₂.trades
  equity : s₂.equity ≤ s₁.equity
  holding : SameHolding run₁ run₂ s₁ s₂

lemma openLong_bought {equity : ℚ} {fill : Fill ℚ} (h : openLong run equity bar = .ok fill) :
    Bought run equity bar.openPrice fill := by
  obtain ⟨hunits, hfee, -⟩ := openLong_spec h
  obtain ⟨_, hpositive, h⟩ := bind_eq_ok.mp h
  obtain rfl := pure_eq_ok_iff.mp h
  rw [require_eq_ok, Bool.not_eq_true', decide_eq_false_iff_not, not_le] at hpositive
  exact ⟨rfl, hpositive, hunits, hfee⟩

/-- A trade multiplies the equity. -/
lemma closeLongOnlyTrade_growth {fill : Fill ℚ} {exitTimeMs : ℤ} {exitPrice equity openPrice : ℚ} {reason : CandidateExit}
    {settled : ℚ × CandidateTrade ℚ} (hbought : Bought run equity openPrice fill)
    (h : closeLongOnlyTrade fill exitTimeMs exitPrice equity run.feeRate reason = .ok settled) :
    settled.1 = equity * growth run.feeRate fill.price exitPrice ∧ settled.1 = equity + settled.2.pnl ∧
      0 < exitPrice ∧ settled.2.course = (fill.timeMs, exitTimeMs, reason) := by
  obtain ⟨_, hexit, h⟩ := bind_eq_ok.mp h
  obtain rfl := pure_eq_ok_iff.mp h
  rw [require_eq_ok, Bool.not_eq_true', decide_eq_false_iff_not, not_le] at hexit
  refine ⟨?_, rfl, hexit, rfl⟩
  have hunits : fill.units = equity / fill.price := (eq_div_iff hbought.positive.ne').mpr hbought.units
  have hprice := hbought.positive.ne'
  rw [hbought.fee, hunits, growth]
  field_simp
  ring

/-- Both runs close their position. -/
lemma Dearer.close {fill₁ fill₂ : Fill ℚ} {openPrice exitPrice : ℚ} {exitTimeMs : ℤ} {reason : CandidateExit}
    {settled₁ settled₂ : ℚ × CandidateTrade ℚ} (h : Dearer run₁ run₂ s₁ s₂) (hcosts : CostsLe run₁ run₂)
    (htime : fill₁.timeMs = fill₂.timeMs) (hbought₁ : Bought run₁ s₁.equity openPrice fill₁)
    (hbought₂ : Bought run₂ s₂.equity openPrice fill₂)
    (hclose₁ : closeLongOnlyTrade fill₁ exitTimeMs (exitPrice - run₁.slip) s₁.equity run₁.feeRate reason = .ok settled₁)
    (hclose₂ : closeLongOnlyTrade fill₂ exitTimeMs (exitPrice - run₂.slip) s₂.equity run₂.feeRate reason = .ok settled₂)
    (hpositive : StaysPositive run₂.startingEquity (s₂.trades ++ [settled₂.2])) :
    (s₁.trades ++ [settled₁.2]).map CandidateTrade.course = (s₂.trades ++ [settled₂.2]).map CandidateTrade.course ∧
      settled₂.1 = run₂.startingEquity + profit (s₂.trades ++ [settled₂.2]) ∧ settled₂.1 ≤ settled₁.1 := by
  obtain ⟨hgrowth₁, -, -, hcourse₁⟩ := closeLongOnlyTrade_growth hbought₁ hclose₁
  obtain ⟨hgrowth₂, hpnl₂, hexit₂, hcourse₂⟩ := closeLongOnlyTrade_growth hbought₂ hclose₂
  have hslip := hcosts.slip
  have hsettled : settled₂.1 = run₂.startingEquity + profit (s₂.trades ++ [settled₂.2]) := by
    rw [hpnl₂, profit_append, h.settled, add_assoc]
  refine ⟨?_, hsettled, ?_⟩
  · rw [List.map_append, List.map_append, h.courses, List.map_singleton, List.map_singleton, hcourse₁, hcourse₂, htime]
  · have hbefore : 0 < s₂.equity := h.settled ▸ hpositive _ (List.prefix_append _ _)
    have hafter : 0 < settled₂.1 := hsettled ▸ hpositive _ List.prefix_rfl
    have hfactor : 0 < growth run₂.feeRate fill₂.price (exitPrice - run₂.slip) :=
      pos_of_mul_pos_right (hgrowth₂ ▸ hafter) hbefore.le
    have hentries : fill₁.price ≤ fill₂.price := by
      rw [hbought₁.price, hbought₂.price]
      linarith
    have hle := growth_anti hcosts.fee_nonneg hcosts.fee hbought₁.positive hentries hexit₂
      (sub_le_sub_left hcosts.slip exitPrice) hfactor
    rw [hgrowth₁, hgrowth₂]
    exact mul_le_mul h.equity hle hfactor.le (hbefore.le.trans h.equity)

/-- **Both runs settle alike** at the open of a bar. -/
lemma Dearer.settle (h : Dearer run₁ run₂ s₁ s₂) (hcosts : CostsLe run₁ run₂) {targetLong : Bool}
    (hsettle₁ : settle run₁ s₁ bar targetLong = .ok t₁) (hsettle₂ : settle run₂ s₂ bar targetLong = .ok t₂)
    (hpositive : StaysPositive run₂.startingEquity t₂.trades) : Dearer run₁ run₂ t₁ t₂ := by
  have hbefore : 0 < s₂.equity := by
    obtain ⟨newTrades, hgrown⟩ : ∃ newTrades, Grown run₂ [(bar, 0)] s₂ t₂ newTrades [] := settle_grown hsettle₂
    exact h.settled ▸ hpositive _ ⟨newTrades, hgrown.trades.symm⟩
  unfold Experiments.settle at hsettle₁ hsettle₂
  rcases h.holding with ⟨hfill₁, hfill₂⟩ | ⟨hfill₁, hfill₂, htime, hbought₁, hbought₂⟩
  · rw [hfill₁] at hsettle₁
    rw [hfill₂] at hsettle₂
    have hpositive₁ : 0 < s₁.equity := hbefore.trans_le h.equity
    cases targetLong with
    | false =>
        obtain rfl := pure_eq_ok_iff.mp hsettle₁
        obtain rfl := pure_eq_ok_iff.mp hsettle₂
        exact h
    | true =>
        dsimp only at hsettle₁ hsettle₂
        rw [if_pos (by simpa using hpositive₁)] at hsettle₁
        rw [if_pos (by simpa using hbefore)] at hsettle₂
        obtain ⟨fill₁, hopen₁, hsettle₁⟩ := bind_eq_ok.mp hsettle₁
        obtain ⟨fill₂, hopen₂, hsettle₂⟩ := bind_eq_ok.mp hsettle₂
        obtain rfl := pure_eq_ok_iff.mp hsettle₁
        obtain rfl := pure_eq_ok_iff.mp hsettle₂
        have htime : fill₁.timeMs = fill₂.timeMs := (openLong_spec hopen₁).2.2.trans (openLong_spec hopen₂).2.2.symm
        exact ⟨h.courses, h.settled, h.equity,
          .long rfl rfl htime (openLong_bought hopen₁) (openLong_bought hopen₂)⟩
  · rw [hfill₁] at hsettle₁
    rw [hfill₂] at hsettle₂
    cases targetLong with
    | true =>
        obtain rfl := pure_eq_ok_iff.mp hsettle₁
        obtain rfl := pure_eq_ok_iff.mp hsettle₂
        exact h
    | false =>
        obtain ⟨settled₁, hclose₁, hsettle₁⟩ := bind_eq_ok.mp hsettle₁
        obtain ⟨settled₂, hclose₂, hsettle₂⟩ := bind_eq_ok.mp hsettle₂
        obtain rfl := pure_eq_ok_iff.mp hsettle₁
        obtain rfl := pure_eq_ok_iff.mp hsettle₂
        obtain ⟨hcourses, hsettled, hle⟩ := h.close hcosts htime hbought₁ hbought₂ hclose₁ hclose₂ hpositive
        exact ⟨hcourses, hsettled, hle, .flat rfl rfl⟩

/-- **The step lemma**: a bar keeps the order of the accounts. -/
lemma Dearer.stepBar {run : CandidateRun ℚ} {fee₁ fee₂ ticks₁ ticks₂ : ℤ} {indexed : Candle ℚ × ℕ}
    (h : Dearer (run.withCosts fee₁ ticks₁) (run.withCosts fee₂ ticks₂) s₁ s₂)
    (hcosts : CostsLe (run.withCosts fee₁ ticks₁) (run.withCosts fee₂ ticks₂))
    (hstep₁ : stepBar (run.withCosts fee₁ ticks₁) ordered s₁ indexed = .ok t₁)
    (hstep₂ : stepBar (run.withCosts fee₂ ticks₂) ordered s₂ indexed = .ok t₂)
    (hpositive : StaysPositive run.startingEquity t₂.trades) :
    Dearer (run.withCosts fee₁ ticks₁) (run.withCosts fee₂ ticks₂) t₁ t₂ := by
  unfold Experiments.stepBar at hstep₁ hstep₂
  rw [withCosts_targetLongByOpenTime] at hstep₁ hstep₂
  by_cases hskip : indexed.2 = 0 ∧ run.targetLongByOpenTime.isNone
  · rw [if_pos hskip] at hstep₁ hstep₂
    obtain rfl := pure_eq_ok_iff.mp hstep₁
    obtain rfl := pure_eq_ok_iff.mp hstep₂
    exact h
  · rw [if_neg hskip] at hstep₁ hstep₂
    obtain ⟨targetLong, htarget, hstep₁⟩ := bind_eq_ok.mp hstep₁
    obtain ⟨targetLong', htarget', hstep₂⟩ := bind_eq_ok.mp hstep₂
    -- the signal does not see the costs
    obtain rfl : targetLong = targetLong' := Except.ok.inj (htarget.symm.trans htarget')
    obtain ⟨settled₁, hsettle₁, hstep₁⟩ := bind_eq_ok.mp hstep₁
    obtain ⟨settled₂, hsettle₂, hstep₂⟩ := bind_eq_ok.mp hstep₂
    obtain rfl := pure_eq_ok_iff.mp hstep₁
    obtain rfl := pure_eq_ok_iff.mp hstep₂
    obtain ⟨hcourses, hsettled, hle, hholding⟩ := h.settle hcosts hsettle₁ hsettle₂ hpositive
    refine ⟨hcourses, hsettled, hle, ?_⟩
    rcases hholding with ⟨hfill₁, hfill₂⟩ | ⟨hfill₁, hfill₂, htime, hbought₁, hbought₂⟩
    · exact .flat hfill₁ hfill₂
    · exact .long hfill₁ hfill₂ htime hbought₁ hbought₂

/-- The trades of an account are among those after more bars. -/
lemma trades_isPrefix {bars : List (Candle ℚ × ℕ)} (h : bars.foldlM (stepBar run ordered) s = .ok t₁) :
    s.trades <+: t₁.trades := by
  obtain ⟨newTrades, newSamples, hgrown, -⟩ := foldlM_grown h
  exact ⟨newTrades, hgrown.trades.symm⟩

/-- So are they among those after the last bar. -/
lemma settleEnd_isPrefix {final : Candle ℚ} (h : settleEnd run s final = .ok t₁) : s.trades <+: t₁.trades := by
  unfold settleEnd at h
  cases hfill : s.openFill with
  | none =>
      rw [hfill] at h
      obtain rfl := pure_eq_ok_iff.mp h
      exact List.prefix_rfl
  | some fill =>
      rw [hfill] at h
      obtain ⟨settled, _, h⟩ := bind_eq_ok.mp h
      obtain rfl := pure_eq_ok_iff.mp h
      exact List.prefix_append _ _

/-- **The run lemma**: bars keep the order of the accounts. -/
lemma Dearer.foldlM {run : CandidateRun ℚ} {fee₁ fee₂ ticks₁ ticks₂ : ℤ} {bars : List (Candle ℚ × ℕ)}
    (h : Dearer (run.withCosts fee₁ ticks₁) (run.withCosts fee₂ ticks₂) s₁ s₂)
    (hcosts : CostsLe (run.withCosts fee₁ ticks₁) (run.withCosts fee₂ ticks₂))
    (hfold₁ : bars.foldlM (Experiments.stepBar (run.withCosts fee₁ ticks₁) ordered) s₁ = .ok t₁)
    (hfold₂ : bars.foldlM (Experiments.stepBar (run.withCosts fee₂ ticks₂) ordered) s₂ = .ok t₂)
    (hpositive : StaysPositive run.startingEquity t₂.trades) :
    Dearer (run.withCosts fee₁ ticks₁) (run.withCosts fee₂ ticks₂) t₁ t₂ := by
  induction bars generalizing s₁ s₂ with
  | nil =>
      obtain rfl := pure_eq_ok_iff.mp hfold₁
      obtain rfl := pure_eq_ok_iff.mp hfold₂
      exact h
  | cons first bars ih =>
      rw [List.foldlM_cons] at hfold₁ hfold₂
      obtain ⟨u₁, hstep₁, hfold₁⟩ := bind_eq_ok.mp hfold₁
      obtain ⟨u₂, hstep₂, hfold₂⟩ := bind_eq_ok.mp hfold₂
      have hfirst : StaysPositive run.startingEquity u₂.trades := fun closed hclosed =>
        hpositive closed (hclosed.trans (trades_isPrefix hfold₂))
      exact ih (h.stepBar hcosts hstep₁ hstep₂ hfirst) hfold₁ hfold₂

/-- A position that both runs still hold is closed in both. -/
lemma Dearer.settleEnd {final : Candle ℚ} {run : CandidateRun ℚ} {fee₁ fee₂ ticks₁ ticks₂ : ℤ}
    (h : Dearer (run.withCosts fee₁ ticks₁) (run.withCosts fee₂ ticks₂) s₁ s₂)
    (hcosts : CostsLe (run.withCosts fee₁ ticks₁) (run.withCosts fee₂ ticks₂))
    (hsettle₁ : settleEnd (run.withCosts fee₁ ticks₁) s₁ final = .ok t₁)
    (hsettle₂ : settleEnd (run.withCosts fee₂ ticks₂) s₂ final = .ok t₂)
    (hpositive : StaysPositive run.startingEquity t₂.trades) :
    t₁.trades.map CandidateTrade.course = t₂.trades.map CandidateTrade.course ∧ t₂.equity ≤ t₁.equity := by
  unfold Experiments.settleEnd at hsettle₁ hsettle₂
  rcases h.holding with ⟨hfill₁, hfill₂⟩ | ⟨hfill₁, hfill₂, htime, hbought₁, hbought₂⟩
  · rw [hfill₁] at hsettle₁
    rw [hfill₂] at hsettle₂
    obtain rfl := pure_eq_ok_iff.mp hsettle₁
    obtain rfl := pure_eq_ok_iff.mp hsettle₂
    exact ⟨h.courses, h.equity⟩
  · rw [hfill₁] at hsettle₁
    rw [hfill₂] at hsettle₂
    obtain ⟨settled₁, hclose₁, hsettle₁⟩ := bind_eq_ok.mp hsettle₁
    obtain ⟨settled₂, hclose₂, hsettle₂⟩ := bind_eq_ok.mp hsettle₂
    obtain rfl := pure_eq_ok_iff.mp hsettle₁
    obtain rfl := pure_eq_ok_iff.mp hsettle₂
    obtain ⟨hcourses, -, hle⟩ := h.close hcosts htime hbought₁ hbought₂ hclose₁ hclose₂ hpositive
    exact ⟨hcourses, hle⟩

/-- What higher costs leave of a result: the same trades, and no more equity. -/
structure NoDearer (result₁ result₂ : CandidateResult ℚ) : Prop where
  courses : result₁.trades.map CandidateTrade.course = result₂.trades.map CandidateTrade.course
  ending : result₂.endingEquity ≤ result₁.endingEquity

lemma costsLe_of_le {run : CandidateRun ℚ} {fee₁ fee₂ ticks₁ ticks₂ : ℤ} (htick : 0 < run.tickSize) (hfee : fee₁ ≤ fee₂)
    (hticks : ticks₁ ≤ ticks₂) : CostsLe (run.withCosts fee₁ ticks₁) (run.withCosts fee₂ ticks₂) where
  fee_nonneg := div_nonneg (Nat.cast_nonneg _) (by norm_num)
  fee := by
    have hnat : (fee₁.toNat : ℚ) ≤ fee₂.toNat := Nat.cast_le.mpr (Int.toNat_le_toNat hfee)
    exact div_le_div_of_nonneg_right hnat (by norm_num)
  slip := by
    have hnat : (ticks₁.toNat : ℚ) ≤ ticks₂.toNat := Nat.cast_le.mpr (Int.toNat_le_toNat hticks)
    exact mul_le_mul_of_nonneg_left hnat htick.le

/-- **Higher costs earn less.** -/
theorem noDearer_of_runs {run : CandidateRun ℚ} {fee₁ fee₂ ticks₁ ticks₂ : ℤ} {result₁ result₂ : CandidateResult ℚ}
    (htick : 0 < run.tickSize) (hfee : fee₁ ≤ fee₂) (hticks : ticks₁ ≤ ticks₂)
    (h₁ : runLongOnlyCandidate (run.withCosts fee₁ ticks₁) candles = .ok result₁)
    (h₂ : runLongOnlyCandidate (run.withCosts fee₂ ticks₂) candles = .ok result₂)
    (hpositive : StaysPositive run.startingEquity result₂.trades) : NoDearer result₁ result₂ := by
  have hcosts := costsLe_of_le htick hfee hticks
  obtain ⟨_, _, h₁⟩ := bind_eq_ok.mp h₁
  obtain ⟨_, _, h₂⟩ := bind_eq_ok.mp h₂
  unfold runOrdered at h₁ h₂
  rw [show executionBars (run.withCosts fee₁ ticks₁) (orderedBars candles) = executionBars run (orderedBars candles)
    from rfl] at h₁
  rw [show executionBars (run.withCosts fee₂ ticks₂) (orderedBars candles) = executionBars run (orderedBars candles)
    from rfl] at h₂
  cases hbars : executionBars run (orderedBars candles) with
  | nil =>
      rw [hbars] at h₁ h₂
      obtain rfl := pure_eq_ok_iff.mp h₁
      obtain rfl := pure_eq_ok_iff.mp h₂
      exact ⟨rfl, le_rfl⟩
  | cons first rest =>
      rw [hbars] at h₁ h₂
      dsimp only at h₁ h₂
      by_cases hshort : (orderedBars candles).length < 2
      · rw [if_pos hshort] at h₁ h₂
        obtain rfl := pure_eq_ok_iff.mp h₁
        obtain rfl := pure_eq_ok_iff.mp h₂
        exact ⟨rfl, le_rfl⟩
      · rw [if_neg hshort] at h₁ h₂
        obtain ⟨u₁, hfold₁, h₁⟩ := bind_eq_ok.mp h₁
        obtain ⟨u₂, hfold₂, h₂⟩ := bind_eq_ok.mp h₂
        obtain ⟨t₁, hend₁, h₁⟩ := bind_eq_ok.mp h₁
        obtain ⟨t₂, hend₂, h₂⟩ := bind_eq_ok.mp h₂
        obtain rfl := pure_eq_ok_iff.mp h₁
        obtain rfl := pure_eq_ok_iff.mp h₂
        have hstart : Dearer (run.withCosts fee₁ ticks₁) (run.withCosts fee₂ ticks₂)
            ⟨run.startingEquity, none, [], []⟩ ⟨run.startingEquity, none, [], []⟩ :=
          ⟨rfl, (add_zero _).symm, le_rfl, .flat rfl rfl⟩
        have hfirst : StaysPositive run.startingEquity u₂.trades := fun closed hclosed =>
          hpositive closed (hclosed.trans (settleEnd_isPrefix hend₂))
        obtain ⟨hcourses, hle⟩ := (hstart.foldlM hcosts hfold₁ hfold₂ hfirst).settleEnd hcosts hend₁ hend₂ hpositive
        exact ⟨hcourses, hle⟩

end MuStrategy.Experiments
