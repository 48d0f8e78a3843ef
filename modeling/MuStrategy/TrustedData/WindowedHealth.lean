import MuStrategy.TrustedData.StoredWindow

/-!
# Health does not depend on the window

* `Sound` — all intervals are available and valid; what overrides the health keeps it if what is stored is fine.
* `ValidAvailable`, `NotValid` — what is valid is available, so that the report on what is stored overrides it.
* `validity_independent_of_window` — validity in any window is validity of what is stored.
-/

namespace MuStrategy.TrustedData

open Lib

variable {F : Type} [Number F] [FloatChecks F]

/-! ## Sound evaluations -/

/-- The intervals of a bundle. -/
def Bundled (interval : String) : Prop := interval = "5m" ∨ interval = "15m" ∨ interval = "1h"

lemma Parent.bundled {interval : String} {n : ℕ} (h : Parent interval n) : Bundled interval := by
  cases h
  · exact .inr (.inl rfl)
  · exact .inr (.inr rfl)

lemma Parent.ne_base {interval : String} {n : ℕ} (h : Parent interval n) : interval ≠ "5m" := by
  cases h <;> decide

/-- An interval is available and valid, and has rows. -/
def Usable (health : DatasetHealth F) : Prop :=
  health.availability = .available ∧ health.integrity = .valid ∧ 0 < health.rows

/-- All intervals have their candles and are usable. -/
def Sound (candles : String → List (Candle F)) (e : Evaluation F) : Prop :=
  ∀ interval, Bundled interval → e.candles interval = candles interval ∧ ∃ health, e.health interval = some health ∧
    Usable health

section evaluation

variable {options : EvaluationOptions} {seed : DatasetEvaluationSeed F} {seeds : String → DatasetEvaluationSeed F}
  {interval : String} {intervals : List String} {intervalMs n : ℕ} {bars : List (Candle F)}
  {candles : String → List (Candle F)} {e e' : Evaluation F} {days : ℤ} {windowEndTimeMs : Option ℤ}
  {reports : Reports F}

omit [Number F] [FloatChecks F] in
lemma assessFreshness_ok (options : EvaluationOptions) (hwidth : intervalToMs interval = .ok intervalMs)
    (time : Option ℤ) :
    ∃ freshness, assessFreshness options interval time = .ok freshness := by
  unfold assessFreshness
  cases time with
  | none => exact ⟨_, rfl⟩
  | some time =>
      dsimp only
      rw [hwidth, ok_bind]
      split
      · exact ⟨_, rfl⟩
      · split <;> exact ⟨_, rfl⟩

/-- Valid candles, on their own. -/
lemma evaluateDataset_valid (options : EvaluationOptions) (hwidth : intervalToMs interval = .ok intervalMs)
    (hpos : intervalMs ≠ 0)
    (h : ValidCandles bars intervalMs) (hseed : seed.prefailedReason = none) :
    ∃ health, evaluateDataset options seed interval bars = (health, bars) ∧ Usable health := by
  have hsorted : dedupeCandles bars = bars :=
    dedupeCandles_of_increasing (h.grid.increasing (Int.natCast_pos.mpr (Nat.pos_of_ne_zero hpos)))
  obtain ⟨report, hreport, hok⟩ := normalizeAndValidateCandles_ok bars hwidth hpos
  rw [hsorted] at hreport hok
  obtain ⟨freshness, hfreshness⟩ :=
    assessFreshness_ok options hwidth (bars.getLast?.map Candle.openTimeMs)
  have hcheck : checkDataset options seed interval bars =
      .ok (makeDatasetHealth seed bars options.nowMs .available .valid freshness.1 freshness.2 (some report), bars) := by
    rw [checkDataset, hreport, ok_bind]
    dsimp only
    rw [hok.mpr h, Bool.not_true, if_neg Bool.false_ne_true, hfreshness, ok_bind]
    rfl
  have hnonempty : bars.isEmpty = false := by
    rw [List.isEmpty_eq_false_iff]
    exact h.ne
  rw [evaluateDataset, hseed, hnonempty, if_neg Bool.false_ne_true, Option.none_or]
  dsimp only
  rw [hcheck]
  exact ⟨_, rfl, rfl, rfl, List.length_pos_iff.mpr h.ne⟩

/-- The intervals, each on its own. -/
lemma evaluateDatasets_spec (options : EvaluationOptions) (seeds : String → DatasetEvaluationSeed F)
    {logical : String → Except StoreError (List (Candle F))} (h : ∀ i ∈ intervals, ∃ bars, logical i = .ok bars) :
    ∃ e, evaluateDatasets options seeds logical intervals = .ok e ∧ ∀ i ∈ intervals, ∀ bars, logical i = .ok bars →
      e.health i = some (evaluateDataset options (seeds i) i bars).1 ∧
        e.candles i = (evaluateDataset options (seeds i) i bars).2 := by
  induction intervals with
  | nil => exact ⟨_, rfl, fun i hi => absurd hi List.not_mem_nil⟩
  | cons first intervals ih =>
      obtain ⟨bars, hbars⟩ := h first List.mem_cons_self
      obtain ⟨rest, hrest, hspec⟩ := ih fun i hi => h i (List.mem_cons_of_mem first hi)
      refine ⟨_, by rw [evaluateDatasets, hbars, ok_bind, hrest, ok_bind]; rfl, fun i hi bars' hbars' => ?_⟩
      by_cases heq : i = first
      · subst heq
        obtain rfl := Except.ok.inj (hbars.symm.trans hbars')
        exact ⟨Function.update_self _ _ _, Function.update_self _ _ _⟩
      · dsimp only
        rw [Function.update_of_ne heq, Function.update_of_ne heq]
        exact hspec i ((List.mem_cons.mp hi).resolve_left heq) bars' hbars'

omit [Number F] [FloatChecks F] in
lemma Sound.override (h : Sound candles e) {health : DatasetHealth F} (husable : Usable health) :
    Sound candles (e.override interval health true) := by
  intro i hi
  obtain ⟨hcandles, health', hhealth', husable'⟩ := h i hi
  refine ⟨hcandles, ?_⟩
  by_cases heq : i = interval
  · subst heq
    exact ⟨health, Function.update_self _ _ _, husable⟩
  · exact ⟨health', (Function.update_of_ne heq _ _).trans hhealth', husable'⟩

omit [Number F] [FloatChecks F] in
lemma Usable.inputs {health : DatasetHealth F} (h : Usable health) (allow : Bool) :
    hasValidationInputs health allow = true := by
  obtain ⟨havailable, hvalid, hrows⟩ := h
  rw [hasValidationInputs, havailable, hvalid, decide_eq_true hrows]
  rfl

/-- The comparison keeps parents that are the ones of the base. -/
lemma compareLogical_sound (options : EvaluationOptions) (hparent : Parent interval n)
    (hbase : Contiguous (candles "5m"))
    (hwindowed : Windowed (candles "5m") (candles interval) interval n) (h : Sound candles e) :
    ∃ e', compareLogical options e interval = .ok e' ∧ Sound candles e' := by
  obtain ⟨hbars, health, hhealth, husable⟩ := h interval hparent.bundled
  obtain ⟨built, hbuilt, hsame, -⟩ := hwindowed.built
  have hpos : 0 < n * 300000 := by
    have := hparent.target.pos
    omega
  have hnative : Increasing Candle.openTimeMs (candles interval) :=
    hwindowed.valid.grid.increasing (Int.natCast_pos.mpr hpos)
  obtain ⟨report, hreport, hok⟩ := builtNativeReport_eq hparent.target hbase hnative hbuilt
  rw [hwindowed.clipped] at hreport hok
  refine ⟨e.override interval
    { health with
      integrity := if report.ok then .valid else .invalid
      freshness := if report.ok then health.freshness else .stale
      reasons := [if report.ok then health.primaryReason else report.reason]
      validation := some report } report.ok, ?_, ?_⟩
  · rw [compareLogical, hhealth]
    dsimp only
    rw [husable.inputs, if_pos rfl, (h "5m" (.inl rfl)).1, hbars, hreport, ok_bind]
    dsimp only
    rw [husable.2.1, decide_eq_false (by decide), Bool.and_false, if_neg Bool.false_ne_true]
    rfl
  · rw [hok.mpr hsame]
    exact h.override ⟨husable.1, rfl, husable.2.2⟩

/-- Noting the coverage keeps the candles and the validity. -/
lemma noteCoverage_sound (days : ℤ) (windowEndTimeMs : Option ℤ) (hwidth : intervalToMs interval = .ok intervalMs)
    (hbundled : Bundled interval) (h : Sound candles e) : ∃ e', noteCoverage days windowEndTimeMs e interval = .ok e' ∧ Sound candles e' := by
  obtain ⟨hbars, health, hhealth, husable⟩ := h interval hbundled
  rw [noteCoverage, hhealth]
  dsimp only
  split
  · exact ⟨e, rfl, h⟩
  · obtain ⟨coverage, hcoverage⟩ : ∃ coverage,
        assessRequestedCoverage (e.candles interval) interval days windowEndTimeMs = .ok coverage := by
      unfold assessRequestedCoverage
      split
      · rw [hwidth, ok_bind]
        exact ⟨_, rfl⟩
      · exact ⟨_, rfl⟩
    rw [hcoverage, ok_bind]
    exact ⟨_, rfl, h.override ⟨husable.1, husable.2.1, husable.2.2⟩⟩

lemma Bundled.width (h : Bundled interval) : ∃ intervalMs, intervalToMs interval = .ok intervalMs := by
  rcases h with rfl | rfl | rfl
  · exact ⟨_, width_base⟩
  · exact ⟨_, target_quarter.width⟩
  · exact ⟨_, target_hour.width⟩

lemma applyRequestedCoverageGate_sound (days : ℤ) (windowEndTimeMs : Option ℤ) (hbundled : ∀ i ∈ intervals, Bundled i)
    (h : Sound candles e) :
    ∃ e', applyRequestedCoverageGate intervals days windowEndTimeMs e = .ok e' ∧ Sound candles e' := by
  induction intervals generalizing e with
  | nil => exact ⟨e, rfl, h⟩
  | cons first intervals ih =>
      obtain ⟨intervalMs, hwidth⟩ := (hbundled first List.mem_cons_self).width
      obtain ⟨e₁, he₁, hsound⟩ := noteCoverage_sound days windowEndTimeMs hwidth
        (hbundled first List.mem_cons_self) h
      obtain ⟨e₂, he₂, hsound₂⟩ := ih (fun i hi => hbundled i (List.mem_cons_of_mem first hi)) hsound
      refine ⟨e₂, ?_, hsound₂⟩
      rw [applyRequestedCoverageGate, List.foldlM_cons, he₁]
      exact he₂

omit [Number F] [FloatChecks F] in
/-- Fine reports override nothing. -/
lemma applyPhysicalValidationGate_ok (hok : ∀ i ∈ intervals, ∃ entry, reports i = some entry ∧ entry.2.ok = true) :
    applyPhysicalValidationGate intervals reports e = e := by
  induction intervals with
  | nil => rfl
  | cons first intervals ih =>
      obtain ⟨entry, hentry, hreport⟩ := hok first List.mem_cons_self
      have hfirst : overridePhysical reports e first = e := by
        unfold overridePhysical
        rw [hentry]
        cases e.health first with
        | none => rfl
        | some health =>
            dsimp only
            rw [hreport, Bool.true_or, Bool.true_or, if_pos rfl]
      rw [applyPhysicalValidationGate, List.foldl_cons, hfirst]
      exact ih fun i hi => hok i (List.mem_cons_of_mem first hi)

/-! ## What is not fine -/

/-- What is valid is available. -/
def ValidAvailable (e : Evaluation F) : Prop :=
  ∀ interval health, e.health interval = some health → health.integrity = .valid → health.availability = .available

lemma evaluateDataset_validAvailable (h : (evaluateDataset options seed interval bars).1.integrity = .valid) :
    (evaluateDataset options seed interval bars).1.availability = .available := by
  rw [evaluateDataset] at h ⊢
  cases hfailed : seed.prefailedReason.or (if bars.isEmpty then seed.emptyPrefailedReason else none) with
  | some reason =>
      rw [hfailed] at h
      cases h
  | none =>
      rw [hfailed] at h
      dsimp only at h ⊢
      cases hcheck : checkDataset options seed interval bars with
      | error error =>
          rw [hcheck] at h
          cases h
      | ok result =>
          rw [hcheck] at h
          obtain ⟨⟨normalized, validation⟩, -, hresult⟩ := bind_eq_ok.mp hcheck
          dsimp only at hresult h ⊢
          split at hresult
          · obtain rfl := pure_eq_ok_iff.mp hresult
            cases h
          · obtain ⟨freshness, -, hresult⟩ := bind_eq_ok.mp hresult
            obtain rfl := pure_eq_ok_iff.mp hresult
            rfl

lemma evaluateDatasets_validAvailable {logical : String → Except StoreError (List (Candle F))}
    (h : evaluateDatasets options seeds logical intervals = .ok e) : ValidAvailable e := by
  induction intervals generalizing e with
  | nil =>
      obtain rfl := pure_eq_ok_iff.mp h
      intro i health hhealth
      cases hhealth
  | cons first intervals ih =>
      obtain ⟨bars, -, h⟩ := bind_eq_ok.mp h
      obtain ⟨rest, hrest, h⟩ := bind_eq_ok.mp h
      obtain rfl := pure_eq_ok_iff.mp h
      intro i health hhealth hvalid
      dsimp only at hhealth
      by_cases heq : i = first
      · subst heq
        rw [Function.update_self] at hhealth
        obtain rfl := Option.some.inj hhealth
        exact evaluateDataset_validAvailable hvalid
      · rw [Function.update_of_ne heq] at hhealth
        exact ih hrest i health hhealth hvalid

omit [Number F] [FloatChecks F] in
lemma ValidAvailable.override (h : ValidAvailable e) {health : DatasetHealth F} {keep : Bool}
    (hhealth : health.integrity = .valid → health.availability = .available) :
    ValidAvailable (e.override interval health keep) := by
  intro i health' hhealth' hvalid
  rw [Evaluation.override] at hhealth'
  dsimp only at hhealth'
  by_cases heq : i = interval
  · subst heq
    rw [Function.update_self] at hhealth'
    obtain rfl := Option.some.inj hhealth'
    exact hhealth hvalid
  · rw [Function.update_of_ne heq] at hhealth'
    exact h i health' hhealth' hvalid

lemma compareLogical_validAvailable (h : ValidAvailable e) (hstep : compareLogical options e interval = .ok e') :
    ValidAvailable e' := by
  unfold compareLogical at hstep
  cases hhealth : e.health interval with
  | none =>
      rw [hhealth] at hstep
      obtain rfl := pure_eq_ok_iff.mp hstep
      exact h
  | some health =>
      rw [hhealth] at hstep
      dsimp only at hstep
      split at hstep
      · obtain ⟨⟨compared, report⟩, -, hstep⟩ := bind_eq_ok.mp hstep
        dsimp only at hstep
        split at hstep
        · obtain rfl := pure_eq_ok_iff.mp hstep
          exact h
        · rename_i hboth
          obtain rfl := pure_eq_ok_iff.mp hstep
          refine h.override fun hvalid => ?_
          cases hreport : report.ok with
          | false =>
              rw [hreport] at hvalid
              cases hvalid
          | true =>
              rw [hreport, Bool.true_and, decide_eq_true_eq, not_not] at hboth
              exact h interval health hhealth hboth
      · obtain rfl := pure_eq_ok_iff.mp hstep
        exact h

lemma noteCoverage_validAvailable (h : ValidAvailable e)
    (hstep : noteCoverage days windowEndTimeMs e interval = .ok e') : ValidAvailable e' := by
  unfold noteCoverage at hstep
  cases hhealth : e.health interval with
  | none =>
      rw [hhealth] at hstep
      obtain rfl := pure_eq_ok_iff.mp hstep
      exact h
  | some health =>
      rw [hhealth] at hstep
      dsimp only at hstep
      split at hstep
      · obtain rfl := pure_eq_ok_iff.mp hstep
        exact h
      · obtain ⟨coverage, -, hstep⟩ := bind_eq_ok.mp hstep
        obtain rfl := pure_eq_ok_iff.mp hstep
        exact h.override (h interval health hhealth)

/-- An interval is not valid. -/
def NotValid (e : Evaluation F) (interval : String) : Prop :=
  ∀ health, e.health interval = some health → health.integrity ≠ .valid

omit [Number F] [FloatChecks F] in
/-- The gate makes no interval valid. -/
lemma NotValid.overridePhysical (h : NotValid e interval) (other : String) :
    NotValid (overridePhysical reports e other) interval := by
  unfold TrustedData.overridePhysical
  split
  · split
    · exact h
    · intro health hhealth
      rw [Evaluation.override] at hhealth
      dsimp only at hhealth
      by_cases heq : interval = other
      · subst heq
        rw [Function.update_self] at hhealth
        obtain rfl := Option.some.inj hhealth
        exact fun hvalid => by cases hvalid
      · rw [Function.update_of_ne heq] at hhealth
        exact h health hhealth
  · exact h

omit [Number F] [FloatChecks F] in
/-- An interval with a report that is not fine is not valid after its turn. -/
lemma overridePhysical_notValid {entry : List (Candle F) × ValidationReport F} (hentry : reports interval = some entry)
    (hreport : entry.2.ok = false) (h : ValidAvailable e) :
    NotValid (overridePhysical reports e interval) interval := by
  intro health hhealth hvalid
  unfold overridePhysical at hhealth
  rw [hentry] at hhealth
  cases hbefore : e.health interval with
  | none =>
      rw [hbefore] at hhealth
      exact absurd (hbefore.symm.trans hhealth) (Option.some_ne_none health).symm
  | some before =>
      rw [hbefore] at hhealth
      dsimp only at hhealth
      rw [hreport, Bool.false_or] at hhealth
      split at hhealth
      · rename_i hskip
        obtain rfl := Option.some.inj (hbefore.symm.trans hhealth)
        rw [h interval before hbefore hvalid, hvalid] at hskip
        cases hskip
      · rw [Evaluation.override] at hhealth
        dsimp only at hhealth
        rw [Function.update_self] at hhealth
        obtain rfl := Option.some.inj hhealth
        cases hvalid

omit [Number F] [FloatChecks F] in
lemma ValidAvailable.overridePhysical (h : ValidAvailable e) (other : String) :
    ValidAvailable (overridePhysical reports e other) := by
  unfold TrustedData.overridePhysical
  split
  · split
    · exact h
    · exact h.override fun hvalid => by cases hvalid
  · exact h

omit [Number F] [FloatChecks F] in
lemma applyPhysicalValidationGate_notValid {entry : List (Candle F) × ValidationReport F}
    (hentry : reports interval = some entry) (hreport : entry.2.ok = false) (hmem : interval ∈ intervals)
    (h : ValidAvailable e) : NotValid (applyPhysicalValidationGate intervals reports e) interval := by
  have hkeep : ∀ (rest : List String) (e : Evaluation F), NotValid e interval →
      NotValid (rest.foldl (overridePhysical reports) e) interval := by
    intro rest
    induction rest with
    | nil => exact fun e he => he
    | cons other rest ih => exact fun e he => ih _ (he.overridePhysical other)
  induction intervals generalizing e with
  | nil => exact absurd hmem List.not_mem_nil
  | cons first intervals ih =>
      rcases List.mem_cons.mp hmem with rfl | hmem
      · exact hkeep intervals _ (overridePhysical_notValid hentry hreport h)
      · exact ih hmem (h.overridePhysical first)

end evaluation


/-! ## All of it -/

section bundle

variable {options : EvaluationOptions} {seeds : String → DatasetEvaluationSeed F} {intervals : List String}
  {raw : String → List (Candle F)} {newest : Candle F} {days : ℤ} {e : Evaluation F} {reports : Reports F}

omit [Number F] [FloatChecks F] in
/-- The newest candle of the base ends the window. -/
lemma resolveSharedWindow_eq (hnewest : (dedupeCandles (raw "5m")).getLast? = some newest) :
    resolveSharedWindow intervals raw = some newest.openTimeMs := by
  obtain ⟨hsorted, hsub, hcovers⟩ := byKey_spec Candle.openTimeMs (raw "5m")
  have hmem : newest ∈ raw "5m" := hsub newest (List.mem_of_getLast? hnewest)
  have hmax : ((raw "5m").map Candle.openTimeMs).max? = some newest.openTimeMs := by
    refine List.max?_eq_some_iff.mpr ⟨List.mem_map_of_mem hmem, fun t ht => ?_⟩
    obtain ⟨bar, hbar, rfl⟩ := List.mem_map.mp ht
    obtain ⟨last, hlast, hkey⟩ := hcovers bar hbar
    rw [← hkey]
    exact hsorted.le_getLast hnewest hlast
  rw [resolveSharedWindow]
  cases htimes : (raw "5m").map Candle.openTimeMs with
  | nil =>
      rw [htimes] at hmax
      cases hmax
  | cons first rest =>
      rw [htimes] at hmax
      exact hmax

/-- Only the intervals that are asked for have a report. -/
lemma mem_of_physical {interval : String} {entry : List (Candle F) × ValidationReport F}
    (h : validatePhysicalCandleBundle intervals raw = .ok reports) (hentry : reports interval = some entry) :
    interval ∈ intervals := by
  by_contra hnot
  obtain ⟨reports₀, hreports₀, h⟩ := bind_eq_ok.mp h
  have hnone := (normalizeBundle_spec hreports₀ interval).2 hnot
  have hblock : ∀ base (reports : Reports F) (other : String), reports interval = none →
      blockPhysical base reports other interval = none := by
    intro base reports other hnone
    by_cases heq : interval = other
    · subst heq
      rw [blockPhysical, hnone]
      exact hnone
    · rw [blockPhysical_of_ne heq, hnone]
  have hcompare : ∀ (five : List (Candle F)) (reports reports' : Reports F) (other : String),
      comparePhysical five reports other = .ok reports' → reports interval = none → reports' interval = none := by
    intro five reports reports' other hstep hnone
    by_cases heq : interval = other
    · subst heq
      rw [comparePhysical, hnone] at hstep
      obtain rfl := pure_eq_ok_iff.mp hstep
      exact hnone
    · rw [(comparePhysical_spec hstep).1 interval heq, hnone]
  have hreports : reports interval = none := by
    cases hfive : reports₀ "5m" with
    | none =>
        rw [hfive] at h
        obtain rfl := pure_eq_ok_iff.mp h
        exact hnone
    | some base =>
        rw [hfive] at h
        dsimp only at h
        split at h
        · obtain rfl := pure_eq_ok_iff.mp h
          exact hblock _ _ _ (hblock _ _ _ hnone)
        · split at h
          · obtain rfl := pure_eq_ok_iff.mp h
            exact hnone
          · obtain ⟨reports₁, hreports₁, h⟩ := bind_eq_ok.mp h
            obtain ⟨reports₂, hreports₂, h⟩ := bind_eq_ok.mp h
            obtain rfl := pure_eq_ok_iff.mp h
            exact hcompare _ _ _ _ hreports₂ (hcompare _ _ _ _ hreports₁ hnone)
  exact absurd (hreports.symm.trans hentry) (Option.some_ne_none entry).symm

/-- The candles of the window, by interval. -/
def windowCandles (raw : String → List (Candle F)) (days time : ℤ) (interval : String) : List (Candle F) :=
  match logicalCandles raw days (some time) interval with
  | .ok bars => bars
  | .error _ => []

omit [Number F] [FloatChecks F] in
lemma pruneCandlesToWindow_eq (bars : List (Candle F)) (days time : ℤ) :
    pruneCandlesToWindow bars days (some time) = cut (dedupeCandles bars) days time := rfl

omit [Number F] [FloatChecks F] in
lemma logicalCandles_base (raw : String → List (Candle F)) (days time : ℤ) :
    logicalCandles raw days (some time) "5m" = .ok (cut (dedupeCandles (raw "5m")) days time) := by
  have hnot : (!(pruneCandlesToWindow (raw "5m") days (some time)).isEmpty &&
      (decide ("5m" = "15m") || decide ("5m" = "1h"))) ≠ true := by
    rw [decide_eq_false (by decide), decide_eq_false (by decide), Bool.or_false, Bool.and_false]
    exact Bool.false_ne_true
  rw [logicalCandles, if_neg hnot]
  rfl

omit [Number F] [FloatChecks F] in
lemma logicalCandles_parent {interval : String} {n : ℕ} (hparent : Parent interval n)
    (hfive : Contiguous (dedupeCandles (raw "5m"))) (hnewest : (dedupeCandles (raw "5m")).getLast? = some newest)
    (hdays : 0 ≤ days) :
    logicalCandles raw days (some newest.openTimeMs) interval = .ok ((dedupeCandles (raw interval)).filter
      (inParentWindow (windowOf (cut (dedupeCandles (raw "5m")) days newest.openTimeMs) (n * 300000)))) := by
  have hnonempty : (pruneCandlesToWindow (raw "5m") days (some newest.openTimeMs)).isEmpty = false := by
    rw [List.isEmpty_eq_false_iff, pruneCandlesToWindow_eq]
    intro hnil
    have hlast := cut_getLast hdays hnewest
    rw [hnil] at hlast
    cases hlast
  have hcond : (!(pruneCandlesToWindow (raw "5m") days (some newest.openTimeMs)).isEmpty &&
      (decide (interval = "15m") || decide (interval = "1h"))) = true := by
    rw [hnonempty]
    cases hparent <;> decide
  rw [logicalCandles, if_pos hcond, pruneCandlesToWindow_eq, pruneCandlesToWindow_eq]
  exact clip_cut hparent.target hfive hnewest hdays (byKey_spec Candle.openTimeMs (raw interval)).1

/-- The candles of a window of what is stored are fine. -/
lemma Stored.logical (h : Stored (dedupeCandles (raw "5m")) fun i => dedupeCandles (raw i))
    (hnewest : (dedupeCandles (raw "5m")).getLast? = some newest) (hdays : 1 ≤ days) :
    (∀ i, Bundled i → logicalCandles raw days (some newest.openTimeMs) i =
      .ok (windowCandles raw days newest.openTimeMs i)) ∧
      ValidCandles (windowCandles raw days newest.openTimeMs "5m") 300000 ∧
      ∀ i n, Parent i n → Windowed (windowCandles raw days newest.openTimeMs "5m")
        (windowCandles raw days newest.openTimeMs i) i n := by
  have hbase := logicalCandles_base raw days newest.openTimeMs
  have hfive : windowCandles raw days newest.openTimeMs "5m" = cut (dedupeCandles (raw "5m")) days newest.openTimeMs := by
    rw [windowCandles, hbase]
  have hparents : ∀ i n, Parent i n → logicalCandles raw days (some newest.openTimeMs) i =
      .ok (windowCandles raw days newest.openTimeMs i) ∧ Windowed (cut (dedupeCandles (raw "5m")) days newest.openTimeMs)
        (windowCandles raw days newest.openTimeMs i) i n := by
    intro i n hparent
    have hlogical := logicalCandles_parent hparent h.base.grid hnewest (by omega : 0 ≤ days)
    have hcandles : windowCandles raw days newest.openTimeMs i = (dedupeCandles (raw i)).filter
        (inParentWindow (windowOf (cut (dedupeCandles (raw "5m")) days newest.openTimeMs) (n * 300000))) := by
      rw [windowCandles, hlogical]
    rw [hcandles]
    exact ⟨hlogical, h.windowed hparent hnewest hdays⟩
  refine ⟨fun i hi => ?_, ?_, fun i n hparent => ?_⟩
  · rcases hi with rfl | rfl | rfl
    · rw [hbase, hfive]
    · exact (hparents _ _ .quarter).1
    · exact (hparents _ _ .hour).1
  · rw [hfive]
    refine h.base.piece (cut_piece (h.base.grid.increasing (by decide)) _ _) fun hnil => ?_
    have hlast := cut_getLast (by omega : 0 ≤ days) hnewest
    rw [hnil] at hlast
    cases hlast
  · rw [hfive]
    exact (hparents i n hparent).2

/-- The comparisons of both parents keep what is sound. -/
lemma applyBuiltNativeValidation_sound {candles : String → List (Candle F)} (options : EvaluationOptions)
    (hbase : Contiguous (candles "5m"))
    (hwindowed : ∀ i n, Parent i n → Windowed (candles "5m") (candles i) i n) (h : Sound candles e) :
    ∃ e', applyBuiltNativeValidation options e = .ok e' ∧ Sound candles e' := by
  obtain ⟨-, base, hhealth, husable⟩ := h "5m" (.inl rfl)
  obtain ⟨e₁, he₁, hsound₁⟩ :=
    compareLogical_sound options .quarter hbase (hwindowed _ _ .quarter) h
  obtain ⟨e₂, he₂, hsound₂⟩ :=
    compareLogical_sound options .hour hbase (hwindowed _ _ .hour) hsound₁
  refine ⟨e₂, ?_, hsound₂⟩
  rw [applyBuiltNativeValidation, hhealth, Option.any_some, husable.inputs, if_pos rfl, List.foldlM_cons, he₁, ok_bind,
    List.foldlM_cons, he₂, ok_bind]
  rfl

lemma applyRequestedCoverageGate_validAvailable {e' : Evaluation F} {windowEndTimeMs : Option ℤ} (h : ValidAvailable e)
    (hgate : applyRequestedCoverageGate intervals days windowEndTimeMs e = .ok e') : ValidAvailable e' := by
  induction intervals generalizing e with
  | nil =>
      obtain rfl := pure_eq_ok_iff.mp hgate
      exact h
  | cons first rest ih =>
      rw [applyRequestedCoverageGate, List.foldlM_cons] at hgate
      obtain ⟨e₁, he₁, hgate⟩ := bind_eq_ok.mp hgate
      exact ih (noteCoverage_validAvailable h he₁) hgate

lemma applyBuiltNativeValidation_validAvailable {e' : Evaluation F} (h : ValidAvailable e)
    (hgate : applyBuiltNativeValidation options e = .ok e') : ValidAvailable e' := by
  rw [applyBuiltNativeValidation] at hgate
  split at hgate
  · obtain ⟨e₁, he₁, hgate⟩ := bind_eq_ok.mp hgate
    obtain ⟨e₂, he₂, hgate⟩ := bind_eq_ok.mp hgate
    obtain rfl := pure_eq_ok_iff.mp hgate
    exact compareLogical_validAvailable (compareLogical_validAvailable h he₁) he₂
  · obtain rfl := pure_eq_ok_iff.mp hgate
    exact h

/-- **Validity does not depend on the window.** If the stored candles of all intervals are fine, every window of at least
a day is valid, and its parents are the ones of its base; if those of an interval are not, no window of it is valid. -/
theorem validity_independent_of_window (hintervals : ∀ i, i ∈ intervals ↔ i = "5m" ∨ i = "15m" ∨ i = "1h")
    (hphysical : validatePhysicalCandleBundle intervals (rawCandles intervals seeds) = .ok reports) (days : ℤ)
    (options : EvaluationOptions) :
    ((∀ i ∈ intervals, (seeds i).prefailedReason = none ∧ ∃ entry, reports i = some entry ∧ entry.2.ok = true) →
      1 ≤ days → ∃ e, evaluateCandleBundle intervals seeds days options = .ok e ∧
        (∀ i ∈ intervals, ∃ health, e.health i = some health ∧ health.availability = .available ∧
          health.integrity = .valid) ∧
        ∀ i ∈ ["15m", "1h"], ∃ built, aggregateCandles (e.candles "5m") i "okx_native" = .ok built ∧
          (e.candles i).map Candle.openTimeMs = built.map Candle.openTimeMs) ∧
      ∀ i entry, reports i = some entry → entry.2.ok = false →
        ∀ e, evaluateCandleBundle intervals seeds days options = .ok e →
          ∀ health, e.health i = some health → health.integrity ≠ .valid := by
  constructor
  · intro hok hdays
    have hstored := stored_of_physical hintervals hphysical fun i hi => (hok i hi).2
    obtain ⟨-, newest, -, hnewest⟩ := exists_ends hstored.base.ne
    obtain ⟨hlogical, hbase, hwindowed⟩ := hstored.logical hnewest hdays
    set candles := windowCandles (rawCandles intervals seeds) days newest.openTimeMs with hcandles
    have hbundled : ∀ i ∈ intervals, Bundled i := fun i hi => (hintervals i).mp hi
    -- the intervals on their own, the comparisons and the coverage
    obtain ⟨e₁, he₁, hevaluated⟩ := evaluateDatasets_spec options seeds
      fun i hi => ⟨_, hlogical i (hbundled i hi)⟩
    have hsound : Sound candles e₁ := by
      intro i hi
      have hmem := (hintervals i).mpr hi
      obtain ⟨hhealth, hbars⟩ := hevaluated i hmem _ (hlogical i hi)
      obtain ⟨intervalMs, hwidth, hpos, hvalid⟩ : ∃ intervalMs, intervalToMs i = .ok intervalMs ∧ intervalMs ≠ 0 ∧
          ValidCandles (candles i) intervalMs := by
        rcases hi with rfl | rfl | rfl
        · exact ⟨_, width_base, by decide, hbase⟩
        · exact ⟨_, target_quarter.width, by decide, (hwindowed _ _ .quarter).valid⟩
        · exact ⟨_, target_hour.width, by decide, (hwindowed _ _ .hour).valid⟩
      obtain ⟨health, heq, husable⟩ :=
        evaluateDataset_valid options hwidth hpos hvalid (hok i hmem).1
      rw [heq] at hhealth hbars
      exact ⟨hbars, health, hhealth, husable⟩
    obtain ⟨e₂, he₂, hsound₂⟩ := applyBuiltNativeValidation_sound options hbase.grid hwindowed hsound
    obtain ⟨e₃, he₃, hsound₃⟩ := applyRequestedCoverageGate_sound days
      (some newest.openTimeMs) hbundled hsound₂
    refine ⟨e₃, ?_, fun i hi => ?_, fun i hi => ?_⟩
    · rw [evaluateCandleBundle, hphysical, ok_bind, resolveSharedWindow_eq hnewest]
      dsimp only
      rw [he₁, ok_bind, he₂, ok_bind, he₃,
        ok_bind, applyPhysicalValidationGate_ok fun i hi => (hok i hi).2]
      rfl
    · obtain ⟨-, health, hhealth, havailable, hvalid, -⟩ := hsound₃ i (hbundled i hi)
      exact ⟨health, hhealth, havailable, hvalid⟩
    · obtain ⟨n, hparent⟩ : ∃ n, Parent i n := by
        rcases List.mem_cons.mp hi with rfl | hi
        · exact ⟨_, .quarter⟩
        · obtain rfl := List.mem_singleton.mp hi
          exact ⟨_, .hour⟩
      obtain ⟨built, hbuilt, -, htimes⟩ := (hwindowed i n hparent).built
      rw [(hsound₃ "5m" (.inl rfl)).1, (hsound₃ i hparent.bundled).1]
      exact ⟨built, hbuilt, htimes⟩
  · intro i entry hentry hreport e h
    obtain ⟨reports', hreports', h⟩ := bind_eq_ok.mp h
    obtain rfl := Except.ok.inj (hphysical.symm.trans hreports')
    obtain ⟨e₁, he₁, h⟩ := bind_eq_ok.mp h
    obtain ⟨e₂, he₂, h⟩ := bind_eq_ok.mp h
    obtain ⟨e₃, he₃, h⟩ := bind_eq_ok.mp h
    obtain rfl := pure_eq_ok_iff.mp h
    exact applyPhysicalValidationGate_notValid hentry hreport (mem_of_physical hphysical hentry)
      (applyRequestedCoverageGate_validAvailable
        (applyBuiltNativeValidation_validAvailable (evaluateDatasets_validAvailable he₁) he₂) he₃)

end bundle

/-! ## An hour and ten minutes -/

/-- Two decimals. -/
def ratFixed2 (x : ℚ) : String :=
  let n := (roundHalfEven (x * 10 ^ 2)).natAbs
  let decimals := Nat.toDigits 10 (n % 10 ^ 2)
  String.ofList ((if x < 0 then ['-'] else []) ++ Nat.toDigits 10 (n / 10 ^ 2) ++
    '.' :: List.replicate (2 - decimals.length) '0' ++ decimals)

/-- The checks in exact arithmetic. -/
@[reducible]
def exactChecks : FloatChecks ℚ where
  isFinite _ := true
  fixed2 := ratFixed2

attribute [local instance] exactChecks

/-- The intervals of a bundle, each once. -/
def demoIntervals : List String := ["5m", "15m", "1h"]

/-- Candles of a price of 1 from 00:55 on. -/
def demoSeeds (interval : String) : DatasetEvaluationSeed ℚ where
  sourceFile := interval
  candles :=
    if interval = "5m" then (List.range 14).map fun i : ℕ => ⟨3300000 + 300000 * (i : ℤ), 1, 1, 1, 1, 1⟩
    else if interval = "15m" then (List.range 4).map fun i : ℕ => ⟨3600000 + 900000 * (i : ℤ), 1, 1, 1, 1, 3⟩
    else [⟨3600000, 1, 1, 1, 1, 12⟩]

/-- All reports are fine. -/
def allFine (intervals : List String) : Except StoreError (Reports ℚ) → Bool
  | .ok reports => intervals.all fun interval => (reports interval).any fun entry => entry.2.ok
  | .error _ => false

lemma demoSeeds_fine : ∃ reports, validatePhysicalCandleBundle demoIntervals (rawCandles demoIntervals demoSeeds) =
    .ok reports ∧ ∀ i ∈ demoIntervals, ∃ entry, reports i = some entry ∧ entry.2.ok = true := by
  have hfine : allFine demoIntervals (validatePhysicalCandleBundle demoIntervals (rawCandles demoIntervals demoSeeds)) =
      true := by decide +kernel
  cases hphysical : validatePhysicalCandleBundle demoIntervals (rawCandles demoIntervals demoSeeds) with
  | error error =>
      rw [hphysical] at hfine
      cases hfine
  | ok reports =>
      rw [hphysical] at hfine
      refine ⟨reports, rfl, fun i hi => ?_⟩
      obtain ⟨entry, hentry, hok⟩ := (Option.any_eq_true _ _).mp (List.all_eq_true.mp hfine i hi)
      exact ⟨entry, hentry, hok⟩

/-- Their last day is valid. -/
theorem validity_independent_of_window_demo : ∃ e, evaluateCandleBundle demoIntervals demoSeeds 1 ⟨7500000, 2, [], false⟩ =
    .ok e ∧ (∀ i ∈ demoIntervals, ∃ health, e.health i = some health ∧ health.availability = .available ∧
      health.integrity = .valid) ∧
    ∀ i ∈ ["15m", "1h"], ∃ built, aggregateCandles (e.candles "5m") i "okx_native" = .ok built ∧
      (e.candles i).map Candle.openTimeMs = built.map Candle.openTimeMs := by
  obtain ⟨reports, hphysical, hok⟩ := demoSeeds_fine
  have hintervals : ∀ i, i ∈ demoIntervals ↔ i = "5m" ∨ i = "15m" ∨ i = "1h" := by
    intro i
    rw [demoIntervals, List.mem_cons, List.mem_cons, List.mem_singleton]
  exact (validity_independent_of_window hintervals hphysical 1 _).1 (fun i hi => ⟨rfl, hok i hi⟩) (by decide)

end MuStrategy.TrustedData
