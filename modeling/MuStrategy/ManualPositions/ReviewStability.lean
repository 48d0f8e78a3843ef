import MuStrategy.Lib.Timeline
import MuStrategy.ManualPositions.Review

/-!
# Reviews are stable

* `exitOn` — the exit that a snapshot has on a candle, from nothing but the two.
* `scan_earliestExit` — the scan finds the first of them.
* `ReviewedOn` — what a review that evaluates has read.
* `Shows`, `SeesOnly` — the candles that a review can see, and the ones it depends on.
* `review_stable` — a review sees candles after the confirmation only, and a later one keeps its exit.
-/

namespace MuStrategy.ManualPositions

open Lib TrustedData Strategy Backtest LiveExit

variable {F : Type} [Number F]

/-! ## The exit of a candle -/

/-- What an exit is: its candle, its reason and its trigger. -/
structure ExitDecision (F : Type) where
  candleOpenTimeMs : ℤ
  latestClose : F
  reason : Option ExitReason
  basis : TriggerBasis

/-- The exit of an observation. -/
def exitOf (observation : ExitObservation F) : ExitDecision F :=
  ⟨observation.candleOpenTimeMs, observation.latestClose, observation.exitReason, observation.triggerBasis⟩

section exits

variable [Eastern] {snapshot : PositionStateSnapshot F} {config : StrategyConfig F} {candles : List (Candle F)}
  {context : ℤ → Option String} {bar : Candle F} {regime : String} {index : ℕ}

/-- The exit that a snapshot has on a candle. A calendar that is not available hides the risk of the session, not the
stop. -/
def exitOn (snapshot : PositionStateSnapshot F) (config : StrategyConfig F) (bar : Candle F) :
    Option (ExitDecision F) :=
  match sessionRisk bar snapshot config with
  | .ok (risk, _) =>
      if risk = some true then
        some ⟨bar.openTimeMs, bar.closePrice, some .nonSessionLiquidationRisk, .nonSessionLiquidationRisk⟩
      else if bar.low ≤ snapshot.stopPrice then some ⟨bar.openTimeMs, bar.closePrice, some .stop, .stopBeforeCandle⟩
      else none
  | .error _ => none

/-- An exit is on its candle. -/
lemma exitOn_time {exit : ExitDecision F} (h : exitOn snapshot config bar = some exit) :
    exit.candleOpenTimeMs = bar.openTimeMs := by
  unfold exitOn at h
  split at h
  · split at h
    · obtain rfl := Option.some.inj h
      rfl
    · split at h
      · obtain rfl := Option.some.inj h
        rfl
      · cases h
  · cases h

/-- **The evaluator decides on the candle alone.** -/
lemma evaluateExit_decision {observation : ExitObservation F}
    (h : evaluateExit snapshot bar index candles regime config = .ok observation) :
    (if observation.exitTriggered = some true then some (exitOf observation) else none) =
      exitOn snapshot config bar := by
  obtain ⟨⟨risk, calendarError⟩, hrisk, h⟩ := bind_eq_ok.mp h
  rw [exitOn, hrisk]
  dsimp only at h ⊢
  rcases risk with _ | _ | _
  · -- the calendar is not available
    cases hstop : decide (bar.low ≤ snapshot.stopPrice) with
    | true =>
        rw [hstop] at h
        obtain ⟨outcome, -, h⟩ := bind_eq_ok.mp h
        obtain rfl := pure_eq_ok_iff.mp h
        rw [if_neg (by decide : ¬(none : Option Bool) = some true), if_pos (of_decide_eq_true hstop)]
        rfl
    | false =>
        rw [hstop] at h
        obtain ⟨outcome, -, h⟩ := bind_eq_ok.mp h
        obtain rfl := pure_eq_ok_iff.mp h
        rw [if_neg (by decide : ¬(none : Option Bool) = some true), if_neg (of_decide_eq_false hstop)]
        rfl
  · cases hstop : decide (bar.low ≤ snapshot.stopPrice) with
    | true =>
        rw [hstop] at h
        obtain ⟨outcome, -, h⟩ := bind_eq_ok.mp h
        obtain rfl := pure_eq_ok_iff.mp h
        rw [if_neg (by decide : ¬some false = some true), if_pos (of_decide_eq_true hstop)]
        rfl
    | false =>
        rw [hstop] at h
        obtain ⟨outcome, -, h⟩ := bind_eq_ok.mp h
        obtain rfl := pure_eq_ok_iff.mp h
        rw [if_neg (by decide : ¬some false = some true), if_neg (of_decide_eq_false hstop)]
        rfl
  · obtain ⟨outcome, -, h⟩ := bind_eq_ok.mp h
    obtain rfl := pure_eq_ok_iff.mp h
    rfl

/-- The exit that a scan has found. -/
def ReviewScan.exit (s : ReviewScan F) : Option (ExitDecision F) := s.earliestExit.map exitOf

lemma scanBar_exit {s t : ReviewScan F} (h : scanBar snapshot candles context config s (bar, index) = .ok t) :
    t.exit = s.exit.or (exitOn snapshot config bar) := by
  obtain ⟨regime, -, h⟩ := bind_eq_ok.mp h
  obtain ⟨latest, hlatest, h⟩ := bind_eq_ok.mp h
  obtain rfl := pure_eq_ok_iff.mp h
  have hdecision : (if latest.exitTriggered = some true then some (exitOf latest) else none) =
      exitOn snapshot config bar := by
    cases hevaluated : evaluateExit snapshot bar index candles regime config with
    | error e =>
        rw [hevaluated] at hlatest
        cases hlatest
    | ok observation =>
        rw [hevaluated] at hlatest
        obtain rfl := Except.ok.inj hlatest
        exact evaluateExit_decision hevaluated
  rw [← hdecision, ReviewScan.exit, ReviewScan.exit]
  cases s.earliestExit with
  | some found => simp
  | none => by_cases htriggered : latest.exitTriggered = some true <;> simp [htriggered]

lemma foldlM_exit {bars : List (Candle F × ℕ)} {s t : ReviewScan F}
    (h : bars.foldlM (scanBar snapshot candles context config) s = .ok t) :
    t.exit = s.exit.or ((bars.map Prod.fst).findSome? (exitOn snapshot config)) := by
  induction bars generalizing s with
  | nil =>
      obtain rfl := pure_eq_ok_iff.mp h
      exact Option.or_none.symm
  | cons first bars ih =>
      rw [List.foldlM_cons] at h
      obtain ⟨u, hu, h⟩ := bind_eq_ok.mp h
      rw [ih h, scanBar_exit hu, List.map_cons, List.findSome?_cons, Option.or_assoc]
      cases exitOn snapshot config first.1 <;> rfl

/-- **The scan finds the first exit.** -/
lemma scan_earliestExit {s : ReviewScan F} {firstIndex : ℕ}
    (h : scan snapshot candles context config firstIndex = .ok s) :
    s.earliestExit.map exitOf = (candles.drop firstIndex).findSome? (exitOn snapshot config) := by
  have hexit := foldlM_exit h
  rw [List.map_drop, List.zipIdx_map_fst] at hexit
  exact hexit

end exits

/-! ## What a review reads -/

section reads

variable [Eastern] [DecimalDigits] [LedgerLibrary] [ReviewLibrary F] {loader : ReviewLoader F} {v : PositionView}
  {nowMs : ℤ} {result r : ReviewResult F} {e : ReviewEvaluation F} {c : Confirmed}

/-- What is confirmed of a position: the snapshot and the configuration that all candles see. -/
structure ConfirmedSnapshot (v : PositionView) (c : Confirmed) (snapshot : PositionStateSnapshot F)
    (config : StrategyConfig F) : Prop where
  confirmed : confirmed v = .ok c
  snapshot : ∃ projected, projectRuleFillsByStage v.projection v.currentState.stage c.inputs.payload = .ok projected ∧
    c.snapshot F projected = .ok snapshot
  config : c.config F = .ok config

/-- A review has read candles of its loader, and scanned them from the first eligible one on. -/
structure ReviewedOn (loader : ReviewLoader F) (v : PositionView) (e : ReviewEvaluation F) (c : Confirmed)
    (snapshot : PositionStateSnapshot F) (config : StrategyConfig F) (quarters : List (Candle F)) (firstIndex : ℕ) :
    Prop where
  confirmed : ConfirmedSnapshot v c snapshot config
  loaded : ∃ query context bundle, query.symbol = v.position.symbol ∧ loader.execute query context = .ok bundle ∧
    bundle.allowed = true ∧ bundle.candlesByInterval "15m" = some quarters
  first : quarters[firstIndex]?.map Candle.openTimeMs = some c.firstOpenMs
  last : quarters.getLast?.map Candle.openTimeMs = some e.lastOpenMs
  count : e.candleCount = quarters.length - firstIndex
  exit : e.earliestExit.map exitOf = (quarters.drop firstIndex).findSome? (exitOn snapshot config)

omit [Number F] [Eastern] [DecimalDigits] [LedgerLibrary] [ReviewLibrary F] in
lemma seenAs_eq_ok {ε α : Type} {f : ε → ReviewError} {x : Except ε α} {a : α} :
    seenAs f x = .ok a ↔ x = .ok a := by
  cases x with
  | ok b =>
      rw [seenAs]
      exact ⟨fun h => congrArg Except.ok (Except.ok.inj h), fun h => congrArg Except.ok (Except.ok.inj h)⟩
  | error e => exact iff_of_false (fun h => by cases h) (fun h => by cases h)

omit [Number F] [Eastern] [DecimalDigits] [LedgerLibrary] [ReviewLibrary F] in
/-- A result that was evaluated was not a reported exception. -/
lemma reporting_evaluated (hnone : result.evaluation = none) {x : Except ReviewError (ReviewResult F)}
    (h : reporting result x = .ok r) (he : r.evaluation = some e) : x = .ok r := by
  cases x with
  | ok reviewed => exact h
  | error error =>
      cases error with
      | raised => cases h
      | reported =>
          obtain rfl := Except.ok.inj h
          exact absurd (hnone.symm.trans he) (Option.some_ne_none e).symm

omit [Number F] [Eastern] [DecimalDigits] [LedgerLibrary] [ReviewLibrary F] in
/-- The candles that a loader gives. -/
lemma loadCandles_spec {loaded : ReviewCandles F} (h : loadCandles loader v c nowMs = .ok (.candles loaded)) :
    ∃ query context bundle, query.symbol = v.position.symbol ∧ loader.execute query context = .ok bundle ∧
      bundle.allowed = true ∧ bundle.candlesByInterval "15m" = some loaded.quarters := by
  obtain ⟨context, hcontext, h⟩ := bind_eq_ok.mp h
  obtain ⟨bundle, hbundle, h⟩ := bind_eq_ok.mp h
  cases hallowed : bundle.allowed with
  | false =>
      rw [hallowed] at h
      cases h
  | true =>
      rw [hallowed] at h
      obtain ⟨_, _, h⟩ := bind_eq_ok.mp h
      obtain ⟨quarters, hquarters, h⟩ := bind_eq_ok.mp h
      obtain ⟨hours, _, h⟩ := bind_eq_ok.mp h
      obtain ⟨_, _, h⟩ := bind_eq_ok.mp h
      obtain ⟨_, _, h⟩ := bind_eq_ok.mp h
      obtain ⟨_, _, h⟩ := bind_eq_ok.mp h
      obtain ⟨_, _, h⟩ := bind_eq_ok.mp h
      obtain ⟨_, _, h⟩ := bind_eq_ok.mp h
      cases h
      exact ⟨_, context, bundle, rfl, hbundle, hallowed, orThrow_eq_ok.mp hquarters⟩

omit [DecimalDigits] [LedgerLibrary] [ReviewLibrary F] in
/-- What an evaluation says about its scan. -/
lemma evaluateScan_spec {snapshot : PositionStateSnapshot F} {projected : List StageFill} {quarters : List (Candle F)}
    {firstIndex : ℕ} {context : ℤ → Option String} {config : StrategyConfig F} {s : ReviewScan F}
    (h : evaluateScan c snapshot projected quarters firstIndex context config s = .ok (.inl e)) :
    e.earliestExit = s.earliestExit ∧ quarters.getLast?.map Candle.openTimeMs = some e.lastOpenMs ∧
      e.candleCount = quarters.length - firstIndex := by
  obtain ⟨last, hlast, h⟩ := bind_eq_ok.mp h
  obtain ⟨latest, _, h⟩ := bind_eq_ok.mp h
  obtain ⟨regime, _, h⟩ := bind_eq_ok.mp h
  rw [orThrow_eq_ok] at hlast
  rw [hlast]
  cases hexit : s.earliestExit with
  | some exit =>
      rw [hexit] at h
      cases h
      exact ⟨rfl, rfl, rfl⟩
  | none =>
      rw [hexit] at h
      cases herror : s.calendarError.filter (· ≠ "") with
      | some text =>
          rw [herror] at h
          cases h
      | none =>
          rw [herror] at h
          obtain ⟨addition, _, h⟩ := bind_eq_ok.mp h
          cases h
          exact ⟨rfl, rfl, rfl⟩

/-- **What a review that evaluates has read.** -/
lemma reviewed_of_evaluation (h : reviewPosition loader v nowMs = .ok r) (he : r.evaluation = some e) :
    ∃ c snapshot config quarters firstIndex, ReviewedOn loader v e c snapshot config quarters firstIndex := by
  obtain ⟨checks, _, h⟩ := bind_eq_ok.mp h
  dsimp only at h
  split at h
  · cases h
    cases he
  obtain ⟨c, hc, h⟩ := bind_eq_ok.mp h
  unfold reviewConfirmed at h
  split at h
  · cases h
    cases he
  split at h
  · cases h
    cases he
  have h := reporting_evaluated rfl h he
  obtain ⟨loaded, hloaded, h⟩ := bind_eq_ok.mp h
  cases loaded with
  | refused reason =>
      cases h
      cases he
  | candles loaded =>
      have h := reporting_evaluated rfl h he
      unfold reviewLoaded at h
      cases hfirst : firstIndex? loaded.quarters c.firstOpenMs with
      | none =>
          rw [hfirst] at h
          cases h
          cases he
      | some firstIndex =>
          rw [hfirst] at h
          obtain ⟨_, hcomplete, h⟩ := bind_eq_ok.mp h
          obtain ⟨config, hconfig, h⟩ := bind_eq_ok.mp h
          obtain ⟨digest, _, h⟩ := bind_eq_ok.mp h
          have h := reporting_evaluated rfl h he
          obtain ⟨projected, hprojected, h⟩ := bind_eq_ok.mp h
          obtain ⟨snapshot, hsnapshot, h⟩ := bind_eq_ok.mp h
          obtain ⟨context, _, h⟩ := bind_eq_ok.mp h
          obtain ⟨s, hs, h⟩ := bind_eq_ok.mp h
          obtain ⟨evaluated, hevaluated, h⟩ := bind_eq_ok.mp h
          cases evaluated with
          | inr text =>
              cases h
              cases he
          | inl evaluation =>
              cases h
              cases he
              obtain ⟨hexit, hlast, hcount⟩ := evaluateScan_spec hevaluated
              rw [require_eq_ok, completeRange, Bool.and_eq_true, Bool.and_eq_true] at hcomplete
              refine ⟨c, snapshot, config, loaded.quarters, firstIndex,
                ⟨hc, ⟨projected, seenAs_eq_ok.mp hprojected, hsnapshot⟩, seenAs_eq_ok.mp hconfig⟩,
                loadCandles_spec hloaded, ?_, hlast, hcount, ?_⟩
              · obtain ⟨bar, hbar, hopen⟩ := (Option.any_eq_true _ _).mp hcomplete.1.1
                rw [hbar, Option.map_some, of_decide_eq_true hopen]
              · rw [hexit]
                exact scan_earliestExit hs

end reads

/-! ## Two reviews -/

section stability

variable [Eastern] [DecimalDigits] [LedgerLibrary] [ReviewLibrary F] {v : PositionView}

/-- A loader shows a history of quarters: the candles that it gives for a symbol are the end of it. -/
def Shows (loader : ReviewLoader F) (symbol : String) (history : List (Candle F)) : Prop :=
  ∀ query context bundle quarters, query.symbol = symbol → loader.execute query context = .ok bundle →
    bundle.allowed = true → bundle.candlesByInterval "15m" = some quarters → quarters <:+ history

/-- An evaluation that depends on candles after a confirmation: its exit is the first one on them, of a snapshot that
does not change. -/
structure SeesOnly (confirmedAtMs : ℤ) (exits : Candle F → Option (ExitDecision F)) (checked : List (Candle F))
    (e : ReviewEvaluation F) : Prop where
  opened : ∀ bar ∈ checked, confirmedAtMs ≤ bar.openTimeMs
  through : checked.getLast?.map Candle.openTimeMs = some e.lastOpenMs
  count : e.candleCount = checked.length
  exit : e.earliestExit.map exitOf = checked.findSome? exits

omit [Eastern] [DecimalDigits] [LedgerLibrary] in
lemma Confirmed.confirmedAtMs_le (c : Confirmed) : c.confirmedAtMs ≤ c.firstOpenMs := by
  unfold Confirmed.firstOpenMs barMs
  omega

omit [LedgerLibrary] in
/-- A review depends on the candles of its history from the first eligible one on. -/
lemma ReviewedOn.seesOnly {loader : ReviewLoader F} {e : ReviewEvaluation F} {c : Confirmed}
    {snapshot : PositionStateSnapshot F} {config : StrategyConfig F} {quarters history : List (Candle F)}
    {firstIndex : ℕ} (h : ReviewedOn loader v e c snapshot config quarters firstIndex)
    (hshows : Shows loader v.position.symbol history) (hordered : Increasing Candle.openTimeMs history) :
    SeesOnly c.confirmedAtMs (exitOn snapshot config)
      (history.filter fun bar => c.firstOpenMs ≤ bar.openTimeMs) e := by
  obtain ⟨query, context, bundle, hsymbol, hbundle, hallowed, hquarters⟩ := h.loaded
  obtain ⟨first, hfirst, hopen⟩ := Option.map_eq_some_iff.mp h.first
  obtain ⟨hlt, -⟩ := List.getElem?_eq_some_iff.mp hfirst
  have hsuffix : quarters.drop firstIndex <:+ history :=
    (List.drop_suffix firstIndex quarters).trans (hshows query context bundle quarters hsymbol hbundle hallowed hquarters)
  have hchecked : quarters.drop firstIndex = history.filter fun bar => c.firstOpenMs ≤ bar.openTimeMs := by
    rw [← hopen]
    refine hordered.suffix_eq_filter hsuffix ?_
    rw [List.head?_drop, hfirst]
  rw [← hchecked]
  refine ⟨fun bar hbar => ?_, ?_, ?_, h.exit⟩
  · rw [hchecked, List.mem_filter, decide_eq_true_eq] at hbar
    exact c.confirmedAtMs_le.trans hbar.2
  · rw [List.getLast?_drop, if_neg (not_le.mpr hlt)]
    exact h.last
  · rw [List.length_drop]
    exact h.count

/-- **A review sees candles after the confirmation only, and a later one keeps its exit.** -/
theorem review_stable {loader₁ loader₂ : ReviewLoader F} {now₁ now₂ : ℤ} {history₁ history₂ : List (Candle F)}
    {r₁ r₂ : ReviewResult F} {e₁ e₂ : ReviewEvaluation F} (hshows₁ : Shows loader₁ v.position.symbol history₁)
    (hshows₂ : Shows loader₂ v.position.symbol history₂) (hextends : history₁ <+: history₂)
    (hordered : Increasing Candle.openTimeMs history₂)
    (h₁ : reviewPosition loader₁ v now₁ = .ok r₁) (he₁ : r₁.evaluation = some e₁)
    (h₂ : reviewPosition loader₂ v now₂ = .ok r₂) (he₂ : r₂.evaluation = some e₂) :
    ∃ c snapshot config, ConfirmedSnapshot v c snapshot config ∧
      SeesOnly c.confirmedAtMs (exitOn snapshot config)
        (history₁.filter fun bar => c.firstOpenMs ≤ bar.openTimeMs) e₁ ∧
      SeesOnly c.confirmedAtMs (exitOn snapshot config)
        (history₂.filter fun bar => c.firstOpenMs ≤ bar.openTimeMs) e₂ ∧
      (∀ exit₁, e₁.earliestExit = some exit₁ → ∃ exit₂, e₂.earliestExit = some exit₂ ∧ exitOf exit₂ = exitOf exit₁) ∧
      ∀ exit₂, e₂.earliestExit = some exit₂ → exit₂.candleOpenTimeMs ≤ e₁.lastOpenMs →
        ∃ exit₁, e₁.earliestExit = some exit₁ ∧ exitOf exit₁ = exitOf exit₂ := by
  obtain ⟨c, snapshot, config, quarters₁, first₁, hread₁⟩ := reviewed_of_evaluation h₁ he₁
  obtain ⟨c', snapshot', config', quarters₂, first₂, hread₂⟩ := reviewed_of_evaluation h₂ he₂
  -- both reviews have the same snapshot
  obtain rfl := Except.ok.inj (hread₁.confirmed.confirmed.symm.trans hread₂.confirmed.confirmed)
  obtain rfl : snapshot = snapshot' := by
    obtain ⟨projected, hprojected, hsnapshot⟩ := hread₁.confirmed.snapshot
    obtain ⟨projected', hprojected', hsnapshot'⟩ := hread₂.confirmed.snapshot
    obtain rfl := Except.ok.inj (hprojected.symm.trans hprojected')
    exact Except.ok.inj (hsnapshot.symm.trans hsnapshot')
  obtain rfl := Except.ok.inj (hread₁.confirmed.config.symm.trans hread₂.confirmed.config)
  have hsees₁ := hread₁.seesOnly hshows₁ (hordered.sublist hextends.sublist)
  have hsees₂ := hread₂.seesOnly hshows₂ hordered
  -- the second one checks the candles of the first, and then others
  obtain ⟨later, hlater⟩ := hextends.filter fun bar : Candle F => c.firstOpenMs ≤ bar.openTimeMs
  have hexit₂ := hsees₂.exit
  rw [← hlater, List.findSome?_append, ← hsees₁.exit] at hexit₂
  refine ⟨c, snapshot, config, hread₁.confirmed, hsees₁, hsees₂, fun exit₁ hexit₁ => ?_, fun exit₂ hexit hchecked => ?_⟩
  · rw [hexit₁, Option.map_some, Option.some_or] at hexit₂
    exact Option.map_eq_some_iff.mp hexit₂
  · rw [hexit, Option.map_some] at hexit₂
    cases hfirst : e₁.earliestExit with
    | some exit₁ =>
        rw [hfirst, Option.map_some, Option.some_or] at hexit₂
        exact ⟨exit₁, rfl, (Option.some.inj hexit₂).symm⟩
    | none =>
        -- an exit on a later candle is later
        rw [hfirst, Option.map_none, Option.none_or] at hexit₂
        obtain ⟨bar, hbar, hon⟩ := List.exists_of_findSome?_eq_some hexit₂.symm
        obtain ⟨last, hlast, hlastOpen⟩ := Option.map_eq_some_iff.mp hsees₁.through
        have hordered₂ := hordered.filter fun bar => c.firstOpenMs ≤ bar.openTimeMs
        rw [← hlater] at hordered₂
        have hlt := (increasing_append.mp hordered₂).2.2 last (List.mem_of_getLast? hlast) bar hbar
        have htime : exit₂.candleOpenTimeMs = bar.openTimeMs := exitOn_time hon
        omega

end stability

/-! ## A stop that is reached -/

section concrete

/-- One configuration, and a digest that tells nothing. -/
@[reducible] def oneConfiguration : LedgerLibrary where
  digest _ := ⟨zeroDigits, zeroDigits_isHex⟩
  parseStrategyConfigPayload _ := pure ⟨"baseline", "MU-USDT-SWAP"⟩
  baselineConfiguration _ := throw .key

attribute [local instance] asciiDigits oneConfiguration mondayTime

/-- The configuration is the default one, and numbers are read exactly. -/
@[reducible] def exactNumbers : ReviewLibrary ℚ where
  toStrategyConfig _ := pure {}
  baselineRuleId _ := pure "baseline.v1"
  effectiveConfigSha256 _ _ := pure "effective"
  floatOfText := exactDecimal
  floatOfDecimal := id

attribute [local instance] exactNumbers

/-- Three o'clock on that Monday. -/
def demoOpen : ℤ := monday + 10800000

/-- A buy of one at 100. -/
def reviewedBuy : FillRow where
  fill := ⟨.buy, "1", "100", demoOpen - 60000, some 1, some "95", "", false⟩
  fillId := demoIdentity "1"
  revision := 1
  sequence := 1
  recordedAtMs := demoOpen

/-- A position with a stop at 95 and a leverage of two, confirmed a second before three. -/
def demoView : PositionView where
  position := ⟨demoIdentity "0", "MU-USDT-SWAP", .base, "", none, demoOpen⟩
  projection := ⟨[reviewedBuy], [reviewedBuy], "1", 1, some "100", .open, some reviewedBuy.fill.timeMs, some 1, some "95"⟩
  stateHistory := [⟨demoIdentity "0", 1, demoIdentity "2", ⟨zeroDigits, zeroDigits_isHex⟩,
    ⟨some 1, some "95", "", 1, demoOpen - 2000⟩⟩]
  managementHistory := [⟨demoIdentity "0", 1, demoIdentity "3", ⟨zeroDigits, zeroDigits_isHex⟩,
    { template := ⟨"baseline", "baseline.v1", .null, "configuration"⟩
      configurationSource := "manual_baseline_selection"
      entryAnchor := some "100"
      initialStopPrice := some "95"
      actualLeverage := some "2"
      leverageSource := some "manual_confirmation"
      fillStages := [(demoIdentity "1", some 1)]
      fillRevisions := [(demoIdentity "1", 1)]
      fillSequence := 1
      stateRevision := 1
      confirmedAtMs := demoOpen - 1000
      note := "" }⟩]

/-- Quarters at 100, with a low of 94 at three. -/
def demoQuarters (n : ℕ) : List (Candle ℚ) :=
  (List.range n).map fun i : ℕ =>
    ⟨demoOpen + ((i : ℤ) - 36) * 900000, 100, 100, if i = 36 then 94 else 100, 100, 1⟩

/-- Hours at 100 up to three. -/
def demoHours : List (Candle ℚ) :=
  (List.range 36).map fun i : ℕ => ⟨demoOpen + ((i : ℤ) - 36) * 3600000, 100, 100, 100, 100, 1⟩

/-- A loader that gives some quarters. -/
def demoLoader (n : ℕ) : ReviewLoader ℚ where
  openContext nowMs := .ok ⟨"generation", "run", nowMs⟩
  execute _ context := .ok
    { allowed := true
      reason := "ok"
      loadContext := context
      runId := "run"
      candlesByInterval := fun interval =>
        if interval = "15m" then some (demoQuarters n) else if interval = "1h" then some demoHours else none
      contentSha256 := fun _ => some (some "digest") }

lemma demoLoader_shows (n : ℕ) : Shows (demoLoader n) "MU-USDT-SWAP" (demoQuarters n) := by
  intro query context bundle quarters _ hbundle _ hquarters
  obtain rfl := Except.ok.inj hbundle
  obtain rfl := Option.some.inj hquarters
  exact List.suffix_rfl

/-- A review has an exit. -/
def hasExit : Except ReviewError (ReviewResult ℚ) → Bool
  | .ok r => r.evaluation.any fun e => e.earliestExit.isSome
  | .error _ => false

lemma exit_of_hasExit {x : Except ReviewError (ReviewResult ℚ)} (h : hasExit x = true) :
    ∃ r e exit, x = .ok r ∧ r.evaluation = some e ∧ e.earliestExit = some exit := by
  cases x with
  | error e => cases h
  | ok r =>
      obtain ⟨e, he, hexit⟩ := (Option.any_eq_true _ _).mp h
      obtain ⟨exit, hexit⟩ := Option.isSome_iff_exists.mp hexit
      exact ⟨r, e, exit, rfl, he, hexit⟩

/-- A review a quarter after three, and one an hour later. -/
theorem review_stable_demo : ∃ r₁ r₂ e₁ e₂ exit₁ exit₂,
    reviewPosition (demoLoader 37) demoView (demoOpen + 900000) = .ok r₁ ∧ r₁.evaluation = some e₁ ∧
    reviewPosition (demoLoader 40) demoView (demoOpen + 3600000) = .ok r₂ ∧ r₂.evaluation = some e₂ ∧
    e₁.earliestExit = some exit₁ ∧ e₂.earliestExit = some exit₂ ∧ exitOf exit₂ = exitOf exit₁ := by
  obtain ⟨r₁, e₁, exit₁, h₁, he₁, hexit₁⟩ :=
    exit_of_hasExit (by decide +kernel : hasExit (reviewPosition (demoLoader 37) demoView (demoOpen + 900000)) = true)
  obtain ⟨r₂, e₂, exit₂, h₂, he₂, hexit₂⟩ :=
    exit_of_hasExit (by decide +kernel : hasExit (reviewPosition (demoLoader 40) demoView (demoOpen + 3600000)) = true)
  have hextends : demoQuarters 37 <+: demoQuarters 40 := ⟨(demoQuarters 40).drop 37, by decide +kernel⟩
  have hordered : Increasing Candle.openTimeMs (demoQuarters 40) := by
    unfold Increasing
    decide +kernel
  obtain ⟨-, -, -, -, -, -, hkept, -⟩ :=
    review_stable (demoLoader_shows 37) (demoLoader_shows 40) hextends hordered h₁ he₁ h₂ he₂
  obtain ⟨exit₂', hexit₂', hsame⟩ := hkept exit₁ hexit₁
  obtain rfl := Option.some.inj (hexit₂.symm.trans hexit₂')
  exact ⟨r₁, r₂, e₁, e₂, exit₁, exit₂, h₁, he₁, h₂, he₂, hexit₁, hexit₂, hsame⟩

end concrete

end MuStrategy.ManualPositions
