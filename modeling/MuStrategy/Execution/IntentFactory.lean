import Mathlib.Data.List.Sort
import MuStrategy.Execution.Instruments
import MuStrategy.Lib.Refusal
import MuStrategy.Observations
import MuStrategy.Research.StrategyReleases

/-!
# The intent factory

An order intent is made of an observation that is ready for review, of the release that the observation was scanned
with, and of the sizing of the instrument. The factory checks all three before it calls the constructor, which checks
the intent again.

* `canonicalEligibleObservation`, `createDemoIntent` — the factory.
* `priceToString_cases`, `sizeForNotional_cases` — the sizing gives a text or is refused.
* `Draft`, `Draft.validate_iff` — what the constructor still asks of a draft that passed the factory.
* `create_refuses_cleanly` — when the factory refuses with its own error.
-/

namespace MuStrategy.Execution

open Lib Decimal Research

/-! ## The factory -/

/-- What the factory raises. -/
inductive IntentFactoryError where
  /-- `OrderIntentIneligibleError`. -/
  | ineligible (text : String)
  /-- `OrderIntentSchemaError`. -/
  | schema (error : OrderIntentSchemaError)
  /-- `ValueError`. -/
  | value (error : ValueError)
  /-- A signal of the `decimal` module. -/
  | decimal (signal : Signal)
  /-- `AssertionError`. -/
  | assertion
  deriving DecidableEq

/-- Source: `research/strategy_releases.py` `STRATEGY_RELEASE_V1_SYMBOL`. -/
def strategyReleaseV1Symbol : String := "MU-USDT-SWAP"

/-- Source: `execution/intents.py` `ORDER_INTENT_REQUIRED_INTERVALS`, what is missing of them. -/
def missingIntervals (hashes : List (String × String)) : List String :=
  orderIntentRequiredIntervals.filter fun i => !(hashes.map Prod.fst).contains i

/-- What `StrictStrategyReleaseResolver.resolve` gives: the text of a `StrategyReleaseResolutionError`, or an object that
may be a release. -/
abbrev Resolved := Except String (Option StrategyRelease)

/-- The checks of `_canonical_eligible_observation` on an observation that was read. -/
def checkEligible (o : Stage0Observation) : Except IntentFactoryError Unit := do
  require (o.trustPolicyName = stage0TrustPolicyName && o.trustPolicyVersion = stage0TrustPolicyVersion &&
      o.trustAllowed)
    (.ineligible "source observation did not pass the strict trusted-data policy")
  require (o.outcome = .readyForReview) (.ineligible "source observation is not ready for review")
  require o.failureCode.isNone (.ineligible "failed observation cannot create an intent")
  let code ← orThrow (o.decisionCode.filter allowedDecisions.contains)
    (.ineligible "typed decision is not allowed for OrderIntent v1")
  require (code.disposition = .ready) (.ineligible "typed decision does not derive READY")
  let scan ← orThrow o.scanResult (.ineligible "eligible observation requires a scan result")
  require (scan.symbol = o.symbol) (.ineligible "scan result symbol does not match observation")
  require (o.trustedRunId.any (isLowerHex 32)) (.ineligible "trusted evidence requires an exact generation run ID")
  require (missingIntervals o.contentSha256ByInterval).isEmpty
    (.ineligible "trusted evidence is missing required hashes")
  require (o.effectiveIntervals.all fun interval => (o.contentSha256ByInterval.map Prod.fst).contains interval)
    (.ineligible "trusted evidence does not cover every effective interval")
  require (o.contentSha256ByInterval.all fun item => item.1 ≠ "" && isLowerHex 64 item.2)
    (.ineligible "trusted evidence contains an invalid content hash")
  require (scan.triggerPrice.isSome && scan.initialStop.isSome)
    (.ineligible "eligible observation requires trigger, stop, and signal time")
  let signalTimeMs ← orThrow scan.signalTimeMs
    (.ineligible "eligible observation requires trigger, stop, and signal time")
  require (signalTimeMs ≤ o.observedAtMs) (.ineligible "signal time cannot be after observation time")

/-- Source: `execution/intents.py` `_canonical_eligible_observation`. -/
def canonicalEligibleObservation [ObservationText] (observation : Stage0Observation) :
    Except IntentFactoryError Stage0Observation := do
  let canonical ← raiseAs (fun e => .ineligible ("source observation is not canonical: " ++ e)) observation.fromDict
  checkEligible canonical
  pure canonical

/-- Source: `execution/intents.py` `_canonical_input_decimal`. -/
def canonicalInputDecimal [DecimalDigits] (value fieldName : String) : Except IntentFactoryError Decimal := do
  let _ ← raiseAs (fun e => .ineligible e.text) (canonicalPositiveDecimal value fieldName)
  orThrow (ofText? value.toList) (.ineligible (fieldName ++ " must be a finite canonical decimal string"))

/-- Source: `execution/intents.py` `_positive_source_decimal`, of a price. -/
def positiveSourceDecimal (value : Option PrintedFloat) (fieldName : String) : Except IntentFactoryError Decimal := do
  let price ← orThrow value (.ineligible (fieldName ++ " must be finite and positive"))
  require (!price.negative && price.magnitude.coefficient ≠ 0)
    (.ineligible (fieldName ++ " must be finite and positive"))
  pure price.magnitude

/-- The number of a decimal field. -/
def decimalField? : Option ConfigValue → Option ℚ
  | some (.text s) => canonicalDecimal? s
  | _ => none

/-- Source: `execution/intents.py` `_integral_leverage`. -/
def integralLeverage (value : Option ConfigValue) : Except IntentFactoryError ℤ := do
  let leverage ← orThrow (decimalField? value) (.ineligible "leverage must be finite and positive")
  require (0 < leverage) (.ineligible "leverage must be finite and positive")
  require (leverage.den = 1) (.ineligible "strategy release leverage must be an integer")
  pure leverage.num

/-- A positive number of bars. -/
def waitBars? : Option ConfigValue → Option ℤ
  | some (.int n) => if 0 < n then some n else none
  | _ => none

/-- The sizing of an instrument inside the factory: its `ValueError` is a refusal. -/
def sized {α : Type} : Except SizingError α → Except IntentFactoryError α
  | .ok a => .ok a
  | .error (.value text) => .error (.ineligible ("canonical instrument sizing failed: " ++ text))
  | .error (.decimal signal) => .error (.decimal signal)

/-- The comparison `Decimal(initial_stop_text) >= Decimal(limit_price)`. -/
def requireBelow [DecimalDigits] (initialStop limitPrice : String) : Except IntentFactoryError Unit := do
  let stop ← orThrow (ofText? initialStop.toList) (.decimal .invalidOperation)
  let limit ← orThrow (ofText? limitPrice.toList) (.decimal .invalidOperation)
  require (stop.toRat < limit.toRat) (.ineligible "initial_stop must be below the long-entry limit price")

/-- The release that was resolved. -/
def resolvedRelease : Resolved → Except IntentFactoryError StrategyRelease
  | .error text => .error (.ineligible ("strategy release resolution failed: " ++ text))
  | .ok release => orThrow release (.ineligible "strict resolver returned an invalid strategy release")

/-- What the factory knows when it calls the constructor. -/
structure Draft where
  observation : Stage0Observation
  release : StrategyRelease
  waitBars : ℤ
  leverage : ℤ
  signalTimeMs : ℤ
  limitPrice : String
  initialStop : String
  size : String
  createdAtMs : ℤ

namespace Draft

variable [Sha256] (d : Draft)

/-- `signal_time_ms + wait_bars * _SCANNER_INTERVAL_MS`. -/
def expiresAtMs : ℤ := d.signalTimeMs + d.waitBars * scannerIntervalMs

/-- The lineage of the signal. -/
def signalLineageId : String :=
  signalLineageIdFor d.release.candidate.strategyConfig.strategyConfigSha256.text d.observation.symbol d.signalTimeMs

/-- The business action. -/
def businessActionId : String := businessActionIdFor .demo d.signalLineageId

/-- The values of the constructor call, but for the identifier. -/
def values : OrderIntentFields where
  schemaVersion := orderIntentSchemaVersion
  signalLineageId := d.signalLineageId
  businessActionId := d.businessActionId
  intentId := ""
  auditCorrelationId := d.businessActionId
  environment := .demo
  symbol := d.observation.symbol
  side := "buy"
  orderType := "limit"
  size := d.size
  limitPrice := d.limitPrice
  tdMode := "isolated"
  posSide := "long"
  leverage := d.leverage
  initialStop := d.initialStop
  sourceObservationId := d.observation.observationId
  signalTimeMs := d.signalTimeMs
  decisionCode := d.observation.decisionCode.getD .unknown
  trustedRunId := d.observation.trustedRunId.getD ""
  observedAtMs := d.observation.observedAtMs
  dataContentSha256 := d.observation.contentSha256ByInterval.insertionSort fun a b => a.1 ≤ b.1
  strategyReleaseId := d.release.strategyReleaseId
  strategyName := d.release.candidate.strategyName
  strategyConfigSha256 := d.release.candidate.strategyConfig.strategyConfigSha256.text
  secondPullbackWaitBars := d.waitBars
  createdAtMs := d.createdAtMs
  expiresAtMs := d.expiresAtMs

/-- The fields of the constructor call. -/
def fields : OrderIntentFields := { d.values with intentId := "oi1_" ++ d.values.intentFingerprint }

end Draft

section factory

variable [Sha256] [DecimalDigits] [ObservationText] [FloatReader]

/-- Source: `execution/intents.py` `OrderIntentFactory.create_demo_intent`. -/
def createDemoIntent (resolve : String → Resolved) (observation : Stage0Observation) (strategyReleaseId : String)
    (instrumentSpec : OKXInstrumentSpec) (notionalUsdt : String) (createdAtMs : ℤ) :
    Except IntentFactoryError OrderIntent := do
  let canonical ← canonicalEligibleObservation observation
  require (canonical.symbol = strategyReleaseV1Symbol)
    (.ineligible ("OrderIntent v1 requires exact symbol " ++ strategyReleaseV1Symbol))
  require (0 ≤ createdAtMs) (.ineligible "created_at_ms must be a non-negative integer")
  require (canonical.createdAtMs ≤ createdAtMs) (.ineligible "intent cannot predate its source observation")
  require (instrumentSpec.instId = canonical.symbol) (.ineligible "instrument symbol does not match observation")
  let notional ← canonicalInputDecimal notionalUsdt "notional_usdt"
  let release ← resolvedRelease (resolve strategyReleaseId)
  require (release.strategyReleaseId = strategyReleaseId)
    (.ineligible "resolved strategy release identity does not match request")
  require (release.candidate.strategyRuleId = strategyReleaseV1RuleId)
    (.ineligible "strategy release rule does not match MU v1")
  require (release.candidate.strategyName = canonical.strategyName)
    (.ineligible "strategy release name does not match observation")
  let observationConfigSha256 ← raiseAs .value release.candidate.strategyConfig.canonicalPayloadSha256
  require (observationConfigSha256.text = canonical.strategyConfigFingerprint)
    (.ineligible "strategy release config does not match Stage 0 config evidence")
  let waitBars ← orThrow (waitBars? (release.candidate.strategyConfig.get? "second_pullback_wait_bars"))
    (.ineligible "strategy release has invalid scanner lifecycle policy")
  let leverage ← integralLeverage (release.candidate.strategyConfig.get? "leverage")
  let scan ← orThrow canonical.scanResult .assertion
  let triggerPrice ← positiveSourceDecimal scan.triggerPrice "trigger_price"
  let initialStop ← positiveSourceDecimal scan.initialStop "initial_stop"
  let signalTimeMs ← orThrow scan.signalTimeMs (.ineligible "eligible observation requires signal_time_ms")
  require (createdAtMs < signalTimeMs + waitBars * scannerIntervalMs)
    (.ineligible "source signal is expired at the exclusive scanner lifecycle boundary")
  let limitPrice ← sized (instrumentSpec.priceToString (.decimal triggerPrice))
  let initialStopText ← sized (instrumentSpec.priceToString (.decimal initialStop))
  let size ← sized (instrumentSpec.sizeForNotional (.decimal notional) (.text limitPrice))
  requireBelow initialStopText limitPrice
  raiseAs .schema (OrderIntent.ofFields
    { observation := canonical, release, waitBars, leverage, signalTimeMs, limitPrice,
      initialStop := initialStopText, size, createdAtMs : Draft }.fields)

end factory

/-! ## Sizing without a bound on the digits -/

section sizing

variable {value step : Decimal} {a b : ℤ}

/-- The floor of a number of an ordinary size is returned, and zero or a number of an ordinary size. -/
lemma floorToStep_cases (hrange : a + b + 1 < 999999) (ha : 0 ≤ a) (hb : 0 ≤ b) (hvalue : Within a value.toRat)
    (hstep : Within b step.toRat) : ∃ r, floorToStep value step = .ok r ∧
      (r.coefficient = 0 ∨ SigDigits 28 r.toRat ∧ Within (max a b + 2) r.toRat) := by
  have hquotient := hvalue.div hstep
  have hne {d : Decimal} (h : 0 < d.toRat) : d.coefficient ≠ 0 := fun hzero => h.ne' (toRat_eq_zero.mpr hzero)
  obtain ⟨hlow, hhigh⟩ := hquotient.double (by omega : a + b < 999999)
  obtain ⟨q, hq, hnear, -⟩ := div_spec Context.default (hne hvalue.pos) (hne hstep.pos) hlow hhigh
  have hdiv : floorToStep value step = signalled (Context.default.mul (truncate q) step) := by
    rw [floorToStep, hq, signalled, ok_bind]
  rw [hdiv]
  have hwhole : (truncate q).toRat = ⌊q.toRat⌋₊ := toRat_truncate q
  rcases Nat.eq_zero_or_pos ⌊q.toRat⌋₊ with hzero | hpos
  · have hnone : (truncate q).coefficient = 0 := by rw [← toRat_eq_zero, hwhole, hzero, Nat.cast_zero]
    refine ⟨_, by rw [Context.mul, Context.fix, if_pos (by rw [hnone, Nat.zero_mul])]; rfl, Or.inl ?_⟩
    rfl
  · -- between one step and twice the number
    have hone : (1 : ℚ) ≤ ⌊q.toRat⌋₊ := by exact_mod_cast hpos
    have hqle : q.toRat ≤ 2 * (value.toRat / step.toRat) := by
      have hscaled : |q.toRat - value.toRat / step.toRat| * 10 ^ 28 ≤ 7 * (value.toRat / step.toRat) := hnear
      linarith [le_abs_self (q.toRat - value.toRat / step.toRat), abs_nonneg (q.toRat - value.toRat / step.toRat)]
    have hle : (truncate q).toRat * step.toRat ≤ 2 * value.toRat := by
      rw [hwhole]
      calc (⌊q.toRat⌋₊ : ℚ) * step.toRat ≤ q.toRat * step.toRat :=
            mul_le_mul_of_nonneg_right (Nat.floor_le q.toRat_nonneg) hstep.pos.le
        _ ≤ 2 * (value.toRat / step.toRat) * step.toRat := mul_le_mul_of_nonneg_right hqle hstep.pos.le
        _ = 2 * value.toRat := by rw [mul_assoc, div_mul_cancel₀ _ hstep.pos.ne']
    have hge : step.toRat ≤ (truncate q).toRat * step.toRat := by
      rw [hwhole]
      exact le_mul_of_one_le_left hstep.pos.le hone
    have htwo : Within 1 (2 : ℚ) := ⟨by norm_num, by norm_num⟩
    have hdouble : Within (a + 1) (2 * value.toRat) := by
      rw [mul_comm]
      exact hvalue.mul htwo
    have hproduct : Within (max a b + 1) ((truncate q).toRat * step.toRat) :=
      Within.between (hstep.mono (by omega)) (hdouble.mono (by omega)) hge hle
    obtain ⟨r, hr, hrounds⟩ := Context.mul_spec (hproduct.normal Context.default (by change max a b + 1 < 999999; omega))
    refine ⟨r, by rw [hr]; rfl, Or.inr ⟨Context.fix_sigDigits hr, ?_⟩⟩
    have hnearR : |r.toRat - (truncate q).toRat * step.toRat| * 10 ^ 28 ≤ 5 * ((truncate q).toRat * step.toRat) :=
      hrounds.near
    have hwithin := hproduct.near (y := r.toRat)
      (by linarith [abs_nonneg (r.toRat - (truncate q).toRat * step.toRat)])
    exact hwithin.mono (by omega)

variable [DecimalDigits] {spec : OKXInstrumentSpec}

/-- The text of a floor, or the refusal of one that is zero. -/
lemma text_of_floor (hrange : a + b + 3 < 999999) (ha : 0 ≤ a) (hb : 0 ≤ b)
    (hvalue : Within a value.toRat) (hstep : Within b step.toRat) {x : Except SizingError String} (error : String)
    (hx : x = (do
      let rounded ← floorToStep value step
      require (rounded.coefficient ≠ 0) (.value error)
      decimalToString rounded)) :
    x = .error (.value error) ∨ ∃ text, x = .ok text ∧
      ∃ d, Canonical text d.toRat ∧ ofText? text.toList = some d ∧ Within (max a b + 2) d.toRat := by
  obtain ⟨r, hr, hcases⟩ := floorToStep_cases (by omega) ha hb hvalue hstep
  rw [hr, ok_bind] at hx
  by_cases hzero : r.coefficient = 0
  · rw [decide_eq_false (not_not.mpr hzero)] at hx
    exact Or.inl hx
  · obtain ⟨hshort, hwithin⟩ := hcases.resolve_left hzero
    obtain ⟨text, htext, hcanonical, d, hd, hread⟩ :=
      decimalToString_spec (hwithin.normal Context.default (by change max a b + 2 < 999999; omega)) hshort
    rw [decide_eq_true hzero, require_true, ok_bind, htext] at hx
    rw [← hread] at hcanonical hwithin
    exact Or.inr ⟨text, hx, d, hcanonical, hd, hwithin⟩

/-- A price is refused with `ValueError`, or its text is canonical. -/
lemma priceToString_cases {price : Decimal} (htick : Ordinary spec.tickSize) (hprice : Within 400 price.toRat) :
    (∃ error, spec.priceToString (.decimal price) = .error (.value error)) ∨
      ∃ text, spec.priceToString (.decimal price) = .ok text ∧
        ∃ d, Canonical text d.toRat ∧ ofText? text.toList = some d ∧ Within 200002 d.toRat := by
  have hfloor : spec.priceToString (.decimal price) = (do
      let rounded ← floorToStep price spec.tickSize
      require (rounded.coefficient ≠ 0) (.value "rounded price must be positive")
      decimalToString rounded) := by
    rw [OKXInstrumentSpec.priceToString, positiveDecimal_decimal hprice.pos, ok_bind]
  rcases text_of_floor (by norm_num) (by norm_num) (by norm_num) hprice htick _ hfloor with hrefused | hreturned
  · exact Or.inl ⟨_, hrefused⟩
  · exact Or.inr hreturned

/-- A size is refused with `ValueError`, or its text is canonical. -/
lemma sizeForNotional_cases {notional d : Decimal} {p : String} (hcontract : Ordinary spec.contractValue)
    (hlot : Ordinary spec.lotSize) (hnotional : Ordinary notional) (hread : ofText? p.toList = some d)
    (hd : Within 200002 d.toRat) :
    (∃ error, spec.sizeForNotional (.decimal notional) (.text p) = .error (.value error)) ∨
      ∃ text, spec.sizeForNotional (.decimal notional) (.text p) = .ok text ∧ ∃ x, Canonical text x := by
  have hne {e : Decimal} (h : 0 < e.toRat) : e.coefficient ≠ 0 := fun hzero => h.ne' (toRat_eq_zero.mpr hzero)
  have hproduct := hd.mul hcontract
  obtain ⟨contract, hmul, hrounds⟩ := Context.mul_spec (hproduct.normal Context.default (by decide))
  have hnearC : |contract.toRat - d.toRat * spec.contractValue.toRat| * 10 ^ 28 ≤
      5 * (d.toRat * spec.contractValue.toRat) := hrounds.near
  have hcontractWithin : Within 400003 contract.toRat :=
    hproduct.near (by linarith [abs_nonneg (contract.toRat - d.toRat * spec.contractValue.toRat)])
  have hquotient : Within 600003 (notional.toRat / contract.toRat) := hnotional.div hcontractWithin
  obtain ⟨hlow, hhigh⟩ := hquotient.double (by norm_num : (600003 : ℤ) < 999999)
  obtain ⟨raw, hdiv, hnear, -⟩ := div_spec Context.default (hne hnotional.pos) (hne hcontractWithin.pos) hlow hhigh
  have hscaled : |raw.toRat - notional.toRat / contract.toRat| * 10 ^ 28 ≤ 7 * (notional.toRat / contract.toRat) := hnear
  have hraw : Within 600004 raw.toRat :=
    hquotient.near (by linarith [abs_nonneg (raw.toRat - notional.toRat / contract.toRat)])
  have hfloor : spec.sizeForNotional (.decimal notional) (.text p) = (do
      let rounded ← floorToStep raw spec.lotSize
      require (rounded.coefficient ≠ 0) (.value "rounded size must be positive")
      decimalToString rounded) := by
    rw [OKXInstrumentSpec.sizeForNotional, positiveDecimal_decimal hnotional.pos, ok_bind,
      positiveDecimal_text hread hd.pos, ok_bind, hmul, signalled, ok_bind, hdiv, signalled, ok_bind,
      OKXInstrumentSpec.sizeToString, positiveDecimal_decimal hraw.pos, ok_bind]
  rcases text_of_floor (by norm_num) (by norm_num) (by norm_num) hraw hlot _ hfloor
    with hrefused | ⟨text, htext, e, hcanonical, -⟩
  · exact Or.inl ⟨_, hrefused⟩
  · exact Or.inr ⟨text, htext, e.toRat, hcanonical⟩

end sizing

/-! ## The constructor -/

/-- The pairs of a dictionary, sorted. -/
abbrev sortedHashes (hashes : List (String × String)) : List (String × String) :=
  hashes.insertionSort fun a b => a.1 ≤ b.1

lemma missingIntervals_sorted (hashes : List (String × String)) :
    missingIntervals (sortedHashes hashes) = missingIntervals hashes := by
  unfold missingIntervals
  refine List.filter_congr fun interval _ => ?_
  have hperm : ((sortedHashes hashes).map Prod.fst).Perm (hashes.map Prod.fst) := (List.perm_insertionSort _ _).map _
  have hiff : ((sortedHashes hashes).map Prod.fst).contains interval = (hashes.map Prod.fst).contains interval := by
    rw [Bool.eq_iff_iff, List.contains_iff_mem, List.contains_iff_mem, hperm.mem_iff]
  rw [hiff]

/-- The hashes of an eligible observation, sorted, are those of an intent. -/
lemma validateContentHashes_sorted {hashes : List (String × String)} (hnodup : (hashes.map Prod.fst).Nodup)
    (hall : (hashes.all fun item => item.1 ≠ "" && isLowerHex 64 item.2) = true)
    (hmissing : (missingIntervals hashes).isEmpty = true) : validateContentHashes (sortedHashes hashes) = .ok () := by
  have hperm : (sortedHashes hashes).Perm hashes := List.perm_insertionSort _ _
  have hkeys : (sortedHashes hashes).Pairwise fun a b => a.1 ≠ b.1 :=
    List.pairwise_map.mp ((hperm.map Prod.fst).nodup_iff.mpr hnodup)
  have hle : (sortedHashes hashes).Pairwise fun a b => a.1 ≤ b.1 := by
    have : Std.Total fun a b : String × String => a.1 ≤ b.1 := ⟨fun a b => String.le_total a.1 b.1⟩
    have : IsTrans (String × String) fun a b => a.1 ≤ b.1 := ⟨fun _ _ _ => String.le_trans⟩
    exact List.pairwise_insertionSort _ _
  have hlt : (sortedHashes hashes).Pairwise fun a b => a.1 < b.1 :=
    (hle.and hkeys).imp fun h => String.not_le.mp fun hge => h.2 (String.le_antisymm h.1 hge)
  simp only [validateContentHashes, bind_eq_ok, require_eq_ok, exists_const, decide_eq_true_eq]
  refine ⟨?_, hlt, ?_⟩
  · rw [List.all_eq_true] at hall ⊢
    exact fun item hitem => hall item (hperm.mem_iff.mp hitem)
  · rw [← missingIntervals_sorted] at hmissing
    exact hmissing

/-- What the checks of the factory establish about a draft. -/
structure Draft.Passed (d : Draft) : Prop where
  symbol : d.observation.symbol = strategyReleaseV1Symbol
  decided : ∃ code, d.observation.decisionCode = some code ∧ allowedDecisions.contains code = true ∧
    code.disposition = .ready
  trustedRun : ∃ runId, d.observation.trustedRunId = some runId ∧ isLowerHex 32 runId = true
  required : (missingIntervals d.observation.contentSha256ByInterval).isEmpty = true
  hashed : (d.observation.contentSha256ByInterval.all fun item => item.1 ≠ "" && isLowerHex 64 item.2) = true
  checked : d.observation.Checked
  strategyName : d.release.candidate.strategyName = d.observation.strategyName
  signalTimeMs_nonneg : 0 ≤ d.signalTimeMs
  signalTimeMs_le : d.signalTimeMs ≤ d.observation.observedAtMs
  waitBars : 0 < d.waitBars
  leverage : 0 < d.leverage
  createdAtMs_nonneg : 0 ≤ d.createdAtMs
  createdAtMs_lt : d.createdAtMs < d.expiresAtMs
  prices : ∃ size limit stop, Canonical d.size size ∧ Canonical d.limitPrice limit ∧ Canonical d.initialStop stop ∧
    stop < limit

lemma pos_of_canonical {text : String} {x : ℚ} (h : Canonical text x) : 0 < x := by
  have hvalue := h ""
  simp only [canonicalPositiveDecimal, bind_eq_ok, require_eq_ok, exists_const, decide_eq_true_eq, orThrow_eq_ok] at hvalue
  obtain ⟨-, y, -, hpos, heq⟩ := hvalue
  rw [pure_eq_ok_iff] at heq
  exact heq ▸ hpos

section validation

variable [Sha256] {d : Draft}

/-- **What the constructor still asks**: that the intent is not older than what was observed. -/
lemma Draft.validate_iff (h : d.Passed) : d.fields.validate = .ok () ↔ d.observation.observedAtMs ≤ d.createdAtMs := by
  obtain ⟨code, hcode, hallowed, hready⟩ := h.decided
  obtain ⟨runId, hrun, hrunHex⟩ := h.trustedRun
  obtain ⟨size, limit, stop, hsize, hlimit, hstop, hlt⟩ := h.prices
  have hsymbol : isSymbol d.observation.symbol = true := by
    rw [h.symbol]
    decide
  have hhashes := validateContentHashes_sorted d.observation.intervals_nodup h.hashed h.required
  have hlineage : hasPrefixHex "sig1_" 64 d.signalLineageId = true := hasPrefixHex_append (HexDigest.isHex _)
  have haction : hasPrefixHex "ba1_" 64 d.businessActionId = true := hasPrefixHex_append (HexDigest.isHex _)
  have hid (f : OrderIntentFields) : hasPrefixHex "oi1_" 64 ("oi1_" ++ f.intentFingerprint) = true :=
    hasPrefixHex_append (HexDigest.isHex _)
  have hlineageEq : d.signalLineageId = signalLineageIdFor d.release.candidate.strategyConfig.strategyConfigSha256.text
    d.observation.symbol d.signalTimeMs := rfl
  have hactionEq : d.businessActionId = businessActionIdFor .demo d.signalLineageId := rfl
  have hexpires : d.expiresAtMs = d.signalTimeMs + d.waitBars * scannerIntervalMs := rfl
  have hname : d.release.candidate.strategyName ≠ "" := h.strategyName ▸ h.checked.strategyName_ne
  have hfingerprint : d.fields.intentFingerprint = d.values.intentFingerprint := rfl
  have hobserved := h.checked.observedAtMs_nonneg
  have hexpiry : 0 ≤ d.expiresAtMs := h.createdAtMs_nonneg.trans h.createdAtMs_lt.le
  unfold OrderIntentFields.validate requireConstant requireNonNegative
  rw [hfingerprint]
  simp only [Draft.fields, Draft.values, hcode, hrun, Option.getD_some, hsize _, hlimit _, hstop _, ok_bind, bind_eq_ok,
    require_eq_ok, exists_const, decide_eq_true_eq, hsymbol, h.signalTimeMs_nonneg, h.signalTimeMs_le, h.waitBars,
    h.leverage, h.createdAtMs_nonneg, h.createdAtMs_lt, hlt, pos_of_canonical hsize, hallowed, hready, hrunHex, hhashes,
    d.release.releaseId_format, HexDigest.isHex, hlineage, haction, hobserved, hexpiry, hid, ← hlineageEq, ← hactionEq,
    ← hexpires, h.checked.observationId_ne, hname, ne_eq, not_false_eq_true, true_and, and_true]

end validation

/-! ## The factory refuses cleanly -/

/-- What an eligible observation is known to hold. -/
structure Eligible (o : Stage0Observation) : Prop where
  checked : o.Checked
  decided : ∃ code, o.decisionCode = some code ∧ allowedDecisions.contains code = true ∧ code.disposition = .ready
  trustedRun : ∃ runId, o.trustedRunId = some runId ∧ isLowerHex 32 runId = true
  required : (missingIntervals o.contentSha256ByInterval).isEmpty = true
  hashed : (o.contentSha256ByInterval.all fun item => item.1 ≠ "" && isLowerHex 64 item.2) = true
  scanned : ∃ scan t, o.scanResult = some scan ∧ scan.signalTimeMs = some t ∧ t ≤ o.observedAtMs

lemma eligible_of_canonical [ObservationText] {o canonical : Stage0Observation}
    (h : canonicalEligibleObservation o = .ok canonical) : canonical = o ∧ Eligible o := by
  simp only [canonicalEligibleObservation, bind_eq_ok, raiseAs_eq_ok, pure_eq_ok_iff] at h
  obtain ⟨read, hread, _, hcheck, rfl⟩ := h
  obtain rfl := Stage0Observation.fromDict_eq hread
  simp only [checkEligible, bind_eq_ok, require_eq_ok, orThrow_eq_ok, exists_const, decide_eq_true_eq] at hcheck
  obtain ⟨-, -, -, code, hcode, hready, scan, hscan, -, hrun, hrequired, -, hhashed, -, t, ht, hle⟩ := hcheck
  obtain ⟨hcode, hallowed⟩ := Option.filter_eq_some_iff.mp hcode
  obtain ⟨runId, hrunId, hhex⟩ := (Option.any_eq_true _ _).mp hrun
  exact ⟨rfl, Stage0Observation.checked_of_fromDict hread, ⟨code, hcode, hallowed, hready⟩, ⟨runId, hrunId, hhex⟩,
    hrequired, hhashed, scan, t, hscan, ht, hle⟩

/-- The error of the factory itself. -/
def Refused (e : IntentFactoryError) : Prop := ∃ text, e = .ineligible text

lemma refused (text : String) : Refused (.ineligible text) := ⟨text, rfl⟩

/-- An intent that is bound to its observation and its release. -/
structure Bound [Sha256] [FloatReader] (observation : Stage0Observation) (release : StrategyRelease) (createdAtMs : ℤ)
    (intent : OrderIntent) : Prop where
  reads : OrderIntent.fromDict intent.toDict = .ok intent
  sourceObservationId : intent.sourceObservationId = observation.observationId
  symbol : intent.symbol = observation.symbol
  signalTimeMs : observation.scanResult.bind Stage0ScanResult.signalTimeMs = some intent.signalTimeMs
  hashes : intent.dataContentSha256.Perm observation.contentSha256ByInterval
  config : (canonicalSha256 release.candidate.strategyConfig.strategyConfig).text = observation.strategyConfigFingerprint
  strategyReleaseId : intent.strategyReleaseId = release.strategyReleaseId
  strategyConfigSha256 : intent.strategyConfigSha256 = release.candidate.strategyConfig.strategyConfigSha256.text
  createdAtMs : intent.createdAtMs = createdAtMs
  createdAtMs_lt : intent.createdAtMs < intent.expiresAtMs
  initialStop_lt : ∃ stop limit, Canonical intent.initialStop stop ∧ Canonical intent.limitPrice limit ∧ stop < limit

section quiet

lemma quiet_raiseAs {ε α : Type} {f : ε → IntentFactoryError} (hf : ∀ e, Refused (f e)) (x : Except ε α) :
    Quiet Refused (raiseAs f x) := by
  cases x with
  | error e => exact hf e
  | ok a => exact quiet_ok

lemma quiet_checkEligible (o : Stage0Observation) : Quiet Refused (checkEligible o) := by
  unfold checkEligible
  repeat' first
    | exact quiet_require (refused _)
    | refine quiet_bind (quiet_require (refused _)) fun _ _ => ?_
    | refine quiet_bind (quiet_orThrow (refused _)) fun _ _ => ?_

lemma quiet_canonicalEligibleObservation [ObservationText] (o : Stage0Observation) :
    Quiet Refused (canonicalEligibleObservation o) :=
  quiet_bind (quiet_raiseAs (fun _ => refused _) _) fun _ _ => quiet_bind (quiet_checkEligible _) fun _ _ => quiet_ok

lemma quiet_canonicalInputDecimal [DecimalDigits] (value fieldName : String) :
    Quiet Refused (canonicalInputDecimal value fieldName) :=
  quiet_bind (quiet_raiseAs (fun _ => refused _) _) fun _ _ => quiet_orThrow (refused _)

lemma quiet_resolvedRelease (resolved : Resolved) : Quiet Refused (resolvedRelease resolved) := by
  cases resolved with
  | error text => exact refused _
  | ok release => exact quiet_orThrow (refused _)

lemma resolved_of_release {resolved : Resolved} {release : StrategyRelease} (h : resolvedRelease resolved = .ok release) :
    resolved = .ok (some release) := by
  cases resolved with
  | error text => cases h
  | ok r => rw [orThrow_eq_ok.mp h]

lemma quiet_integralLeverage (value : Option ConfigValue) : Quiet Refused (integralLeverage value) :=
  quiet_bind (quiet_orThrow (refused _)) fun _ _ => quiet_bind (quiet_require (refused _)) fun _ _ =>
    quiet_bind (quiet_require (refused _)) fun _ _ => quiet_ok

lemma quiet_positiveSourceDecimal (value : Option PrintedFloat) (fieldName : String) :
    Quiet Refused (positiveSourceDecimal value fieldName) :=
  quiet_bind (quiet_orThrow (refused _)) fun _ _ => quiet_bind (quiet_require (refused _)) fun _ _ => quiet_ok

/-- A price of a scan is positive, and of the size of a `float`. -/
lemma within_of_positiveSourceDecimal {value : Option PrintedFloat} {fieldName : String} {d : Decimal}
    (h : positiveSourceDecimal value fieldName = .ok d) : Within 400 d.toRat := by
  simp only [positiveSourceDecimal, bind_eq_ok, orThrow_eq_ok, require_eq_ok, exists_const, Bool.and_eq_true,
    decide_eq_true_eq, pure_eq_ok_iff] at h
  obtain ⟨price, -, ⟨-, hne⟩, rfl⟩ := h
  exact price.range.resolve_left hne

lemma pos_of_integralLeverage {value : Option ConfigValue} {leverage : ℤ}
    (h : integralLeverage value = .ok leverage) : 0 < leverage := by
  simp only [integralLeverage, bind_eq_ok, require_eq_ok, exists_const, decide_eq_true_eq, pure_eq_ok_iff] at h
  obtain ⟨q, -, hpos, -, rfl⟩ := h
  exact Rat.num_pos.mpr hpos

lemma pos_of_waitBars {value : Option ConfigValue} {n : ℤ} (h : waitBars? value = some n) : 0 < n := by
  unfold waitBars? at h
  split at h
  · split at h
    · rename_i hpos
      exact Option.some.inj h ▸ hpos
    · cases h
  · cases h

end quiet

section result

variable [Sha256] [DecimalDigits] [ObservationText] [FloatReader] (resolve : String → Resolved)
  (observation : Stage0Observation) (strategyReleaseId : String) (spec : OKXInstrumentSpec) (notionalUsdt : String)
  (createdAtMs : ℤ)

/-- An intent that is bound to the observation and to the resolved release, or a refusal by the factory. -/
def RefusesCleanly : Prop :=
  Clean Refused
    (fun intent => ∃ release, resolve strategyReleaseId = .ok (some release) ∧
      Bound observation release createdAtMs intent)
    (createDemoIntent resolve observation strategyReleaseId spec notionalUsdt createdAtMs)

/-- The checks on the request: they pass for a release and a notional. -/
structure Matched (release : StrategyRelease) (notional : Decimal) : Prop where
  eligible : canonicalEligibleObservation observation = .ok observation
  symbol : observation.symbol = strategyReleaseV1Symbol
  createdAtMs_nonneg : 0 ≤ createdAtMs
  createdAtMs_le : observation.createdAtMs ≤ createdAtMs
  instrument : spec.instId = observation.symbol
  notional : canonicalInputDecimal notionalUsdt "notional_usdt" = .ok notional
  resolved : resolve strategyReleaseId = .ok (some release)
  releaseId : release.strategyReleaseId = strategyReleaseId
  rule : release.candidate.strategyRuleId = strategyReleaseV1RuleId
  strategyName : release.candidate.strategyName = observation.strategyName

/-- The checks on the configuration, the scan and the sizing: they pass, and give a draft. -/
structure Drafted (notional : Decimal) (d : Draft) : Prop where
  ofObservation : d.observation = observation
  atTime : d.createdAtMs = createdAtMs
  config : (canonicalSha256 d.release.candidate.strategyConfig.strategyConfig).text =
    observation.strategyConfigFingerprint
  waitBars : waitBars? (d.release.candidate.strategyConfig.get? "second_pullback_wait_bars") = some d.waitBars
  leverage : integralLeverage (d.release.candidate.strategyConfig.get? "leverage") = .ok d.leverage
  prices : ∃ scan trigger stop, observation.scanResult = some scan ∧
    positiveSourceDecimal scan.triggerPrice "trigger_price" = .ok trigger ∧
    positiveSourceDecimal scan.initialStop "initial_stop" = .ok stop ∧ scan.signalTimeMs = some d.signalTimeMs ∧
    spec.priceToString (.decimal trigger) = .ok d.limitPrice ∧ spec.priceToString (.decimal stop) = .ok d.initialStop
  createdAtMs_lt : createdAtMs < d.expiresAtMs
  size : spec.sizeForNotional (.decimal notional) (.text d.limitPrice) = .ok d.size
  below : requireBelow d.initialStop d.limitPrice = .ok ()

/-- **When nothing escapes**: whatever passes the checks on the request has a configuration of finite floats, and
whatever also passes the other checks is not older than its observation. -/
def NothingEscapes : Prop :=
  ∀ release notional, Matched resolve observation strategyReleaseId spec notionalUsdt createdAtMs release notional →
    release.candidate.strategyConfig.floats.all isFinite = true ∧
      ∀ d, d.release = release → Drafted observation spec createdAtMs notional d → observation.observedAtMs ≤ createdAtMs

variable {resolve observation strategyReleaseId spec notionalUsdt createdAtMs}

/-- A decimal of the configuration that is no finite float escapes as `ValueError`. -/
lemma escapes_of_infinite {release : StrategyRelease} {notional : Decimal}
    (h : Matched resolve observation strategyReleaseId spec notionalUsdt createdAtMs release notional)
    (hinfinite : release.candidate.strategyConfig.floats.all isFinite = false) :
    ∃ e, createDemoIntent resolve observation strategyReleaseId spec notionalUsdt createdAtMs = .error (.value e) := by
  refine ⟨⟨"Out of range float values are not JSON compliant", []⟩, ?_⟩
  simp only [createDemoIntent, h.eligible, ok_bind, h.symbol, h.createdAtMs_nonneg, h.createdAtMs_le, h.instrument,
    h.notional, h.resolved, resolvedRelease, orThrow_some, h.releaseId, h.rule, h.strategyName, decide_true,
    require_true, StrategyConfigPayload.canonicalPayloadSha256, hinfinite]
  rfl

/-- The call reaches the constructor. -/
lemma create_of_drafted {notional : Decimal} {d : Draft}
    (h : Matched resolve observation strategyReleaseId spec notionalUsdt createdAtMs d.release notional)
    (hfinite : d.release.candidate.strategyConfig.floats.all isFinite = true)
    (hd : Drafted observation spec createdAtMs notional d) :
    createDemoIntent resolve observation strategyReleaseId spec notionalUsdt createdAtMs =
      raiseAs .schema (OrderIntent.ofFields d.fields) := by
  obtain ⟨scan, trigger, stop, hscan, htrigger, hstop, htime, hlimit, hstopText⟩ := hd.prices
  have hdigest : d.release.candidate.strategyConfig.canonicalPayloadSha256 =
      .ok (canonicalSha256 d.release.candidate.strategyConfig.strategyConfig) := by
    rw [StrategyConfigPayload.canonicalPayloadSha256, hfinite]
    rfl
  have hexpiry : createdAtMs < d.signalTimeMs + d.waitBars * scannerIntervalMs := hd.createdAtMs_lt
  simp only [createDemoIntent, h.eligible, ok_bind, h.symbol, h.createdAtMs_nonneg, h.createdAtMs_le, h.instrument,
    h.notional, h.resolved, resolvedRelease, orThrow_some, h.releaseId, h.rule, h.strategyName, decide_true,
    require_true, hdigest, raiseAs_ok, hd.config, hd.waitBars, hd.leverage, hscan, htrigger, hstop, htime, hexpiry,
    hlimit, hstopText, sized, hd.size, hd.below]
  rw [← hd.ofObservation, ← hd.atTime]

/-- The draft of a call that passed its checks. -/
lemma passed_of_drafted {notional : Decimal} {d : Draft} (htick : Ordinary spec.tickSize) (hlot : Ordinary spec.lotSize)
    (hcontract : Ordinary spec.contractValue) (hnotional : Ordinary notional)
    (h : Matched resolve observation strategyReleaseId spec notionalUsdt createdAtMs d.release notional)
    (hd : Drafted observation spec createdAtMs notional d) : d.Passed := by
  obtain ⟨-, heligible⟩ := eligible_of_canonical h.eligible
  obtain ⟨scan, trigger, stop, hscan, htrigger, hstop, htime, hlimit, hstopText⟩ := hd.prices
  obtain ⟨scan', t, hscan', ht, hle⟩ := heligible.scanned
  obtain rfl := Option.some.inj (hscan.symm.trans hscan')
  obtain rfl := Option.some.inj (htime.symm.trans ht)
  -- the texts of the sizing
  obtain ⟨p, hp, limit, hpCanonical, hpRead, hpWithin⟩ :=
    (priceToString_cases htick (within_of_positiveSourceDecimal htrigger)).resolve_left (by rw [hlimit]; rintro ⟨_, ⟨⟩⟩)
  obtain rfl := Except.ok.inj (hp.symm.trans hlimit)
  obtain ⟨q, hq, low, hqCanonical, hqRead, -⟩ :=
    (priceToString_cases htick (within_of_positiveSourceDecimal hstop)).resolve_left (by rw [hstopText]; rintro ⟨_, ⟨⟩⟩)
  obtain rfl := Except.ok.inj (hq.symm.trans hstopText)
  obtain ⟨s, hs, size, hsCanonical⟩ :=
    (sizeForNotional_cases hcontract hlot hnotional hpRead hpWithin).resolve_left (by rw [hd.size]; rintro ⟨_, ⟨⟩⟩)
  obtain rfl := Except.ok.inj (hs.symm.trans hd.size)
  have hbelow := hd.below
  simp only [requireBelow, hpRead, hqRead, orThrow_some, ok_bind, require_eq_ok, decide_eq_true_eq] at hbelow
  have hobservation := hd.ofObservation
  have htimeEq := hd.atTime
  subst hobservation htimeEq
  exact ⟨h.symbol, heligible.decided, heligible.trustedRun, heligible.required, heligible.hashed, heligible.checked,
    h.strategyName, scan.signalTimeMs_nonneg _ htime, hle, pos_of_waitBars hd.waitBars, pos_of_integralLeverage hd.leverage,
    h.createdAtMs_nonneg, hd.createdAtMs_lt, size, limit.toRat, low.toRat, hsCanonical, hpCanonical, hqCanonical, hbelow⟩

omit [ObservationText] in
/-- The intent of a draft that passed is bound to where it comes from. -/
lemma bound_of_drafted {notional : Decimal} {d : Draft} (h : d.Passed)
    (hd : Drafted observation spec createdAtMs notional d) {intent : OrderIntent}
    (hfields : intent.toOrderIntentFields = d.fields) : Bound observation d.release createdAtMs intent := by
  obtain ⟨scan, -, -, hscan, -, -, htime, -, -⟩ := hd.prices
  obtain ⟨-, limit, stop, -, hlimit, hstop, hlt⟩ := h.prices
  have hobservation := hd.ofObservation
  have htimeEq := hd.atTime
  subst hobservation htimeEq
  exact {
    reads := OrderIntent.fromDict_toDict intent
    sourceObservationId := by rw [hfields]; rfl
    symbol := by rw [hfields]; rfl
    signalTimeMs := by rw [hscan, hfields]; exact htime
    hashes := by rw [hfields]; exact List.perm_insertionSort _ _
    config := hd.config
    strategyReleaseId := by rw [hfields]; rfl
    strategyConfigSha256 := by rw [hfields]; rfl
    createdAtMs := by rw [hfields]; rfl
    createdAtMs_lt := by rw [hfields]; exact h.createdAtMs_lt
    initialStop_lt := by rw [hfields]; exact ⟨stop, limit, hstop, hlimit, hlt⟩ }

omit [DecimalDigits] [ObservationText] [FloatReader] in
/-- A sizing that gives a text or is refused. -/
lemma clean_sized {x : Except SizingError String} {f : String → Except IntentFactoryError OrderIntent}
    {P : OrderIntent → Prop} {R : String → Prop}
    (hx : (∃ error, x = .error (.value error)) ∨ ∃ text, x = .ok text ∧ R text)
    (hf : ∀ text, x = .ok text → R text → Clean Refused P (f text)) : Clean Refused P (sized x >>= f) := by
  rcases hx with ⟨error, rfl⟩ | ⟨text, rfl, hr⟩
  · exact refused _
  · exact hf text rfl hr

omit [DecimalDigits] [ObservationText] [FloatReader] in
/-- The constructor on a draft that passed. -/
lemma ofFields_of_passed {d : Draft} (h : d.Passed) (hle : d.observation.observedAtMs ≤ d.createdAtMs) :
    ∃ intent, OrderIntent.ofFields d.fields = .ok intent ∧ intent.toOrderIntentFields = d.fields := by
  have hvalid := (Draft.validate_iff h).mpr hle
  exact ⟨⟨d.fields, hvalid⟩, OrderIntent.ofFields_toFields ⟨d.fields, hvalid⟩, rfl⟩

omit [DecimalDigits] [ObservationText] [FloatReader] in
lemma ofFields_of_early {d : Draft} (h : d.Passed) (hlt : ¬d.observation.observedAtMs ≤ d.createdAtMs) :
    ∃ e, OrderIntent.ofFields d.fields = .error e := by
  cases hfields : OrderIntent.ofFields d.fields with
  | error e => exact ⟨e, rfl⟩
  | ok intent =>
      exfalso
      refine hlt ((Draft.validate_iff h).mp ?_)
      unfold OrderIntent.ofFields at hfields
      split at hfields
      · assumption
      · cases hfields

/-- **The factory refuses cleanly** exactly where nothing escapes. -/
theorem create_refuses_cleanly (htick : Ordinary spec.tickSize) (hlot : Ordinary spec.lotSize)
    (hcontract : Ordinary spec.contractValue) (hnotional : ∀ d, ofText? notionalUsdt.toList = some d → Ordinary d) :
    RefusesCleanly resolve observation strategyReleaseId spec notionalUsdt createdAtMs ↔
      NothingEscapes resolve observation strategyReleaseId spec notionalUsdt createdAtMs := by
  have hread {notional : Decimal} (h : canonicalInputDecimal notionalUsdt "notional_usdt" = .ok notional) :
      Ordinary notional := by
    obtain ⟨_, -, h⟩ := bind_eq_ok.mp h
    exact hnotional notional (orThrow_eq_ok.mp h)
  constructor
  · intro hclean release notional hmatched
    unfold RefusesCleanly at hclean
    have hfinite : release.candidate.strategyConfig.floats.all isFinite = true := by
      by_contra hinfinite
      obtain ⟨e, he⟩ := escapes_of_infinite hmatched (Bool.eq_false_of_not_eq_true hinfinite)
      rw [he] at hclean
      obtain ⟨text, htext⟩ := hclean
      cases htext
    refine ⟨hfinite, fun d hrelease hdrafted => ?_⟩
    subst hrelease
    by_contra hearly
    have hpassed := passed_of_drafted htick hlot hcontract (hread hmatched.notional) hmatched hdrafted
    have hobservation := hdrafted.ofObservation
    have htime := hdrafted.atTime
    rw [← hobservation, ← htime] at hearly
    obtain ⟨e, he⟩ := ofFields_of_early hpassed hearly
    rw [create_of_drafted hmatched hfinite hdrafted, he] at hclean
    obtain ⟨text, htext⟩ := hclean
    cases htext
  · intro hnothing
    unfold RefusesCleanly createDemoIntent
    refine (clean_bind (quiet_canonicalEligibleObservation _)).mpr fun canonical heligible => ?_
    obtain ⟨rfl, hfacts⟩ := eligible_of_canonical heligible
    refine (clean_require_bind (refused _)).mpr fun hsymbol => ?_
    refine (clean_require_bind (refused _)).mpr fun hnonneg => ?_
    refine (clean_require_bind (refused _)).mpr fun hcreated => ?_
    refine (clean_require_bind (refused _)).mpr fun hinstrument => ?_
    refine (clean_bind (quiet_canonicalInputDecimal _ _)).mpr fun notional hinput => ?_
    refine (clean_bind (quiet_resolvedRelease _)).mpr fun release hresolved => ?_
    refine (clean_require_bind (refused _)).mpr fun hid => ?_
    refine (clean_require_bind (refused _)).mpr fun hrule => ?_
    refine (clean_require_bind (refused _)).mpr fun hname => ?_
    have hmatched : Matched resolve canonical strategyReleaseId spec notionalUsdt createdAtMs release notional :=
      ⟨heligible, of_decide_eq_true hsymbol, of_decide_eq_true hnonneg, of_decide_eq_true hcreated,
        of_decide_eq_true hinstrument, hinput, resolved_of_release hresolved, of_decide_eq_true hid, of_decide_eq_true hrule,
        of_decide_eq_true hname⟩
    obtain ⟨hfinite, hdrafts⟩ := hnothing release notional hmatched
    have hdigest : release.candidate.strategyConfig.canonicalPayloadSha256 =
        .ok (canonicalSha256 release.candidate.strategyConfig.strategyConfig) := by
      rw [StrategyConfigPayload.canonicalPayloadSha256, hfinite]
      rfl
    rw [hdigest, raiseAs_ok, ok_bind]
    refine (clean_require_bind (refused _)).mpr fun hconfig => ?_
    refine (clean_orThrow_bind (refused _)).mpr fun waitBars hwait => ?_
    refine (clean_bind (quiet_integralLeverage _)).mpr fun leverage hleverage => ?_
    obtain ⟨scan, t, hscan, ht, -⟩ := hfacts.scanned
    rw [hscan, orThrow_some, ok_bind]
    refine (clean_bind (quiet_positiveSourceDecimal _ _)).mpr fun trigger htrigger => ?_
    refine (clean_bind (quiet_positiveSourceDecimal _ _)).mpr fun stop hstop => ?_
    refine (clean_orThrow_bind (refused _)).mpr fun signalTimeMs htime => ?_
    refine (clean_require_bind (refused _)).mpr fun hexpiry => ?_
    refine clean_sized (priceToString_cases htick (within_of_positiveSourceDecimal htrigger))
      fun limitPrice hlimit ⟨limit, _, hlimitRead, hlimitWithin⟩ => ?_
    refine clean_sized (priceToString_cases htick (within_of_positiveSourceDecimal hstop))
      fun initialStop hinitial ⟨low, _, hlowRead, _⟩ => ?_
    refine clean_sized (sizeForNotional_cases hcontract hlot (hread hinput) hlimitRead hlimitWithin)
      fun size hsize _ => ?_
    have hquiet : Quiet Refused (requireBelow initialStop limitPrice) := by
      simp only [requireBelow, hlimitRead, hlowRead, orThrow_some, ok_bind]
      exact quiet_require (refused _)
    refine (clean_bind hquiet).mpr fun _ hbelow => ?_
    have hdrafted : Drafted canonical spec createdAtMs notional
        { observation := canonical, release, waitBars, leverage, signalTimeMs, limitPrice, initialStop, size,
          createdAtMs : Draft } :=
      ⟨rfl, rfl, of_decide_eq_true hconfig, hwait, hleverage,
        ⟨scan, trigger, stop, hscan, htrigger, hstop, htime, hlimit, hinitial⟩, of_decide_eq_true hexpiry, hsize, hbelow⟩
    have hpassed := passed_of_drafted htick hlot hcontract (hread hinput) hmatched hdrafted
    obtain ⟨intent, hintent, hfields⟩ := ofFields_of_passed hpassed (hdrafts _ rfl hdrafted)
    rw [hintent, raiseAs_ok]
    exact ⟨release, hmatched.resolved, bound_of_drafted hpassed hdrafted hfields⟩

end result

/-! ## An observation from the future -/

section concrete

/-- Texts that are sanitized already, and one fingerprint. -/
@[reducible] def plainText : ObservationText where
  sanitizeObservationText text := text
  resultFingerprintOf _ := zeroDigits

/-- The exact numbers of short decimals. -/
@[reducible] def exactFloats : FloatReader where
  float text := match canonicalDecimal? text with
    | some q => .finite (q < 0) q.nnabs
    | none => .nan

attribute [local instance] zeroSha256 writtenDigits plainText exactFloats

/-- The configuration of the baseline. -/
def demoPayload : StrategyConfigPayload where
  version := .v1
  values := [("symbol", .text "MU-USDT-SWAP"), ("entry_execution", .text "second_pullback"),
    ("second_pullback_wait_bars", .int 8), ("stop_tightening", .text "baseline"), ("leverage", .text "5"),
    ("margin_steps", .texts ["0.2", "0.2", "0.2", "0.4"]), ("initial_stop_pct", .text "0.02"),
    ("add_thresholds", .texts ["0.02", "0.04", "0.06"]), ("rsi_floor", .text "45"), ("rsi_add_floor", .text "50"),
    ("fib_tolerance_pct", .text "0.002"), ("fee_profile", .text "market"), ("fee_rate", .text "0.0005"),
    ("fib_lookback", .int 32), ("stop_buffer_pct", .text "0.0005"), ("stop_transition_bars", .int 8),
    ("stop_transition_curve", .text "linear"), ("max_entry_above_fib_pct", .none),
    ("yellow_max_entry_above_fib_pct", .none), ("max_signal_range_pct", .none),
    ("max_entry_above_signal_close_pct", .none), ("block_reverse_fib_resistance", .bool false),
    ("reverse_fib_lookback", .int 64), ("reverse_fib_tolerance_pct", .text "0.003"),
    ("yellow_stop_tightening", .none), ("green_stop_tightening", .none), ("green_wide_stop_buffer_pct", .text "0.01"),
    ("allowed_regimes", .texts ["green", "yellow"]), ("full_size_regime", .text "green"),
    ("trading_windows_bjt", .windows [("21:45", "23:30")]), ("trading_windows_et", .windows [("09:45", "11:30")])]
  names := by decide +kernel
  valid := by decide +kernel

/-- The identifier of a release. -/
def demoReleaseId : String := "sr1_" ++ zeroDigits

/-- A resolver of that release. -/
def demoResolve (strategyReleaseId : String) : Resolved :=
  if strategyReleaseId = demoReleaseId then
    .ok (some ⟨⟨strategyReleaseV1RuleId, "baseline", demoPayload⟩, demoReleaseId, by decide +kernel⟩)
  else .error "strategy release not found"

lemma float_of_within {d : Decimal} (h : Within 9 d.toRat) : Within 400 d.toRat := h.mono (by norm_num)

/-- A scan with a trigger and a stop. -/
def demoScan : Stage0ScanResult where
  symbol := strategyReleaseV1Symbol
  triggerPrice := some ⟨false, ⟨101239, -3⟩, Or.inr (float_of_within ⟨by norm_num [toRat], by norm_num [toRat]⟩)⟩
  initialStop := some ⟨false, ⟨99987, -3⟩, Or.inr (float_of_within ⟨by norm_num [toRat], by norm_num [toRat]⟩)⟩
  signalTimeMs := some 0
  symbol_ne := by decide
  signalTimeMs_nonneg := by simp

/-- An observation of a cycle that began at `100`, on data that was loaded at `500`. -/
def lateObservation : Stage0Observation where
  observationId := "obs-1"
  cycleId := "cycle-1"
  symbol := strategyReleaseV1Symbol
  createdAtMs := 100
  observedAtMs := 500
  trustedRunId := some "00000000000000000000000000000000"
  requestedIntervals := ["15m", "1h"]
  effectiveIntervals := ["5m", "15m", "1h"]
  contentSha256ByInterval := [("5m", zeroDigits), ("15m", zeroDigits), ("1h", zeroDigits)]
  trustPolicyName := stage0TrustPolicyName
  trustPolicyVersion := stage0TrustPolicyVersion
  trustAllowed := true
  trustReason := .ok
  strategyName := "baseline"
  strategyConfigFingerprint := zeroDigits
  decisionCode := some .secondPullbackLimitReady
  disposition := some .ready
  decisionStage := some .pendingEntry
  compatibilityReason := none
  compatibilitySource := "scanner"
  provenance := "canonical_trusted_generation"
  outcome := .readyForReview
  failureCode := none
  errorType := none
  errorMessage := none
  scanResult := some demoScan
  resultFingerprint := zeroDigits
  intervals_nodup := by decide

/-- A notional of `1000` is ordinary. -/
lemma ordinary_notional (d : Decimal) (h : ofText? "1000".toList = some d) : Ordinary d := by
  have hread : ofText? "1000".toList = some ⟨1000, 0⟩ := by decide +kernel
  obtain rfl := Option.some.inj (hread.symm.trans h)
  exact ordinary_of_within ⟨by norm_num [toRat], by norm_num [toRat]⟩

/-- After the data was loaded, an intent is made of the observation. -/
theorem create_refuses_cleanly_demo :
    (createDemoIntent demoResolve lateObservation demoReleaseId demoSpec "1000" 600).isOk = true ∧
      (RefusesCleanly demoResolve lateObservation demoReleaseId demoSpec "1000" 600 ↔
        NothingEscapes demoResolve lateObservation demoReleaseId demoSpec "1000" 600) := by
  refine ⟨by decide +kernel, create_refuses_cleanly ?_ ?_ ?_ ordinary_notional⟩
  all_goals
    refine ordinary_of_within ⟨?_, ?_⟩
    all_goals norm_num [toRat, demoSpec]

/-- Between the start of the cycle and the load, the constructor refuses with its own error. -/
theorem create_escapes : ¬∀ (observation : Stage0Observation) (createdAtMs : ℤ),
    observation.fromDict = .ok observation →
      RefusesCleanly demoResolve observation demoReleaseId demoSpec "1000" createdAtMs := by
  intro h
  have haccepted : lateObservation.fromDict = .ok lateObservation := by
    obtain ⟨o, ho⟩ := exists_eq_ok_of_isOk (x := lateObservation.fromDict) (by decide +kernel)
    exact ho.trans (by rw [Stage0Observation.fromDict_eq ho])
  have hcreate : createDemoIntent demoResolve lateObservation demoReleaseId demoSpec "1000" 200 =
      .error (.schema ⟨"observed_at_ms must not be after created_at_ms", []⟩) := by decide +kernel
  have hclean := h lateObservation 200 haccepted
  rw [RefusesCleanly, hcreate] at hclean
  obtain ⟨text, htext⟩ := hclean
  cases htext

end concrete

end MuStrategy.Execution
