import MuStrategy.Canonical
import MuStrategy.Lib.DecimalContext
import MuStrategy.Models
import MuStrategy.Notifications.Health

/-!
# Stage 0 observations

An observation records what one scan of one symbol decided, on which data. Reading it back checks that its control
fields fit each other.

* `Stage0Observation`, `Stage0ScanResult` — the record.
* `validateObservationSemantics`, `Stage0Observation.fromDict` — the checks of a record that is read.
* `Stage0Observation.fromDict_eq`, `checked_of_fromDict` — what a record that was read satisfies.
-/

namespace MuStrategy

open Lib
open Notifications (ObservationOutcome)

/-! ## The record -/

/-- A finite `float`, as the decimal that its text reads as. -/
structure PrintedFloat where
  negative : Bool
  magnitude : Decimal
  /-- A `float` is zero, or its exponent has three digits at most. -/
  range : magnitude.coefficient = 0 ∨ Decimal.Within 400 magnitude.toRat

/-- The health of trusted data: fine, or another reason by its value.
Source: `trusted_data/contracts.py` `HealthReason`. -/
inductive HealthReason where
  | ok
  | other (value : String)
  deriving DecidableEq

/-- Source: `observations.py` `ObservationFailureCode`. -/
inductive ObservationFailureCode where
  | trustedDataBlocked
  | trustedDataLoadFailed
  | trustedProvenanceIncomplete
  | scannerException
  | scannerResultInvalid
  deriving DecidableEq

/-- The evidence of a scan, as far as orders read it. Source: `observations.py` `Stage0ScanResult`. -/
structure Stage0ScanResult where
  symbol : String
  triggerPrice : Option PrintedFloat
  initialStop : Option PrintedFloat
  signalTimeMs : Option ℤ
  symbol_ne : symbol ≠ ""
  signalTimeMs_nonneg : ∀ t, signalTimeMs = some t → 0 ≤ t

/-- The hashes are a dictionary. Source: `observations.py` `Stage0Observation`. -/
structure Stage0Observation where
  observationId : String
  cycleId : String
  symbol : String
  createdAtMs : ℤ
  observedAtMs : ℤ
  trustedRunId : Option String
  requestedIntervals : List String
  effectiveIntervals : List String
  contentSha256ByInterval : List (String × String)
  trustPolicyName : String
  trustPolicyVersion : ℤ
  trustAllowed : Bool
  trustReason : HealthReason
  strategyName : String
  strategyConfigFingerprint : String
  decisionCode : Option EntryDecisionCode
  disposition : Option EntryDisposition
  decisionStage : Option EntryDecisionStage
  compatibilityReason : Option String
  compatibilitySource : String
  provenance : String
  outcome : ObservationOutcome
  failureCode : Option ObservationFailureCode
  errorType : Option String
  errorMessage : Option String
  scanResult : Option Stage0ScanResult
  resultFingerprint : String
  intervals_nodup : (contentSha256ByInterval.map Prod.fst).Nodup

/-- What reading an observation computes from texts and digests.
Fidelity: nothing depends on what these functions are. -/
class ObservationText where
  /-- Source: `observations.py` `sanitize_observation_text`. -/
  sanitizeObservationText : String → String
  /-- Source: `observations.py` `_result_fingerprint`. -/
  resultFingerprintOf : Stage0Observation → String

export ObservationText (sanitizeObservationText resultFingerprintOf)

/-- Source: `observations.py` `STAGE0_TRUST_POLICY_NAME`. -/
def stage0TrustPolicyName : String := "trading_strict"

/-- Source: `observations.py` `STAGE0_TRUST_POLICY_VERSION`. -/
def stage0TrustPolicyVersion : ℤ := 1

/-! ## Reading -/

section reading

variable [ObservationText]

/-- The outcome of an observation with a decision. -/
def decidedOutcome (disposition : EntryDisposition) (stage : EntryDecisionStage) : Except String ObservationOutcome :=
  if disposition = .block && stage = .input then pure .dataGateBlocked
  else match disposition with
    | .ready => pure .readyForReview
    | .wait | .block => pure .normalNoAction
    | .unknown => throw "typed decision metadata does not map to a closed observation outcome"

/-- The outcome that the control fields of an observation require: the branches of `_validate_observation_semantics`
on the failure code. -/
def expectedOutcome (o : Stage0Observation) : Except String ObservationOutcome :=
  match o.failureCode with
  | some .trustedDataBlocked | some .trustedDataLoadFailed | some .trustedProvenanceIncomplete => do
      require (!o.trustAllowed && o.scanResult.isNone)
        "data-gate failure cannot be trusted-allowed or contain a scan result"
      require (o.decisionCode = some .marketDataUnavailable && o.disposition = some .block &&
          o.decisionStage = some .input)
        "data-gate failure decision metadata must be the canonical input block"
      pure .dataGateBlocked
  | some .scannerException | some .scannerResultInvalid => do
      require (o.trustAllowed && o.scanResult.isNone) "scanner failure requires allowed trusted data and no scan result"
      require (o.decisionCode.isNone && o.disposition.isNone && o.decisionStage.isNone)
        "scanner failure cannot claim typed decision metadata"
      pure .scanFailed
  | none => do
      require o.scanResult.isSome "successful observation requires a scan result"
      require o.trustAllowed "successful observation requires allowed trusted data"
      let code ← orThrow o.decisionCode "successful observation requires typed decision metadata"
      let disposition ← orThrow o.disposition "successful observation requires typed decision metadata"
      let stage ← orThrow o.decisionStage "successful observation requires typed decision metadata"
      require (code ≠ .unknown) "successful observation decision_code must not be UNKNOWN"
      require (disposition = code.disposition && stage = code.stage)
        "observation decision metadata does not match decision_code catalog"
      decidedOutcome disposition stage

/-- The texts that have to be sanitized. -/
def Stage0Observation.diagnostics (o : Stage0Observation) : List String :=
  [o.compatibilityReason, some o.compatibilitySource, some o.provenance, o.errorType, o.errorMessage].reduceOption

/-- What an observation that is allowed to be traded has to name. -/
def checkTrustAllowed (o : Stage0Observation) : Except String Unit := do
  require (o.trustReason = .ok) "allowed observation trust reason must be OK"
  require (o.trustedRunId.any (· ≠ "")) "allowed observation requires trusted run_id"
  require (o.effectiveIntervals.all fun interval => (o.contentSha256ByInterval.map Prod.fst).contains interval)
    "allowed observation requires content SHA-256"

/-- Source: `observations.py` `_validate_observation_semantics`. -/
def validateObservationSemantics (o : Stage0Observation) : Except String Unit := do
  require (0 ≤ o.createdAtMs && 0 ≤ o.observedAtMs) "observation timestamps must be non-negative"
  require (!o.requestedIntervals.isEmpty) "observation requested_intervals must not be empty"
  require (o.requestedIntervals.all fun interval => o.effectiveIntervals.contains interval)
    "observation requested_intervals must be a subset of effective_intervals"
  require (o.trustPolicyName = stage0TrustPolicyName && o.trustPolicyVersion = stage0TrustPolicyVersion)
    "Stage 0 observation requires the trading_strict policy identity/version"
  require (o.contentSha256ByInterval.all fun item => item.1 ≠ "" && isLowerHex 64 item.2)
    "observation content SHA-256 values must be lowercase 64-character hex"
  if o.trustAllowed then checkTrustAllowed o else pure ()
  require (o.scanResult.all fun scan => scan.symbol = o.symbol) "observation scan_result symbol must match"
  require (o.diagnostics.all fun text => sanitizeObservationText text = text)
    "observation diagnostic fields must be sanitized"
  let outcome ← expectedOutcome o
  require (o.outcome = outcome) "observation outcome does not match typed control fields"

/-- One text field of the dictionary. Source: `observations.py` `_required_text`. -/
def requiredObservationText (value key : String) : Except String Unit :=
  require (value ≠ "") (key ++ " must be a non-empty string")

/-- One list field of the dictionary. Source: `observations.py` `_text_tuple`. -/
def requiredTextTuple (value : List String) (key : String) : Except String Unit :=
  require (value.all (· ≠ "")) (key ++ " must be a string list")

/-- The text fields of the dictionary. -/
def requiredObservationTexts (o : Stage0Observation) : Except String Unit := do
  requiredObservationText o.observationId "observation_id"
  requiredObservationText o.cycleId "cycle_id"
  requiredObservationText o.symbol "symbol"
  requiredTextTuple o.requestedIntervals "requested_intervals"
  requiredTextTuple o.effectiveIntervals "effective_intervals"
  requiredObservationText o.trustPolicyName "trust_policy_name"
  requiredObservationText o.strategyName "strategy_name"
  requiredObservationText o.strategyConfigFingerprint "strategy_config_fingerprint"
  requiredObservationText o.compatibilitySource "compatibility_source"
  requiredObservationText o.provenance "provenance"
  requiredObservationText o.resultFingerprint "result_fingerprint"

/-- `Stage0Observation.from_dict(o.to_dict())`: the record, or the text of the error.
Fidelity: every field reads back as it is written, so that only the checks remain. -/
def Stage0Observation.fromDict (o : Stage0Observation) : Except String Stage0Observation := do
  requiredObservationTexts o
  require (isLowerHex 64 o.strategyConfigFingerprint)
    "invalid observation: strategy_config_fingerprint must be lowercase SHA-256"
  require (isLowerHex 64 o.resultFingerprint) "invalid observation: result_fingerprint must be lowercase SHA-256"
  raiseAs ("invalid observation: " ++ ·) (validateObservationSemantics o)
  require (o.resultFingerprint = resultFingerprintOf o)
    "observation result_fingerprint does not match canonical content"
  pure o

/-- A record that is read is the one that was written. -/
lemma Stage0Observation.fromDict_eq {o o' : Stage0Observation} (h : o.fromDict = .ok o') : o' = o := by
  simp only [Stage0Observation.fromDict, bind_eq_ok, pure_eq_ok_iff] at h
  obtain ⟨_, -, _, -, _, -, _, -, _, -, rfl⟩ := h
  rfl

/-- The facts that the checks establish and an order relies on. -/
structure Stage0Observation.Checked (o : Stage0Observation) : Prop where
  observationId_ne : o.observationId ≠ ""
  strategyName_ne : o.strategyName ≠ ""
  observedAtMs_nonneg : 0 ≤ o.observedAtMs

lemma Stage0Observation.checked_of_fromDict {o o' : Stage0Observation} (h : o.fromDict = .ok o') : o.Checked := by
  simp only [Stage0Observation.fromDict, bind_eq_ok] at h
  obtain ⟨_, htexts, _, -, _, -, _, hsemantics, -⟩ := h
  simp only [requiredObservationTexts, requiredObservationText, requiredTextTuple, bind_eq_ok, require_eq_ok,
    exists_const, decide_eq_true_eq] at htexts
  simp only [raiseAs_eq_ok, validateObservationSemantics, bind_eq_ok, require_eq_ok, exists_const, Bool.and_eq_true,
    decide_eq_true_eq] at hsemantics
  obtain ⟨hid, -, -, -, -, -, hname, -⟩ := htexts
  exact ⟨hid, hname, hsemantics.1.2⟩

end reading

end MuStrategy
