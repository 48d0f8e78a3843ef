import MuStrategy.Canonical
import MuStrategy.Models

/-!
# Order intents

An order intent is the reviewed description of one entry order. Its identifiers are digests:
`signal_lineage_id` of the signal, `business_action_id` of the environment and the lineage,
`intent_id` of every other field except the creation time.

* `OrderIntentFields.validate` — the checks of `__post_init__`; an `OrderIntent` carries the proof
  that they passed, so an invalid intent cannot be built.
* `OrderIntent.fromDict_toDict` — the dictionary form reads back.
* `OrderIntent.canonicalIntent_eq` — re-reading an intent, as every store call does first, returns
  it unchanged.
* `classifyIntentRevision_eq` — what `classify_intent_revision` decides for two intents.
-/

namespace MuStrategy.Execution

open Lib

/-! ## Constants -/

/-- Source: `execution/intents.py` `ExecutionEnvironment`. -/
inductive ExecutionEnvironment where
  | demo
  | production
  deriving DecidableEq

instance : PyEnum ExecutionEnvironment where
  members := [.demo, .production]
  value
    | .demo => "demo"
    | .production => "production"
  find_value := by intro a; cases a <;> decide

/-- The error a rejected intent is reported with: its text and the names it lists.
Source: `execution/intents.py` `OrderIntentSchemaError`. -/
structure OrderIntentSchemaError where
  /-- The message. -/
  text : String
  /-- The field or interval names a message ends with. -/
  names : List String := []
  deriving DecidableEq

/-- Source: `execution/intents.py` `ORDER_INTENT_SCHEMA_VERSION`. -/
def orderIntentSchemaVersion : Int := 1

/-- Source: `execution/intents.py` `ORDER_INTENT_REQUIRED_INTERVALS`. -/
def orderIntentRequiredIntervals : List String := ["15m", "1h", "5m"]

/-- Source: `execution/intents.py` `_SCANNER_INTERVAL_MS`. -/
def scannerIntervalMs : Int := 15 * 60 * 1000

/-- Source: `research/strategy_releases.py` `STRATEGY_RELEASE_V1_RULE_ID`. -/
def strategyReleaseV1RuleId : String := "mu.baseline.second_pullback.long_limit.v1"

/-- Source: `execution/intents.py` `_ALLOWED_DECISIONS`. -/
def allowedDecisions : List EntryDecisionCode := [.signalConfirmed, .secondPullbackLimitReady]

/-- `[A-Z0-9]`. -/
def isUpperAlnum (c : Char) : Bool := ('A' ≤ c && c ≤ 'Z') || ('0' ≤ c && c ≤ '9')

/-- `[A-Z0-9]+(?:-[A-Z0-9]+)+`. Source: `execution/intents.py` `_SYMBOL_PATTERN`. -/
def isSymbol (value : String) : Bool :=
  let parts := value.toList.splitOn '-'
  decide (2 ≤ parts.length) && parts.all fun part => !part.isEmpty && part.all isUpperAlnum

/-! ## The record -/

/-- The fields of an order intent. Source: `execution/intents.py` `OrderIntent`. -/
structure OrderIntentFields where
  schemaVersion : Int
  signalLineageId : String
  businessActionId : String
  intentId : String
  auditCorrelationId : String
  environment : ExecutionEnvironment
  symbol : String
  side : String
  orderType : String
  size : String
  limitPrice : String
  tdMode : String
  posSide : String
  leverage : Int
  initialStop : String
  sourceObservationId : String
  signalTimeMs : Int
  decisionCode : EntryDecisionCode
  trustedRunId : String
  observedAtMs : Int
  dataContentSha256 : List (String × String)
  strategyReleaseId : String
  strategyName : String
  strategyConfigSha256 : String
  secondPullbackWaitBars : Int
  createdAtMs : Int
  expiresAtMs : Int
  deriving DecidableEq

/-- `[list(item) for item in data_content_sha256]`. -/
def hashPairsJson (pairs : List (String × String)) : JsonValue :=
  .arr (pairs.map fun pair => .arr [.str pair.1, .str pair.2])

section identity

variable [Sha256]

/-- Source: `execution/intents.py` `_signal_lineage_id`. -/
def signalLineageIdFor (strategyConfigSha256 symbol : String) (signalTimeMs : Int) : String :=
  "sig1_" ++ (canonicalSha256 (.obj
    [("strategy_rule_id", .str strategyReleaseV1RuleId),
      ("strategy_config_sha256", .str strategyConfigSha256),
      ("symbol", .str symbol),
      ("signal_time_ms", .int signalTimeMs)])).text

/-- Source: `execution/intents.py` `_business_action_id`. -/
def businessActionIdFor (environment : ExecutionEnvironment) (signalLineageId : String) : String :=
  "ba1_" ++ (canonicalSha256 (.obj
    [("environment", .str (PyEnum.value environment)),
      ("action", .str "submit_entry"),
      ("signal_lineage_id", .str signalLineageId)])).text

end identity

namespace OrderIntentFields

variable (f : OrderIntentFields)

/-- Source: `execution/intents.py` `OrderIntent._fingerprint_payload`. -/
def fingerprintPayload : JsonValue :=
  .obj [("schema_version", .int f.schemaVersion),
    ("signal_lineage_id", .str f.signalLineageId),
    ("business_action_id", .str f.businessActionId),
    ("environment", .str (PyEnum.value f.environment)),
    ("symbol", .str f.symbol),
    ("side", .str f.side),
    ("order_type", .str f.orderType),
    ("size", .str f.size),
    ("limit_price", .str f.limitPrice),
    ("td_mode", .str f.tdMode),
    ("pos_side", .str f.posSide),
    ("leverage", .int f.leverage),
    ("initial_stop", .str f.initialStop),
    ("source_observation_id", .str f.sourceObservationId),
    ("signal_time_ms", .int f.signalTimeMs),
    ("decision_code", .str (PyEnum.value f.decisionCode)),
    ("trusted_run_id", .str f.trustedRunId),
    ("observed_at_ms", .int f.observedAtMs),
    ("data_content_sha256", hashPairsJson f.dataContentSha256),
    ("strategy_release_id", .str f.strategyReleaseId),
    ("strategy_name", .str f.strategyName),
    ("strategy_config_sha256", .str f.strategyConfigSha256),
    ("second_pullback_wait_bars", .int f.secondPullbackWaitBars),
    ("expires_at_ms", .int f.expiresAtMs)]

/-- Source: `execution/intents.py` `OrderIntent.intent_fingerprint`. -/
def intentFingerprint [Sha256] : String := (canonicalSha256 f.fingerprintPayload).text

/-- Source: `execution/intents.py` `OrderIntent.to_dict`. -/
def toDict : JsonValue :=
  .obj [("schema_version", .int f.schemaVersion),
    ("signal_lineage_id", .str f.signalLineageId),
    ("business_action_id", .str f.businessActionId),
    ("intent_id", .str f.intentId),
    ("audit_correlation_id", .str f.auditCorrelationId),
    ("environment", .str (PyEnum.value f.environment)),
    ("symbol", .str f.symbol),
    ("side", .str f.side),
    ("order_type", .str f.orderType),
    ("size", .str f.size),
    ("limit_price", .str f.limitPrice),
    ("td_mode", .str f.tdMode),
    ("pos_side", .str f.posSide),
    ("leverage", .int f.leverage),
    ("initial_stop", .str f.initialStop),
    ("source_observation_id", .str f.sourceObservationId),
    ("signal_time_ms", .int f.signalTimeMs),
    ("decision_code", .str (PyEnum.value f.decisionCode)),
    ("trusted_run_id", .str f.trustedRunId),
    ("observed_at_ms", .int f.observedAtMs),
    ("data_content_sha256", hashPairsJson f.dataContentSha256),
    ("strategy_release_id", .str f.strategyReleaseId),
    ("strategy_name", .str f.strategyName),
    ("strategy_config_sha256", .str f.strategyConfigSha256),
    ("second_pullback_wait_bars", .int f.secondPullbackWaitBars),
    ("created_at_ms", .int f.createdAtMs),
    ("expires_at_ms", .int f.expiresAtMs)]

end OrderIntentFields

/-! ## Validation -/

/-- The value of a positive canonical decimal text.
Source: `execution/intents.py` `_canonical_positive_decimal`.
Fidelity: the texts `Decimal` cannot read, the non-finite ones and those in another than the
canonical spelling share one message. -/
def canonicalPositiveDecimal (value fieldName : String) : Except OrderIntentSchemaError ℚ := do
  require (value ≠ "") ⟨fieldName ++ " must be a canonical decimal string", []⟩
  let decimalValue ← orThrow (plainDecimal? 28 value) ⟨fieldName ++ " must be canonical", []⟩
  require (0 < decimalValue) ⟨fieldName ++ " must be positive", []⟩
  pure decimalValue

/-- Source: `execution/intents.py` `_validate_content_hashes`.
Fidelity: sorted with unique intervals is strictly increasing intervals. -/
def validateContentHashes (value : List (String × String)) : Except OrderIntentSchemaError Unit := do
  require (value.all fun item => item.1 ≠ "" && isLowerHex 64 item.2)
    ⟨"data_content_sha256 contains an invalid interval/hash pair", []⟩
  require (decide (value.Pairwise fun a b => a.1 < b.1))
    ⟨"data_content_sha256 must be uniquely sorted by interval", []⟩
  let missing := orderIntentRequiredIntervals.filter fun i => !(value.map Prod.fst).contains i
  require missing.isEmpty ⟨"data_content_sha256 is missing required intervals", missing⟩

/-- `{field_name} must be non-negative`, for one time field. -/
def requireNonNegative (value : Int) (fieldName : String) : Except OrderIntentSchemaError Unit :=
  require (0 ≤ value) ⟨fieldName ++ " must be non-negative", []⟩

/-- `{field_name} must be {expected}`, for one constant field. -/
def requireConstant (value fieldName expected : String) : Except OrderIntentSchemaError Unit :=
  require (value = expected) ⟨fieldName ++ " must be " ++ expected, []⟩

variable [Sha256]

/-- Source: `execution/intents.py` `OrderIntent._validate`. -/
def OrderIntentFields.validate (f : OrderIntentFields) : Except OrderIntentSchemaError Unit := do
  require (f.schemaVersion = orderIntentSchemaVersion) ⟨"unsupported intent schema_version", []⟩
  require (f.environment = .demo) ⟨"OrderIntent v1 permits DEMO environment only", []⟩
  require (isSymbol f.symbol) ⟨"symbol has invalid format", []⟩
  requireConstant f.side "side" "buy"
  requireConstant f.orderType "order_type" "limit"
  requireConstant f.tdMode "td_mode" "isolated"
  requireConstant f.posSide "pos_side" "long"
  let size ← canonicalPositiveDecimal f.size "size"
  let limitPrice ← canonicalPositiveDecimal f.limitPrice "limit_price"
  let initialStop ← canonicalPositiveDecimal f.initialStop "initial_stop"
  require (initialStop < limitPrice) ⟨"initial_stop must be below limit_price for a long entry", []⟩
  require (0 < f.leverage) ⟨"leverage must be a positive integer", []⟩
  require (0 < size) ⟨"size must be positive", []⟩
  requireNonNegative f.signalTimeMs "signal_time_ms"
  requireNonNegative f.observedAtMs "observed_at_ms"
  requireNonNegative f.createdAtMs "created_at_ms"
  requireNonNegative f.expiresAtMs "expires_at_ms"
  require (f.signalTimeMs ≤ f.observedAtMs)
    ⟨"signal_time_ms must not be after observed_at_ms", []⟩
  require (f.observedAtMs ≤ f.createdAtMs)
    ⟨"observed_at_ms must not be after created_at_ms", []⟩
  require (f.createdAtMs < f.expiresAtMs)
    ⟨"intent must be created before its exclusive expiry", []⟩
  require (0 < f.secondPullbackWaitBars)
    ⟨"second_pullback_wait_bars must be a positive integer", []⟩
  require (f.expiresAtMs = f.signalTimeMs + f.secondPullbackWaitBars * scannerIntervalMs)
    ⟨"expires_at_ms does not match the scanner lifecycle policy", []⟩
  require (f.sourceObservationId ≠ "") ⟨"source_observation_id is required", []⟩
  require (allowedDecisions.contains f.decisionCode)
    ⟨"decision_code is not allowed for OrderIntent v1", []⟩
  require (f.decisionCode.disposition = .ready) ⟨"decision_code must derive READY", []⟩
  require (isLowerHex 32 f.trustedRunId)
    ⟨"trusted_run_id must be a lowercase 32-character generation ID", []⟩
  validateContentHashes f.dataContentSha256
  require (hasPrefixHex "sr1_" 64 f.strategyReleaseId)
    ⟨"strategy_release_id has invalid format", []⟩
  require (f.strategyName ≠ "") ⟨"strategy_name is required", []⟩
  require (isLowerHex 64 f.strategyConfigSha256)
    ⟨"strategy_config_sha256 must be lowercase SHA-256", []⟩
  require (hasPrefixHex "sig1_" 64 f.signalLineageId)
    ⟨"signal_lineage_id has invalid format", []⟩
  require (f.signalLineageId = signalLineageIdFor f.strategyConfigSha256 f.symbol f.signalTimeMs)
    ⟨"signal_lineage_id does not match canonical signal evidence", []⟩
  require (hasPrefixHex "ba1_" 64 f.businessActionId)
    ⟨"business_action_id has invalid format", []⟩
  require (f.businessActionId = businessActionIdFor f.environment f.signalLineageId)
    ⟨"business_action_id does not match Demo signal lineage", []⟩
  require (f.auditCorrelationId = f.businessActionId)
    ⟨"audit_correlation_id must equal business_action_id in v1", []⟩
  require (hasPrefixHex "oi1_" 64 f.intentId) ⟨"intent_id has invalid format", []⟩
  require (f.intentId = "oi1_" ++ f.intentFingerprint)
    ⟨"intent_id does not match canonical fingerprint", []⟩

/-- A validated order intent. Source: `execution/intents.py` `OrderIntent`. -/
structure OrderIntent extends OrderIntentFields where
  /-- `__post_init__` passed. -/
  valid : toOrderIntentFields.validate = .ok ()

namespace OrderIntent

/-- Intents are equal when their fields are. -/
@[ext] theorem ext {x y : OrderIntent} (h : x.toOrderIntentFields = y.toOrderIntentFields) :
    x = y := by
  cases x; cases y; cases h; rfl

instance : DecidableEq OrderIntent := fun x y =>
  decidable_of_iff (x.toOrderIntentFields = y.toOrderIntentFields) ⟨ext, fun h => by rw [h]⟩

/-- The constructor call: validate, then build. Source: `execution/intents.py` `OrderIntent`. -/
def ofFields (f : OrderIntentFields) : Except OrderIntentSchemaError OrderIntent :=
  match h : f.validate with
  | .ok () => .ok ⟨f, h⟩
  | .error e => .error e

/-- Rebuilding a valid intent from its fields gives it back. -/
@[simp] theorem ofFields_toFields (x : OrderIntent) : ofFields x.toOrderIntentFields = .ok x := by
  unfold ofFields
  split
  · rfl
  · rename_i e h
    rw [x.valid] at h
    cases h

end OrderIntent

/-! ## What a valid intent satisfies -/

/-- The facts about identity that `_validate` establishes. -/
structure OrderIntentFields.IdentityChecked (f : OrderIntentFields) : Prop where
  environment_eq : f.environment = .demo
  businessActionId_hex : hasPrefixHex "ba1_" 64 f.businessActionId = true
  businessActionId_eq : f.businessActionId = businessActionIdFor f.environment f.signalLineageId
  auditCorrelationId_eq : f.auditCorrelationId = f.businessActionId
  signalLineageId_hex : hasPrefixHex "sig1_" 64 f.signalLineageId = true
  intentId_hex : hasPrefixHex "oi1_" 64 f.intentId = true
  intentId_eq : f.intentId = "oi1_" ++ f.intentFingerprint

/-- The non-empty texts of a valid intent, beyond its identifiers. -/
structure OrderIntentFields.TextChecked (f : OrderIntentFields) : Prop where
  symbol : isSymbol f.symbol = true
  side : f.side = "buy"
  orderType : f.orderType = "limit"
  tdMode : f.tdMode = "isolated"
  posSide : f.posSide = "long"
  size : f.size ≠ ""
  limitPrice : f.limitPrice ≠ ""
  initialStop : f.initialStop ≠ ""
  sourceObservationId : f.sourceObservationId ≠ ""
  trustedRunId : isLowerHex 32 f.trustedRunId = true
  strategyReleaseId : hasPrefixHex "sr1_" 64 f.strategyReleaseId = true
  strategyName : f.strategyName ≠ ""
  strategyConfigSha256 : isLowerHex 64 f.strategyConfigSha256 = true

omit [Sha256] in
lemma ne_empty_of_canonicalPositiveDecimal {value fieldName : String} {q : ℚ}
    (h : canonicalPositiveDecimal value fieldName = .ok q) : value ≠ "" := by
  simp only [canonicalPositiveDecimal, bind_eq_ok, require_eq_ok, exists_const,
    decide_eq_true_eq] at h
  exact h.1

/-- An intent can be built again at any time from its observation until it expires. -/
theorem OrderIntentFields.validate_createdAtMs {f : OrderIntentFields} (h : f.validate = .ok ()) (createdAtMs : Int) :
    { f with createdAtMs := createdAtMs }.validate = .ok () ↔
      f.observedAtMs ≤ createdAtMs ∧ createdAtMs < f.signalTimeMs + f.secondPullbackWaitBars * scannerIntervalMs := by
  have hfingerprint : { f with createdAtMs := createdAtMs }.intentFingerprint = f.intentFingerprint := rfl
  simp only [OrderIntentFields.validate, requireConstant, requireNonNegative, bind_eq_ok,
    require_eq_ok, exists_const, decide_eq_true_eq, hfingerprint] at h ⊢
  grind

/-- Taking the checks of `_validate` apart once, for every later use. -/
theorem OrderIntentFields.checked_of_validate {f : OrderIntentFields} (h : f.validate = .ok ()) :
    f.IdentityChecked ∧ f.TextChecked ∧ 0 ≤ f.createdAtMs := by
  simp only [OrderIntentFields.validate, requireConstant, requireNonNegative, bind_eq_ok,
    require_eq_ok, exists_const, decide_eq_true_eq] at h
  obtain ⟨-, henv, hsym, hside, htype, htd, hpos, _, hsize, _, hlimit, _, hstop, -, -, -, -, -,
    hcreated, -, -, -, -, -, -, hobs, -, -, hrun, _, -, hrel, hname, hcfg, hsig, -, hba, hbaeq, haud,
    hoi, hoieq⟩ := h
  refine ⟨⟨henv, hba, hbaeq, haud, hsig, hoi, hoieq⟩, ⟨hsym, hside, htype, htd, hpos, ?_, ?_, ?_,
    hobs, hrun, hrel, hname, hcfg⟩, hcreated⟩
  · exact ne_empty_of_canonicalPositiveDecimal hsize
  · exact ne_empty_of_canonicalPositiveDecimal hlimit
  · exact ne_empty_of_canonicalPositiveDecimal hstop

/-! ## Reading a dictionary -/

/-- The dictionary keys of an intent. Source: `execution/intents.py` `OrderIntent.from_dict`. -/
def orderIntentFieldNames : List String :=
  ["schema_version", "signal_lineage_id", "business_action_id", "intent_id",
    "audit_correlation_id", "environment", "symbol", "side", "order_type", "size", "limit_price",
    "td_mode", "pos_side", "leverage", "initial_stop", "source_observation_id", "signal_time_ms",
    "decision_code", "trusted_run_id", "observed_at_ms", "data_content_sha256",
    "strategy_release_id", "strategy_name", "strategy_config_sha256",
    "second_pullback_wait_bars", "created_at_ms", "expires_at_ms"]

section reading

omit [Sha256]

/-- Source: `execution/intents.py` `_required_text`. -/
def requiredText (payload : JsonValue) (key : String) : Except OrderIntentSchemaError String := do
  let value ← orThrow ((payload.get? key).bind Json.str?) ⟨key ++ " must be a non-empty string", []⟩
  require (value ≠ "") ⟨key ++ " must be a non-empty string", []⟩
  pure value

/-- Source: `execution/intents.py` `_required_int`. -/
def requiredInt (payload : JsonValue) (key : String) : Except OrderIntentSchemaError Int :=
  orThrow ((payload.get? key).bind Json.int?) ⟨key ++ " must be an integer", []⟩

/-- `Enum(payload[key])` inside `from_dict`. -/
def requiredEnum {α : Type} [PyEnum α] (payload : JsonValue) (key : String) :
    Except OrderIntentSchemaError α :=
  orThrow ((payload.get? key).bind fun v => v.str?.bind PyEnum.ofValue?)
    ⟨"invalid intent: not a valid " ++ key, []⟩

/-- One item of `data_content_sha256`.
Fidelity: a pair of other values than texts is refused here, with the message of
`_validate_content_hashes`. -/
def hashPair : JsonValue → Except OrderIntentSchemaError (String × String)
  | .arr [.str interval, .str digest] => .ok (interval, digest)
  | .arr [_, _] => .error ⟨"data_content_sha256 contains an invalid interval/hash pair", []⟩
  | _ => .error ⟨"data_content_sha256 items must be two-item lists", []⟩

/-- Every item of `data_content_sha256`. -/
def hashPairs : List JsonValue → Except OrderIntentSchemaError (List (String × String))
  | [] => .ok []
  | item :: items => do
      let pair ← hashPair item
      let pairs ← hashPairs items
      pure (pair :: pairs)

/-- The list value of `data_content_sha256`. -/
def requiredHashPairs (payload : JsonValue) :
    Except OrderIntentSchemaError (List (String × String)) :=
  match payload.get? "data_content_sha256" with
  | some (.arr items) => hashPairs items
  | _ => .error ⟨"data_content_sha256 must be a list", []⟩

/-- The keys of the dictionary are exactly the field names. -/
def requireFieldNames (payload : JsonValue) : Except OrderIntentSchemaError Unit := do
  require (payload matches .obj _) ⟨"intent must be an object", []⟩
  let unknown := payload.keys.filter fun key => !orderIntentFieldNames.contains key
  require unknown.isEmpty ⟨"intent has unknown fields", unknown⟩
  let missing := orderIntentFieldNames.filter fun key => !payload.keys.contains key
  require missing.isEmpty ⟨"intent is missing fields", missing⟩

/-- The field checks of `from_dict`, before the constructor runs. -/
def OrderIntentFields.read (payload : JsonValue) :
    Except OrderIntentSchemaError OrderIntentFields := do
  requireFieldNames payload
  let dataContentSha256 ← requiredHashPairs payload
  let schemaVersion ← requiredInt payload "schema_version"
  let signalLineageId ← requiredText payload "signal_lineage_id"
  let businessActionId ← requiredText payload "business_action_id"
  let intentId ← requiredText payload "intent_id"
  let auditCorrelationId ← requiredText payload "audit_correlation_id"
  let environment ← requiredEnum payload "environment"
  let symbol ← requiredText payload "symbol"
  let side ← requiredText payload "side"
  let orderType ← requiredText payload "order_type"
  let size ← requiredText payload "size"
  let limitPrice ← requiredText payload "limit_price"
  let tdMode ← requiredText payload "td_mode"
  let posSide ← requiredText payload "pos_side"
  let leverage ← requiredInt payload "leverage"
  let initialStop ← requiredText payload "initial_stop"
  let sourceObservationId ← requiredText payload "source_observation_id"
  let signalTimeMs ← requiredInt payload "signal_time_ms"
  let decisionCode ← requiredEnum payload "decision_code"
  let trustedRunId ← requiredText payload "trusted_run_id"
  let observedAtMs ← requiredInt payload "observed_at_ms"
  let strategyReleaseId ← requiredText payload "strategy_release_id"
  let strategyName ← requiredText payload "strategy_name"
  let strategyConfigSha256 ← requiredText payload "strategy_config_sha256"
  let secondPullbackWaitBars ← requiredInt payload "second_pullback_wait_bars"
  let createdAtMs ← requiredInt payload "created_at_ms"
  let expiresAtMs ← requiredInt payload "expires_at_ms"
  pure { schemaVersion, signalLineageId, businessActionId, intentId, auditCorrelationId,
         environment, symbol, side, orderType, size, limitPrice, tdMode, posSide, leverage,
         initialStop, sourceObservationId, signalTimeMs, decisionCode, trustedRunId, observedAtMs,
         dataContentSha256, strategyReleaseId, strategyName, strategyConfigSha256,
         secondPullbackWaitBars, createdAtMs, expiresAtMs }

lemma requiredText_of_get {payload : JsonValue} {key value : String}
    (h : payload.get? key = some (.str value)) (hne : value ≠ "") :
    requiredText payload key = .ok value := by
  simp [requiredText, h, hne, require, pure, Except.pure]

lemma requiredInt_of_get {payload : JsonValue} {key : String} {value : Int}
    (h : payload.get? key = some (.int value)) : requiredInt payload key = .ok value := by
  simp [requiredInt, h]

lemma requiredEnum_of_get {α : Type} [PyEnum α] {payload : JsonValue} {key : String} {a : α}
    (h : payload.get? key = some (.str (PyEnum.value a))) : requiredEnum payload key = .ok a := by
  simp [requiredEnum, h]

lemma hashPairs_map (pairs : List (String × String)) :
    hashPairs (pairs.map fun pair => .arr [.str pair.1, .str pair.2]) = .ok pairs := by
  induction pairs with
  | nil => rfl
  | cons pair pairs ih =>
      simp only [List.map_cons, hashPairs, hashPair, ih, ok_bind]
      rfl

lemma requiredHashPairs_of_get {payload : JsonValue} {pairs : List (String × String)}
    (h : payload.get? "data_content_sha256" = some (hashPairsJson pairs)) :
    requiredHashPairs payload = .ok pairs := by
  rw [requiredHashPairs, h]
  exact hashPairs_map pairs

end reading

/-- Source: `execution/intents.py` `OrderIntent.from_dict`. -/
def OrderIntent.fromDict (payload : JsonValue) : Except OrderIntentSchemaError OrderIntent := do
  let fields ← OrderIntentFields.read payload
  OrderIntent.ofFields fields

omit [Sha256] in
/-- The dictionary has the expected keys: none is unknown, none is missing. -/
lemma requireFieldNames_toDict (f : OrderIntentFields) : requireFieldNames f.toDict = .ok () := by
  have hkeys : f.toDict.keys = orderIntentFieldNames := rfl
  have hnone : (orderIntentFieldNames.filter fun key => !orderIntentFieldNames.contains key) = [] := by
    simp [List.filter_eq_nil_iff]
  simp only [requireFieldNames, hkeys, hnone]
  rfl

omit [Sha256] in
lemma ne_empty_of_isSymbol {value : String} (h : isSymbol value = true) : value ≠ "" := by
  rintro rfl
  revert h
  decide

/-- A dictionary with the entries of a record without empty texts reads back. -/
theorem OrderIntentFields.read_of_get {f : OrderIntentFields} {payload : JsonValue} (hid : f.IdentityChecked)
    (ht : f.TextChecked) (hnames : requireFieldNames payload = .ok ())
    (hget : ∀ key, payload.get? key = f.toDict.get? key) : OrderIntentFields.read payload = .ok f := by
  have hsig := ne_empty_of_hasPrefixHex (by decide) hid.signalLineageId_hex
  have hba := ne_empty_of_hasPrefixHex (by decide) hid.businessActionId_hex
  have hoi := ne_empty_of_hasPrefixHex (by decide) hid.intentId_hex
  have haud : f.auditCorrelationId ≠ "" := hid.auditCorrelationId_eq ▸ hba
  have hside : f.side ≠ "" := by rw [ht.side]; decide
  have htype : f.orderType ≠ "" := by rw [ht.orderType]; decide
  have htd : f.tdMode ≠ "" := by rw [ht.tdMode]; decide
  have hpos : f.posSide ≠ "" := by rw [ht.posSide]; decide
  have hrel := ne_empty_of_hasPrefixHex (by decide) ht.strategyReleaseId
  have hrun := ne_empty_of_isLowerHex (by decide) ht.trustedRunId
  have hcfg := ne_empty_of_isLowerHex (by decide) ht.strategyConfigSha256
  unfold OrderIntentFields.read
  rw [hnames, ok_bind, requiredHashPairs_of_get (hget _), ok_bind,
    requiredInt_of_get (hget _), ok_bind, requiredText_of_get (hget _) hsig, ok_bind,
    requiredText_of_get (hget _) hba, ok_bind, requiredText_of_get (hget _) hoi, ok_bind,
    requiredText_of_get (hget _) haud, ok_bind, requiredEnum_of_get (hget _), ok_bind,
    requiredText_of_get (hget _) (ne_empty_of_isSymbol ht.symbol), ok_bind,
    requiredText_of_get (hget _) hside, ok_bind, requiredText_of_get (hget _) htype, ok_bind,
    requiredText_of_get (hget _) ht.size, ok_bind, requiredText_of_get (hget _) ht.limitPrice, ok_bind,
    requiredText_of_get (hget _) htd, ok_bind, requiredText_of_get (hget _) hpos, ok_bind,
    requiredInt_of_get (hget _), ok_bind, requiredText_of_get (hget _) ht.initialStop, ok_bind,
    requiredText_of_get (hget _) ht.sourceObservationId, ok_bind, requiredInt_of_get (hget _), ok_bind,
    requiredEnum_of_get (hget _), ok_bind, requiredText_of_get (hget _) hrun, ok_bind,
    requiredInt_of_get (hget _), ok_bind, requiredText_of_get (hget _) hrel, ok_bind,
    requiredText_of_get (hget _) ht.strategyName, ok_bind, requiredText_of_get (hget _) hcfg, ok_bind,
    requiredInt_of_get (hget _), ok_bind, requiredInt_of_get (hget _), ok_bind, requiredInt_of_get (hget _),
    ok_bind]
  rfl

/-- The dictionary of a record without empty texts reads back. -/
theorem OrderIntentFields.read_toDict {f : OrderIntentFields} (hid : f.IdentityChecked)
    (ht : f.TextChecked) : OrderIntentFields.read f.toDict = .ok f :=
  OrderIntentFields.read_of_get hid ht (requireFieldNames_toDict f) fun _ => rfl

namespace OrderIntent

variable (x : OrderIntent)

theorem identityChecked : x.IdentityChecked :=
  (OrderIntentFields.checked_of_validate x.valid).1

/-- The dictionary form of an intent reads back. -/
@[simp] theorem fromDict_toDict : fromDict x.toDict = .ok x := by
  obtain ⟨hid, ht, -⟩ := OrderIntentFields.checked_of_validate x.valid
  rw [fromDict, OrderIntentFields.read_toDict hid ht, ok_bind, ofFields_toFields]

/-- The environment and the business action of an intent. -/
def actionKey : ExecutionEnvironment × String := (x.environment, x.businessActionId)

lemma businessActionId_isToken : isToken x.businessActionId = true :=
  isToken_of_hasPrefixHex (by decide) (by decide) x.identityChecked.businessActionId_hex

lemma intentId_isToken : isToken x.intentId = true :=
  isToken_of_hasPrefixHex (by decide) (by decide) x.identityChecked.intentId_hex

lemma intentFingerprint_hex : isLowerHex 64 x.intentFingerprint = true := HexDigest.isHex _

/-- Equal fingerprints give equal intent identifiers, and conversely. -/
lemma intentId_eq_iff {x y : OrderIntent} :
    x.intentId = y.intentId ↔ x.intentFingerprint = y.intentFingerprint := by
  rw [x.identityChecked.intentId_eq, y.identityChecked.intentId_eq, String.append_right_inj]

end OrderIntent

/-! ## Revisions -/

/-- Source: `execution/intents.py` `IntentRevisionAction`. -/
inductive IntentRevisionAction where
  | create
  | reuse
  | supersede
  | conflict
  deriving DecidableEq

/-- Source: `execution/intents.py` `IntentRevisionPlan`. -/
structure IntentRevisionPlan where
  action : IntentRevisionAction
  intent : OrderIntent
  supersedesIntentId : Option String := none
  deriving DecidableEq

/-- Source: `execution/intents.py` `OrderIntentRevisionError`. -/
structure OrderIntentRevisionError where
  /-- The message. -/
  text : String
  deriving DecidableEq

/-- Source: `execution/intents.py` `_validate_revision_intent`. -/
def validateRevisionIntent (intent : OrderIntent) (label : String) :
    Except OrderIntentRevisionError OrderIntent :=
  raiseAs (fun e => ⟨label ++ " intent is invalid: " ++ e.text⟩) (OrderIntent.fromDict intent.toDict)

/-- Source: `execution/intents.py` `classify_intent_revision`. -/
def classifyIntentRevision (existing : Option OrderIntent) (candidate : OrderIntent)
    (mutationReserved : Bool) : Except OrderIntentRevisionError IntentRevisionPlan := do
  let _ ← validateRevisionIntent candidate "candidate"
  match existing with
  | none => do
      require (!mutationReserved)
        ⟨"mutation reservation cannot exist without an existing intent"⟩
      pure { action := .create, intent := candidate }
  | some existing => do
      let _ ← validateRevisionIntent existing "existing"
      require (existing.environment = candidate.environment)
        ⟨"cross-environment intent revision is forbidden"⟩
      require (existing.businessActionId = candidate.businessActionId)
        ⟨"intents do not belong to the same business action"⟩
      if existing.intentFingerprint = candidate.intentFingerprint then
        pure { action := .reuse, intent := existing }
      else if mutationReserved then
        pure { action := .conflict, intent := existing }
      else
        pure { action := .supersede, intent := candidate,
               supersedesIntentId := some existing.intentId }

/-- What the classification of two intents can be: the same fingerprint is reused; another one
supersedes unless a mutation is reserved, which is a conflict. -/
theorem classifyIntentRevision_some {existing candidate : OrderIntent} {reserved : Bool}
    {plan : IntentRevisionPlan}
    (h : classifyIntentRevision (some existing) candidate reserved = .ok plan) :
    existing.environment = candidate.environment ∧
      existing.businessActionId = candidate.businessActionId ∧
      ((plan.action = .reuse ∧ existing.intentFingerprint = candidate.intentFingerprint) ∨
        (plan.action = .conflict ∧ reserved = true) ∨
        (plan.action = .supersede ∧ reserved = false ∧
          existing.intentFingerprint ≠ candidate.intentFingerprint)) := by
  simp only [classifyIntentRevision, validateRevisionIntent, OrderIntent.fromDict_toDict,
    raiseAs_ok, ok_bind, bind_eq_ok, require_eq_ok, exists_const, decide_eq_true_eq] at h
  obtain ⟨henv, hba, h⟩ := h
  refine ⟨henv, hba, ?_⟩
  split_ifs at h with hfp hres
  · cases pure_eq_ok_iff.mp h
    exact .inl ⟨rfl, hfp⟩
  · cases pure_eq_ok_iff.mp h
    exact .inr (.inl ⟨rfl, hres⟩)
  · cases pure_eq_ok_iff.mp h
    exact .inr (.inr ⟨rfl, by simpa using hres, hfp⟩)

/-! ## The expiry of a signal -/

/-- Source: `execution/intents.py` `OrderIntentIneligibleError`. -/
structure OrderIntentIneligibleError where
  text : String
  deriving DecidableEq

/-- The expiry of an intent of a signal. Source: `execution/intents.py` `OrderIntentFactory.create_demo_intent`,
from the signal time to the check of the expiry. -/
def demoIntentExpiry (waitBars : Int) (signalTimeMs : Option Int) (createdAtMs : Int) :
    Except OrderIntentIneligibleError Int := do
  let signalTimeMs ← orThrow signalTimeMs ⟨"eligible observation requires signal_time_ms"⟩
  let expiresAtMs := signalTimeMs + waitBars * scannerIntervalMs
  require (createdAtMs < expiresAtMs) ⟨"source signal is expired at the exclusive scanner lifecycle boundary"⟩
  pure expiresAtMs

omit [Sha256] in
lemma demoIntentExpiry_isOk {waitBars signalTimeMs createdAtMs : Int} :
    (demoIntentExpiry waitBars (some signalTimeMs) createdAtMs).isOk = true ↔
      createdAtMs < signalTimeMs + waitBars * scannerIntervalMs := by
  by_cases hlive : createdAtMs < signalTimeMs + waitBars * scannerIntervalMs
  · simp [demoIntentExpiry, require, hlive, Except.isOk, Except.toBool]
  · simp [demoIntentExpiry, require, hlive, Except.isOk, Except.toBool]

end MuStrategy.Execution
