import MuStrategy.Execution.Intents

/-!
# Execution audit events

* `ReservationState.allowed` — the transition graph of a mutation reservation.
* `idempotencyKeyFor`, `okxClientOrderIdFor` — the two identifiers derived from a mutation.
* `ExecutionAuditEventFields.validate` — the checks an event passes before it can exist, down to
  the fields of its payload; an `ExecutionAuditEvent` carries the proof that it passed them.
* `ExecutionAuditEvent.fromJson_toDict` — the stored form of an event reads back.
-/

namespace MuStrategy.Execution

open Lib

/-! ## Enumerations -/

/-- Source: `execution/audit.py` `ActorKind`. -/
inductive ActorKind where
  | system
  | operator
  deriving DecidableEq

instance : PyEnum ActorKind where
  members := [.system, .operator]
  value
    | .system => "system"
    | .operator => "operator"
  find_value := by intro a; cases a <;> decide

/-- Source: `execution/audit.py` `MutationOperation`. -/
inductive MutationOperation where
  | configureLeverage
  | submitEntry
  | cancelOrder
  deriving DecidableEq

instance : PyEnum MutationOperation where
  members := [.configureLeverage, .submitEntry, .cancelOrder]
  value
    | .configureLeverage => "configure_leverage"
    | .submitEntry => "submit_entry"
    | .cancelOrder => "cancel_order"
  find_value := by intro a; cases a <;> decide

/-- Source: `execution/audit.py` `ReservationState`. -/
inductive ReservationState where
  | reserved
  | dispatching
  | acknowledged
  | rejected
  | notSentFailed
  | unknown
  | invalidated
  deriving DecidableEq

instance : PyEnum ReservationState where
  members := [.reserved, .dispatching, .acknowledged, .rejected, .notSentFailed, .unknown,
    .invalidated]
  value
    | .reserved => "reserved"
    | .dispatching => "dispatching"
    | .acknowledged => "acknowledged"
    | .rejected => "rejected"
    | .notSentFailed => "not_sent_failed"
    | .unknown => "unknown"
    | .invalidated => "invalidated"
  find_value := by intro a; cases a <;> decide

/-- The states a reservation may move to.
Source: `execution/audit.py` `_ALLOWED_RESERVATION_TRANSITIONS`. -/
def ReservationState.allowed : ReservationState → List ReservationState
  | .reserved => [.dispatching, .invalidated]
  | .dispatching => [.acknowledged, .rejected, .notSentFailed, .unknown]
  | .notSentFailed => [.reserved]
  | .acknowledged | .rejected | .unknown | .invalidated => []

/-- Source: `execution/audit.py` `is_reservation_transition_allowed`. -/
def isReservationTransitionAllowed (oldState newState : ReservationState) : Bool :=
  oldState.allowed.contains newState

/-- Source: `execution/audit.py` `AuditEventType`. -/
inductive AuditEventType where
  | intentCreated
  | intentReused
  | intentSuperseded
  | idempotencyReserved
  | reservationStateChanged
  deriving DecidableEq

instance : PyEnum AuditEventType where
  members := [.intentCreated, .intentReused, .intentSuperseded, .idempotencyReserved,
    .reservationStateChanged]
  value
    | .intentCreated => "intent.created"
    | .intentReused => "intent.reused"
    | .intentSuperseded => "intent.superseded"
    | .idempotencyReserved => "idempotency.reserved"
    | .reservationStateChanged => "idempotency.reservation_state_changed"
  find_value := by intro a; cases a <;> decide

/-- Source: `execution/audit.py` `EXECUTION_AUDIT_SCHEMA_VERSION`. -/
def executionAuditSchemaVersion : Int := 1

/-- Source: `execution/audit.py` `_PAYLOAD_FIELDS`. -/
def AuditEventType.payloadFields : AuditEventType → List String
  | .intentCreated => ["intent"]
  | .intentReused =>
      ["existing_intent_id", "existing_intent_fingerprint", "duplicate_source_scan_id"]
  | .intentSuperseded => ["old_intent_id", "new_intent_id", "selection_version"]
  | .idempotencyReserved =>
      ["operation", "mutation_action_id", "idempotency_key", "order_lineage_id",
        "client_order_id", "selected_intent_fingerprint", "cancel_reason_code",
        "cancel_policy_version"]
  | .reservationStateChanged =>
      ["operation", "mutation_action_id", "idempotency_key", "old_state", "new_state"]

/-! ## Derived identifiers -/

/-- Source: `execution/audit.py` `_require_token`. -/
def requireToken (value label : String) : Except ValueError Unit :=
  require (isToken value) ⟨label ++ " must be non-empty single-line text", []⟩

/-- `_require_token` on a JSON value, which has to be text.
Source: `execution/audit.py` `_require_token`. -/
def requireTokenJson (value : Option JsonValue) (label : String) : Except ValueError String := do
  let text ← orThrow (value.bind Json.str?) ⟨label ++ " must be non-empty single-line text", []⟩
  requireToken text label
  pure text

section identifiers

variable [Sha256]

/-- The digest behind an idempotency key. -/
def idempotencyDigest (environment : ExecutionEnvironment) (operation : MutationOperation)
    (mutationActionId : String) : HexDigest :=
  canonicalSha256 (.obj
    [("environment", .str (PyEnum.value environment)),
      ("mutation_action_id", .str mutationActionId),
      ("operation", .str (PyEnum.value operation))])

/-- Source: `execution/audit.py` `idempotency_key_for`. -/
def idempotencyKeyFor (environment : ExecutionEnvironment) (operation : MutationOperation)
    (mutationActionId : String) : Except ValueError String := do
  requireToken mutationActionId "mutation_action_id"
  pure (idempotencyDigest environment operation mutationActionId).text

/-- `"OD" + digest[:20]` of the upper-case digest of the key. -/
def okxClientOrderId (idempotencyKey : String) : String :=
  "OD" ++ String.ofList (((sha256 idempotencyKey).text.toList.map Char.toUpper).take 20)

/-- Source: `execution/audit.py` `okx_client_order_id_for`. -/
def okxClientOrderIdFor (idempotencyKey : String) : Except ValueError String := do
  require (isLowerHex 64 idempotencyKey)
    ⟨"idempotency_key must be 64 lowercase hex characters", []⟩
  pure (okxClientOrderId idempotencyKey)

lemma idempotencyKeyFor_eq_ok {environment : ExecutionEnvironment} {operation : MutationOperation}
    {mutationActionId key : String} :
    idempotencyKeyFor environment operation mutationActionId = .ok key ↔
      isToken mutationActionId = true ∧
        key = (idempotencyDigest environment operation mutationActionId).text := by
  simp only [idempotencyKeyFor, requireToken, bind_eq_ok, require_eq_ok, exists_const,
    pure_eq_ok_iff, eq_comm (a := key)]

lemma okxClientOrderIdFor_eq_ok {key id : String} :
    okxClientOrderIdFor key = .ok id ↔ isLowerHex 64 key = true ∧ id = okxClientOrderId key := by
  simp only [okxClientOrderIdFor, bind_eq_ok, require_eq_ok, exists_const, pure_eq_ok_iff,
    eq_comm (a := id)]

end identifiers

/-! ## The event -/

/-- The fields of an audit event. Source: `execution/audit.py` `ExecutionAuditEvent`. -/
structure ExecutionAuditEventFields where
  schemaVersion : Int
  eventId : String
  eventType : AuditEventType
  sequence : Int
  occurredAtMs : Int
  auditCorrelationId : String
  actorKind : ActorKind
  actorId : String
  sourceScanId : String
  signalLineageId : String
  businessActionId : String
  environment : ExecutionEnvironment
  intentId : String
  intentFingerprint : String
  decisionCode : EntryDecisionCode
  payload : JsonValue
  deriving DecidableEq

namespace ExecutionAuditEventFields

variable [Sha256] (e : ExecutionAuditEventFields)

/-- Source: `execution/audit.py` `_require_event_intent_match`. -/
def requireEventIntentMatch (intent : OrderIntent) : Except ValueError Unit := do
  require (e.auditCorrelationId = intent.auditCorrelationId)
    ⟨"intent.created audit_correlation_id mismatch", []⟩
  require (e.signalLineageId = intent.signalLineageId)
    ⟨"intent.created signal_lineage_id mismatch", []⟩
  require (e.businessActionId = intent.businessActionId)
    ⟨"intent.created business_action_id mismatch", []⟩
  require (e.environment = intent.environment) ⟨"intent.created environment mismatch", []⟩
  require (e.intentId = intent.intentId) ⟨"intent.created intent_id mismatch", []⟩
  require (e.intentFingerprint = intent.intentFingerprint)
    ⟨"intent.created intent_fingerprint mismatch", []⟩
  require (e.decisionCode = intent.decisionCode) ⟨"intent.created decision_code mismatch", []⟩

/-- The payload of `intent.created`. Source: `execution/audit.py` `_validate_payload`. -/
def validateCreated : Except ValueError Unit := do
  let intent ← raiseAs (fun x => ⟨x.text, x.names⟩)
    (OrderIntent.fromDict ((e.payload.get? "intent").getD .null))
  e.requireEventIntentMatch intent

omit [Sha256] in
/-- The payload of `intent.reused`. Source: `execution/audit.py` `_validate_payload`. -/
def validateReused : Except ValueError Unit := do
  require (e.payload.get? "existing_intent_id" = some (.str e.intentId))
    ⟨"intent.reused existing_intent_id mismatch", []⟩
  require (e.payload.get? "existing_intent_fingerprint" = some (.str e.intentFingerprint))
    ⟨"intent.reused existing_intent_fingerprint mismatch", []⟩
  let _ ← requireTokenJson (e.payload.get? "duplicate_source_scan_id") "duplicate_source_scan_id"

/-- The payload of `intent.superseded`. Source: `execution/audit.py` `_validate_payload`. -/
def validateSuperseded : Except ValueError Unit := do
  forEach (fun name => do
    let value ← orThrow ((e.payload.get? name).bind Json.str?)
      ⟨"intent.superseded " ++ name ++ " must be canonical", []⟩
    require (hasPrefixHex "oi1_" 64 value)
      ⟨"intent.superseded " ++ name ++ " must be canonical", []⟩) ["old_intent_id", "new_intent_id"]
  require (e.payload.get? "new_intent_id" = some (.str e.intentId))
    ⟨"intent.superseded new_intent_id mismatch", []⟩
  let version ← orThrow ((e.payload.get? "selection_version").bind Json.int?)
    ⟨"intent.superseded selection_version must be greater than one", []⟩
  require (1 < version) ⟨"intent.superseded selection_version must be greater than one", []⟩

/-- The mutation identity both reservation payloads carry: the operation and its idempotency key.
Source: `execution/audit.py` `_validate_payload`. -/
def validateMutationIdentity : Except ValueError (MutationOperation × String) := do
  let operationText ← requireTokenJson (e.payload.get? "operation") "operation"
  let mutationActionId ← requireTokenJson (e.payload.get? "mutation_action_id") "mutation_action_id"
  let idempotencyKey ← requireTokenJson (e.payload.get? "idempotency_key") "idempotency_key"
  let operation ← orThrow (PyEnum.ofValue? operationText)
    ⟨"audit operation must be a closed MutationOperation", []⟩
  match operation with
  | .submitEntry =>
      require (mutationActionId = e.businessActionId)
        ⟨"submit mutation_action_id must equal business_action_id", []⟩
  | .configureLeverage =>
      require (hasPrefixHex "ma1_" 64 mutationActionId)
        ⟨"leverage mutation_action_id must be canonical", []⟩
  | .cancelOrder =>
      require (hasPrefixHex "ca1_" 64 mutationActionId)
        ⟨"cancel mutation_action_id must be canonical", []⟩
  let expectedKey ← idempotencyKeyFor e.environment operation mutationActionId
  require (idempotencyKey = expectedKey)
    ⟨"audit idempotency_key does not match its mutation identity", []⟩
  pure (operation, expectedKey)

/-- The payload of `idempotency.reserved`. Source: `execution/audit.py` `_validate_payload`. -/
def validateReserved : Except ValueError Unit := do
  let (operation, expectedKey) ← e.validateMutationIdentity
  let _ ← requireTokenJson (e.payload.get? "order_lineage_id") "order_lineage_id"
  let clientOrderId := e.payload.get? "client_order_id"
  require (e.payload.get? "selected_intent_fingerprint" = some (.str e.intentFingerprint))
    ⟨"idempotency.reserved selected_intent_fingerprint mismatch", []⟩
  let cancelReasonCode := e.payload.get? "cancel_reason_code"
  let cancelPolicyVersion := e.payload.get? "cancel_policy_version"
  match operation with
  | .submitEntry => do
      let expectedId ← okxClientOrderIdFor expectedKey
      require (clientOrderId = some (.str expectedId))
        ⟨"submit client_order_id does not match idempotency_key", []⟩
      require (cancelReasonCode = some .null && cancelPolicyVersion = some .null)
        ⟨"submit reservation cannot carry cancel metadata", []⟩
  | .cancelOrder => do
      require (clientOrderId = some .null) ⟨"cancel reservation cannot carry client_order_id", []⟩
      let _ ← requireTokenJson cancelReasonCode "cancel_reason_code"
      let _ ← requireTokenJson cancelPolicyVersion "cancel_policy_version"
  | .configureLeverage =>
      require (clientOrderId = some .null && cancelReasonCode = some .null &&
          cancelPolicyVersion = some .null)
        ⟨"leverage reservation cannot carry order or cancel metadata", []⟩

/-- The payload of `idempotency.reservation_state_changed`.
Source: `execution/audit.py` `_validate_payload`. -/
def validateStateChanged : Except ValueError Unit := do
  let _ ← e.validateMutationIdentity
  let oldState ← orThrow ((e.payload.get? "old_state").bind fun v => v.str?.bind PyEnum.ofValue?)
    ⟨"audit states must be closed ReservationState values", []⟩
  let newState ← orThrow ((e.payload.get? "new_state").bind fun v => v.str?.bind PyEnum.ofValue?)
    ⟨"audit states must be closed ReservationState values", []⟩
  require (isReservationTransitionAllowed oldState newState)
    ⟨"illegal reservation state transition: " ++ PyEnum.value oldState ++ " -> " ++
      PyEnum.value newState, []⟩

/-- Source: `execution/audit.py` `ExecutionAuditEvent._validate_payload`. -/
def validatePayload : Except ValueError Unit :=
  match e.eventType with
  | .intentCreated => e.validateCreated
  | .intentReused => e.validateReused
  | .intentSuperseded => e.validateSuperseded
  | .idempotencyReserved => e.validateReserved
  | .reservationStateChanged => e.validateStateChanged

/-- Source: `execution/audit.py` `ExecutionAuditEvent.__post_init__`. -/
def validate : Except ValueError Unit := do
  require (e.schemaVersion = executionAuditSchemaVersion)
    ⟨"unsupported execution audit schema_version", []⟩
  requireToken e.eventId "event_id"
  require (0 < e.sequence) ⟨"sequence must be a positive integer", []⟩
  require (0 ≤ e.occurredAtMs) ⟨"occurred_at_ms must be a non-negative integer", []⟩
  requireToken e.auditCorrelationId "audit_correlation_id"
  requireToken e.actorId "actor_id"
  requireToken e.sourceScanId "source_scan_id"
  requireToken e.signalLineageId "signal_lineage_id"
  requireToken e.businessActionId "business_action_id"
  require (e.auditCorrelationId = e.businessActionId)
    ⟨"intent audit_correlation_id must equal business_action_id", []⟩
  require (hasPrefixHex "oi1_" 64 e.intentId) ⟨"intent_id must be canonical", []⟩
  require (isLowerHex 64 e.intentFingerprint) ⟨"intent_fingerprint must be canonical", []⟩
  require (e.payload matches .obj _) ⟨"event payload must be an object", []⟩
  require (e.payload.hasFields e.eventType.payloadFields)
    ⟨PyEnum.value e.eventType ++ " payload fields must be exactly", e.eventType.payloadFields⟩
  e.validatePayload

omit [Sha256] in
/-- Source: `execution/audit.py` `ExecutionAuditEvent.to_dict`. -/
def toDict : JsonValue :=
  .obj [("schema_version", .int e.schemaVersion),
    ("event_id", .str e.eventId),
    ("event_type", .str (PyEnum.value e.eventType)),
    ("sequence", .int e.sequence),
    ("occurred_at_ms", .int e.occurredAtMs),
    ("audit_correlation_id", .str e.auditCorrelationId),
    ("actor_kind", .str (PyEnum.value e.actorKind)),
    ("actor_id", .str e.actorId),
    ("source_scan_id", .str e.sourceScanId),
    ("signal_lineage_id", .str e.signalLineageId),
    ("business_action_id", .str e.businessActionId),
    ("environment", .str (PyEnum.value e.environment)),
    ("intent_id", .str e.intentId),
    ("intent_fingerprint", .str e.intentFingerprint),
    ("decision_code", .str (PyEnum.value e.decisionCode)),
    ("payload", e.payload)]

end ExecutionAuditEventFields

variable [Sha256]

/-- A validated audit event. Source: `execution/audit.py` `ExecutionAuditEvent`. -/
structure ExecutionAuditEvent extends ExecutionAuditEventFields where
  /-- `__post_init__` passed. -/
  valid : toExecutionAuditEventFields.validate = .ok ()

namespace ExecutionAuditEvent

/-- The constructor call: validate, then build. -/
def ofFields (f : ExecutionAuditEventFields) : Except ValueError ExecutionAuditEvent :=
  match h : f.validate with
  | .ok () => .ok ⟨f, h⟩
  | .error e => .error e

@[simp] theorem ofFields_toFields (e : ExecutionAuditEvent) :
    ofFields e.toExecutionAuditEventFields = .ok e := by
  unfold ofFields
  split
  · rfl
  · rename_i e' h
    rw [e.valid] at h
    cases h

lemma toFields_of_ofFields {f : ExecutionAuditEventFields} {e : ExecutionAuditEvent}
    (h : ofFields f = .ok e) : e.toExecutionAuditEventFields = f := by
  unfold ofFields at h
  split at h
  · cases h
    rfl
  · cases h

/-- Source: `execution/audit.py` `_EVENT_FIELDS`. -/
def eventFields : List String :=
  ["schema_version", "event_id", "event_type", "sequence", "occurred_at_ms",
    "audit_correlation_id", "actor_kind", "actor_id", "source_scan_id", "signal_lineage_id",
    "business_action_id", "environment", "intent_id", "intent_fingerprint", "decision_code",
    "payload"]

section reading

omit [Sha256]

/-- A text field of an event. -/
def textField (payload : JsonValue) (key : String) : Except ValueError String :=
  orThrow ((payload.get? key).bind Json.str?) ⟨"invalid execution audit event: " ++ key, []⟩

/-- An integer field of an event. -/
def intField (payload : JsonValue) (key : String) : Except ValueError Int :=
  orThrow ((payload.get? key).bind Json.int?) ⟨"invalid execution audit event: " ++ key, []⟩

/-- An enumeration field of an event. -/
def enumField {α : Type} [PyEnum α] (payload : JsonValue) (key : String) : Except ValueError α :=
  orThrow ((payload.get? key).bind fun v => v.str?.bind PyEnum.ofValue?)
    ⟨"invalid execution audit event: " ++ key, []⟩

end reading

/-- Source: `execution/audit.py` `ExecutionAuditEvent.from_dict`.
Fidelity: a field of the wrong JSON type is reported before the checks of `__post_init__`. -/
def fromDict (payload : JsonValue) : Except ValueError ExecutionAuditEvent := do
  require (payload.hasFields eventFields)
    ⟨"execution audit event fields must be exactly", eventFields⟩
  let schemaVersion ← intField payload "schema_version"
  let eventId ← textField payload "event_id"
  let eventType ← enumField payload "event_type"
  let sequence ← intField payload "sequence"
  let occurredAtMs ← intField payload "occurred_at_ms"
  let auditCorrelationId ← textField payload "audit_correlation_id"
  let actorKind ← enumField payload "actor_kind"
  let actorId ← textField payload "actor_id"
  let sourceScanId ← textField payload "source_scan_id"
  let signalLineageId ← textField payload "signal_lineage_id"
  let businessActionId ← textField payload "business_action_id"
  let environment ← enumField payload "environment"
  let intentId ← textField payload "intent_id"
  let intentFingerprint ← textField payload "intent_fingerprint"
  let decisionCode ← enumField payload "decision_code"
  let eventPayload ← orThrow (payload.get? "payload") ⟨"invalid execution audit event", []⟩
  ofFields { schemaVersion, eventId, eventType, sequence, occurredAtMs, auditCorrelationId,
             actorKind, actorId, sourceScanId, signalLineageId, businessActionId, environment,
             intentId, intentFingerprint, decisionCode, payload := eventPayload }

/-- Source: `execution/audit.py` `ExecutionAuditEvent.from_json`, on the decoded text. -/
def fromJson (payload : JsonValue) : Except ValueError ExecutionAuditEvent := do
  let event ← fromDict payload
  require (event.toDict = payload) ⟨"execution audit JSON must use canonical encoding", []⟩
  pure event

omit [Sha256] in
lemma textField_of_get {payload : JsonValue} {key value : String}
    (h : payload.get? key = some (.str value)) : textField payload key = .ok value := by
  simp [textField, h]

omit [Sha256] in
lemma intField_of_get {payload : JsonValue} {key : String} {value : Int}
    (h : payload.get? key = some (.int value)) : intField payload key = .ok value := by
  simp [intField, h]

omit [Sha256] in
lemma enumField_of_get {α : Type} [PyEnum α] {payload : JsonValue} {key : String} {a : α}
    (h : payload.get? key = some (.str (PyEnum.value a))) : enumField payload key = .ok a := by
  simp [enumField, h]

omit [Sha256] in
lemma hasFields_toDict (f : ExecutionAuditEventFields) : f.toDict.hasFields eventFields = true := by
  have hkeys : f.toDict.keys = eventFields := rfl
  show (f.toDict.keys.all (· ∈ eventFields) && eventFields.all (· ∈ f.toDict.keys)) = true
  rw [hkeys]
  simp

/-- The dictionary form of an event reads back. -/
theorem fromDict_toDict (e : ExecutionAuditEvent) : fromDict e.toDict = .ok e := by
  unfold fromDict
  rw [hasFields_toDict, show require true _ = .ok () from rfl, ok_bind,
    intField_of_get rfl, ok_bind, textField_of_get rfl, ok_bind, enumField_of_get rfl, ok_bind,
    intField_of_get rfl, ok_bind, intField_of_get rfl, ok_bind, textField_of_get rfl, ok_bind,
    enumField_of_get rfl, ok_bind, textField_of_get rfl, ok_bind, textField_of_get rfl, ok_bind,
    textField_of_get rfl, ok_bind, textField_of_get rfl, ok_bind, enumField_of_get rfl, ok_bind,
    textField_of_get rfl, ok_bind, textField_of_get rfl, ok_bind, enumField_of_get rfl, ok_bind]
  exact ofFields_toFields e

/-- The stored form of an event reads back. -/
theorem fromJson_toDict (e : ExecutionAuditEvent) : fromJson e.toDict = .ok e := by
  rw [fromJson, fromDict_toDict, ok_bind]
  simp [require, pure, Except.pure]

end ExecutionAuditEvent

end MuStrategy.Execution
