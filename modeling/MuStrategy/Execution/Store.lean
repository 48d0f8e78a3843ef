import MuStrategy.Execution.Audit
import MuStrategy.Lib.System
import MuStrategy.Lib.Table

/-!
# The execution store

The SQLite store of order intents, the selected intent of each business action, mutation
reservations and audit events. `BEGIN IMMEDIATE` serializes its writers, so a client call is one
step of the store: the body of its transaction runs on the tables it finds, and an error rolls
every write back.

* `State` — the four tables. Uniqueness, foreign-key and check constraints are the guards of the
  insertions; a violated one is an `IntegrityError`, reported as a conflict.
* `recordIntent`, `reserveMutation`, `transitionReservation` — the three transactions.
* `loadIntent`, `loadActionSelection`, `loadReservation`, `readEvents` — the checked reads.
* `system` — the store under any sequence of calls by any clients.
-/

namespace MuStrategy.Execution

open Lib

/-! ## Rows and tables -/

/-- What a store call raises. Source: `execution/store.py` `ExecutionStoreError` and its subclasses. -/
inductive StoreError where
  /-- `ExecutionStoreConflictError`. -/
  | conflict (text : String)
  /-- `ExecutionStoreInvariantError`. -/
  | invariant (text : String)
  /-- `ValueError`. -/
  | value (error : ValueError)
  /-- `OrderIntentSchemaError`. -/
  | schema (error : OrderIntentSchemaError)
  /-- `OverflowError`: the integer does not fit a column. -/
  | overflow
  deriving DecidableEq

/-- A row of `intents`. Source: `execution/store.py` `_SCHEMA_STATEMENTS`. -/
structure IntentRow where
  intentId : String
  environment : ExecutionEnvironment
  businessActionId : String
  intentFingerprint : String
  sourceScanId : String
  createdAtMs : Int
  intentJson : JsonValue
  deriving DecidableEq

/-- A row of `action_selections`. Source: `execution/store.py` `ActionSelection`. -/
structure ActionSelection where
  environment : ExecutionEnvironment
  businessActionId : String
  selectedIntentId : String
  selectedIntentFingerprint : String
  selectionVersion : Int
  mutationReserved : Bool
  deriving DecidableEq

/-- A row of `reservations`. Source: `execution/store.py` `MutationReservation`. -/
structure MutationReservation where
  environment : ExecutionEnvironment
  operation : MutationOperation
  mutationActionId : String
  idempotencyKey : String
  businessActionId : String
  selectedIntentId : String
  selectedIntentFingerprint : String
  orderLineageId : String
  clientOrderId : Option String
  cancelReasonCode : Option String
  cancelPolicyVersion : Option String
  state : ReservationState
  deriving DecidableEq

/-- A row of `audit_events`. Source: `execution/store.py` `_SCHEMA_STATEMENTS`. -/
structure AuditEventRow where
  eventId : String
  auditCorrelationId : String
  sequence : Int
  eventType : AuditEventType
  eventJson : JsonValue
  deriving DecidableEq

/-- An environment and a business action: the primary key of `action_selections`. -/
abbrev ActionKey := ExecutionEnvironment × String

/-- An environment, an operation and a mutation action: the primary key of `reservations`. -/
abbrev ReservationKey := ExecutionEnvironment × MutationOperation × String

/-- The primary key of a selection. -/
def ActionSelection.key (row : ActionSelection) : ActionKey := (row.environment, row.businessActionId)

namespace MutationReservation

/-- The primary key of a reservation. -/
def key (row : MutationReservation) : ReservationKey :=
  (row.environment, row.operation, row.mutationActionId)

/-- The business action of a reservation, which `action_selections` must have. -/
def actionKey (row : MutationReservation) : ActionKey := (row.environment, row.businessActionId)

/-- Everything but the state. Source: `execution/store.py` `_reservation_facts`. -/
def facts (row : MutationReservation) : MutationReservation := { row with state := .reserved }

end MutationReservation

/-- The correlation and sequence of an event row, unique together. -/
def AuditEventRow.position (row : AuditEventRow) : String × Int :=
  (row.auditCorrelationId, row.sequence)

/-- The tables of the store. -/
structure State where
  intents : List IntentRow
  actionSelections : List ActionSelection
  reservations : List MutationReservation
  auditEvents : List AuditEventRow
  deriving DecidableEq

/-- The store after `_initialize`. -/
def State.empty : State := ⟨[], [], [], []⟩

/-- An integer fits a 64-bit column. -/
def fitsInteger (n : Int) : Bool := -2 ^ 63 ≤ n && n < 2 ^ 63

/-- Source: `execution/store.py` `_integrity_error_message`, on an intents constraint. -/
def intentIdentityConflict : StoreError :=
  .conflict "intent identity already maps to different facts"

/-- Source: `execution/store.py` `_integrity_error_message`, on an events constraint. -/
def eventConflict : StoreError := .conflict "event_id or audit sequence already exists"

/-- Source: `execution/store.py` `_integrity_error_message`, on any other constraint. -/
def uniquenessConflict : StoreError :=
  .conflict "execution store uniqueness constraint rejected conflicting facts"

/-! ## Statements -/

namespace State

variable (s : State)

/-- `REFERENCES intents(intent_id)`. -/
def hasIntent (intentId : String) : Bool := s.intents.any fun row => row.intentId = intentId

/-- `REFERENCES action_selections(environment, business_action_id)`. -/
def hasSelection (key : ActionKey) : Bool := s.actionSelections.any fun row => row.key = key

/-- `INSERT INTO intents`. -/
def insertIntent (row : IntentRow) : Except StoreError State := do
  require (fitsInteger row.createdAtMs) .overflow
  require (0 ≤ row.createdAtMs) uniquenessConflict
  require (!s.intents.any fun r => (r.environment, r.businessActionId, r.intentFingerprint) =
    (row.environment, row.businessActionId, row.intentFingerprint)) intentIdentityConflict
  let intents ← orThrow (Table.insertUnique IntentRow.intentId s.intents row) intentIdentityConflict
  pure { s with intents }

/-- `INSERT INTO action_selections`. -/
def insertSelection (row : ActionSelection) : Except StoreError State := do
  require (0 < row.selectionVersion) uniquenessConflict
  require (s.hasIntent row.selectedIntentId) uniquenessConflict
  let actionSelections ← orThrow
    (Table.insertUnique ActionSelection.key s.actionSelections row) uniquenessConflict
  pure { s with actionSelections }

/-- `INSERT INTO reservations`. -/
def insertReservation (row : MutationReservation) : Except StoreError State := do
  require (!s.reservations.any fun r => r.idempotencyKey = row.idempotencyKey) uniquenessConflict
  require (!s.reservations.any fun r =>
    row.clientOrderId.isSome && r.clientOrderId = row.clientOrderId) uniquenessConflict
  require (s.hasIntent row.selectedIntentId) uniquenessConflict
  require (s.hasSelection row.actionKey) uniquenessConflict
  let reservations ← orThrow
    (Table.insertUnique MutationReservation.key s.reservations row) uniquenessConflict
  pure { s with reservations }

/-- `INSERT INTO audit_events`. -/
def insertAuditEvent (row : AuditEventRow) : Except StoreError State := do
  require (fitsInteger row.sequence) .overflow
  require (0 < row.sequence) eventConflict
  require (!s.auditEvents.any fun r => r.position = row.position) eventConflict
  let auditEvents ← orThrow
    (Table.insertUnique AuditEventRow.eventId s.auditEvents row) eventConflict
  pure { s with auditEvents }

/-- `UPDATE action_selections SET … WHERE …`, which has to touch exactly one row. -/
def updateSelection (p : ActionSelection → Bool) (f : ActionSelection → ActionSelection)
    (error : StoreError) : Except StoreError State := do
  require (Table.rowcount p s.actionSelections = 1) error
  pure { s with actionSelections := Table.update p f s.actionSelections }

/-- `UPDATE reservations SET … WHERE …`, which has to touch exactly one row. -/
def updateReservation (p : MutationReservation → Bool)
    (f : MutationReservation → MutationReservation) (error : StoreError) :
    Except StoreError State := do
  require (Table.rowcount p s.reservations = 1) error
  pure { s with reservations := Table.update p f s.reservations }

end State

variable [Sha256]

/-! ## Identities of mutations -/

/-- Source: `execution/store.py` `_canonical_intent`. -/
def canonicalIntent (intent : OrderIntent) : Except StoreError OrderIntent := do
  let _ ← raiseAs .schema (OrderIntent.fromDict intent.toDict)
  raiseAs .schema (OrderIntent.fromDict intent.toDict)

/-- Source: `execution/store.py` `_require_intent`. -/
def requireIntent (intent : OrderIntent) : Except StoreError OrderIntent :=
  raiseAs .schema (OrderIntent.fromDict intent.toDict)

/-- Source: `execution/store.py` `_require_token`. -/
def storeToken (value label : String) : Except StoreError Unit :=
  raiseAs .value (requireToken value label)

/-- Source: `execution/store.py` `submit_mutation_action_id`. -/
def submitMutationActionId (intent : OrderIntent) : Except StoreError String := do
  let _ ← requireIntent intent
  pure intent.businessActionId

/-- Source: `execution/store.py` `leverage_mutation_action_id`. -/
def leverageMutationActionId (intent : OrderIntent) : Except StoreError String := do
  let _ ← requireIntent intent
  pure ("ma1_" ++ (canonicalSha256 (.obj
    [("business_action_id", .str intent.businessActionId),
      ("environment", .str (PyEnum.value intent.environment)),
      ("leverage", .int intent.leverage),
      ("operation", .str (PyEnum.value MutationOperation.configureLeverage)),
      ("td_mode", .str intent.tdMode)])).text)

/-- Source: `execution/store.py` `cancel_mutation_action_id`. -/
def cancelMutationActionId (intent : OrderIntent) (orderLineageId reasonCode policyVersion : String) :
    Except StoreError String := do
  let _ ← requireIntent intent
  storeToken orderLineageId "order_lineage_id"
  storeToken reasonCode "reason_code"
  storeToken policyVersion "policy_version"
  pure ("ca1_" ++ (canonicalSha256 (.obj
    [("business_action_id", .str intent.businessActionId),
      ("environment", .str (PyEnum.value intent.environment)),
      ("operation", .str (PyEnum.value MutationOperation.cancelOrder)),
      ("order_lineage_id", .str orderLineageId),
      ("policy_version", .str policyVersion),
      ("reason_code", .str reasonCode)])).text)

/-- The canonical mutation action of an operation, with the metadata a cancellation needs.
Source: `execution/store.py` `_validate_mutation_action`. -/
def expectedMutationAction (intent : OrderIntent) (operation : MutationOperation)
    (orderLineageId : String) (cancelReasonCode cancelPolicyVersion : Option String) :
    Except StoreError String :=
  match operation with
  | .submitEntry => submitMutationActionId intent
  | .configureLeverage => leverageMutationActionId intent
  | .cancelOrder =>
      match cancelReasonCode, cancelPolicyVersion with
      | some reason, some policy => cancelMutationActionId intent orderLineageId reason policy
      | _, _ => .error (.value ⟨"cancel reservation requires reason code and policy version", []⟩)

/-- Source: `execution/store.py` `_validate_mutation_action`. -/
def validateMutationAction (intent : OrderIntent) (operation : MutationOperation)
    (mutationActionId orderLineageId : String) (cancelReasonCode cancelPolicyVersion : Option String) :
    Except StoreError Unit := do
  let expected ← expectedMutationAction intent operation orderLineageId cancelReasonCode
    cancelPolicyVersion
  require (mutationActionId = expected)
    (.conflict "mutation_action_id does not match the canonical operation identity")
  require (operation = .cancelOrder || (cancelReasonCode.isNone && cancelPolicyVersion.isNone))
    (.value ⟨"cancel metadata is valid only for cancel reservations", []⟩)

/-! ## Checked reads -/

/-- The row a valid intent is stored as. -/
def IntentRow.ofIntent (intent : OrderIntent) (sourceScanId : String) : IntentRow where
  intentId := intent.intentId
  environment := intent.environment
  businessActionId := intent.businessActionId
  intentFingerprint := intent.intentFingerprint
  sourceScanId := sourceScanId
  createdAtMs := intent.createdAtMs
  intentJson := intent.toDict

/-- Source: `execution/store.py` `_intent_from_row`. -/
def intentFromRow (row : IntentRow) : Except StoreError OrderIntent := do
  let intent ← raiseAs (fun _ => .invariant "persisted intent is corrupt")
    (OrderIntent.fromDict row.intentJson)
  require (intent.toDict = row.intentJson) (.invariant "persisted intent is not canonical")
  require (isToken row.sourceScanId) (.invariant "persisted intent source_scan_id is corrupt")
  require (intent.intentId = row.intentId && intent.environment = row.environment &&
      intent.businessActionId = row.businessActionId &&
      intent.intentFingerprint = row.intentFingerprint && intent.createdAtMs = row.createdAtMs)
    (.invariant "persisted intent index mismatch")
  pure intent

omit [Sha256] in
/-- Source: `execution/store.py` `_require_token` on a column of a persisted reservation. -/
def persistedToken (value : String) : Except StoreError Unit :=
  require (isToken value) (.invariant "persisted reservation is corrupt")

/-- Source: `execution/store.py` `_reservation_from_row`. -/
def reservationFromRow (row : MutationReservation) : Except StoreError MutationReservation := do
  persistedToken row.mutationActionId
  persistedToken row.businessActionId
  persistedToken row.selectedIntentId
  persistedToken row.selectedIntentFingerprint
  persistedToken row.orderLineageId
  let expectedKey ← raiseAs .value
    (idempotencyKeyFor row.environment row.operation row.mutationActionId)
  require (row.idempotencyKey = expectedKey)
    (.invariant "persisted reservation idempotency key mismatch")
  if row.operation = .submitEntry then do
    let expectedId ← raiseAs .value (okxClientOrderIdFor row.idempotencyKey)
    require (row.clientOrderId = some expectedId)
      (.invariant "persisted submit client order ID mismatch")
  else
    require row.clientOrderId.isNone (.invariant "non-submit reservation has a client order ID")
  if row.operation = .cancelOrder then
    require (row.cancelReasonCode.isSome && row.cancelPolicyVersion.isSome)
      (.invariant "persisted cancel reservation metadata is incomplete")
  else
    require (row.cancelReasonCode.isNone && row.cancelPolicyVersion.isNone)
      (.invariant "non-cancel reservation has cancel metadata")
  pure row

namespace State

variable (s : State)

/-- Source: `execution/store.py` `_load_intent_connection`. -/
def loadIntent (intentId : String) : Except StoreError (Option OrderIntent) :=
  match Table.lookup IntentRow.intentId s.intents intentId with
  | none => .ok none
  | some row => do
      let intent ← intentFromRow row
      pure (some intent)

omit [Sha256] in
/-- Source: `execution/store.py` `_load_intent_source_scan_id_connection`. -/
def loadIntentSourceScanId (intentId : String) : Except StoreError String := do
  let row ← orThrow (Table.lookup IntentRow.intentId s.intents intentId)
    (.invariant "persisted intent is missing")
  require (isToken row.sourceScanId) (.invariant "persisted intent source_scan_id is corrupt")
  pure row.sourceScanId

omit [Sha256] in
/-- The reservations of a business action. -/
def reservationsOf (key : ActionKey) : List MutationReservation :=
  s.reservations.filter fun row => row.actionKey = key

/-- Source: `execution/store.py` `_load_action_selection_connection`. -/
def loadActionSelection (environment : ExecutionEnvironment) (businessActionId : String) :
    Except StoreError (Option ActionSelection) :=
  match Table.lookup ActionSelection.key s.actionSelections (environment, businessActionId) with
  | none => .ok none
  | some selection => do
      require (0 < selection.selectionVersion)
        (.invariant "persisted selection_version is invalid")
      let selectedIntent ← s.loadIntent selection.selectedIntentId
      require (selectedIntent.any fun intent =>
          selection.environment = intent.environment &&
            selection.businessActionId = intent.businessActionId &&
            selection.selectedIntentFingerprint = intent.intentFingerprint)
        (.invariant "persisted action selection does not bind its selected intent")
      let rows := s.reservationsOf selection.key
      require (selection.mutationReserved = !rows.isEmpty &&
          rows.all fun row => row.selectedIntentId = selection.selectedIntentId &&
            row.selectedIntentFingerprint = selection.selectedIntentFingerprint)
        (.invariant "persisted reservation action-selection binding mismatch")
      pure (some selection)

/-- Source: `execution/store.py` `_validate_reservation_binding`. -/
def validateReservationBinding (reservation : MutationReservation) : Except StoreError Unit := do
  let found ← s.loadIntent reservation.selectedIntentId
  let intent ← orThrow found (.invariant "persisted reservation intent is missing")
  require (reservation.environment = intent.environment &&
      reservation.businessActionId = intent.businessActionId &&
      reservation.selectedIntentFingerprint = intent.intentFingerprint)
    (.invariant "persisted reservation environment or intent binding mismatch")
  let selection ← s.loadActionSelection reservation.environment reservation.businessActionId
  require (selection.any fun selection =>
      selection.selectedIntentId = reservation.selectedIntentId &&
        selection.selectedIntentFingerprint = reservation.selectedIntentFingerprint &&
        selection.mutationReserved)
    (.invariant "persisted reservation action-selection binding mismatch")
  raiseAs (fun _ => .invariant "persisted reservation operation identity mismatch")
    (validateMutationAction intent reservation.operation reservation.mutationActionId
      reservation.orderLineageId reservation.cancelReasonCode reservation.cancelPolicyVersion)

/-- Source: `execution/store.py` `_load_reservation_connection`. -/
def loadReservation (key : ReservationKey) : Except StoreError (Option MutationReservation) :=
  match Table.lookup MutationReservation.key s.reservations key with
  | none => .ok none
  | some row => do
      let reservation ← reservationFromRow row
      s.validateReservationBinding reservation
      pure (some reservation)

/-- Source: `execution/store.py` `read_events`. -/
def readEvents (auditCorrelationId : String) : Except StoreError (List ExecutionAuditEvent) := do
  storeToken auditCorrelationId "audit_correlation_id"
  let rows := (s.auditEvents.filter fun row => row.auditCorrelationId = auditCorrelationId).mergeSort
    fun a b => a.sequence ≤ b.sequence
  rows.mapM fun row => do
    let event ← raiseAs (fun _ => .invariant "persisted audit event is corrupt")
      (ExecutionAuditEvent.fromJson row.eventJson)
    require (event.eventId = row.eventId && event.sequence = row.sequence &&
        event.eventType = row.eventType && event.auditCorrelationId = auditCorrelationId)
      (.invariant "persisted audit event index mismatch")
    pure event

end State

/-! ## Audit events -/

/-- Who performs a call, when, and under which event identifier. -/
structure EventMetadata where
  actorKind : ActorKind
  actorId : String
  occurredAtMs : Int
  eventId : String
  deriving DecidableEq

omit [Sha256] in
/-- Source: `execution/store.py` `_require_event_metadata`. -/
def requireEventMetadata (sourceScanId : String) (metadata : EventMetadata) : Except StoreError Unit := do
  storeToken sourceScanId "source_scan_id"
  storeToken metadata.actorId "actor_id"
  require (0 ≤ metadata.occurredAtMs)
    (.value ⟨"occurred_at_ms must be a non-negative integer", []⟩)
  storeToken metadata.eventId "event_id"

namespace State

omit [Sha256] in
/-- `COALESCE(MAX(sequence), 0) + 1` of a correlation. -/
def nextSequence (s : State) (auditCorrelationId : String) : Int :=
  ((s.auditEvents.filter fun row => row.auditCorrelationId = auditCorrelationId).map
    AuditEventRow.sequence).foldl max 0 + 1

/-- The event a call describes itself with. Source: `execution/store.py` `_append_event`. -/
def eventFields (s : State) (intent : OrderIntent) (sourceScanId : String) (metadata : EventMetadata)
    (eventType : AuditEventType) (payload : JsonValue) : ExecutionAuditEventFields where
  schemaVersion := executionAuditSchemaVersion
  eventId := metadata.eventId
  eventType := eventType
  sequence := s.nextSequence intent.auditCorrelationId
  occurredAtMs := metadata.occurredAtMs
  auditCorrelationId := intent.auditCorrelationId
  actorKind := metadata.actorKind
  actorId := metadata.actorId
  sourceScanId := sourceScanId
  signalLineageId := intent.signalLineageId
  businessActionId := intent.businessActionId
  environment := intent.environment
  intentId := intent.intentId
  intentFingerprint := intent.intentFingerprint
  decisionCode := intent.decisionCode
  payload := payload

/-- The row an event is stored as. -/
def eventRow (event : ExecutionAuditEvent) : AuditEventRow where
  eventId := event.eventId
  auditCorrelationId := event.auditCorrelationId
  sequence := event.sequence
  eventType := event.eventType
  eventJson := event.toDict

/-- Source: `execution/store.py` `_append_event`. -/
def appendEvent (s : State) (intent : OrderIntent) (sourceScanId : String) (metadata : EventMetadata)
    (eventType : AuditEventType) (payload : JsonValue) : Except StoreError State := do
  let event ← raiseAs .value
    (ExecutionAuditEvent.ofFields (s.eventFields intent sourceScanId metadata eventType payload))
  s.insertAuditEvent (eventRow event)

/-! ## Recording an intent -/

/-- Source: `execution/store.py` `_insert_or_verify_intent`. -/
def insertOrVerifyIntent (s : State) (intent : OrderIntent) (sourceScanId : String) :
    Except StoreError State := do
  storeToken sourceScanId "source_scan_id"
  match Table.lookup IntentRow.intentId s.intents intent.intentId with
  | some row => do
      let existing ← intentFromRow row
      require (existing = intent && row.intentJson = intent.toDict)
        (.conflict "intent_id maps to different immutable bytes")
      pure s
  | none => s.insertIntent (.ofIntent intent sourceScanId)

omit [Sha256] in
/-- Source: `execution/store.py` `_require_no_orphaned_action_evidence`. -/
def requireNoOrphanedActionEvidence (s : State) (environment : ExecutionEnvironment)
    (businessActionId : String) : Except StoreError Unit :=
  require (!(s.intents.any fun row =>
        row.environment = environment && row.businessActionId = businessActionId) &&
      (s.reservationsOf (environment, businessActionId)).isEmpty &&
      !(s.auditEvents.any fun row => row.auditCorrelationId = businessActionId))
    (.invariant "persisted business-action evidence exists without action selection")

/-- `SET selected_intent_id = ?, selected_intent_fingerprint = ?, selection_version = ?`. -/
def selectRevision (intent : OrderIntent) (version : Int) (row : ActionSelection) : ActionSelection :=
  { row with
    selectedIntentId := intent.intentId
    selectedIntentFingerprint := intent.intentFingerprint
    selectionVersion := version }

/-- The selection of a business action's first intent. -/
def firstSelection (intent : OrderIntent) : ActionSelection where
  environment := intent.environment
  businessActionId := intent.businessActionId
  selectedIntentId := intent.intentId
  selectedIntentFingerprint := intent.intentFingerprint
  selectionVersion := 1
  mutationReserved := false

/-- The payload of `intent.reused`. -/
def reusedPayload (existing : OrderIntent) (sourceScanId : String) : JsonValue :=
  .obj [("existing_intent_id", .str existing.intentId),
    ("existing_intent_fingerprint", .str existing.intentFingerprint),
    ("duplicate_source_scan_id", .str sourceScanId)]

/-- The payload of `intent.superseded`. -/
def supersededPayload (existing intent : OrderIntent) (newVersion : Int) : JsonValue :=
  .obj [("old_intent_id", .str existing.intentId),
    ("new_intent_id", .str intent.intentId),
    ("selection_version", .int newVersion)]

/-- The first intent of a business action becomes its selection. -/
def createSelection (s : State) (intent : OrderIntent) (sourceScanId : String)
    (metadata : EventMetadata) : Except StoreError (IntentRevisionPlan × State) := do
  s.requireNoOrphanedActionEvidence intent.environment intent.businessActionId
  let s ← s.insertOrVerifyIntent intent sourceScanId
  let s ← s.insertSelection (firstSelection intent)
  let s ← s.appendEvent intent sourceScanId metadata .intentCreated (.obj [("intent", intent.toDict)])
  pure ({ action := .create, intent := intent }, s)

/-- A repeated intent is only logged. -/
def reuseSelection (s : State) (existing : OrderIntent) (sourceScanId : String)
    (metadata : EventMetadata) : Except StoreError State :=
  s.appendEvent existing sourceScanId metadata .intentReused (reusedPayload existing sourceScanId)

/-- A newer intent takes the selection over, unless a mutation was reserved meanwhile. -/
def supersedeSelection (s : State) (selection : ActionSelection) (existing intent : OrderIntent)
    (sourceScanId : String) (metadata : EventMetadata) : Except StoreError State := do
  let s ← s.insertOrVerifyIntent intent sourceScanId
  let newVersion := selection.selectionVersion + 1
  require (fitsInteger newVersion) .overflow
  require (s.hasIntent intent.intentId) uniquenessConflict
  let s ← s.updateSelection
    (fun row => row.key = (intent.environment, intent.businessActionId) &&
      row.selectionVersion = selection.selectionVersion && !row.mutationReserved)
    (selectRevision intent newVersion)
    (.conflict "intent supersession lost the action-selection fence")
  s.appendEvent intent sourceScanId metadata .intentSuperseded
    (supersededPayload existing intent newVersion)

/-- The transaction of `record_intent`.
Source: `execution/store.py` `SQLiteExecutionStore.record_intent`. -/
def recordIntent (s : State) (intent : OrderIntent) (sourceScanId : String) (metadata : EventMetadata) :
    Except StoreError (IntentRevisionPlan × State) := do
  let intent ← canonicalIntent intent
  requireEventMetadata sourceScanId metadata
  let selection ← s.loadActionSelection intent.environment intent.businessActionId
  match selection with
  | none => s.createSelection intent sourceScanId metadata
  | some selection => do
      let found ← s.loadIntent selection.selectedIntentId
      let existing ← orThrow found (.invariant "selected intent is missing")
      let plan ← raiseAs (fun e => .conflict e.text)
        (classifyIntentRevision (some existing) intent selection.mutationReserved)
      match plan.action with
      | .conflict => .error (.conflict "business action already has a mutation reservation")
      | .reuse => do
          let s ← s.reuseSelection existing sourceScanId metadata
          pure (plan, s)
      | .supersede => do
          let s ← s.supersedeSelection selection existing intent sourceScanId metadata
          pure (plan, s)
      | .create => .error (.invariant "unsupported intent revision action")

/-! ## Reserving a mutation -/

/-- Source: `execution/store.py` `_require_cancel_slot`. -/
def requireCancelSlot (s : State) (environment : ExecutionEnvironment) (orderLineageId : String) :
    Except StoreError Unit :=
  forEach (fun row => do
      let reservation ← reservationFromRow row
      s.validateReservationBinding reservation
      require (reservation.state = .rejected)
        (.conflict "cancel lineage already has a non-rejected reservation; reuse its same key"))
    (s.reservations.filter fun row =>
      row.environment = environment && row.operation = .cancelOrder &&
        row.orderLineageId = orderLineageId)

/-- Only a cancellation needs a free slot. -/
def requireSlot (s : State) (reservation : MutationReservation) : Except StoreError Unit :=
  if reservation.operation = .cancelOrder then
    s.requireCancelSlot reservation.environment reservation.orderLineageId
  else
    pure ()

omit [Sha256] in
/-- An optional text as a JSON value. -/
def optionalText (value : Option String) : JsonValue := Json.optStr value

omit [Sha256] in
/-- The payload of `idempotency.reserved`. -/
def reservedPayload (r : MutationReservation) : JsonValue :=
  .obj [("operation", .str (PyEnum.value r.operation)),
    ("mutation_action_id", .str r.mutationActionId),
    ("idempotency_key", .str r.idempotencyKey),
    ("order_lineage_id", .str r.orderLineageId),
    ("client_order_id", optionalText r.clientOrderId),
    ("selected_intent_fingerprint", .str r.selectedIntentFingerprint),
    ("cancel_reason_code", optionalText r.cancelReasonCode),
    ("cancel_policy_version", optionalText r.cancelPolicyVersion)]

/-- The arguments of `reserve_mutation`. -/
structure ReserveRequest where
  intent : OrderIntent
  operation : MutationOperation
  mutationActionId : String
  orderLineageId : String
  metadata : EventMetadata
  cancelReasonCode : Option String
  cancelPolicyVersion : Option String
  deriving DecidableEq

/-- Only an entry order has a client order identifier. -/
def requestedClientOrderId (operation : MutationOperation) (idempotencyKey : String) :
    Except StoreError (Option String) :=
  if operation = .submitEntry then do
    let clientOrderId ← raiseAs .value (okxClientOrderIdFor idempotencyKey)
    pure (some clientOrderId)
  else
    pure none

/-- The argument checks of `reserve_mutation`, and the reservation it asks for.
Source: `execution/store.py` `SQLiteExecutionStore.reserve_mutation`. -/
def requestedReservation (intent : OrderIntent) (q : ReserveRequest) :
    Except StoreError MutationReservation := do
  storeToken q.mutationActionId "mutation_action_id"
  storeToken q.orderLineageId "order_lineage_id"
  requireEventMetadata intent.sourceObservationId q.metadata
  validateMutationAction intent q.operation q.mutationActionId q.orderLineageId q.cancelReasonCode
    q.cancelPolicyVersion
  let idempotencyKey ← raiseAs .value
    (idempotencyKeyFor intent.environment q.operation q.mutationActionId)
  let clientOrderId ← requestedClientOrderId q.operation idempotencyKey
  pure
    { environment := intent.environment
      operation := q.operation
      mutationActionId := q.mutationActionId
      idempotencyKey := idempotencyKey
      businessActionId := intent.businessActionId
      selectedIntentId := intent.intentId
      selectedIntentFingerprint := intent.intentFingerprint
      orderLineageId := q.orderLineageId
      clientOrderId := clientOrderId
      cancelReasonCode := q.cancelReasonCode
      cancelPolicyVersion := q.cancelPolicyVersion
      state := .reserved }

/-- A mutation that has no reservation yet gets one, and its business action is fenced.
Source: `execution/store.py` `SQLiteExecutionStore.reserve_mutation`. -/
def insertFreshReservation (s : State) (intent : OrderIntent) (selection : ActionSelection)
    (reservation : MutationReservation) (sourceScanId : String) (metadata : EventMetadata) :
    Except StoreError State := do
  require (!s.reservations.any fun row => row.idempotencyKey = reservation.idempotencyKey)
    (.conflict "idempotency key already maps to different reservation facts")
  require (!s.reservations.any fun row => reservation.clientOrderId.isSome &&
      row.clientOrderId = reservation.clientOrderId &&
      row.idempotencyKey ≠ reservation.idempotencyKey)
    (.conflict "client order ID collision maps to a different full idempotency key")
  s.requireSlot reservation
  let s ← s.insertReservation reservation
  let s ← s.updateSelection
    (fun row => row.key = (intent.environment, intent.businessActionId) &&
      row.selectionVersion = selection.selectionVersion &&
      row.selectedIntentId = intent.intentId &&
      row.selectedIntentFingerprint = intent.intentFingerprint)
    (fun row => { row with mutationReserved := true })
    (.conflict "mutation reservation lost the action-selection fence")
  s.appendEvent intent sourceScanId metadata .idempotencyReserved (reservedPayload reservation)

/-- The transaction of `reserve_mutation`.
Source: `execution/store.py` `SQLiteExecutionStore.reserve_mutation`. -/
def reserveMutation (s : State) (q : ReserveRequest) :
    Except StoreError (MutationReservation × State) := do
  let intent ← canonicalIntent q.intent
  let reservation ← requestedReservation intent q
  let found ← s.loadActionSelection intent.environment intent.businessActionId
  let selection ← orThrow found
    (.conflict "mutation reservation requires a persisted action selection")
  require (selection.selectedIntentId = intent.intentId &&
      selection.selectedIntentFingerprint = intent.intentFingerprint)
    (.conflict "mutation reservation does not target the selected intent revision")
  let storedIntent ← s.loadIntent intent.intentId
  require (storedIntent = some intent)
    (.invariant "selected intent bytes do not match reservation input")
  let selectedSourceScanId ← s.loadIntentSourceScanId intent.intentId
  let existing ← s.loadReservation (intent.environment, q.operation, q.mutationActionId)
  match existing with
  | some existing => do
      require (existing.facts = reservation.facts)
        (.conflict "mutation action reservation maps to different facts")
      pure (existing, s)
  | none => do
      let s ← s.insertFreshReservation intent selection reservation selectedSourceScanId q.metadata
      pure (reservation, s)

/-! ## Moving a reservation -/

/-- The arguments of `transition_reservation`. -/
structure TransitionRequest where
  environment : ExecutionEnvironment
  operation : MutationOperation
  mutationActionId : String
  expectedState : ReservationState
  newState : ReservationState
  metadata : EventMetadata
  deriving DecidableEq

omit [Sha256] in
/-- The primary key a transition names. -/
def TransitionRequest.key (q : TransitionRequest) : ReservationKey :=
  (q.environment, q.operation, q.mutationActionId)

omit [Sha256] in
/-- The payload of `idempotency.reservation_state_changed`. -/
def stateChangedPayload (q : TransitionRequest) (idempotencyKey : String) : JsonValue :=
  .obj [("operation", .str (PyEnum.value q.operation)),
    ("mutation_action_id", .str q.mutationActionId),
    ("idempotency_key", .str idempotencyKey),
    ("old_state", .str (PyEnum.value q.expectedState)),
    ("new_state", .str (PyEnum.value q.newState))]

/-- The transaction of `transition_reservation`.
Source: `execution/store.py` `SQLiteExecutionStore.transition_reservation`. -/
def transitionReservation (s : State) (q : TransitionRequest) :
    Except StoreError (MutationReservation × State) := do
  storeToken q.mutationActionId "mutation_action_id"
  requireEventMetadata "persisted-reservation" q.metadata
  require (isReservationTransitionAllowed q.expectedState q.newState)
    (.conflict ("illegal reservation transition: " ++ PyEnum.value q.expectedState ++ " -> " ++
      PyEnum.value q.newState))
  let found ← s.loadReservation q.key
  let reservation ← orThrow found (.conflict "reservation does not exist")
  require (reservation.state = q.expectedState)
    (.conflict "reservation state changed before the expected transition")
  let foundIntent ← s.loadIntent reservation.selectedIntentId
  let intent ← orThrow foundIntent (.invariant "reservation intent is missing")
  let selectedSourceScanId ← s.loadIntentSourceScanId reservation.selectedIntentId
  let s ← s.updateReservation (fun row => row.key = q.key && row.state = q.expectedState)
    (fun row => { row with state := q.newState })
    (.conflict "reservation state transition lost its compare-and-swap")
  let s ← s.appendEvent intent selectedSourceScanId q.metadata .reservationStateChanged
    (stateChangedPayload q reservation.idempotencyKey)
  pure ({ reservation with state := q.newState }, s)

end State

/-! ## The store as a system -/

/-- A client call. -/
inductive Call where
  | recordIntent (intent : OrderIntent) (sourceScanId : String) (metadata : EventMetadata)
  | reserveMutation (request : State.ReserveRequest)
  | transitionReservation (request : State.TransitionRequest)

/-- What a client call returns. -/
inductive Outcome where
  | plan (plan : IntentRevisionPlan)
  | reservation (reservation : MutationReservation)
  deriving DecidableEq

namespace State

/-- The body of the transaction of a call. -/
def transaction (s : State) : Call → Except StoreError (Outcome × State)
  | .recordIntent intent sourceScanId metadata => do
      let (plan, s) ← s.recordIntent intent sourceScanId metadata
      pure (.plan plan, s)
  | .reserveMutation request => do
      let (reservation, s) ← s.reserveMutation request
      pure (.reservation reservation, s)
  | .transitionReservation request => do
      let (reservation, s) ← s.transitionReservation request
      pure (.reservation reservation, s)

/-- A call: `COMMIT` when the transaction returns, `ROLLBACK` when it raises.
Source: `execution/store.py` `SQLiteExecutionStore._transaction`. -/
def run (s : State) (call : Call) : Except StoreError Outcome × State :=
  match s.transaction call with
  | .ok (outcome, s') => (.ok outcome, s')
  | .error error => (.error error, s)

end State

/-- The store under any sequence of calls, starting from the empty tables. -/
def system : System State Call := .ofFn State.empty fun s call => (s.run call).2

end MuStrategy.Execution
