import Mathlib.Data.List.Sort
import MuStrategy.Notifications.Health
import MuStrategy.Notifications.Outbox

/-!
# Signal streams

A symbol has a stream: what was last observed of it, and the entry reminder that is active for it, if any. An
observation starts an entry, continues it, replaces it or withdraws it.

* `SignalStream`, `Signals`, `AlertStore` — the streams and the other tables of the email database.
* `AlertStore.invalidate` — the withdrawal of the active entry.
* `AlertStore.observe` — one observation.
-/

namespace MuStrategy.Notifications

open Lib

/-- What a collection raises. -/
inductive AlertError where
  | notification (error : NotificationError)
  /-- `HealthStateError`. -/
  | health (text : String)
  /-- `ObservationCorruptionError`. -/
  | corruption (text : String)
  /-- `ObservationSchemaError`. -/
  | schema
  deriving DecidableEq

/-! ## Tables -/

/-- The value of a stream. Source: `notifications/store.py` `NotificationStore.stream`. -/
structure SignalStream where
  counter : ℕ := 0
  createdAtMs : ℤ := 0
  observedAtMs : ℤ := 0
  activeEventId : Option HexDigest := none
  signalKey : Option HexDigest := none
  lastSeenMs : ℤ := 0
  lastResult : Option HexDigest := none
  serviceRunId : Option String := none
  collectionRunId : Option String := none

/-- The checks on a stream that was read. Source: `notifications/store.py` `NotificationStore.stream`. -/
def SignalStream.check (stream : SignalStream) : Except NotificationError Unit := do
  require (stream.serviceRunId.all (· ≠ "") && stream.collectionRunId.all (· ≠ ""))
    (.invalid "invalid service run identity")
  require (0 ≤ stream.createdAtMs && 0 ≤ stream.observedAtMs && 0 ≤ stream.lastSeenMs)
    (.invalid "invalid notification integer")
  require (stream.activeEventId.isNone = stream.signalKey.isNone) (.invalid "inconsistent signal stream")

/-- The tables that only collections write. The metadata table is a field for each name.
Source: `notifications/store.py` `SCHEMA`. -/
structure Signals where
  streams : List (String × SignalStream) := []
  consumedCycles : List (String × HexDigest) := []
  /-- The number of records before the cursor. The log is only appended to, so a byte offset with its
  anchor is the number of the records before it. -/
  observationCursor : ℕ := 0
  lastCycleSha256 : Option HexDigest := none
  sourceReady : Bool := false
  healthCursor : ℕ := 0
  runtime : Option (Runtime × Option String) := none
  runtimeSequence : ℕ := 0
  outOfOrderObservations : ℕ := 0
  logUnavailableSinceMs : Option ℤ := none

/-- The email database. Source: `notifications/store.py` `SCHEMA`. -/
structure AlertStore (O : Type) extends Signals where
  /-- The tables that delivery reads and writes. -/
  delivery : Database O

namespace AlertStore

variable {O : Type}

/-- The email database after `initialize`. -/
def empty : AlertStore O := { delivery := .empty }

variable (store : AlertStore O)

/-- The stream of a symbol, or the default. -/
def streamOf (symbol : String) : SignalStream := ((Table.lookup Prod.fst store.streams symbol).map Prod.snd).getD {}

/-- Source: `notifications/store.py` `NotificationStore.stream`. -/
def stream (symbol : String) : Except NotificationError SignalStream := do
  (store.streamOf symbol).check
  pure (store.streamOf symbol)

/-- The tables after a stream was written. -/
def putStream (symbol : String) (stream : SignalStream) : AlertStore O :=
  { store with streams := Table.upsert Prod.fst store.streams (symbol, stream) }

/-- Source: `notifications/store.py` `NotificationStore.save_stream`. -/
def saveStream (symbol : String) (stream : SignalStream) : Except NotificationError (AlertStore O) := do
  stream.check
  pure (store.putStream symbol stream)

/-- Source: `notifications/store.py` `NotificationStore.symbols`. -/
def symbols : List String := (store.streams.map Prod.fst).insertionSort (· ≤ ·)

end AlertStore

/-! ## Events -/

/-- The constructor call: the checks, then the event. Source: `notifications/events.py` `AlertEvent`. -/
def AlertEvent.make {O : Type} [ReviewObservation O] (event : AlertEvent O) : Except NotificationError (AlertEvent O) := do
  event.postInit
  pure event

/-- Why an entry is withdrawn. Source: `notifications/service.py` `EmailAlerts`, the calls of `_invalidate`. -/
inductive InvalidationReason where
  | decisionChanged
  | sourceUnavailable
  | signalReplaced
  deriving DecidableEq

namespace InvalidationReason

/-- The text of a reason. -/
def value : InvalidationReason → String
  | .decisionChanged => "decision_changed"
  | .sourceUnavailable => "source_unavailable"
  | .signalReplaced => "signal_replaced"

/-- The reason of the withdrawal event. -/
def alert : InvalidationReason → AlertReason
  | .decisionChanged => .decisionChanged
  | .sourceUnavailable => .sourceUnavailable
  | .signalReplaced => .signalReplaced

/-- The reason the entry is suppressed with. -/
def suppressed : InvalidationReason → SuppressedReason
  | .decisionChanged => .decisionChanged
  | .sourceUnavailable => .sourceUnavailable
  | .signalReplaced => .signalReplaced

end InvalidationReason

section events

variable {O : Type} [Sha256]

/-- The identity of the entry of a transition: `canonical_sha256({"signal": key, "transition": counter})`. -/
def entryIdentity (signalKey : HexDigest) (transition : ℕ) : HexDigest :=
  canonicalSha256 (.obj [("signal", .str signalKey.text), ("transition", .int transition)])

/-- The identity of a withdrawal: `canonical_sha256({"entry": entry_id, "reason": reason})`. -/
def invalidationIdentity (entryId : HexDigest) (reason : InvalidationReason) : HexDigest :=
  canonicalSha256 (.obj [("entry", .str entryId.text), ("reason", .str reason.value)])

/-- The withdrawal of an entry. -/
def invalidationEvent (entry : AlertEvent O) (reason : InvalidationReason) (occurredAtMs : ℕ) (observation : Option O) :
    AlertEvent O where
  kind := .signalInvalidated
  identity := invalidationIdentity entry.eventId reason
  occurredAtMs := occurredAtMs
  reviewUntilMs := none
  reason := reason.alert
  observation := observation <|> entry.observation
  relatedEventId := some entry.eventId

/-- The entry of an observation. -/
def entryEvent (signalKey : HexDigest) (transition occurredAtMs reviewMs : ℕ) (observation : O) : AlertEvent O where
  kind := .entryReview
  identity := entryIdentity signalKey transition
  occurredAtMs := occurredAtMs
  reviewUntilMs := some (occurredAtMs + reviewMs)
  reason := .ready
  observation := some observation

variable [StageObservation O]

/-- The key of the signal of an observation. An observation that is ready has a decision code.
Source: `notifications/service.py` `EmailAlerts._signal_key`. -/
def signalKey (observation : O) : Option HexDigest :=
  match StageObservation.outcome observation, StageObservation.signalTimeMs observation,
    StageObservation.decisionCode observation with
  | .readyForReview, some signalTimeMs, some code =>
      some (canonicalSha256 (.obj [("symbol", .str (StageObservation.symbol observation)),
        ("strategy", .str (StageObservation.strategyName observation)),
        ("config", .str (StageObservation.strategyConfigFingerprint observation)),
        ("signal_time_ms", (signalTimeMs.map Json.int).getD .null), ("decision", .str (PyEnum.value code))]))
  | _, _, _ => none

end events

/-! ## Withdrawals and observations -/

namespace AlertStore

variable {O : Type} [DecidableEq O] [Sha256] [StageObservation O] (store : AlertStore O)

/-- An entry that may have reached SMTP. Source: `notifications/service.py` `EmailAlerts._invalidate`, its
variable `unseen`. -/
def seen (entry : DeliveryRecord O) : Bool := entry.state = .confirmed || entry.state = .unknown

/-- Withdraw the active entry of a stream. An entry that was not seen is withdrawn without mail.
Source: `notifications/service.py` `EmailAlerts._invalidate`. -/
def invalidate (symbol : String) (stream : SignalStream) (reason : InvalidationReason) (nowMs : ℤ)
    (observation : Option O) : Except NotificationError (AlertStore O × SignalStream) := do
  let activeEventId ← orThrow stream.activeEventId (.invalid "invalid notification digest")
  let entry ← store.delivery.record activeEventId
  let entry ← orThrow entry (.invalid "active reminder has no persisted entry")
  let occurredAtMs ← integer nowMs
  let event ← (invalidationEvent entry.event reason occurredAtMs observation).make
  let delivery ← store.delivery.enqueue event nowMs (if seen entry then none else some .historicalEvent)
  let delivery ← delivery.suppress entry.event.eventId reason.suppressed nowMs
  let stream := { stream with activeEventId := none, signalKey := none }
  let store ← { store with delivery }.saveStream symbol stream
  pure (store, stream)

/-- A new run of the service starts a new order of observations. -/
def startEpoch (observation : O) (stream : SignalStream) (nowMs : ℤ) (serviceRunId : Option String) :
    Except NotificationError (AlertStore O × SignalStream) :=
  if serviceRunId.isSome ∧ stream.serviceRunId ≠ serviceRunId then do
    let (store, stream) ←
      if stream.activeEventId.isSome ∧ StageObservation.observedAtMs observation < stream.lastSeenMs then
        store.invalidate (StageObservation.symbol observation) stream .sourceUnavailable nowMs none
      else pure (store, stream)
    pure (store, { stream with serviceRunId, createdAtMs := 0, observedAtMs := 0, lastResult := none })
  else pure (store, stream)

/-- An observation from the future, or from before the last one. -/
def isOutOfOrder (observation : O) (stream : SignalStream) (nowMs : ℤ) : Prop :=
  nowMs < StageObservation.createdAtMs observation ∨ nowMs < StageObservation.observedAtMs observation ∨
    StageObservation.createdAtMs observation < stream.createdAtMs ∨
    StageObservation.observedAtMs observation < stream.observedAtMs

instance (observation : O) (stream : SignalStream) (nowMs : ℤ) : Decidable (isOutOfOrder observation stream nowMs) :=
  inferInstanceAs (Decidable (_ ∨ _ ∨ _ ∨ _))

/-- Start the entry of a signal: the next transition of the stream. -/
def startEntry (reviewMs : ℕ) (observation : O) (key : HexDigest) (stream : SignalStream) (nowMs : ℤ) :
    Except NotificationError (AlertStore O × SignalStream) := do
  let (store, stream) ←
    if stream.activeEventId.isSome then
      store.invalidate (StageObservation.symbol observation) stream .signalReplaced nowMs none
    else pure (store, stream)
  let counter := stream.counter + 1
  let occurredAtMs ← integer (StageObservation.observedAtMs observation)
  let event ← (entryEvent key counter occurredAtMs reviewMs observation).make
  let expired : Bool := nowMs < occurredAtMs || (occurredAtMs + reviewMs : ℕ) ≤ nowMs
  let delivery ← store.delivery.enqueue event nowMs (if expired then some .reviewExpired else none)
  let stream :=
    { stream with
      counter
      activeEventId := some event.eventId
      signalKey := some key
      lastSeenMs := StageObservation.observedAtMs observation }
  pure ({ store with delivery }, stream)

/-- What the outcome of an observation does to the stream. -/
def applyOutcome (reviewMs : ℕ) (observation : O) (stream : SignalStream) (nowMs : ℤ) :
    Except NotificationError (AlertStore O × SignalStream) :=
  if StageObservation.outcome observation = .readyForReview then do
    let signalTimeMs ← orThrow (StageObservation.signalTimeMs observation)
      (.invalid "ready observation lacks signal identity")
    require signalTimeMs.isSome (.invalid "ready observation lacks signal identity")
    let key ← orThrow (signalKey observation) .missing
    if stream.signalKey = some key then
      pure (store, { stream with lastSeenMs := StageObservation.observedAtMs observation })
    else store.startEntry reviewMs observation key stream nowMs
  else if stream.activeEventId.isSome then
    let reason := if StageObservation.outcome observation = .normalNoAction then .decisionChanged else .sourceUnavailable
    store.invalidate (StageObservation.symbol observation) stream reason nowMs (some observation)
  else pure (store, stream)

/-- An observation that is in order. -/
def observeInOrder (reviewMs : ℕ) (observation : O) (stream : SignalStream) (nowMs : ℤ)
    (collectionRunId : Option String) : Except NotificationError (AlertStore O) := do
  let symbol := StageObservation.symbol observation
  if stream.lastResult.isSome ∧ StageObservation.createdAtMs observation = stream.createdAtMs ∧
      StageObservation.observedAtMs observation = stream.observedAtMs then
    require (stream.lastResult = some (StageObservation.resultFingerprint observation))
      (.invalid "conflicting observations at identical timestamps")
    store.saveStream symbol { stream with collectionRunId }
  else
    let (store, stream) ← store.applyOutcome reviewMs observation
      { stream with
        createdAtMs := StageObservation.createdAtMs observation
        observedAtMs := StageObservation.observedAtMs observation
        lastResult := some (StageObservation.resultFingerprint observation)
        collectionRunId } nowMs
    store.saveStream symbol stream

/-- Source: `notifications/service.py` `EmailAlerts._observe`. -/
def observe (reviewMs : ℕ) (nowMs : ℤ) (serviceRunId collectionRunId : Option String) (observation : O) :
    Except AlertError (AlertStore O) := do
  let observation ← orThrow (ReviewObservation.fromDict observation) .schema
  raiseAs .notification do
    let stream ← store.stream (StageObservation.symbol observation)
    let (store, stream) ← store.startEpoch observation stream nowMs serviceRunId
    if isOutOfOrder observation stream nowMs then
      pure { store with outOfOrderObservations := store.outOfOrderObservations + 1 }
    else store.observeInOrder reviewMs observation stream nowMs collectionRunId

end AlertStore

end MuStrategy.Notifications
