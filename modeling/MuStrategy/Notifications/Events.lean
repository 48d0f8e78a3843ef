import MuStrategy.Canonical
import MuStrategy.Lib.Check

/-!
# Reminder events

The events a signal-mail outbox stores: what they are about, until when an entry can be reviewed,
and the checks every event passes before it is stored and after it is read.

* `AlertEvent` — an event, over an arbitrary type of scan observations.
* `AlertEvent.postInit` — the checks of the constructor; `AlertEvent.fromJson` — an event read back
  from its canonical text.
-/

namespace MuStrategy.Notifications

open Lib

/-- What a notification call raises. -/
inductive NotificationError where
  /-- `NotificationError(text)`. Source: `notifications/events.py` `NotificationError`. -/
  | invalid (text : String)
  /-- `OverflowError`: the integer does not fit a column. -/
  | overflow
  /-- `AttributeError` or `TypeError`: a value that has to be there is `None`. -/
  | missing
  deriving DecidableEq

/-- Source: `notifications/events.py` `AlertKind`. -/
inductive AlertKind where
  | entryReview
  | signalInvalidated
  | serviceFault
  | serviceRecovered
  deriving DecidableEq

/-- Source: `notifications/events.py` `DeliveryState`. -/
inductive DeliveryState where
  | pending
  | confirmed
  | failed
  | unknown
  deriving DecidableEq

/-- The reasons of an event. Source: `notifications/events.py` `AlertEvent.__post_init__`. -/
inductive AlertReason where
  | ready
  | decisionChanged
  | sourceUnavailable
  | reviewExpired
  | signalReplaced
  | healthEvent
  | runtimeChanged
  deriving DecidableEq

instance : PyEnum AlertKind where
  members := [.entryReview, .signalInvalidated, .serviceFault, .serviceRecovered]
  value
    | .entryReview => "entry_review"
    | .signalInvalidated => "signal_invalidated"
    | .serviceFault => "service_fault"
    | .serviceRecovered => "service_recovered"
  find_value kind := by cases kind <;> decide

instance : PyEnum DeliveryState where
  members := [.pending, .confirmed, .failed, .unknown]
  value
    | .pending => "pending"
    | .confirmed => "confirmed"
    | .failed => "failed"
    | .unknown => "unknown"
  find_value state := by cases state <;> decide

/-- `integer(value, minimum=0)`. Source: `notifications/events.py` `integer`. -/
def integer (value : ℤ) : Except NotificationError ℕ := do
  require (0 ≤ value) (.invalid "invalid notification integer")
  pure value.toNat

/-- A non-negative integer bound to a 64-bit column. -/
def column (value : ℕ) : Except NotificationError ℕ := do
  require (value < 2 ^ 63) .overflow
  pure value

/-- The scan observations an event can carry.
Source: `observations.py` `Stage0Observation`, as far as reminders read it. -/
class ReviewObservation (O : Type) where
  /-- The outcome is `READY_FOR_REVIEW`, with signal time, trigger price and initial stop. -/
  completeReady : O → Bool
  /-- `Stage0Observation.from_dict(observation.to_dict())`; `none` when it raises. -/
  fromDict : O → Option O

/-- A reminder event. Source: `notifications/events.py` `AlertEvent`. -/
structure AlertEvent (O : Type) where
  kind : AlertKind
  identity : HexDigest
  occurredAtMs : ℕ
  reviewUntilMs : Option ℕ
  reason : AlertReason
  observation : Option O := none
  relatedEventId : Option HexDigest := none
  problems : List String := []
  deriving DecidableEq

/-- A character of `[a-zA-Z0-9_.-]`. -/
def isProblemChar (c : Char) : Bool :=
  ('a' ≤ c && c ≤ 'z') || ('A' ≤ c && c ≤ 'Z') || ('0' ≤ c && c ≤ '9') || c = '_' || c = '.' ||
    c = '-'

/-- `[a-zA-Z0-9_.-]{1,100}`. -/
def isProblem (value : String) : Bool :=
  0 < value.toList.length && value.toList.length ≤ 100 && value.toList.all isProblemChar

namespace AlertEvent

variable {O : Type}

/-- `event.event_id`. Source: `notifications/events.py` `AlertEvent.event_id`. -/
def eventId [Sha256] (event : AlertEvent O) : HexDigest :=
  canonicalSha256 (.obj [("kind", .str (PyEnum.value event.kind)), ("identity", .str event.identity.text)])

variable [ReviewObservation O]

/-- The checks on an event that carries an observation. -/
def checkSignal (event : AlertEvent O) : Except NotificationError Unit := do
  let observation ← orThrow event.observation (.invalid "signal reminder requires an observation")
  require event.problems.isEmpty (.invalid "signal reminder requires an observation")
  require (ReviewObservation.fromDict observation).isSome (.invalid "invalid observation")
  if event.kind = .entryReview then
    require (ReviewObservation.completeReady observation && event.reviewUntilMs.isSome &&
      event.relatedEventId.isNone && event.reason = .ready)
      (.invalid "entry reminder requires complete ready evidence")
  else
    require (event.relatedEventId.isSome && event.reviewUntilMs.isNone)
      (.invalid "invalidation requires its entry identity")

/-- The checks on an event about the service. -/
def checkService (event : AlertEvent O) : Except NotificationError Unit :=
  require (event.observation.isNone && event.relatedEventId.isNone && event.reviewUntilMs.isNone)
    (.invalid "health reminder cannot invent signal context")

/-- The checks of the constructor. The types of `kind`, `identity`, `occurredAtMs`, `reason` and
`relatedEventId` carry theirs. Source: `notifications/events.py` `AlertEvent.__post_init__`. -/
def postInit (event : AlertEvent O) : Except NotificationError Unit := do
  require (event.reviewUntilMs.all fun reviewUntil => event.occurredAtMs + 1 ≤ reviewUntil)
    (.invalid "invalid notification integer")
  require (event.problems.all isProblem) (.invalid "invalid health problem")
  if event.kind = .entryReview ∨ event.kind = .signalInvalidated then event.checkSignal
  else event.checkService

/-- The observation of an event read back from its canonical text. -/
def fromJsonObservation (event : AlertEvent O) : Except NotificationError (Option O) :=
  match event.observation with
  | none => pure none
  | some observation =>
      some <$> orThrow (ReviewObservation.fromDict observation) (.invalid "invalid alert payload")

/-- An event read back from its canonical text `event.to_json()`.
Source: `notifications/events.py` `AlertEvent.from_json`. -/
def fromJson (event : AlertEvent O) : Except NotificationError (AlertEvent O) := do
  let observation ← event.fromJsonObservation
  let result := { event with observation }
  raiseAs (fun _ => .invalid "invalid alert payload") result.postInit
  pure result

/-- Reading an event back keeps its identity. -/
lemma eventId_of_fromJson [Sha256] {event result : AlertEvent O} (h : event.fromJson = .ok result) :
    result.eventId = event.eventId := by
  simp only [fromJson, bind_eq_ok, raiseAs_eq_ok, pure_eq_ok_iff] at h
  obtain ⟨observation, -, _, -, rfl⟩ := h
  rfl

end AlertEvent

end MuStrategy.Notifications
