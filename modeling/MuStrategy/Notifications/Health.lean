import MuStrategy.Models
import MuStrategy.Notifications.Events

/-!
# The health of the signal service

What the reminders read of the scanner's service: the observations of a scan cycle, the health state the
service publishes, and the view of it at a time.

* `StageObservation`, `ObservationCycle` — the observations of a cycle and its digest.
* `ServiceState` — the published state; `ServiceState.eventsSince` — its events after a cursor.
* `healthView` — whether the service runs, and whether it is healthy.
-/

namespace MuStrategy.Notifications

open Lib

/-! ## Observations -/

/-- Source: `observations.py` `ObservationOutcome`. -/
inductive ObservationOutcome where
  | dataGateBlocked
  | scanFailed
  | normalNoAction
  | readyForReview
  deriving DecidableEq

/-- What reminders and the health view read of a scan observation.
Source: `observations.py` `Stage0Observation`. -/
class StageObservation (O : Type) extends ReviewObservation O where
  symbol : O → String
  createdAtMs : O → ℤ
  observedAtMs : O → ℤ
  outcome : O → ObservationOutcome
  /-- `scan_result.signal_time_ms`; the outer `none`: there is no scan result. -/
  signalTimeMs : O → Option (Option ℤ)
  strategyName : O → String
  strategyConfigFingerprint : O → String
  decisionCode : O → Option EntryDecisionCode
  resultFingerprint : O → HexDigest
  trustAllowed : O → Bool
  trustedRunId : O → Option String
  /-- `observation.to_dict()`. -/
  toDict : O → JsonValue
  /-- The dictionary of an observation reads back as the same observation, or raises. -/
  fromDict_eq : ∀ {o o' : O}, fromDict o = some o' → o' = o

/-- Source: `observations.py` `Stage0ObservationCycle`. -/
structure ObservationCycle (O : Type) where
  cycleId : String
  createdAtMs : ℤ
  observations : List O
  schemaVersion : ℤ := 2
  deriving DecidableEq

/-- `canonical_sha256(cycle.to_dict())`. -/
def ObservationCycle.digest {O : Type} [Sha256] [StageObservation O] (cycle : ObservationCycle O) : HexDigest :=
  canonicalSha256 (.obj [("schema_version", .int cycle.schemaVersion), ("cycle_id", .str cycle.cycleId),
    ("created_at_ms", .int cycle.createdAtMs),
    ("observations", .arr (cycle.observations.map StageObservation.toDict))])

/-! ## The state of the service -/

/-- Source: `service_health.py` `StepStatus`. -/
inductive StepStatus where
  | notRun
  | succeeded
  | degraded
  | failed
  | timedOut
  deriving DecidableEq

/-- The text of a step status. -/
def StepStatus.value : StepStatus → String
  | .notRun => "not_run"
  | .succeeded => "succeeded"
  | .degraded => "degraded"
  | .failed => "failed"
  | .timedOut => "timed_out"

/-- Source: `service_health.py` `Phase`. -/
inductive Phase where
  | idle
  | refresh
  | scan
  deriving DecidableEq

/-- Source: `service_health.py` `RefreshHealth`. -/
structure RefreshHealth where
  status : StepStatus
  runId : Option String

/-- Source: `service_health.py` `ScanHealth`. -/
structure ScanHealth (O : Type) where
  status : StepStatus
  cycle : Option (ObservationCycle O)
  persistence : StepStatus

/-- Source: `service_health.py` `CycleHealth`. -/
structure CycleHealth (O : Type) where
  serviceRunId : String
  startedAtMs : ℕ
  refresh : RefreshHealth
  scan : ScanHealth O

/-- The kinds of a health event. Source: `service_health.py` `HealthEvent.from_dict`. -/
inductive HealthEventKind where
  | started
  | restarted
  | fault
  | recovered
  | stopped
  | interruptionAcknowledged
  deriving DecidableEq

/-- The text of the kind of a health event. -/
def HealthEventKind.value : HealthEventKind → String
  | .started => "started"
  | .restarted => "restarted"
  | .fault => "fault"
  | .recovered => "recovered"
  | .stopped => "stopped"
  | .interruptionAcknowledged => "interruption_acknowledged"

/-- Source: `service_health.py` `HealthEvent`. -/
structure HealthEvent where
  sequence : ℕ
  atMs : ℕ
  kind : HealthEventKind
  problems : List String

/-- Source: `service_health.py` `HealthEvent.to_dict`. -/
def HealthEvent.toDict (event : HealthEvent) : JsonValue :=
  .obj [("sequence", .int event.sequence), ("at_ms", .int event.atMs), ("kind", .str event.kind.value),
    ("problems", .arr (event.problems.map .str))]

/-- The fields that reminders read. Source: `service_health.py` `ServiceState`. -/
structure ServiceState (O : Type) where
  symbols : List String
  runId : String
  running : Bool
  phase : Phase
  updatedAtMs : ℕ
  deadlineMs : ℕ
  lastCycle : Option (CycleHealth O)
  events : List HealthEvent
  eventSequence : ℕ

variable {O : Type}

/-- The events after a cursor; `none`: the cursor is outside the retained range.
Source: `service_health.py` `ServiceState.events_since`. -/
def ServiceState.eventsSince (state : ServiceState O) (sequence : ℕ) : Option (List HealthEvent) :=
  let oldest : ℤ :=
    match state.events with
    | [] => state.eventSequence
    | event :: _ => event.sequence - 1
  if oldest ≤ sequence ∧ sequence ≤ state.eventSequence then
    some (state.events.filter fun event => sequence < event.sequence)
  else none

variable [StageObservation O]

/-- Source: `service_health.py` `CycleHealth.problems`. -/
def CycleHealth.problems (cycle : CycleHealth O) : List String :=
  let observations := (cycle.scan.cycle.map ObservationCycle.observations).getD []
  let outcomes := observations.map StageObservation.outcome
  (if cycle.refresh.status ≠ .succeeded then ["refresh." ++ cycle.refresh.status.value] else []) ++
    (if cycle.scan.status ≠ .succeeded then ["scan." ++ cycle.scan.status.value] else []) ++
    (if .dataGateBlocked ∈ outcomes then ["data.blocked"] else []) ++
    (if .scanFailed ∈ outcomes then ["scan.failed"] else []) ++
    (if cycle.refresh.status = .succeeded ∧ (observations.any fun item => StageObservation.trustAllowed item &&
        StageObservation.trustedRunId item ≠ cycle.refresh.runId) then ["data.publication_changed"] else []) ++
    (if cycle.scan.persistence ≠ .succeeded then ["persistence." ++ cycle.scan.persistence.value] else [])

/-- What the service does at a time. Source: `service_health.py` `health_view`, its variable `runtime`. -/
inductive Runtime where
  | notStarted
  | starting
  | running
  | stopped
  | interrupted
  | unresponsive
  /-- Only the reminders use it. Source: `notifications/service.py` `EmailAlerts.source_unavailable`. -/
  | sourceUnavailable
  deriving DecidableEq

/-- The text of a runtime. -/
def Runtime.value : Runtime → String
  | .notStarted => "not_started"
  | .starting => "starting"
  | .running => "running"
  | .stopped => "stopped"
  | .interrupted => "interrupted"
  | .unresponsive => "unresponsive"
  | .sourceUnavailable => "source_unavailable"

/-- The parts of the view that reminders read. -/
structure HealthView where
  runtime : Runtime
  problems : List String

/-- `view["healthy"]`. -/
def HealthView.healthy (view : HealthView) : Bool := view.problems.isEmpty

/-- The runtime of a published state, whose supervisor is alive or not. -/
def ServiceState.runtime (state : ServiceState O) (alive : Bool) (nowMs : ℤ) : Runtime :=
  if !state.running then .stopped
  else if !alive then
    let currentCycle := state.lastCycle.any fun cycle => cycle.serviceRunId = state.runId
    if state.phase = .idle ∧ !currentCycle ∧ (state.updatedAtMs : ℤ) ≤ nowMs ∧ nowMs ≤ state.deadlineMs then .starting
    else .interrupted
  else if nowMs < state.updatedAtMs ∨ (state.deadlineMs : ℤ) < nowMs then .unresponsive
  else .running

/-- Source: `service_health.py` `health_view`. -/
def healthView (state : Option (ServiceState O)) (alive : Bool) (nowMs : ℤ) : HealthView :=
  match state with
  | none => ⟨.notStarted, ["runtime.not_started"]⟩
  | some state =>
      let runtime := state.runtime alive nowMs
      let problems :=
        match state.lastCycle with
        | none => ["no_completed_cycle"]
        | some cycle =>
            cycle.problems ++ if cycle.serviceRunId ≠ state.runId then ["no_completed_cycle_in_current_run"] else []
      ⟨runtime, problems ++ if runtime ≠ .running then ["runtime." ++ runtime.value] else []⟩

end MuStrategy.Notifications
