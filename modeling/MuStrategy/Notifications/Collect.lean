import MuStrategy.Notifications.Streams

/-!
# Collections

A collection is one transaction: it consumes the next cycles of the observation log, compares them with the
health of the service, and reviews the active entries.

* `ObservationLog.readBatch` — the records after the cursor.
* `collect` — a collection; `consumeCycle`, `rematch`, `healthEvents`, `runtimeChanged`, `reviewStream` are its parts.
* `sourceUnavailable`, `observationUnavailable` — the transactions when the source cannot be read.
* `reconcileHealth` — the operator's command after a gap in the health history.
-/

namespace MuStrategy.Notifications

open Lib

variable {O : Type}

/-! ## The observation log -/

/-- The committed records, and whether the marker of an unfinished append is there.
Source: `observations.py` `JsonlObservationRepository`. -/
structure ObservationLog (O : Type) where
  records : List (ObservationCycle O) := []
  invalidMarker : Bool := false

/-- The records after a cursor. Source: `observations.py` `JsonlObservationRepository.read_batch`. -/
def ObservationLog.readBatch (log : ObservationLog O) (offset limit : ℕ) :
    Except AlertError (List (ObservationCycle O)) := do
  require (!log.invalidMarker) (.corruption "observation repository has an unresolved failed-write marker")
  require (offset ≤ log.records.length) (.corruption "observation cursor boundary changed")
  pure ((log.records.drop offset).take limit)

/-- What a reader finds that looked at the log when it had this many records, and no append was unfinished before or
after. An append that starts meanwhile is seen in part or not at all. -/
def ObservationLog.before (log : ObservationLog O) (found : ℕ) : ObservationLog O := ⟨log.records.take found, false⟩

/-- What `health.snapshot()` returns: the published state and whether its supervisor is alive. `none` raises. -/
abbrev Snapshot (O : Type) := Option (Option (ServiceState O) × Bool)

/-- Source: `notifications/service.py` `EmailAlerts.__init__`. -/
structure EmailAlerts where
  reviewMs : ℕ
  dataDir : String

/-! ## What a collection knows -/

/-- The health of the service at the time of a collection. -/
structure Collection (O : Type) where
  state : Option (ServiceState O)
  alive : Bool
  nowMs : ℤ

namespace Collection

variable (c : Collection O)

/-- `state.run_id if state else None`. -/
def runId : Option String := c.state.map ServiceState.runId

/-- The last cycle of the service: `current`. -/
def current : Option (ObservationCycle O) := do
  let state ← c.state
  let cycle ← state.lastCycle
  cycle.scan.cycle

/-- The run of the last cycle, if it is the current one: `current_run`. -/
def currentRun : Option String := do
  let state ← c.state
  let cycle ← state.lastCycle
  let _ ← cycle.scan.cycle
  if cycle.serviceRunId = state.runId then some state.runId else none

variable [StageObservation O]

def view : HealthView := healthView c.state c.alive c.nowMs

/-- The last cycle of the service is a cycle: `cycle_hash == current_hash`. -/
def isCurrent [Sha256] (digest : Option HexDigest) : Bool := c.current.any fun cycle => digest = some cycle.digest

/-- A failed scan of the current run that started after the evidence of a stream: `failed_attempt`. -/
def failedAttempt (stream : SignalStream) : Bool :=
  (c.state.bind ServiceState.lastCycle).any fun latest =>
    c.runId = some latest.serviceRunId &&
      (latest.scan.status ≠ .succeeded || latest.scan.persistence ≠ .succeeded) &&
      ((stream.collectionRunId.isSome && stream.collectionRunId ≠ some latest.serviceRunId) ||
        max stream.createdAtMs stream.observedAtMs ≤ latest.startedAtMs)

end Collection

/-! ## The parts of a collection -/

namespace AlertStore

variable [DecidableEq O] [Sha256] [StageObservation O] (alerts : EmailAlerts) (c : Collection O)

/-- The observations of a cycle, in order. -/
def observeAll (serviceRunId : Option String) (store : AlertStore O) (observations : List O) :
    Except AlertError (AlertStore O) :=
  observations.foldlM (fun store observation =>
    store.observe alerts.reviewMs c.nowMs serviceRunId c.runId observation) store

/-- A record of the log: a cycle that was consumed before is skipped.
Source: `notifications/service.py` `EmailAlerts.collect`, its loop over the cycles. -/
def consumeCycle (store : AlertStore O) (cycle : ObservationCycle O) : Except AlertError (AlertStore O) :=
  match Table.lookup Prod.fst store.consumedCycles cycle.cycleId with
  | some (_, previous) => do
      require (previous = cycle.digest) (.corruption "observation cycle identity reused with different content")
      pure store
  | none => do
      let consumed := { store with consumedCycles := store.consumedCycles ++ [(cycle.cycleId, cycle.digest)] }
      let serviceRunId := if c.isCurrent (some cycle.digest) then c.currentRun else none
      let observed ← observeAll alerts c serviceRunId consumed cycle.observations
      pure { observed with lastCycleSha256 := some cycle.digest }

/-- An observation of the last cycle, for a stream that has not seen its run. -/
def rematchOne (store : AlertStore O) (observation : O) : Except AlertError (AlertStore O) := do
  let stream ← raiseAs .notification (store.stream (StageObservation.symbol observation))
  if stream.serviceRunId = c.currentRun then pure store
  else store.observe alerts.reviewMs c.nowMs c.currentRun c.runId observation

/-- The last cycle of the service, if it was consumed. -/
def rematch (store : AlertStore O) : Except AlertError (AlertStore O) :=
  match c.current with
  | some cycle =>
      if c.isCurrent store.lastCycleSha256 ∧ c.currentRun.isSome then
        cycle.observations.foldlM (rematchOne alerts c) store
      else pure store
  | none => pure store

/-- The reminder of a health event. -/
def healthAlert (event : HealthEvent) : AlertEvent O where
  kind := if event.kind = .recovered then .serviceRecovered else .serviceFault
  identity := canonicalSha256 (.obj [("source", .str alerts.dataDir), ("event", event.toDict)])
  occurredAtMs := event.atMs
  reviewUntilMs := none
  reason := .healthEvent
  problems := if event.kind = .stopped then ["runtime.stopped"] else event.problems

/-- One health event. -/
def healthEvent (runId : String) (store : AlertStore O) (event : HealthEvent) :
    Except NotificationError (AlertStore O) :=
  if event.kind = .fault ∨ event.kind = .recovered ∨ event.kind = .stopped then do
    let alert ← (healthAlert alerts event).make
    let delivery ← store.delivery.enqueue alert c.nowMs none
    let runtime := if event.kind = .stopped then some (.stopped, some runId) else store.runtime
    pure { store with delivery, runtime }
  else pure store

/-- Source: `notifications/service.py` `EmailAlerts._health_events`. -/
def healthEvents (store : AlertStore O) : Except AlertError (AlertStore O) :=
  match c.state with
  | none => do
      require (store.healthCursor = 0) (.health "service health history disappeared")
      pure store
  | some state => do
      let events ← orThrow (state.eventsSince store.healthCursor) (.health "event cursor outside retained range")
      let store ← raiseAs .notification (events.foldlM (healthEvent alerts c state.runId) store)
      pure { store with healthCursor := state.eventSequence }

/-- The reminder of a change of the runtime. -/
def runtimeAlert (runtime : Runtime) (sequence occurredAtMs : ℕ) : AlertEvent O where
  kind := if runtime = .running then .serviceRecovered else .serviceFault
  identity := canonicalSha256 (.obj [("source", .str alerts.dataDir), ("runtime_transition", .int sequence)])
  occurredAtMs := occurredAtMs
  reviewUntilMs := none
  reason := .runtimeChanged
  problems := if runtime = .running then [] else ["runtime." ++ runtime.value]

/-- Source: `notifications/service.py` `EmailAlerts._runtime`. -/
def runtimeChanged (runtime : Runtime) (runId : Option String) (nowMs : ℤ) (store : AlertStore O) :
    Except NotificationError (AlertStore O) :=
  let key := if runtime = .running then (runtime, none) else (runtime, runId)
  if runtime = .notStarted ∨ runtime = .starting ∨ store.runtime = some key then pure store
  else if runtime ≠ .running ∨ store.runtime.any fun previous => previous.1 ≠ .running then do
    let occurredAtMs ← integer nowMs
    let alert ← (runtimeAlert alerts runtime (store.runtimeSequence + 1) occurredAtMs).make
    let delivery ← store.delivery.enqueue alert nowMs none
    pure { store with delivery, runtimeSequence := store.runtimeSequence + 1, runtime := some key }
  else pure { store with runtime := some key }

/-- Whether the active entry of a symbol is withdrawn: the service failed, or its cycle no longer serves the symbol. -/
def lostSource (caughtUp : Bool) (symbol : String) (stream : SignalStream) : Bool :=
  c.view.runtime = .stopped || c.view.runtime = .interrupted || c.view.runtime = .unresponsive ||
    c.failedAttempt stream ||
    (caughtUp && c.currentRun.isSome && (!c.view.healthy || c.state.any fun state => !state.symbols.contains symbol))

/-- An entry whose review is over is suppressed. -/
def expireReview (nowMs : ℤ) (store : AlertStore O) (entry : AlertEvent O) (reviewUntilMs : ℕ) :
    Except NotificationError (AlertStore O) :=
  if reviewUntilMs ≤ nowMs then do
    let delivery ← store.delivery.suppress entry.eventId .reviewExpired nowMs
    pure { store with delivery }
  else pure store

/-- The review of the active entry of a symbol.
Source: `notifications/service.py` `EmailAlerts.collect`, its loop over the symbols. -/
def reviewStream (caughtUp : Bool) (store : AlertStore O) (symbol : String) :
    Except NotificationError (AlertStore O) := do
  let stream ← store.stream symbol
  match stream.activeEventId with
  | none => pure store
  | some activeEventId =>
      let entry ← store.delivery.record activeEventId
      let entry ← orThrow entry (.invalid "active reminder has no persisted entry")
      let reviewUntilMs ← orThrow entry.event.reviewUntilMs .missing
      let store ← expireReview c.nowMs store entry.event reviewUntilMs
      if lostSource c caughtUp symbol stream ∨ c.nowMs < stream.lastSeenMs then
        let (store, _) ← store.invalidate symbol stream .sourceUnavailable c.nowMs none
        pure store
      else pure store

/-- A collection. Source: `notifications/service.py` `EmailAlerts.collect`. -/
def collect (log : ObservationLog O) (snapshot : Snapshot O) (nowMs : ℤ) (store : AlertStore O) :
    Except AlertError (AlertStore O) := do
  let cycles ← log.readBatch store.observationCursor 1000
  let (state, alive) ← orThrow snapshot (.health "notification health source unreadable")
  let c : Collection O := ⟨state, alive, nowMs⟩
  let consumed ← cycles.foldlM (consumeCycle alerts c) store
  let consumed := { consumed with observationCursor := store.observationCursor + cycles.length }
  let caughtUp := c.isCurrent consumed.lastCycleSha256
  let matched ← rematch alerts c consumed
  let informed ← healthEvents alerts c matched
  let informed ← raiseAs .notification
    (if c.view.runtime ≠ .running ∨ c.view.healthy then runtimeChanged alerts c.view.runtime c.runId nowMs informed
    else pure informed)
  let reviewed ← raiseAs .notification (informed.symbols.foldlM (reviewStream c caughtUp) informed)
  pure { reviewed with sourceReady := c.view.healthy && caughtUp, logUnavailableSinceMs := none }

/-- The withdrawal of the active entry of a symbol, if it has one. -/
def withdraw (nowMs : ℤ) (store : AlertStore O) (symbol : String) : Except NotificationError (AlertStore O) := do
  let stream ← store.stream symbol
  if stream.activeEventId.isSome then
    let (store, _) ← store.invalidate symbol stream .sourceUnavailable nowMs none
    pure store
  else pure store

/-- Source: `notifications/service.py` `EmailAlerts.source_unavailable`. -/
def sourceUnavailable (nowMs : ℤ) (store : AlertStore O) : Except AlertError (AlertStore O) :=
  raiseAs .notification do
    let store ← runtimeChanged alerts .sourceUnavailable none nowMs { store with sourceReady := false }
    store.symbols.foldlM (withdraw nowMs) store

/-- The first transaction. Source: `notifications/service.py` `EmailAlerts.observation_unavailable`. -/
def observationUnavailable (nowMs : ℤ) (store : AlertStore O) : Except NotificationError (AlertStore O) := do
  require (store.logUnavailableSinceMs.all (0 ≤ ·)) (.invalid "invalid notification integer")
  let since := (store.logUnavailableSinceMs.filter fun since => since ≤ nowMs).getD nowMs
  pure { store with logUnavailableSinceMs := some since, sourceReady := false }

/-- The audit event of the operator's command. -/
def reconciliationAlert (oldCursor newCursor occurredAtMs : ℕ) : AlertEvent O where
  kind := .serviceFault
  identity := canonicalSha256 (.obj [("data_dir", .str alerts.dataDir), ("old_cursor", .int oldCursor),
    ("new_cursor", .int newCursor), ("acknowledged_at_ms", .int occurredAtMs)])
  occurredAtMs := occurredAtMs
  reviewUntilMs := none
  reason := .healthEvent
  problems := ["notification.health_history_gap_acknowledged"]

/-- Source: `notifications/service.py` `EmailAlerts.reconcile_health`. -/
def reconcileHealth (state : ServiceState O) (nowMs : ℤ) (store : AlertStore O) :
    Except NotificationError (AlertStore O) := do
  let occurredAtMs ← integer nowMs
  let audit ← (reconciliationAlert alerts store.healthCursor state.eventSequence occurredAtMs).make
  let delivery ← store.delivery.enqueue audit nowMs (some .historicalEvent)
  pure { store with delivery, healthCursor := state.eventSequence }

end AlertStore

end MuStrategy.Notifications
