import MuStrategy.Notifications.Changes

/-!
# What the parts of a collection leave alone

Only the loop over the records consumes cycles, and only the health events move the health cursor and store reminders
about the service's own events.

* `Database.healthAlerts` — the stored health-event reminders, in the order they were stored.
* `Keeps` — a step that leaves them, the health cursor and the consumed cycles alone; one lemma for each part.
  `KeepsRecords` — the consumed cycles alone.
* `applyCycle`, `collectBatch` — a record that is new, and a collection after its records were read.
-/

namespace MuStrategy.Notifications

open Lib

variable {O : Type}

/-! ## Health-event reminders -/

namespace Database

/-- The stored events that report events of the service's own journal. -/
def healthAlerts (db : Database O) : List (AlertEvent O) :=
  (db.outbox.map OutboxRow.payload).filter fun event => event.reason = .healthEvent

variable {db db' : Database O}

lemma healthAlerts_congr (h : db'.outbox = db.outbox) : db'.healthAlerts = db.healthAlerts := by
  unfold healthAlerts
  rw [h]

/-- Rows that keep their payloads keep the reminders. -/
lemma healthAlerts_map {g : OutboxRow O → OutboxRow O} (hg : ∀ r ∈ db.outbox, (g r).payload = r.payload)
    (h : db'.outbox = db.outbox.map g) : db'.healthAlerts = db.healthAlerts := by
  unfold healthAlerts
  rw [h, List.map_map]
  exact congrArg _ (List.map_congr_left hg)

variable [Sha256] {nowMs : ℤ}

/-- Storing an event about something else. -/
lemma Stores.healthAlerts {event : AlertEvent O} {suppressed : Option SuppressedReason}
    (h : Stores db event suppressed db'.outbox) (hreason : event.reason ≠ .healthEvent) :
    db'.healthAlerts = db.healthAlerts := by
  generalize hout : db'.outbox = outbox at h
  cases h with
  | found => exact healthAlerts_congr hout
  | added hfresh =>
      unfold Database.healthAlerts
      rw [hout, List.map_append, List.filter_append, List.map_singleton, newRow, List.filter_singleton]
      simp [hreason]

variable [StageObservation O]

lemma healthAlerts_suppress {eventId : HexDigest} {reason : SuppressedReason}
    (h : db.suppress eventId reason nowMs = .ok db') : db'.healthAlerts = db.healthAlerts := by
  simp only [suppress, bind_eq_ok, orThrow_eq_ok] at h
  obtain ⟨_, -, record, -, h⟩ := h
  split at h
  · rw [setSuppressed] at h
    refine healthAlerts_map (g := fun r => if r.eventId = eventId then { r with suppressedReason := some reason } else r)
      (fun r _ => ?_) ?_
    · split <;> rfl
    · rw [outbox_history h, updateRow, Table.update]
      simp only [decide_eq_true_eq]
  · obtain rfl := pure_eq_ok_iff.mp h
    rfl

end Database

lemma Delivers.healthAlerts {db db' : Database O} (h : Delivers db db') : db'.healthAlerts = db.healthAlerts := by
  obtain ⟨g, hg, hout⟩ := h
  exact Database.healthAlerts_map (fun r hr => (hg r hr).payload) hout

/-! ## Frames -/

/-- What was consumed of the log is as before. -/
structure KeepsRecords (store store' : AlertStore O) : Prop where
  consumedCycles : store'.consumedCycles = store.consumedCycles
  observationCursor : store'.observationCursor = store.observationCursor
  lastCycle : store'.lastCycleSha256 = store.lastCycleSha256

namespace KeepsRecords

variable {store store' store'' : AlertStore O}

lemma refl (store : AlertStore O) : KeepsRecords store store := ⟨rfl, rfl, rfl⟩

lemma trans (h : KeepsRecords store store') (h' : KeepsRecords store' store'') : KeepsRecords store store'' where
  consumedCycles := h'.consumedCycles.trans h.consumedCycles
  observationCursor := h'.observationCursor.trans h.observationCursor
  lastCycle := h'.lastCycle.trans h.lastCycle

end KeepsRecords

/-- What was consumed, the health cursor and the health-event reminders are as before. -/
structure Keeps (store store' : AlertStore O) : Prop extends KeepsRecords store store' where
  healthCursor : store'.healthCursor = store.healthCursor
  healthAlerts : store'.delivery.healthAlerts = store.delivery.healthAlerts

namespace Keeps

variable {store store' store'' : AlertStore O}

lemma refl (store : AlertStore O) : Keeps store store := ⟨.refl store, rfl, rfl⟩

lemma trans (h : Keeps store store') (h' : Keeps store' store'') : Keeps store store'' where
  toKeepsRecords := h.toKeepsRecords.trans h'.toKeepsRecords
  healthCursor := h'.healthCursor.trans h.healthCursor
  healthAlerts := h'.healthAlerts.trans h.healthAlerts

/-- A loop over steps that leave them alone. -/
lemma foldlM {α ε : Type} {f : AlertStore O → α → Except ε (AlertStore O)} {xs : List α}
    (hf : ∀ store x store', f store x = .ok store' → Keeps store store') (h : xs.foldlM f store = .ok store') :
    Keeps store store' :=
  foldlM_invariant (I := Keeps store) (fun s x s' _ hs hx => hs.trans (hf s x s' hx)) (.refl store) h

end Keeps

section transactions

variable [DecidableEq O] [Sha256] [StageObservation O] {store store' : AlertStore O} {symbol : String}
  {stream stream' : SignalStream} {nowMs : ℤ} {observation : O}

/-- An event about something else is stored, and other tables are written. -/
lemma keeps_enqueue {event : AlertEvent O} {suppressed : Option SuppressedReason} {db : Database O} {stored : AlertStore O}
    (h : store.delivery.enqueue event nowMs suppressed = .ok db) (hreason : event.reason ≠ .healthEvent)
    (hstored : Keeps { store with delivery := db } stored) : Keeps store stored := by
  have hstore : Keeps store { store with delivery := db } :=
    ⟨⟨rfl, rfl, rfl⟩, rfl, (Database.spec_stores h).healthAlerts hreason⟩
  exact hstore.trans hstored

omit [DecidableEq O] in
lemma keeps_suppress {eventId : HexDigest} {reason : SuppressedReason} {db : Database O}
    (h : store.delivery.suppress eventId reason nowMs = .ok db) : Keeps store { store with delivery := db } :=
  ⟨⟨rfl, rfl, rfl⟩, rfl, Database.healthAlerts_suppress h⟩

omit [DecidableEq O] [Sha256] [StageObservation O] in
lemma keeps_saveStream (h : store.saveStream symbol stream = .ok store') : Keeps store store' := by
  obtain ⟨-, rfl⟩ := AlertStore.saveStream_eq_ok.mp h
  exact ⟨⟨rfl, rfl, rfl⟩, rfl, rfl⟩

lemma keeps_invalidate {reason : InvalidationReason} {observation : Option O}
    (h : store.invalidate symbol stream reason nowMs observation = .ok (store', stream')) : Keeps store store' := by
  simp only [AlertStore.invalidate, bind_eq_ok, orThrow_eq_ok, pure_eq_ok_iff, Prod.mk.injEq, AlertEvent.make] at h
  obtain ⟨activeEventId, -, _, -, entry, -, occurredAtMs, -, event, ⟨_, -, rfl⟩, stored, hstored, db, hdb, saved, hsaved,
    rfl, -⟩ := h
  have hstore : Keeps store { store with delivery := stored } := by
    refine keeps_enqueue hstored ?_ (.refl _)
    cases reason <;> simp [invalidationEvent, InvalidationReason.alert]
  have hsuppress : Keeps { store with delivery := stored } { store with delivery := db } :=
    keeps_suppress hdb
  exact (hstore.trans hsuppress).trans (keeps_saveStream hsaved)

lemma keeps_startEpoch {serviceRunId : Option String}
    (h : store.startEpoch observation stream nowMs serviceRunId = .ok (store', stream')) : Keeps store store' := by
  unfold AlertStore.startEpoch at h
  split at h
  · split at h
    · simp only [bind_eq_ok, pure_eq_ok_iff, Prod.exists, Prod.mk.injEq] at h
      obtain ⟨store₁, stream₁, hfirst, rfl, -⟩ := h
      exact keeps_invalidate hfirst
    · simp only [pure_bind, pure_eq_ok_iff, Prod.mk.injEq] at h
      obtain ⟨rfl, -⟩ := h
      exact .refl _
  · simp only [pure_eq_ok_iff, Prod.mk.injEq] at h
    obtain ⟨rfl, -⟩ := h
    exact .refl _

lemma keeps_startEntry {reviewMs : ℕ} {key : HexDigest}
    (h : store.startEntry reviewMs observation key stream nowMs = .ok (store', stream')) : Keeps store store' := by
  unfold AlertStore.startEntry at h
  split at h
  · simp only [bind_eq_ok, pure_eq_ok_iff, Prod.exists, Prod.mk.injEq, AlertEvent.make] at h
    obtain ⟨store₁, stream₁, hfirst, occurredAtMs, -, event, ⟨_, -, rfl⟩, db, hdb, rfl, -⟩ := h
    exact (keeps_invalidate hfirst).trans (keeps_enqueue hdb (by simp [entryEvent]) (.refl _))
  · simp only [pure_bind, bind_eq_ok, pure_eq_ok_iff, Prod.mk.injEq, AlertEvent.make] at h
    obtain ⟨occurredAtMs, -, event, ⟨_, -, rfl⟩, db, hdb, rfl, -⟩ := h
    exact keeps_enqueue hdb (by simp [entryEvent]) (.refl _)

lemma keeps_applyOutcome {reviewMs : ℕ} (h : store.applyOutcome reviewMs observation stream nowMs = .ok (store', stream')) :
    Keeps store store' := by
  unfold AlertStore.applyOutcome at h
  split at h
  · simp only [bind_eq_ok, orThrow_eq_ok, require_eq_ok, exists_const] at h
    obtain ⟨_, -, -, key, -, h⟩ := h
    split at h
    · simp only [pure_eq_ok_iff, Prod.mk.injEq] at h
      obtain ⟨rfl, -⟩ := h
      exact .refl _
    · exact keeps_startEntry h
  split at h
  · exact keeps_invalidate h
  · simp only [pure_eq_ok_iff, Prod.mk.injEq] at h
    obtain ⟨rfl, -⟩ := h
    exact .refl _

lemma keeps_observe {reviewMs : ℕ} {serviceRunId collectionRunId : Option String}
    (h : store.observe reviewMs nowMs serviceRunId collectionRunId observation = .ok store') : Keeps store store' := by
  simp only [AlertStore.observe, bind_eq_ok, raiseAs_eq_ok] at h
  obtain ⟨o, -, stream, -, ⟨store₁, stream₁⟩, hepoch, h⟩ := h
  have hfirst := keeps_startEpoch hepoch
  split at h
  · obtain rfl := pure_eq_ok_iff.mp h
    exact hfirst.trans ⟨⟨rfl, rfl, rfl⟩, rfl, rfl⟩
  refine hfirst.trans ?_
  unfold AlertStore.observeInOrder at h
  split at h
  · simp only [bind_eq_ok, require_eq_ok, exists_const] at h
    exact keeps_saveStream h.2
  · simp only [bind_eq_ok, Prod.exists] at h
    obtain ⟨store₂, stream₂, happly, hsave⟩ := h
    exact (keeps_applyOutcome happly).trans (keeps_saveStream hsave)

variable {alerts : EmailAlerts} {c : Collection O}

lemma keeps_observeAll {serviceRunId : Option String} {observations : List O}
    (h : AlertStore.observeAll alerts c serviceRunId store observations = .ok store') : Keeps store store' :=
  Keeps.foldlM (fun _ _ _ h => keeps_observe h) h

lemma keeps_rematch (h : store.rematch alerts c = .ok store') : Keeps store store' := by
  unfold AlertStore.rematch at h
  split at h
  · split at h
    · refine Keeps.foldlM (fun store o store' h => ?_) h
      simp only [AlertStore.rematchOne, bind_eq_ok] at h
      obtain ⟨stream, -, h⟩ := h
      split at h
      · obtain rfl := pure_eq_ok_iff.mp h
        exact .refl _
      · exact keeps_observe h
    · obtain rfl := pure_eq_ok_iff.mp h
      exact .refl _
  · obtain rfl := pure_eq_ok_iff.mp h
    exact .refl _

lemma keeps_runtimeChanged {runtime : Runtime} {runId : Option String}
    (h : store.runtimeChanged alerts runtime runId nowMs = .ok store') : Keeps store store' := by
  simp only [AlertStore.runtimeChanged] at h
  generalize (if runtime = .running then (runtime, none) else (runtime, runId)) = key at h
  split at h
  · obtain rfl := pure_eq_ok_iff.mp h
    exact .refl _
  split at h
  · simp only [bind_eq_ok, pure_eq_ok_iff, AlertEvent.make] at h
    obtain ⟨occurredAtMs, -, alert, ⟨_, -, rfl⟩, db, hdb, rfl⟩ := h
    exact keeps_enqueue hdb (by simp [AlertStore.runtimeAlert]) ⟨⟨rfl, rfl, rfl⟩, rfl, rfl⟩
  · obtain rfl := pure_eq_ok_iff.mp h
    exact ⟨⟨rfl, rfl, rfl⟩, rfl, rfl⟩

lemma keeps_reviewStream {caughtUp : Bool} (h : store.reviewStream c caughtUp symbol = .ok store') : Keeps store store' := by
  simp only [AlertStore.reviewStream, bind_eq_ok] at h
  obtain ⟨stream, -, h⟩ := h
  split at h
  · obtain rfl := pure_eq_ok_iff.mp h
    exact .refl _
  · simp only [bind_eq_ok, orThrow_eq_ok] at h
    obtain ⟨_, -, entry, -, reviewUntilMs, -, expired, hexpired, h⟩ := h
    have hexpire : Keeps store expired := by
      unfold AlertStore.expireReview at hexpired
      split at hexpired
      · simp only [bind_eq_ok, pure_eq_ok_iff] at hexpired
        obtain ⟨db, hdb, rfl⟩ := hexpired
        exact keeps_suppress hdb
      · obtain rfl := pure_eq_ok_iff.mp hexpired
        exact .refl _
    split at h
    · simp only [bind_eq_ok, pure_eq_ok_iff, Prod.exists] at h
      obtain ⟨withdrawn, stream, hwithdrawn, rfl⟩ := h
      exact hexpire.trans (keeps_invalidate hwithdrawn)
    · obtain rfl := pure_eq_ok_iff.mp h
      exact hexpire

lemma keeps_sourceUnavailable (h : store.sourceUnavailable alerts nowMs = .ok store') : Keeps store store' := by
  simp only [AlertStore.sourceUnavailable, raiseAs_eq_ok, bind_eq_ok] at h
  obtain ⟨announced, hannounced, hwithdrawn⟩ := h
  have hannounce : Keeps store announced :=
    (⟨⟨rfl, rfl, rfl⟩, rfl, rfl⟩ : Keeps store { store with sourceReady := false }).trans (keeps_runtimeChanged hannounced)
  refine hannounce.trans (Keeps.foldlM (fun store symbol store' h => ?_) hwithdrawn)
  simp only [AlertStore.withdraw, bind_eq_ok] at h
  obtain ⟨stream, -, h⟩ := h
  split at h
  · simp only [bind_eq_ok, pure_eq_ok_iff, Prod.exists] at h
    obtain ⟨withdrawn, stream, hwithdrawn, rfl⟩ := h
    exact keeps_invalidate hwithdrawn
  · obtain rfl := pure_eq_ok_iff.mp h
    exact .refl _

omit [DecidableEq O] [Sha256] [StageObservation O] in
lemma keeps_observationUnavailable (h : store.observationUnavailable nowMs = .ok store') : Keeps store store' := by
  simp only [AlertStore.observationUnavailable, bind_eq_ok, require_eq_ok, exists_const, pure_eq_ok_iff] at h
  obtain ⟨-, rfl⟩ := h
  exact ⟨⟨rfl, rfl, rfl⟩, rfl, rfl⟩

end transactions

/-! ## Collections -/

namespace AlertStore

variable [DecidableEq O] [Sha256] [StageObservation O] (alerts : EmailAlerts) (c : Collection O)

/-- A record that was not consumed before: it is consumed, and its observations are applied.
Source: `notifications/service.py` `EmailAlerts.collect`, the branch `previous_hash is None`. -/
def applyCycle (store : AlertStore O) (cycle : ObservationCycle O) : Except AlertError (AlertStore O) := do
  let consumed := { store with consumedCycles := store.consumedCycles ++ [(cycle.cycleId, cycle.digest)] }
  let serviceRunId := if c.isCurrent (some cycle.digest) then c.currentRun else none
  let observed ← observeAll alerts c serviceRunId consumed cycle.observations
  pure { observed with lastCycleSha256 := some cycle.digest }

/-- What a collection does after its records were consumed. -/
def afterRecords (store : AlertStore O) : Except AlertError (AlertStore O) := do
  let caughtUp := c.isCurrent store.lastCycleSha256
  let matched ← rematch alerts c store
  let informed ← healthEvents alerts c matched
  let informed ← raiseAs .notification
    (if c.view.runtime ≠ .running ∨ c.view.healthy then runtimeChanged alerts c.view.runtime c.runId c.nowMs informed
    else pure informed)
  let reviewed ← raiseAs .notification (informed.symbols.foldlM (reviewStream c caughtUp) informed)
  pure { reviewed with sourceReady := c.view.healthy && caughtUp, logUnavailableSinceMs := none }

/-- A collection, after its records, the health of the service and the clock were read. -/
def collectBatch (cycles : List (ObservationCycle O)) (store : AlertStore O) : Except AlertError (AlertStore O) := do
  let consumed ← cycles.foldlM (consumeCycle alerts c) store
  afterRecords alerts c { consumed with observationCursor := store.observationCursor + cycles.length }

/-- A collection reads, and then works on what it read. -/
lemma collect_eq (log : ObservationLog O) (snapshot : Snapshot O) (nowMs : ℤ) (store : AlertStore O) :
    store.collect alerts log snapshot nowMs = (do
      let cycles ← log.readBatch store.observationCursor 1000
      let (state, alive) ← orThrow snapshot (.health "notification health source unreadable")
      collectBatch alerts ⟨state, alive, nowMs⟩ cycles store) := rfl

variable {alerts c} {store store' : AlertStore O}

/-- A record is skipped, or it is new. -/
lemma consumeCycle_cases {cycle : ObservationCycle O} (h : store.consumeCycle alerts c cycle = .ok store') :
    ((cycle.cycleId, cycle.digest) ∈ store.consumedCycles ∧ store' = store) ∨
      (cycle.cycleId ∉ store.consumedCycles.map Prod.fst ∧ store.applyCycle alerts c cycle = .ok store') := by
  unfold consumeCycle at h
  split at h
  · rename_i cycleId previous hlookup
    simp only [bind_eq_ok, require_eq_ok, decide_eq_true_eq, exists_const, pure_eq_ok_iff] at h
    obtain ⟨rfl, rfl⟩ := h
    have hkey : cycleId = cycle.cycleId := Table.key_of_lookup hlookup
    exact .inl ⟨hkey ▸ Table.mem_of_lookup hlookup, rfl⟩
  · rename_i hlookup
    refine .inr ⟨fun hmem => ?_, h⟩
    obtain ⟨entry, hentry, hid⟩ := List.mem_map.mp hmem
    exact Table.lookup_eq_none_iff.mp hlookup entry hentry hid

lemma consumedCycles_applyCycle {cycle : ObservationCycle O} (h : store.applyCycle alerts c cycle = .ok store') :
    store'.consumedCycles = store.consumedCycles ++ [(cycle.cycleId, cycle.digest)] ∧
      store'.observationCursor = store.observationCursor := by
  simp only [applyCycle, bind_eq_ok, pure_eq_ok_iff] at h
  obtain ⟨observed, hobserved, rfl⟩ := h
  have hkeeps := keeps_observeAll hobserved
  exact ⟨hkeeps.consumedCycles, hkeeps.observationCursor⟩

lemma keepsRecords_healthEvents (h : store.healthEvents alerts c = .ok store') : KeepsRecords store store' := by
  unfold healthEvents at h
  split at h
  · simp only [bind_eq_ok, require_eq_ok, exists_const, pure_eq_ok_iff] at h
    obtain ⟨-, rfl⟩ := h
    exact .refl _
  · simp only [bind_eq_ok, orThrow_eq_ok, raiseAs_eq_ok, pure_eq_ok_iff] at h
    obtain ⟨events, -, informed, hinformed, rfl⟩ := h
    have hkeeps : KeepsRecords store informed := by
      refine foldlM_invariant (I := KeepsRecords store) (fun s event s' _ hs h => hs.trans ?_) (.refl store) hinformed
      unfold healthEvent at h
      split at h
      · simp only [bind_eq_ok, pure_eq_ok_iff] at h
        obtain ⟨alert, -, db, -, rfl⟩ := h
        exact ⟨rfl, rfl, rfl⟩
      · obtain rfl := pure_eq_ok_iff.mp h
        exact .refl _
    exact hkeeps.trans ⟨rfl, rfl, rfl⟩

/-- What follows the records of a collection: the health events, between parts that leave them alone. -/
lemma afterRecords_cases (h : store.afterRecords alerts c = .ok store') :
    ∃ matched informed, Keeps store matched ∧ matched.healthEvents alerts c = .ok informed ∧ Keeps informed store' := by
  simp only [afterRecords, bind_eq_ok, raiseAs_eq_ok, pure_eq_ok_iff] at h
  obtain ⟨matched, hmatched, informed, hinformed, announced, hannounced, reviewed, hreviewed, rfl⟩ := h
  refine ⟨matched, informed, keeps_rematch hmatched, hinformed, ?_⟩
  have hannounce : Keeps informed announced := by
    split at hannounced
    · exact keeps_runtimeChanged hannounced
    · obtain rfl := pure_eq_ok_iff.mp hannounced
      exact .refl _
  have hreview : Keeps announced reviewed := Keeps.foldlM (fun _ _ _ h => keeps_reviewStream h) hreviewed
  exact (hannounce.trans hreview).trans ⟨⟨rfl, rfl, rfl⟩, rfl, rfl⟩

lemma keepsRecords_afterRecords (h : store.afterRecords alerts c = .ok store') : KeepsRecords store store' := by
  obtain ⟨matched, informed, hmatched, hinformed, hreviewed⟩ := afterRecords_cases h
  exact (hmatched.toKeepsRecords.trans (keepsRecords_healthEvents hinformed)).trans hreviewed.toKeepsRecords

end AlertStore

end MuStrategy.Notifications
