import MuStrategy.Lib.Reservation
import MuStrategy.Lib.Table
import MuStrategy.Notifications.Events

/-!
# The outbox

The rows of the signal-mail outbox and the statements that touch them. Each function is the body
of one statement sequence inside a transaction: it returns the new tables, and an error rolls the
transaction back.

* `Database` — `outbox`, `delivery_history` and the persisted delivery target.
* `claim`, `finish`, `deferUnstarted` — what senders do to a row.
* `enqueue`, `suppress` — what collectors do; `resolve`, `retryFailed` — the operator's commands.
* `Database.slot` — what attempts depend on: whether an event is open, unknown or confirmed, and its
  attempt count. One lemma for each function says what it does to the slots.
-/

namespace MuStrategy.Notifications

open Lib

/-! ## Rows and tables -/

/-- Why an event is not mailed. Source: `notifications/store.py` `NotificationStore.record`. -/
inductive SuppressedReason where
  | reviewExpired
  | decisionChanged
  | sourceUnavailable
  | signalReplaced
  | historicalEvent
  deriving DecidableEq

instance : PyEnum SuppressedReason where
  members := [.reviewExpired, .decisionChanged, .sourceUnavailable, .signalReplaced, .historicalEvent]
  value
    | .reviewExpired => "review_expired"
    | .decisionChanged => "decision_changed"
    | .sourceUnavailable => "source_unavailable"
    | .signalReplaced => "signal_replaced"
    | .historicalEvent => "historical_event"
  find_value reason := by cases reason <;> decide

/-- Why a reserved attempt was not started.
Source: `notifications/store.py` `NotificationStore.defer_unstarted`. -/
inductive UnstartedReason where
  | sourceSnapshotUnavailable
  | sourceNotCaughtUp
  | entryNotReviewable
  deriving DecidableEq

instance : PyEnum UnstartedReason where
  members := [.sourceSnapshotUnavailable, .sourceNotCaughtUp, .entryNotReviewable]
  value
    | .sourceSnapshotUnavailable => "source_snapshot_unavailable"
    | .sourceNotCaughtUp => "source_not_caught_up"
    | .entryNotReviewable => "entry_not_reviewable"
  find_value reason := by cases reason <;> decide

/-- A row of `outbox`. Source: `notifications/store.py` `SCHEMA`.
Fidelity: `payload` is the event its text encodes, and the columns with a closed set of texts are
enumerations. -/
structure OutboxRow (O : Type) where
  eventId : HexDigest
  payload : AlertEvent O
  state : DeliveryState
  attempts : ℕ
  nextAttemptMs : ℕ
  retryable : Bool
  suppressedReason : Option SuppressedReason

/-- A row of `delivery_history`. Source: `notifications/store.py` `SCHEMA`. -/
structure HistoryRow where
  eventId : HexDigest
  atMs : ℕ
  action : String
  result : String

/-- The tables of the email database that delivery reads and writes. -/
structure Database (O : Type) where
  outbox : List (OutboxRow O)
  deliveryHistory : List HistoryRow
  /-- The metadata value `delivery_target`. -/
  deliveryTarget : Option HexDigest

/-- A delivery as read from its row. Source: `notifications/store.py` `DeliveryRecord`. -/
structure DeliveryRecord (O : Type) where
  event : AlertEvent O
  state : DeliveryState
  attempts : ℕ
  nextAttemptMs : ℕ
  retryable : Bool
  suppressedReason : Option SuppressedReason

/-- An event and the number of one of its delivery attempts. -/
abbrev Attempt := Reservation.Attempt HexDigest

/-- The attempt a record is at. -/
def DeliveryRecord.attempt {O : Type} [Sha256] (record : DeliveryRecord O) : Attempt :=
  (record.event.eventId, record.attempts)

/-! ## Statements -/

namespace Database

variable {O : Type}

/-- The email database after `initialize`. -/
def empty : Database O := ⟨[], [], none⟩

variable (db : Database O)

/-- `SELECT * FROM outbox WHERE event_id=?`. -/
def row (eventId : HexDigest) : Option (OutboxRow O) :=
  Table.lookup OutboxRow.eventId db.outbox eventId

/-- `UPDATE outbox SET … WHERE event_id=?`. -/
def updateRow (eventId : HexDigest) (f : OutboxRow O → OutboxRow O) : Database O :=
  { db with outbox := Table.update (fun r => r.eventId = eventId) f db.outbox }

/-- Source: `notifications/store.py` `NotificationStore.history`. -/
def history (eventId : HexDigest) (nowMs : ℤ) (action result : String) :
    Except NotificationError (Database O) := do
  let atMs ← integer nowMs
  let atMs ← column atMs
  pure { db with deliveryHistory := db.deliveryHistory ++ [⟨eventId, atMs, action, result⟩] }

variable [Sha256] [ReviewObservation O]

/-- The checks on a row that was read. Source: `notifications/store.py` `NotificationStore.record`. -/
def readRow (row : OutboxRow O) : Except NotificationError (DeliveryRecord O) := do
  let event ← row.payload.fromJson
  require (event.eventId = row.eventId) (.invalid "invalid persisted delivery")
  require (row.state = .pending || row.attempts ≠ 0) (.invalid "delivery result without attempt")
  pure ⟨event, row.state, row.attempts, row.nextAttemptMs, row.retryable, row.suppressedReason⟩

/-- Source: `notifications/store.py` `NotificationStore.record`. -/
def record (eventId : HexDigest) : Except NotificationError (Option (DeliveryRecord O)) :=
  match db.row eventId with
  | none => pure none
  | some row => some <$> readRow row

/-- The event is in the outbox already: it has to be the same. -/
def checkSame (existing : DeliveryRecord O) (canonical : AlertEvent O) [DecidableEq O] :
    Except NotificationError (Database O) := do
  require (existing.event = canonical)
    (.invalid "event identity reused with different evidence")
  pure db

/-- The row of a new event. -/
def newRow (event canonical : AlertEvent O) (nowMs : ℕ)
    (suppressedReason : Option SuppressedReason) : OutboxRow O where
  eventId := event.eventId
  payload := canonical
  state := .pending
  attempts := 0
  nextAttemptMs := nowMs
  retryable := false
  suppressedReason := suppressedReason

/-- `INSERT INTO outbox` with its line of history. -/
def insertRow (event canonical : AlertEvent O) (nowMs : ℤ)
    (suppressedReason : Option SuppressedReason) : Except NotificationError (Database O) := do
  let nextAttemptMs ← integer nowMs
  let nextAttemptMs ← column nextAttemptMs
  let outbox ← orThrow (Table.insertUnique OutboxRow.eventId db.outbox
    (newRow event canonical nextAttemptMs suppressedReason)) (.invalid "UNIQUE constraint failed")
  history { db with outbox } event.eventId nowMs "recorded"
    ((suppressedReason.map PyEnum.value).getD "pending")

/-- Source: `notifications/store.py` `NotificationStore.enqueue`. -/
def enqueue [DecidableEq O] (event : AlertEvent O) (nowMs : ℤ)
    (suppressedReason : Option SuppressedReason) : Except NotificationError (Database O) := do
  let canonical ← event.fromJson
  let existing ← db.record event.eventId
  match existing with
  | some existing => db.checkSame existing canonical
  | none => db.insertRow event canonical nowMs suppressedReason

/-- Set the suppression of an event that has none. -/
def setSuppressed (eventId : HexDigest) (reason : SuppressedReason) (nowMs : ℤ) :
    Except NotificationError (Database O) :=
  (db.updateRow eventId fun r => { r with suppressedReason := some reason }).history eventId nowMs
    "suppressed" (PyEnum.value reason)

/-- Source: `notifications/store.py` `NotificationStore.suppress`. -/
def suppress (eventId : HexDigest) (reason : SuppressedReason) (nowMs : ℤ) :
    Except NotificationError (Database O) := do
  let record ← db.record eventId
  let record ← orThrow record (.invalid "missing entry evidence")
  if record.suppressedReason = none then db.setSuppressed eventId reason nowMs else pure db

/-- The `WHERE` clause of the claim. Source: `notifications/store.py` `NotificationStore.claim`. -/
def isClaimable (maxAttempts nowMs : ℕ) (row : OutboxRow O) : Bool :=
  row.suppressedReason.isNone && row.attempts < maxAttempts && row.nextAttemptMs ≤ nowMs &&
    (row.state = .pending || (row.state = .failed && row.retryable))

/-- The reservation of an attempt, on its row. -/
def reserveRow (row : OutboxRow O) : OutboxRow O :=
  { row with state := .unknown, attempts := row.attempts + 1, retryable := false }

/-- Reserve the next attempt of a row. Source: `notifications/store.py` `NotificationStore.claim`. -/
def claimRow (row : OutboxRow O) (nowMs : ℤ) :
    Except NotificationError (Database O × Option (DeliveryRecord O)) := do
  let record ← db.record row.eventId
  let db ← (db.updateRow row.eventId reserveRow).history row.eventId nowMs "attempt_started" "unknown"
  let record ← orThrow record .missing
  let claimed ← db.record record.event.eventId
  pure (db, claimed)

/-- Source: `notifications/store.py` `NotificationStore.claim`, with the default `max_attempts`. -/
def claim (nowMs : ℤ) : Except NotificationError (Database O × Option (DeliveryRecord O)) := do
  let dueMs ← integer nowMs
  let dueMs ← column dueMs
  match db.outbox.find? (isClaimable 3 dueMs) with
  | none => pure (db, none)
  | some row => db.claimRow row nowMs

/-- The wait before the next automatic attempt.
Source: `notifications/store.py` `NotificationStore.finish`. -/
def retryDelayMs (attempts : ℕ) : ℕ := min 3600 (60 * 2 ^ min (attempts - 1) 6) * 1000

/-- Source: `notifications/store.py` `NotificationStore.finish`. -/
def finish (eventId : HexDigest) (state : DeliveryState) (nowMs : ℤ) (code : String)
    (retryable : Bool) : Except NotificationError (Database O) := do
  let record ← db.record eventId
  let record ← orThrow record (.invalid "invalid delivery completion")
  require (record.state = .unknown && state ≠ .pending) (.invalid "invalid delivery completion")
  let finishedMs ← integer nowMs
  let nextAttemptMs ← column (finishedMs + retryDelayMs record.attempts)
  (db.updateRow eventId fun r =>
    { r with state, retryable := retryable && state = .failed, nextAttemptMs }).history eventId nowMs
      "attempt_finished" code

/-- Release only a reservation whose transport has provably not been called.
Source: `notifications/store.py` `NotificationStore.defer_unstarted`. -/
def deferUnstarted (eventId : HexDigest) (nowMs : ℤ) (reason : UnstartedReason) :
    Except NotificationError (Database O) := do
  let record ← db.record eventId
  let record ← orThrow record (.invalid "invalid unstarted delivery reservation")
  require (record.state = .unknown && 1 ≤ record.attempts)
    (.invalid "invalid unstarted delivery reservation")
  let deferredMs ← integer nowMs
  let nextAttemptMs ← column (deferredMs + 30000)
  (db.updateRow eventId fun r =>
    { r with state := .pending, attempts := r.attempts - 1, retryable := false, nextAttemptMs }).history
      eventId nowMs "attempt_not_started" (PyEnum.value reason)

/-- Source: `notifications/store.py` `NotificationStore.resolve`. -/
def resolve (eventId : HexDigest) (outcome : DeliveryState) (nowMs : ℤ) :
    Except NotificationError (Database O) := do
  require (outcome = .confirmed || outcome = .failed)
    (.invalid "operator resolution must be confirmed or failed")
  db.finish eventId outcome nowMs "operator_checked" false

/-- Source: `notifications/store.py` `NotificationStore.retry_failed`. -/
def retryFailed (eventId : HexDigest) (nowMs : ℤ) : Except NotificationError (Database O) := do
  let record ← db.record eventId
  let record ← orThrow record
    (.invalid "only unsuppressed known failures below the attempt limit can retry")
  require (record.state = .failed && record.attempts < 3 && record.suppressedReason.isNone)
    (.invalid "only unsuppressed known failures below the attempt limit can retry")
  let nextAttemptMs ← integer nowMs
  let nextAttemptMs ← column nextAttemptMs
  (db.updateRow eventId fun r => { r with retryable := true, nextAttemptMs }).history eventId nowMs
    "operator_retry" "cause_fixed"

/-- The delivery target is fixed by the first sender.
Source: `notifications/service.py` `EmailAlerts.deliver`. -/
def bindTarget (targetFingerprint : HexDigest) : Except NotificationError (Database O) := do
  require (db.deliveryTarget.all fun target => target = targetFingerprint)
    (.invalid "SMTP destination differs from persisted delivery target")
  pure { db with deliveryTarget := some targetFingerprint }

end Database

/-! ## Slots -/

/-- A pending or failed event may be attempted, an unknown one may not, a confirmed one is over. -/
def DeliveryState.phase : DeliveryState → Reservation.Phase
  | .pending => .free
  | .failed => .free
  | .unknown => .reserved
  | .confirmed => .closed

lemma DeliveryState.phase_eq_reserved {state : DeliveryState} :
    state.phase = .reserved ↔ state = .unknown := by cases state <;> simp [phase]

lemma DeliveryState.phase_eq_closed {state : DeliveryState} :
    state.phase = .closed ↔ state = .confirmed := by cases state <;> simp [phase]

/-- The phase and the attempt count of a row. -/
def OutboxRow.slot {O : Type} (row : OutboxRow O) : Reservation.Phase × ℕ :=
  (row.state.phase, row.attempts)

namespace Database

variable {O : Type}

/-- The slots of the outbox, by event. -/
def slot (db : Database O) (eventId : HexDigest) : Option (Reservation.Phase × ℕ) :=
  (db.row eventId).map OutboxRow.slot

/-- The state of an event. -/
def stateOf (db : Database O) (eventId : HexDigest) : Option DeliveryState :=
  (db.row eventId).map OutboxRow.state

/-- `event_id` is the primary key of the outbox. -/
def Keyed (db : Database O) : Prop := Table.UniqueKeys OutboxRow.eventId db.outbox

variable {db db' : Database O} {eventId : HexDigest} {nowMs : ℤ}

/-- A new row opens the slot of its event. -/
lemma slot_append {row : OutboxRow O} (hfresh : ∀ r ∈ db.outbox, r.eventId ≠ row.eventId)
    (h : db'.outbox = db.outbox ++ [row]) :
    db'.slot = Function.update db.slot row.eventId (some row.slot) := by
  funext e
  unfold slot Database.row
  rw [h]
  by_cases he : e = row.eventId
  · subst he
    rw [Function.update_self, Table.lookup_append_self hfresh, Option.map_some]
  · rw [Function.update_of_ne he, Table.lookup_append_of_ne (Ne.symm he)]

section update

variable {f : OutboxRow O → OutboxRow O}

lemma row_updateRow (hf : ∀ r, (f r).eventId = r.eventId) (e : HexDigest) :
    (db.updateRow eventId f).row e = if e = eventId then (db.row e).map f else db.row e := by
  unfold row updateRow
  rw [Table.lookup_update (fun r _ => hf r)]
  cases hr : Table.lookup OutboxRow.eventId db.outbox e with
  | none => simp
  | some r =>
      have hkey := Table.key_of_lookup hr
      by_cases he : e = eventId <;> simp [hkey, he]

lemma Keyed.updateRow (h : db.Keyed) (hf : ∀ r, (f r).eventId = r.eventId) :
    (db.updateRow eventId f).Keyed := Table.UniqueKeys.update h fun r _ _ => hf r

lemma slot_updateRow {row : OutboxRow O} (hf : ∀ r, (f r).eventId = r.eventId)
    (hrow : db.row eventId = some row) :
    (db.updateRow eventId f).slot = Function.update db.slot eventId (some (f row).slot) := by
  funext e
  unfold slot
  rw [row_updateRow hf]
  by_cases he : e = eventId
  · subst he
    simp [hrow]
  · simp [he]

lemma slot_updateRow_same (hf : ∀ r, (f r).eventId = r.eventId) (hs : ∀ r, (f r).slot = r.slot) :
    (db.updateRow eventId f).slot = db.slot := by
  funext e
  unfold slot
  rw [row_updateRow hf]
  split
  · rw [Option.map_map]
    exact Option.map_congr fun r _ => hs r
  · rfl

end update

lemma outbox_history {action result : String} (h : db.history eventId nowMs action result = .ok db') :
    db'.outbox = db.outbox := by
  simp only [history, bind_eq_ok, pure_eq_ok_iff] at h
  obtain ⟨_, -, _, -, rfl⟩ := h
  rfl

/-- Slots and keys depend on the outbox only. -/
lemma slot_congr (h : db'.outbox = db.outbox) : db'.slot = db.slot := by
  funext e
  simp only [slot, row, h]

lemma keyed_congr (h : db'.outbox = db.outbox) : db'.Keyed ↔ db.Keyed := by
  unfold Keyed
  rw [h]

/-- An update of an existing row with a line of history. -/
lemma spec_updateRow {f : OutboxRow O → OutboxRow O} {row : OutboxRow O} {action result : String}
    (h : (db.updateRow eventId f).history eventId nowMs action result = .ok db')
    (hf : ∀ r, (f r).eventId = r.eventId) (hrow : db.row eventId = some row) :
    db'.slot = Function.update db.slot eventId (some (f row).slot) ∧ (db.Keyed → db'.Keyed) := by
  have hout := outbox_history h
  refine ⟨(slot_congr hout).trans (slot_updateRow hf hrow), fun hk => ?_⟩
  exact (keyed_congr hout).mpr (hk.updateRow hf)

/-- An update that leaves every slot alone, with a line of history. -/
lemma spec_updateRow_same {f : OutboxRow O → OutboxRow O} {action result : String}
    (h : (db.updateRow eventId f).history eventId nowMs action result = .ok db')
    (hf : ∀ r, (f r).eventId = r.eventId) (hs : ∀ r, (f r).slot = r.slot) :
    db'.slot = db.slot ∧ (db.Keyed → db'.Keyed) := by
  have hout := outbox_history h
  refine ⟨(slot_congr hout).trans (slot_updateRow_same hf hs), fun hk => ?_⟩
  exact (keyed_congr hout).mpr (hk.updateRow hf)

variable [Sha256] [ReviewObservation O] {record : DeliveryRecord O}

/-- A record that was read shows the slot of its event. -/
lemma slot_of_record (h : db.record eventId = .ok (some record)) :
    db.slot eventId = some (record.state.phase, record.attempts) ∧
      record.event.eventId = eventId := by
  unfold Database.record at h
  split at h
  · cases h
  · rename_i row hrow
    cases hread : readRow row with
    | error e =>
        rw [hread] at h
        cases h
    | ok read =>
        rw [hread, map_ok, Except.ok.injEq, Option.some.injEq] at h
        subst h
        simp only [readRow, bind_eq_ok, require_eq_ok, exists_const, pure_eq_ok_iff] at hread
        obtain ⟨event, -, hid, -, rfl⟩ := hread
        refine ⟨by rw [slot, hrow]; rfl, ?_⟩
        exact (of_decide_eq_true hid).trans (Table.key_of_lookup hrow)

lemma row_of_record_none (h : db.record eventId = .ok none) : db.row eventId = none := by
  unfold Database.record at h
  split at h
  · assumption
  · rename_i row hrow
    cases hread : readRow row <;> rw [hread] at h <;> cases h

/-- Suppression does not touch attempts. -/
lemma spec_suppress {reason : SuppressedReason} (h : db.suppress eventId reason nowMs = .ok db') :
    db'.slot = db.slot ∧ (db.Keyed → db'.Keyed) := by
  simp only [suppress, bind_eq_ok, orThrow_eq_ok] at h
  obtain ⟨_, -, record, -, h⟩ := h
  split at h
  · rw [setSuppressed] at h
    exact spec_updateRow_same h (fun _ => rfl) (fun _ => rfl)
  · rw [pure_eq_ok_iff] at h
    subst h
    exact ⟨rfl, id⟩

/-- Storing an event opens its slot, or finds the event there. -/
lemma spec_enqueue [DecidableEq O] {event : AlertEvent O} {suppressed : Option SuppressedReason}
    (h : db.enqueue event nowMs suppressed = .ok db') :
    (db'.slot = db.slot ∨ (db.slot event.eventId = none ∧
      db'.slot = Function.update db.slot event.eventId (some (.free, 0)))) ∧
      (db.Keyed → db'.Keyed) := by
  simp only [enqueue, bind_eq_ok] at h
  obtain ⟨canonical, -, existing, hexisting, h⟩ := h
  cases existing with
  | some existing =>
      simp only [checkSame, bind_eq_ok, require_eq_ok, exists_const, pure_eq_ok_iff] at h
      obtain ⟨-, rfl⟩ := h
      exact ⟨.inl rfl, id⟩
  | none =>
      simp only [insertRow, bind_eq_ok, orThrow_eq_ok, Table.insertUnique_eq_some_iff] at h
      obtain ⟨_, -, _, -, outbox, ⟨hfresh, houtbox⟩, h⟩ := h
      have hout := outbox_history h
      refine ⟨.inr ⟨?_, ?_⟩, fun hk => ?_⟩
      · rw [slot, row_of_record_none hexisting, Option.map_none]
      · exact slot_append hfresh (hout.trans houtbox)
      · rw [Keyed, hout, houtbox]
        exact Table.UniqueKeys.append hk hfresh

/-- What a claim does: nothing, or it reserves the next attempt of an open event. -/
lemma spec_claim {claimed : Option (DeliveryRecord O)} (hkeyed : db.Keyed)
    (h : db.claim nowMs = .ok (db', claimed)) :
    (claimed = none → db' = db) ∧ db'.Keyed ∧
      ∀ record, claimed = some record → ∃ e n, db.slot e = some (.free, n) ∧ n < 3 ∧
        db'.slot = Function.update db.slot e (some (.reserved, n + 1)) ∧
        record.attempt = (e, n + 1) := by
  simp only [claim, bind_eq_ok] at h
  obtain ⟨dueMs, -, dueMs', -, h⟩ := h
  split at h
  · simp only [pure_eq_ok_iff, Prod.mk.injEq] at h
    obtain ⟨rfl, rfl⟩ := h
    exact ⟨fun _ => rfl, hkeyed, by simp⟩
  · rename_i found hfound
    simp only [claimRow, bind_eq_ok, orThrow_eq_ok, pure_eq_ok_iff, Prod.mk.injEq] at h
    obtain ⟨_, hrec, db₁, hdb₁, record, rfl, again, hagain, rfl, rfl⟩ := h
    obtain ⟨-, hid⟩ := slot_of_record hrec
    rw [hid] at hagain
    have hrow : db.row found.eventId = some found :=
      (Table.lookup_eq_some_iff hkeyed).mpr ⟨List.mem_of_find?_eq_some hfound, rfl⟩
    have hclaimable : isClaimable 3 dueMs' found = true := List.find?_some hfound
    simp only [isClaimable, Bool.and_eq_true, decide_eq_true_eq] at hclaimable
    obtain ⟨⟨⟨-, hlt⟩, -⟩, hstate⟩ := hclaimable
    have hphase : found.state.phase = .free := by
      simp only [Bool.or_eq_true, Bool.and_eq_true, decide_eq_true_eq] at hstate
      rcases hstate with hs | ⟨hs, -⟩ <;> rw [hs] <;> rfl
    obtain ⟨hslot, hkeep⟩ := spec_updateRow hdb₁ (fun _ => rfl) hrow
    refine ⟨?_, hkeep hkeyed, ?_⟩
    · rintro rfl
      have hnone := row_of_record_none hagain
      have := congrFun hslot found.eventId
      rw [Function.update_self, slot, hnone] at this
      cases this
    · rintro record' rfl
      obtain ⟨hagain, hid'⟩ := slot_of_record hagain
      rw [hslot, Function.update_self, Option.some.injEq, OutboxRow.slot, Prod.mk.injEq] at hagain
      refine ⟨found.eventId, found.attempts, ?_, hlt, hslot, ?_⟩
      · rw [slot, hrow, Option.map_some, OutboxRow.slot, hphase]
      · rw [DeliveryRecord.attempt, hid', ← hagain.2]
        rfl

/-- An update of the row that was read, with a line of history. -/
lemma spec_updateRow_of_record {f : OutboxRow O → OutboxRow O} {action result : String}
    (h : (db.updateRow eventId f).history eventId nowMs action result = .ok db')
    (hf : ∀ r, (f r).eventId = r.eventId) (hrec : db.record eventId = .ok (some record)) :
    ∃ row, db.row eventId = some row ∧ row.slot = (record.state.phase, record.attempts) ∧
      db'.slot = Function.update db.slot eventId (some (f row).slot) ∧ (db.Keyed → db'.Keyed) := by
  have hslot := (slot_of_record hrec).1
  rw [slot, Option.map_eq_some_iff] at hslot
  obtain ⟨row, hrow, hslot⟩ := hslot
  exact ⟨row, hrow, hslot, spec_updateRow h hf hrow⟩

/-- A delivery is completed from `UNKNOWN` only, and keeps its attempt count. -/
lemma spec_finish {state : DeliveryState} {code : String} {retryable : Bool}
    (h : db.finish eventId state nowMs code retryable = .ok db') :
    (∃ n, db.slot eventId = some (.reserved, n) ∧
      db'.slot = Function.update db.slot eventId (some (state.phase, n))) ∧
      db'.stateOf eventId = some state ∧ (db.Keyed → db'.Keyed) := by
  simp only [finish, bind_eq_ok, orThrow_eq_ok, require_eq_ok, exists_const] at h
  obtain ⟨_, hrec, record, rfl, hstate, finishedMs, -, nextAttemptMs, -, h⟩ := h
  simp only [Bool.and_eq_true, decide_eq_true_eq] at hstate
  have hslot := (slot_of_record hrec).1
  obtain ⟨row, hrow, hrs, hslot', hkeep⟩ := spec_updateRow_of_record h (fun _ => rfl) hrec
  have hattempts : row.attempts = record.attempts := congrArg Prod.snd hrs
  rw [hstate.1] at hslot
  refine ⟨⟨record.attempts, hslot, ?_⟩, ?_, hkeep⟩
  · rw [hslot', OutboxRow.slot, hattempts]
  · rw [stateOf, Database.row, outbox_history h]
    change ((db.updateRow eventId _).row eventId).map _ = some state
    rw [row_updateRow, if_pos rfl, hrow]
    · rfl
    · exact fun _ => rfl

/-- A reservation that was not started gives its attempt number back. -/
lemma spec_deferUnstarted {reason : UnstartedReason}
    (h : db.deferUnstarted eventId nowMs reason = .ok db') :
    (∃ n, db.slot eventId = some (.reserved, n + 1) ∧
      db'.slot = Function.update db.slot eventId (some (.free, n))) ∧ (db.Keyed → db'.Keyed) := by
  simp only [deferUnstarted, bind_eq_ok, orThrow_eq_ok, require_eq_ok, exists_const] at h
  obtain ⟨_, hrec, record, rfl, hstate, deferredMs, -, nextAttemptMs, -, h⟩ := h
  simp only [Bool.and_eq_true, decide_eq_true_eq] at hstate
  obtain ⟨hstate, hpos⟩ := hstate
  have hslot := (slot_of_record hrec).1
  obtain ⟨row, hrow, hrs, hslot', hkeep⟩ := spec_updateRow_of_record h (fun _ => rfl) hrec
  rw [hstate] at hslot
  have hattempts : row.attempts = record.attempts := congrArg Prod.snd hrs
  refine ⟨⟨record.attempts - 1, ?_, ?_⟩, hkeep⟩
  · rw [hslot, Nat.sub_add_cancel hpos]
    rfl
  · rw [hslot', OutboxRow.slot, hattempts]
    rfl

/-- The operator settles an unknown attempt. -/
lemma spec_resolve {outcome : DeliveryState} (h : db.resolve eventId outcome nowMs = .ok db') :
    (∃ n, db.slot eventId = some (.reserved, n) ∧
      db'.slot = Function.update db.slot eventId (some (outcome.phase, n))) ∧
      db'.stateOf eventId = some outcome ∧ (db.Keyed → db'.Keyed) := by
  simp only [resolve, bind_eq_ok, require_eq_ok, exists_const] at h
  exact spec_finish h.2

/-- A retry leaves phase and attempt count alone: the next claim counts. -/
lemma spec_retryFailed (h : db.retryFailed eventId nowMs = .ok db') :
    db'.slot = db.slot ∧ (db.Keyed → db'.Keyed) := by
  simp only [retryFailed, bind_eq_ok, orThrow_eq_ok, require_eq_ok, exists_const] at h
  obtain ⟨_, -, record, -, -, nextMs, -, nextAttemptMs, -, h⟩ := h
  exact spec_updateRow_same h (fun _ => rfl) (fun _ => rfl)

omit [Sha256] [ReviewObservation O] in
lemma spec_bindTarget {targetFingerprint : HexDigest}
    (h : db.bindTarget targetFingerprint = .ok db') : db'.outbox = db.outbox := by
  simp only [bindTarget, bind_eq_ok, require_eq_ok, exists_const, pure_eq_ok_iff] at h
  obtain ⟨-, rfl⟩ := h
  rfl

end Database

end MuStrategy.Notifications
