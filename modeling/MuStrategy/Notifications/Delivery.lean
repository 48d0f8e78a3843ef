import MuStrategy.Notifications.Outbox

/-!
# Senders

Several senders, collectors and the operator share one outbox. A sender runs the transactions of
`EmailAlerts.deliver`: it commits a claim, and in a second transaction checks the claim again, mails
and records the outcome. `BEGIN IMMEDIATE` lets one writer in at a time; only the second transaction
of a sender is open for longer than one step, because it spans the mail. A sender can stop at any
step: its open transaction is rolled back, a mail it handed over stays sent.

* `recheckClaim`, `prepareEntry` — the second transaction up to the mail.
* `State`, `Label`, `step?`, `system` — senders, collectors and the operator on one outbox.
-/

namespace MuStrategy.Notifications

open Lib

/-! ## The outcome of a mail -/

/-- The outcome codes of a mail. Source: `notifications/smtp.py` `SendResult.__post_init__`. -/
inductive SendCode where
  | smtpAccepted
  | smtpRecipientRefused
  | smtpAuthenticationFailed
  | smtpRejected
  | smtpTlsError
  | smtpResultUnknown
  | smtpConnectionFailed
  | entryReviewExpired
  | entrySourceUnavailable
  deriving DecidableEq

/-- The text of an outcome code. -/
def SendCode.value : SendCode → String
  | .smtpAccepted => "smtp_accepted"
  | .smtpRecipientRefused => "smtp_recipient_refused"
  | .smtpAuthenticationFailed => "smtp_authentication_failed"
  | .smtpRejected => "smtp_rejected"
  | .smtpTlsError => "smtp_tls_error"
  | .smtpResultUnknown => "smtp_result_unknown"
  | .smtpConnectionFailed => "smtp_connection_failed"
  | .entryReviewExpired => "entry_review_expired"
  | .entrySourceUnavailable => "entry_source_unavailable"

/-- What `transport.send` returns. Source: `notifications/smtp.py` `SendResult`. -/
structure SendResult where
  state : DeliveryState
  code : SendCode
  retryable : Bool := false
  /-- A mail is confirmed, failed or unknown. -/
  not_pending : state ≠ .pending
  /-- Only a definite failure can be retried. -/
  failed_of_retryable : retryable = true → state = .failed

lemma confirmed_ne_pending : DeliveryState.confirmed ≠ .pending := by decide

lemma confirmed_not_retryable : false = true → DeliveryState.confirmed = .failed := by decide

/-! ## The second transaction, up to the mail -/

/-- What a sender reads of the service and the streams while it prepares an entry reminder, after
its snapshot of the service health. -/
structure HealthEvidence where
  /-- `view["healthy"]`. -/
  healthy : Bool
  /-- The metadata value `source_ready`. -/
  sourceReady : Bool
  /-- The last consumed cycle is the last cycle of the service. -/
  caughtUp : Bool
  /-- The observation log continues after the cursor, or cannot be read. -/
  remaining : Bool
  /-- `symbol in state.symbols`. -/
  symbolServed : Bool
  /-- The signal key of the symbol's observation in the last cycle; `none`: there is none. -/
  evidence : Option (Option HexDigest)
  /-- `stream["signal_key"]`. -/
  signalKey : Option HexDigest
  /-- `stream["active_event_id"]`. -/
  activeEventId : Option HexDigest

/-- What a sender finds outside the outbox. -/
structure EntryEvidence where
  /-- `publication_fence(wait=False)` raises `FileLockBusyError`. -/
  publicationBusy : Bool
  /-- The health snapshot; `none` when it cannot be read. -/
  snapshot : Option HealthEvidence

section prepare

variable {O : Type} [Sha256] [ReviewObservation O] (db : Database O)

/-- Give the reservation of an entry back and suppress the entry.
Source: `notifications/service.py` `EmailAlerts._prepare_entry`, its inner `suppress`. -/
def suppressEntry (event : AlertEvent O) (nowMs : ℤ) (reason : SuppressedReason) :
    Except NotificationError (Database O × Bool) := do
  let db ← db.deferUnstarted event.eventId nowMs .entryNotReviewable
  let db ← db.suppress event.eventId reason nowMs
  pure (db, false)

/-- Give the reservation of an entry back for a later attempt. -/
def deferEntry (event : AlertEvent O) (nowMs : ℤ) (reason : UnstartedReason) :
    Except NotificationError (Database O × Bool) := do
  let db ← db.deferUnstarted event.eventId nowMs reason
  pure (db, false)

/-- The checks against the service and the streams. -/
def prepareWithHealth (event : AlertEvent O) (nowMs : ℤ) (evidence : HealthEvidence) :
    Except NotificationError (Database O × Bool) :=
  if !evidence.healthy || !evidence.sourceReady || !evidence.caughtUp then
    deferEntry db event nowMs .sourceNotCaughtUp
  else if evidence.remaining then deferEntry db event nowMs .sourceNotCaughtUp
  else
    match evidence.symbolServed, evidence.evidence with
    | true, some signalKey =>
        if signalKey ≠ evidence.signalKey || evidence.activeEventId ≠ some event.eventId then
          suppressEntry db event nowMs .decisionChanged
        else pure (db, true)
    | _, _ => suppressEntry db event nowMs .sourceUnavailable

/-- Whether an entry reminder can be mailed now; if not, its reservation is given back.
Source: `notifications/service.py` `EmailAlerts._prepare_entry`. -/
def prepareEntry (current : DeliveryRecord O) (nowMs : ℤ) (snapshot : Option HealthEvidence) :
    Except NotificationError (Database O × Bool) :=
  match current.suppressedReason, current.event.reviewUntilMs with
  | some reason, _ => suppressEntry db current.event nowMs reason
  | none, none => throw .missing
  | none, some reviewUntilMs =>
      if !(current.event.occurredAtMs ≤ nowMs && nowMs < reviewUntilMs) then
        suppressEntry db current.event nowMs .reviewExpired
      else
        match snapshot with
        | none => deferEntry db current.event nowMs .sourceSnapshotUnavailable
        | some evidence => prepareWithHealth db current.event nowMs evidence

/-- The gate before the mail: entry reminders are prepared under the publication fence.
Source: `notifications/service.py` `EmailAlerts.deliver`. -/
def prepareMail (current : DeliveryRecord O) (nowMs : ℤ) (evidence : EntryEvidence) :
    Except NotificationError (Database O × Bool) :=
  if current.event.kind = .entryReview then
    if evidence.publicationBusy then deferEntry db current.event nowMs .sourceNotCaughtUp
    else prepareEntry db current nowMs evidence.snapshot
  else pure (db, true)

/-- The second transaction up to the mail: the claim still stands and the mail may go out (`some`
record), or the transaction ends here (`none`).
Source: `notifications/service.py` `EmailAlerts.deliver`. -/
def recheckClaim (claimed : DeliveryRecord O) (nowMs : ℤ) (evidence : EntryEvidence) :
    Except NotificationError (Database O × Option (DeliveryRecord O)) := do
  let current ← db.record claimed.event.eventId
  let current ← orThrow current .missing
  if current.state ≠ .unknown || current.attempts ≠ claimed.attempts then pure (db, none)
  else
    let (db, mail) ← prepareMail db current nowMs evidence
    pure (db, if mail then some current else none)

end prepare

/-! ## The processes -/

/-- Where a sender is in `deliver`; `left` counts the iterations of its loop that remain after the
current one. Source: `notifications/service.py` `EmailAlerts.deliver`. -/
inductive Sender (O : Type) where
  /-- Not delivering. -/
  | idle
  /-- About to claim. -/
  | ready (left : ℕ)
  /-- It committed a claim. -/
  | claimed (left : ℕ) (record : DeliveryRecord O)
  /-- In its second transaction, about to call `transport.send`. -/
  | sending (left : ℕ) (record : DeliveryRecord O)
  /-- In its second transaction, after the call. -/
  | sent (left : ℕ) (record : DeliveryRecord O)

/-- The next iteration of the loop, if any. -/
def Sender.next {O : Type} : ℕ → Sender O
  | 0 => .idle
  | left + 1 => .ready left

/-- A write of a collector to the outbox. -/
inductive OutboxWrite (O : Type) where
  | enqueue (event : AlertEvent O) (suppressedReason : Option SuppressedReason)
  | suppress (eventId : HexDigest) (reason : SuppressedReason)

/-- The outbox, the processes, and the mails that left. -/
structure State (ι O : Type) where
  /-- The committed tables. -/
  db : Database O
  /-- The sender whose second transaction is open. -/
  lock : Option ι
  senders : ι → Sender O
  /-- The calls of `transport.send`, with event and attempt number. -/
  sends : List Attempt

/-- The next transaction or step.
Fidelity: `collect`, `source_unavailable` and `reconcile_health` reach the outbox only by `enqueue` and
`suppress`; a collection is any sequence of these in one transaction. -/
inductive Label (ι O : Type) where
  /-- A sender enters `deliver`. -/
  | deliver (p : ι) (targetFingerprint : HexDigest) (limit : ℤ)
  /-- The claim transaction. -/
  | claim (p : ι) (nowMs : ℤ)
  /-- The second transaction starts and decides whether to mail. -/
  | recheck (p : ι) (attempt : Attempt) (nowMs : ℤ) (evidence : EntryEvidence)
  /-- `transport.send` is called for an event and an attempt number. -/
  | send (p : ι) (attempt : Attempt)
  /-- `transport.send` returned, and the second transaction commits its result. -/
  | finish (p : ι) (attempt : Attempt) (result : SendResult) (nowMs : ℤ)
  /-- A sender stops: it crashes, or an exception leaves `deliver`. -/
  | crash (p : ι)
  /-- A collector's transaction. -/
  | collect (writes : List (OutboxWrite O)) (nowMs : ℤ)
  /-- The operator's `resolve` command. -/
  | resolve (eventId : HexDigest) (outcome : DeliveryState) (nowMs : ℤ)
  /-- The operator's `retry` command. -/
  | retry (eventId : HexDigest) (nowMs : ℤ)

section steps

variable {ι O : Type} [DecidableEq ι] [DecidableEq O] [Sha256] [ReviewObservation O]

/-- One write of a collector. -/
def OutboxWrite.run (nowMs : ℤ) (db : Database O) : OutboxWrite O → Except NotificationError (Database O)
  | .enqueue event suppressedReason => db.enqueue event nowMs suppressedReason
  | .suppress eventId reason => db.suppress eventId reason nowMs

/-- The writes of a collection, in order. -/
def collectWrites (nowMs : ℤ) : Database O → List (OutboxWrite O) → Except NotificationError (Database O)
  | db, [] => pure db
  | db, write :: writes => do
      let db ← write.run nowMs db
      collectWrites nowMs db writes

/-- A transaction that commits its tables or rolls back. -/
def commit (db : Database O) : Except NotificationError (Database O) → Database O
  | .ok db' => db'
  | .error _ => db

namespace State

variable (s : State ι O)

/-- Every process is idle and the outbox is empty. -/
def initial : State ι O := ⟨.empty, none, fun _ => .idle, []⟩

/-- A sender moves on, leaving these tables and this lock. -/
def move (db : Database O) (lock : Option ι) (p : ι) (sender : Sender O) : State ι O :=
  { s with db, lock, senders := Function.update s.senders p sender }

/-- A transaction commits these tables. -/
def withDb (db : Database O) : State ι O := { s with db }

/-- A sender leaves `deliver`; its open transaction is rolled back. -/
def stop (p : ι) : State ι O := s.move s.db (Reservation.unlock s.lock p) p .idle

/-- The sender enters `deliver`. -/
def deliver (p : ι) (targetFingerprint : HexDigest) (limit : ℤ) : State ι O :=
  match s.db.bindTarget targetFingerprint with
  | .ok db => s.move db s.lock p (.next limit.toNat)
  | .error _ => s

/-- The claim transaction. -/
def claim (p : ι) (left : ℕ) (nowMs : ℤ) : State ι O :=
  match s.db.claim nowMs with
  | .ok (db, some record) => s.move db s.lock p (.claimed left record)
  | .ok (db, none) => s.move db s.lock p .idle
  | .error _ => s.stop p

/-- The second transaction up to the mail. -/
def recheck (p : ι) (left : ℕ) (claimed : DeliveryRecord O) (nowMs : ℤ)
    (evidence : EntryEvidence) : State ι O :=
  match recheckClaim s.db claimed nowMs evidence with
  | .ok (db, some current) => s.move db (some p) p (.sending left current)
  | .ok (db, none) => s.move db s.lock p (.next left)
  | .error _ => s.stop p

/-- The mail. -/
def send (p : ι) (left : ℕ) (record : DeliveryRecord O) : State ι O :=
  { s with
    senders := Function.update s.senders p (.sent left record)
    sends := s.sends ++ [record.attempt] }

/-- The second transaction after the mail. -/
def finish (p : ι) (left : ℕ) (record : DeliveryRecord O) (result : SendResult) (nowMs : ℤ) :
    State ι O :=
  match s.db.finish record.event.eventId result.state nowMs result.code.value result.retryable with
  | .ok db => s.move db none p (.next left)
  | .error _ => s.stop p

end State

/-- The state after a label; `none` when it is not enabled. -/
def step? (s : State ι O) : Label ι O → Option (State ι O)
  | .deliver p targetFingerprint limit =>
      match s.lock, s.senders p with
      | none, .idle => some (s.deliver p targetFingerprint limit)
      | _, _ => none
  | .claim p nowMs =>
      match s.lock, s.senders p with
      | none, .ready left => some (s.claim p left nowMs)
      | _, _ => none
  | .recheck p attempt nowMs evidence =>
      match s.lock, s.senders p with
      | none, .claimed left record =>
          if record.attempt = attempt then some (s.recheck p left record nowMs evidence) else none
      | _, _ => none
  | .send p attempt =>
      match s.senders p with
      | .sending left record =>
          if record.attempt = attempt then some (s.send p left record) else none
      | _ => none
  | .finish p attempt result nowMs =>
      match s.senders p with
      | .sent left record =>
          if record.attempt = attempt then some (s.finish p left record result nowMs) else none
      | _ => none
  | .crash p => some (s.stop p)
  | .collect writes nowMs =>
      match s.lock with
      | none => some (s.withDb (commit s.db (collectWrites nowMs s.db writes)))
      | some _ => none
  | .resolve eventId outcome nowMs =>
      match s.lock with
      | none => some (s.withDb (commit s.db (s.db.resolve eventId outcome nowMs)))
      | some _ => none
  | .retry eventId nowMs =>
      match s.lock with
      | none => some (s.withDb (commit s.db (s.db.retryFailed eventId nowMs)))
      | some _ => none

variable (ι O) in
/-- Senders, collectors and the operator on one outbox, starting from an empty one. -/
def system : System (State ι O) (Label ι O) := .ofPartial .initial step?

end steps

end MuStrategy.Notifications
