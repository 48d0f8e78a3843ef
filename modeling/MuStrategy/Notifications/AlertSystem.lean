import MuStrategy.Notifications.Collect
import MuStrategy.Notifications.Delivery

/-!
# Collectors, senders and the scanner

The email database is shared by collectors, senders and the operator, and the observation log is written by the
scanner. A collection reads the log and the health of the service while its transaction is open, without a lock on
either: what it reads may be out of date when it commits. A sender that is about to mail an entry holds the lock of the
log, so that no record is appended between its last look at the log and the mail.

* `AlertState`, `AlertLabel` — the processes and what they do next.
* `AlertState.entryEvidence` — what a sender finds when it prepares an entry.
* `alertStep?`, `alertSystem` — the steps.
-/

namespace MuStrategy.Notifications

open Lib

/-! ## States -/

/-- An append to the observation log, which holds its lock: the record, and whether it was written.
Source: `observations.py` `JsonlObservationRepository.append_cycle`. -/
structure Append (O : Type) where
  cycle : ObservationCycle O
  written : Bool

/-- The local variables `now` and `latest` of a sender that prepares an entry.
Source: `notifications/service.py` `EmailAlerts._prepare_entry`. -/
structure Reading (O : Type) where
  nowMs : ℤ
  latest : Option (ObservationCycle O)

/-- The email database, the observation log, and the processes. -/
structure AlertState (ι O : Type) where
  /-- The outbox, the senders, and the mails that left. -/
  mail : State ι O
  signals : Signals
  log : ObservationLog O
  append : Option (Append O)
  /-- What each sender read when it last prepared an entry. -/
  readings : ι → Option (Reading O)

/-- The next transaction or step. What a process reads of the clock, of the health of the service and of its supervisor
is part of the label: any value may be read at any time. -/
inductive AlertLabel (ι O : Type) where
  /-- A step of a sender other than the second transaction, or a command of the operator. -/
  | mail (label : Label ι O)
  /-- The second transaction of a sender starts and decides whether to mail. -/
  | recheck (p : ι) (attempt : Attempt) (nowMs : ℤ) (snapshot : Snapshot O)
  /-- A collection, which found this many records in the log. -/
  | collect (found : ℕ) (nowMs : ℤ) (snapshot : Snapshot O)
  /-- `source_unavailable`. -/
  | sourceUnavailable (nowMs : ℤ)
  /-- The first transaction of `observation_unavailable`. -/
  | observationUnavailable (nowMs : ℤ)
  /-- The operator's `reconcile_health` command. -/
  | reconcileHealth (nowMs : ℤ) (state : ServiceState O)
  /-- The scanner takes the lock of the log and leaves the marker of an unfinished append. -/
  | beginAppend (cycle : ObservationCycle O)
  /-- The record is complete in the file. -/
  | writeAppend
  /-- The marker is removed and the lock released: the record is committed. -/
  | finishAppend
  /-- The append fails or the scanner crashes: the lock is released, the marker stays. -/
  | abortAppend

section steps

variable {ι O : Type} [DecidableEq ι] [DecidableEq O] [Sha256] [StageObservation O]

namespace AlertState

variable (s : AlertState ι O)

/-- Every process is idle, and the database and the log are empty. -/
def initial : AlertState ι O := ⟨.initial, {}, {}, none, fun _ => none⟩

/-- The email database. -/
def store : AlertStore O := { s.signals with delivery := s.mail.db }

/-- A transaction commits the email database or rolls back. -/
def commit {ε : Type} : Except ε (AlertStore O) → AlertState ι O
  | .ok store => { s with mail := s.mail.withDb store.delivery, signals := store.toSignals }
  | .error _ => s

/-- A sender holds the lock of the log: it is mailing an entry.
Source: `observations.py` `JsonlObservationRepository.publication_fence`. -/
def fenced : Bool :=
  s.mail.lock.any fun p =>
    match s.mail.senders p with
    | .sending _ record => record.event.kind = .entryReview
    | .sent _ record => record.event.kind = .entryReview
    | _ => false

/-! ## The second transaction of a sender -/

/-- `remaining`: the log continues after the cursor, or cannot be read. -/
def remaining : Bool :=
  match s.log.readBatch s.signals.observationCursor 1 with
  | .ok [] => false
  | _ => true

/-- What a sender reads of the service and of the stream of a symbol.
Source: `notifications/service.py` `EmailAlerts._prepare_entry`. -/
def healthEvidence (symbol : String) (nowMs : ℤ) (state : Option (ServiceState O)) (alive : Bool) : HealthEvidence :=
  let c : Collection O := ⟨state, alive, nowMs⟩
  let stream := s.store.streamOf symbol
  { healthy := c.view.healthy
    sourceReady := s.signals.sourceReady
    caughtUp := c.isCurrent s.signals.lastCycleSha256
    remaining := s.remaining
    symbolServed := state.any fun state => state.symbols.contains symbol
    evidence := do
      let latest ← c.current
      let evidence ← latest.observations.find? fun o => StageObservation.symbol o = symbol
      pure (signalKey evidence)
    signalKey := stream.signalKey
    activeEventId := stream.activeEventId }

/-- `current.event.observation.symbol`. An entry carries an observation. -/
def symbolOf (claimed : DeliveryRecord O) : String :=
  match s.mail.db.record claimed.event.eventId with
  | .ok (some current) => (current.event.observation.map StageObservation.symbol).getD ""
  | _ => ""

/-- What a sender finds outside the outbox.
Source: `notifications/service.py` `EmailAlerts.deliver` and `EmailAlerts._prepare_entry`. -/
def entryEvidence (claimed : DeliveryRecord O) (nowMs : ℤ) (snapshot : Snapshot O) : EntryEvidence where
  publicationBusy := s.append.isSome
  snapshot := snapshot.map fun (state, alive) => s.healthEvidence (s.symbolOf claimed) nowMs state alive

/-- What the sender remembers of it. -/
def reading (nowMs : ℤ) (snapshot : Snapshot O) : Reading O :=
  ⟨nowMs, snapshot.bind fun (state, alive) => (⟨state, alive, nowMs⟩ : Collection O).current⟩

end AlertState

/-! ## Steps -/

/-- A step of a sender other than the second transaction, or a command of the operator. -/
def mailStep? (s : AlertState ι O) : Label ι O → Option (AlertState ι O)
  | .recheck .. => none
  | .collect .. => none
  | label => (step? s.mail label).map fun mail => { s with mail }

/-- The state after a transaction on the email database; `none` while another one is open. -/
def transaction? {ε : Type} (s : AlertState ι O) (result : Except ε (AlertStore O)) : Option (AlertState ι O) :=
  match s.mail.lock with
  | none => some (s.commit result)
  | some _ => none

variable {s t : AlertState ι O}

omit [Sha256] [StageObservation O] [DecidableEq ι] [DecidableEq O] in
/-- A transaction that is not enabled does nothing, and one that is commits or rolls back. -/
lemma transaction_eq_some {ε : Type} {result : Except ε (AlertStore O)} (h : transaction? s result = some t) :
    s.mail.lock = none ∧ (t = s ∨ ∃ store, result = .ok store ∧ t = s.commit result ∧ t.store = store) := by
  unfold transaction? at h
  split at h
  · rename_i hlock
    refine ⟨hlock, ?_⟩
    cases h
    cases result with
    | error e => exact .inl rfl
    | ok store => exact .inr ⟨store, rfl, rfl, rfl⟩
  · cases h

/-- A step of a sender other than the second transaction, or a command of the operator. -/
lemma mailStep_eq_some {label : Label ι O} (h : mailStep? s label = some t) :
    (∀ p attempt nowMs evidence, label ≠ .recheck p attempt nowMs evidence) ∧
      (∀ writes nowMs, label ≠ .collect writes nowMs) ∧ ∃ mail, step? s.mail label = some mail ∧ t = { s with mail } := by
  have hmap : (∀ p attempt nowMs evidence, label ≠ .recheck p attempt nowMs evidence) ∧
      (∀ writes nowMs, label ≠ .collect writes nowMs) ∧
        (step? s.mail label).map (fun mail => { s with mail }) = some t := by
    cases label with
    | recheck => cases h
    | collect => cases h
    | _ => exact ⟨by simp, by simp, h⟩
  obtain ⟨hrecheck, hcollect, hmap⟩ := hmap
  obtain ⟨mail, hstep, rfl⟩ := Option.map_eq_some_iff.mp hmap
  exact ⟨hrecheck, hcollect, mail, hstep, rfl⟩

variable (alerts : EmailAlerts)

/-- The state after a label; `none` when it is not enabled. -/
def alertStep? (s : AlertState ι O) : AlertLabel ι O → Option (AlertState ι O)
  | .mail label => mailStep? s label
  | .recheck p attempt nowMs snapshot =>
      match s.mail.senders p with
      | .claimed _ record =>
          (step? s.mail (.recheck p attempt nowMs (s.entryEvidence record nowMs snapshot))).map fun mail =>
            { s with mail, readings := Function.update s.readings p (some (AlertState.reading nowMs snapshot)) }
      | _ => none
  | .collect found nowMs snapshot => transaction? s (s.store.collect alerts (s.log.before found) snapshot nowMs)
  | .sourceUnavailable nowMs => transaction? s (s.store.sourceUnavailable alerts nowMs)
  | .observationUnavailable nowMs => transaction? s (s.store.observationUnavailable nowMs)
  | .reconcileHealth nowMs state => transaction? s (s.store.reconcileHealth alerts state nowMs)
  | .beginAppend cycle =>
      if s.append.isSome || s.fenced then none
      else if s.log.invalidMarker then some s
      else some { s with log := { s.log with invalidMarker := true }, append := some ⟨cycle, false⟩ }
  | .writeAppend =>
      match s.append with
      | some ⟨cycle, false⟩ =>
          some { s with log := { s.log with records := s.log.records ++ [cycle] }, append := some ⟨cycle, true⟩ }
      | _ => none
  | .finishAppend =>
      match s.append with
      | some ⟨_, true⟩ => some { s with log := { s.log with invalidMarker := false }, append := none }
      | _ => none
  | .abortAppend => if s.append.isSome then some { s with append := none } else none

variable (ι O) in
/-- Collectors, senders, the operator and the scanner, starting from an empty database and an empty log. -/
def alertSystem : System (AlertState ι O) (AlertLabel ι O) := .ofPartial .initial (alertStep? alerts)

end steps

/-! ## A small run -/

section concrete

/-- What a scan of one symbol found, and when. -/
structure DemoScan where
  ready : Bool
  atMs : ℤ
  deriving DecidableEq

/-- A hash function that tells the entries, the withdrawals and the first cycle apart from everything else. -/
@[reducible] def demoSha256 : Sha256 where
  canonicalSha256 payload :=
    if payload.get? "kind" = some (.str "entry_review") then
      ⟨"1111111111111111111111111111111111111111111111111111111111111111", by decide +kernel⟩
    else if payload.get? "kind" = some (.str "signal_invalidated") then
      ⟨"2222222222222222222222222222222222222222222222222222222222222222", by decide +kernel⟩
    else if payload.get? "cycle_id" = some (.str "first") then
      ⟨"3333333333333333333333333333333333333333333333333333333333333333", by decide +kernel⟩
    else ⟨zeroDigits, zeroDigits_isHex⟩
  sha256 _ := ⟨zeroDigits, zeroDigits_isHex⟩

attribute [local instance] demoSha256

/-- The observation of such a scan. -/
@[reducible] def demoObservation : StageObservation DemoScan where
  completeReady := DemoScan.ready
  fromDict := some
  symbol _ := "BTC"
  createdAtMs := DemoScan.atMs
  observedAtMs := DemoScan.atMs
  outcome scan := if scan.ready then .readyForReview else .normalNoAction
  signalTimeMs scan := if scan.ready then some (some 0) else none
  strategyName _ := "fib"
  strategyConfigFingerprint _ := ""
  decisionCode scan := if scan.ready then some .secondPullbackLimitReady else none
  resultFingerprint _ := canonicalSha256 .null
  trustAllowed _ := false
  trustedRunId _ := none
  toDict scan := .obj [("ready", .bool scan.ready), ("at_ms", .int scan.atMs)]
  fromDict_eq h := (Option.some.inj h).symm

attribute [local instance] demoObservation

/-- The policy of the run. -/
def demoAlerts : EmailAlerts := ⟨300000, "data"⟩

/-- A cycle of one scan. -/
def demoCycle (cycleId : String) (scan : DemoScan) : ObservationCycle DemoScan where
  cycleId := cycleId
  createdAtMs := scan.atMs
  observations := [scan]

/-- First the symbol is ready, then it is not. -/
def readyCycle : ObservationCycle DemoScan := demoCycle "first" ⟨true, 1000⟩

/-- The second cycle. -/
def quietCycle : ObservationCycle DemoScan := demoCycle "second" ⟨false, 3000⟩

/-- A healthy service after a cycle. -/
def demoSnapshot (cycle : ObservationCycle DemoScan) : Snapshot DemoScan :=
  some (some
    { symbols := ["BTC"]
      runId := "run"
      running := true
      phase := .idle
      updatedAtMs := 0
      deadlineMs := 100000
      lastCycle := some ⟨"run", 0, ⟨.succeeded, none⟩, ⟨.succeeded, some cycle, .succeeded⟩⟩
      events := []
      eventSequence := 0 }, true)

/-- The entry of the first cycle. -/
def demoEntry : HexDigest := canonicalSha256 (.obj [("kind", .str "entry_review")])

/-- The scanner appends a cycle, and a collection follows. -/
def publish (cycle : ObservationCycle DemoScan) (found : ℕ) (nowMs : ℤ) : List (AlertLabel Unit DemoScan) :=
  [.beginAppend cycle, .writeAppend, .finishAppend, .collect found nowMs (demoSnapshot cycle)]

/-- A sender claims the entry. -/
def claimEntry : List (AlertLabel Unit DemoScan) :=
  [.mail (.deliver () (canonicalSha256 .null) 20), .mail (.claim () 2000)]

/-- It mails the entry. -/
def mailEntry : List (AlertLabel Unit DemoScan) :=
  [.recheck () (demoEntry, 1) 2000 (demoSnapshot readyCycle), .mail (.send () (demoEntry, 1))]

end concrete

end MuStrategy.Notifications
