import MuStrategy.Lib.Program
import MuStrategy.Notifications.Frame

/-!
# The file of the observation log

The observation log is a file of lines that the scanner appends to. A collection reads it without its lock, inside a
transaction on the email database: what it reads may grow while it reads, and every call may fail.

* `RecordFormat`, `LogCursor` — records in bytes, and the persisted position with the digest of the record before it.
* `readBatch` — the records after a cursor; `appendCycle` — an append; `collect` — a collection. All three are programs.
* `Act` — what their calls do to the file and the database, and how they fail.
* `Records` — the records between two cursors, as a fact about the bytes alone.
-/

namespace MuStrategy.Notifications

/-- The content of a cycle: `cycle.to_dict()`. Source: `observations.py` `Stage0ObservationCycle.to_dict`. -/
def ObservationCycle.toDict {O : Type} [StageObservation O] (cycle : ObservationCycle O) : JsonValue :=
  .obj [("schema_version", .int cycle.schemaVersion), ("cycle_id", .str cycle.cycleId),
    ("created_at_ms", .int cycle.createdAtMs),
    ("observations", .arr (cycle.observations.map StageObservation.toDict))]

lemma ObservationCycle.digest_eq {O : Type} [Sha256] [StageObservation O] (cycle : ObservationCycle O) :
    cycle.digest = canonicalSha256 cycle.toDict := rfl

namespace ObservationFile

open Lib Prog

variable {O : Type}

/-! ## Records -/

/-- How records are written. Nothing depends on what these functions compute.
Source: `observations.py` `JsonlObservationRepository.read_batch`. -/
structure RecordFormat (O : Type) where
  /-- `Stage0ObservationCycle.from_dict(json.loads(raw.decode("utf-8"), object_pairs_hook=unique_fields))`; `none`
  when one of them raises. -/
  decode : List UInt8 → Option (ObservationCycle O)
  /-- `hashlib.sha256(raw).hexdigest()`. -/
  recordSha256 : List UInt8 → HexDigest

/-- The metadata value `observation_cursor`: the offset of the next record, and where the record before it starts and
its digest. -/
structure LogCursor where
  offset : ℕ := 0
  anchorStart : ℕ := 0
  anchorSha256 : Option HexDigest := none
  deriving DecidableEq

/-- The checks on the arguments of a read. The types carry the rest.
Source: `observations.py` `JsonlObservationRepository.read_batch`. -/
def LogCursor.isValid (cursor : LogCursor) (limit : ℕ) : Bool :=
  1 ≤ limit && limit ≤ 1000 && cursor.anchorStart ≤ cursor.offset &&
    !(cursor.offset = 0 && (cursor.anchorStart ≠ 0 || cursor.anchorSha256.isSome)) &&
    !(0 < cursor.offset && (cursor.offset ≤ cursor.anchorStart || cursor.anchorSha256.isNone))

/-- The cursor behind a record. -/
def LogCursor.advance (fmt : RecordFormat O) (cursor : LogCursor) (raw : List UInt8) : LogCursor :=
  ⟨cursor.offset + raw.length, cursor.offset, some (fmt.recordSha256 raw)⟩

/-- `4 * 1024 * 1024`. -/
def maxRecordBytes : ℕ := 4194304

/-- `b"\n"`. -/
def newline : UInt8 := 10

/-- `handle.readline(size)`, when these bytes follow the position of the handle. -/
def readLine : ℕ → List UInt8 → List UInt8
  | 0, _ => []
  | _ + 1, [] => []
  | size + 1, byte :: rest => byte :: if byte = newline then [] else readLine size rest

lemma readLine_append (size : ℕ) (bytes : List UInt8) : ∃ after, bytes = readLine size bytes ++ after := by
  induction bytes generalizing size with
  | nil => exact ⟨[], by cases size <;> rfl⟩
  | cons byte rest ih =>
      cases size with
      | zero => exact ⟨byte :: rest, rfl⟩
      | succ size =>
          by_cases hbyte : byte = newline
          · exact ⟨rest, by rw [readLine, if_pos hbyte]; rfl⟩
          · obtain ⟨after, hafter⟩ := ih size
            exact ⟨after, by rw [readLine, if_neg hbyte, List.cons_append, ← hafter]⟩

/-- What a line that was read is: nothing more, a record, or no record.
Source: `observations.py` `JsonlObservationRepository.read_batch`, its loop. -/
def RecordFormat.parse (fmt : RecordFormat O) (raw : List UInt8) : Except AlertError (Option (ObservationCycle O)) :=
  if raw.isEmpty then pure none
  else do
    require (raw.length ≤ maxRecordBytes && raw.getLast? = some newline)
      (.corruption "observation record incomplete or oversized")
    some <$> orThrow (fmt.decode raw) (.corruption "invalid observation record")

/-- The record before the cursor has to be what it was. -/
def RecordFormat.checkAnchor (fmt : RecordFormat O) (cursor : LogCursor) (anchor : List UInt8) : Except AlertError Unit :=
  require (cursor.anchorStart + anchor.length = cursor.offset && anchor.getLast? = some newline &&
    cursor.anchorSha256 = some (fmt.recordSha256 anchor)) (.corruption "observation cursor boundary changed")

/-! ## The shared state and the calls -/

/-- The tables of the email database, with the cursor they belong to. -/
structure LogStore (O : Type) where
  cursor : LogCursor := {}
  tables : AlertStore O

/-- The log file, the marker of an unfinished append, the committed database with the number of its commits, and the
open transaction: its process and the tables it has written so far. -/
structure Shared (O : Type) where
  content : Option (List UInt8) := none
  invalidMarker : Bool := false
  db : LogStore O
  commits : ℕ := 0
  working : Option (ℕ × LogStore O) := none

/-- The bytes of the log. A file that is missing has none. -/
def Shared.bytes (s : Shared O) : List UInt8 := s.content.getD []

/-- What a program raises. -/
inductive CollectError where
  | alert (error : AlertError)
  /-- `OSError`, from a call on a file. -/
  | osError
  /-- `sqlite3.Error`. -/
  | database
  /-- From the clock. -/
  | clock

/-- The calls. -/
inductive Op (O : Type) where
  | markerExists
  | openLog
  /-- `handle.readline(4 * 1024 * 1024 + 1)` at a position. -/
  | readLine (position : ℕ)
  | createMarker
  | write (encoded : List UInt8)
  | removeMarker
  | fsyncDirectory
  | snapshot
  | now
  | beginImmediate
  | validate
  | readCursor
  /-- The statements of a transaction between its reads and its commit. -/
  | update (f : LogStore O → Except AlertError (LogStore O))
  | commit
  | inTransaction
  | rollback

/-- What a call returns. -/
abbrev Op.Value : Op O → Type
  | .markerExists | .openLog | .inTransaction => Bool
  | .readLine _ => List UInt8
  | .write _ => ℕ
  | .snapshot => Option (ServiceState O) × Bool
  | .now => ℤ
  | .readCursor => LogCursor
  | .update _ => LogStore O
  | .createMarker | .removeMarker | .fsyncDirectory | .beginImmediate | .validate | .commit | .rollback => Unit

/-- A call returns or raises. -/
abbrev Op.Reply (op : Op O) : Type := Except CollectError op.Value

/-- A program of calls. -/
abbrev Action (O α : Type) := Prog (Op O) Op.Reply CollectError α

/-- A call whose exception is raised. -/
def call (op : Op O) : Action O op.Value := .call op .done

/-- A computation without calls. -/
def check {α : Type} (x : Except AlertError α) : Action O α := .done (raiseAs .alert x)

/-- `if condition: raise error`. -/
def raiseIf (condition : Bool) (error : CollectError) : Action O Unit := if condition then raise error else pure ()

/-! ## Programs -/

section programs

variable (fmt : RecordFormat O)

/-- Source: `observations.py` `JsonlObservationRepository._reject_invalid_marker`. -/
def rejectInvalidMarker : Action O Unit := do
  let marked ← call .markerExists
  check (require (!marked) (.corruption "observation repository has an unresolved failed-write marker"))

/-- The next records, at most `limit`. Source: `observations.py` `JsonlObservationRepository.read_batch`, its loop. -/
def readRecords : ℕ → LogCursor → Action O (List (ObservationCycle O) × LogCursor)
  | 0, cursor => pure ([], cursor)
  | limit + 1, cursor => do
      let raw ← call (.readLine cursor.offset)
      match fmt.parse raw with
      | .error error => raise (.alert error)
      | .ok none => pure ([], cursor)
      | .ok (some cycle) => do
          let (cycles, next) ← readRecords limit (cursor.advance fmt raw)
          pure (cycle :: cycles, next)

/-- The record before the cursor is read again, if there is one. -/
def readAnchor (cursor : LogCursor) : Action O Unit :=
  if cursor.offset = 0 then pure ()
  else do
    let anchor ← call (.readLine cursor.anchorStart)
    check (fmt.checkAnchor cursor anchor)

/-- The records after the cursor, from an open file. -/
def readOpened (cursor : LogCursor) (limit : ℕ) : Action O (List (ObservationCycle O) × LogCursor) := do
  readAnchor fmt cursor
  readRecords fmt limit cursor

/-- The log was not found. -/
def readMissing (cursor : LogCursor) : Action O (List (ObservationCycle O) × LogCursor) := do
  rejectInvalidMarker
  check (require (cursor.offset = 0) (.corruption "observation log missing at persisted cursor"))
  pure ([], cursor)

/-- The part of a read that catches `OSError`. -/
def readFiles (cursor : LogCursor) (limit : ℕ) : Action O (List (ObservationCycle O) × LogCursor) := do
  rejectInvalidMarker
  let found ← call .openLog
  if found then do
    let batch ← readOpened fmt cursor limit
    rejectInvalidMarker
    pure batch
  else readMissing cursor

/-- `except OSError as exc: raise ObservationCorruptionError(…) from exc`. -/
def asCorruption : CollectError → CollectError
  | .osError => .alert (.corruption "observation repository read failed")
  | error => error

/-- Source: `observations.py` `JsonlObservationRepository.read_batch`. -/
def readBatch (cursor : LogCursor) (limit : ℕ) : Action O (List (ObservationCycle O) × LogCursor) := do
  check (require (cursor.isValid limit) (.corruption "invalid observation cursor"))
  handle (readFiles fmt cursor limit) fun error => raise (asCorruption error)

/-- The marker is left again when it could not be removed durably. -/
def restoreMarker (error : CollectError) : Action O Unit := do
  handle (call .createMarker) fun _ => pure ()
  raise error

/-- An append. The lock that serializes appends is left out: it only rules runs out.
Source: `observations.py` `JsonlObservationRepository.append_cycle`. -/
def appendCycle (encoded : List UInt8) : Action O Unit := do
  let marked ← call .markerExists
  raiseIf marked .osError
  call .createMarker
  let written ← call (.write encoded)
  raiseIf (written ≠ encoded.length) .osError
  call .removeMarker
  handle (call .fsyncDirectory) restoreMarker

/-- `if db.in_transaction: db.execute("ROLLBACK")`. -/
def rollbackIf (inTransaction : Bool) : Action O Unit := if inTransaction then call .rollback else pure ()

/-- What `transaction` does when its body raises. -/
def rollBack {α : Type} (error : CollectError) : Action O α := do
  let inTransaction ← call .inTransaction
  rollbackIf inTransaction
  raise error

/-- Source: `notifications/store.py` `NotificationStore.transaction`. -/
def transaction {α : Type} (body : Action O α) : Action O α := do
  call .beginImmediate
  handle (do
    let result ← body
    call .commit
    pure result) rollBack

/-- Source: `notifications/service.py` `EmailAlerts.collect`, the dictionary it returns. -/
structure CollectSummary where
  runtime : Runtime
  sourceHealthy : Bool
  caughtUp : Bool
  cyclesConsumed : ℕ

variable [DecidableEq O] [Sha256] [StageObservation O] (alerts : EmailAlerts)

/-- The statements of a collection: its records are consumed, and the cursor moves behind them. -/
def consumeBatch (c : Collection O) (cycles : List (ObservationCycle O)) (next : LogCursor) (store : LogStore O) :
    Except AlertError (LogStore O) := do
  let tables ← store.tables.collectBatch alerts c cycles
  pure ⟨next, tables⟩

/-- The body of the transaction of a collection. -/
def collectBody (limit : ℕ) : Action O CollectSummary := do
  call .validate
  let cursor ← call .readCursor
  let (cycles, next) ← readBatch fmt cursor limit
  let (state, alive) ← call .snapshot
  let nowMs ← call .now
  let c : Collection O := ⟨state, alive, nowMs⟩
  let store ← call (.update (consumeBatch alerts c cycles next))
  pure ⟨c.view.runtime, c.view.healthy, c.isCurrent store.tables.lastCycleSha256, cycles.length⟩

/-- A collection; the source calls it with the limit 1000.
Source: `notifications/service.py` `EmailAlerts.collect`. -/
def collect (limit : ℕ) : Action O CollectSummary := transaction (collectBody fmt alerts limit)

end programs

/-! ## What the calls do -/

/-- What a call of a process does. Appends only add bytes, maybe not all, and the marker comes and goes. A transaction is
seen by others when it is committed, and not at all when it is not. A transaction that loses its process, or that the
database gives up, is gone: then another one may begin. -/
inductive Act (i : ℕ) : (op : Op O) → Shared O → op.Reply → Shared O → Prop where
  | fault {op : Op O} {s : Shared O} (error : CollectError) : Act i op s (.error error) s
  | markerExists {s : Shared O} : Act i .markerExists s (.ok s.invalidMarker) s
  | openLog {s : Shared O} : Act i .openLog s (.ok s.content.isSome) s
  | readLine {s : Shared O} (position : ℕ) :
      Act i (.readLine position) s (.ok (readLine (maxRecordBytes + 1) (s.bytes.drop position))) s
  | createMarker {s : Shared O} (reply : Op.Reply (.createMarker : Op O)) :
      Act i .createMarker s reply { s with invalidMarker := true }
  | write {s : Shared O} {encoded : List UInt8} (count : ℕ) (reply : Op.Reply (.write encoded : Op O)) :
      Act i (.write encoded) s reply { s with content := some (s.bytes ++ encoded.take count) }
  | removeMarker {s : Shared O} (reply : Op.Reply (.removeMarker : Op O)) :
      Act i .removeMarker s reply { s with invalidMarker := false }
  | fsyncDirectory {s : Shared O} : Act i .fsyncDirectory s (.ok ()) s
  | snapshot {s : Shared O} (state : Option (ServiceState O)) (alive : Bool) : Act i .snapshot s (.ok (state, alive)) s
  | now {s : Shared O} (nowMs : ℤ) : Act i .now s (.ok nowMs) s
  | beginImmediate {s : Shared O} : Act i .beginImmediate s (.ok ()) { s with working := some (i, s.db) }
  | validate {s : Shared O} : Act i .validate s (.ok ()) s
  | readCursor {s : Shared O} {store : LogStore O} (hown : s.working = some (i, store)) :
      Act i .readCursor s (.ok store.cursor) s
  | update {s : Shared O} {f : LogStore O → Except AlertError (LogStore O)} {store store' : LogStore O}
      (hown : s.working = some (i, store)) (hf : f store = .ok store') :
      Act i (.update f) s (.ok store') { s with working := some (i, store') }
  /-- The statements raise after some of them were carried out. -/
  | updateRaised {s : Shared O} {f : LogStore O → Except AlertError (LogStore O)} {store : LogStore O}
      (hown : s.working = some (i, store)) (error : CollectError) (written : LogStore O) :
      Act i (.update f) s (.error error) { s with working := some (i, written) }
  | commit {s : Shared O} {store : LogStore O} (hown : s.working = some (i, store)) :
      Act i .commit s (.ok ()) { s with db := store, commits := s.commits + 1, working := none }
  /-- The database gives the transaction up. -/
  | giveUp {op : Op O} {s : Shared O} {store : LogStore O} (hown : s.working = some (i, store)) (error : CollectError) :
      Act i op s (.error error) { s with working := none }
  | inTransaction {s : Shared O} : Act i .inTransaction s (.ok (s.working.any fun w => w.1 = i)) s
  | rollback {s : Shared O} {store : LogStore O} (hown : s.working = some (i, store)) :
      Act i .rollback s (.ok ()) { s with working := none }

/-- Collections and appends. -/
inductive Request where
  | collect (limit : ℕ)
  | append (encoded : List UInt8)

/-- The program of a request; only a collection has a result.
Source: `notifications/service.py` `EmailAlerts.collect`, `observations.py` `JsonlObservationRepository.append_cycle`. -/
def Request.program [DecidableEq O] [Sha256] [StageObservation O] (fmt : RecordFormat O) (alerts : EmailAlerts) :
    Request → Action O (Option CollectSummary)
  | .collect limit => do
      let summary ← ObservationFile.collect fmt alerts limit
      pure (some summary)
  | .append encoded => do
      appendCycle encoded
      pure none

/-- The processes. -/
abbrev Collectors (O : Type) := Pool (Op O) Op.Reply CollectError (Option CollectSummary) Request (Shared O)

/-- A log, with or without a marker, and an email database that was initialized. -/
def initial (content : Option (List UInt8)) (invalidMarker : Bool) : Shared O where
  content := content
  invalidMarker := invalidMarker
  db := { tables := .empty }

/-- Collections and appends that start at any time, go on in any order, and crash. -/
def collections [DecidableEq O] [Sha256] [StageObservation O] (fmt : RecordFormat O) (alerts : EmailAlerts)
    (content : Option (List UInt8)) (invalidMarker : Bool) : System (Collectors O) (PoolStep Request) :=
  Pool.system (fun i => Act i) (fun _ request => request.program fmt alerts) (initial content invalidMarker)

/-! ## The records between two cursors -/

/-- A complete line at a position: it ends with its only newline, and is not too long. -/
structure IsLine (bytes : List UInt8) (position : ℕ) (raw : List UInt8) : Prop where
  at_position : ∃ before after, bytes = before ++ raw ++ after ∧ before.length = position
  terminated : ∃ line, raw = line ++ [newline] ∧ newline ∉ line
  size : raw.length ≤ maxRecordBytes

/-- The records from a cursor up to another one. -/
inductive Records (fmt : RecordFormat O) (bytes : List UInt8) : LogCursor → List (ObservationCycle O) → LogCursor → Prop
    where
  | nil (cursor : LogCursor) : Records fmt bytes cursor [] cursor
  | cons {cursor next : LogCursor} {raw : List UInt8} {cycle : ObservationCycle O} {cycles : List (ObservationCycle O)}
      (hline : IsLine bytes cursor.offset raw) (hdecode : fmt.decode raw = some cycle)
      (hrest : Records fmt bytes (cursor.advance fmt raw) cycles next) : Records fmt bytes cursor (cycle :: cycles) next

end ObservationFile

end MuStrategy.Notifications
