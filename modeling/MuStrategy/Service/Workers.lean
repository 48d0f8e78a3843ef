import MuStrategy.Service.HealthFile

/-!
# The workers of the signal service

A cycle runs two child processes, and makes of how each of them ends what the health says of it. Whatever a child prints,
it becomes a record that can be written.

* `ProcessOutcome` — how a child ends.
* `refreshOf`, `scanOf` — what becomes of it.
* `refreshOf_valid`, `scanOf_valid` — it can be written.
-/

namespace MuStrategy.Service

open Lib
open Notifications (StepStatus ObservationCycle StageObservation utf8)
open Notifications.ObservationFile (uniqueFields)

/-- How `processes.run` ends. Source: `signal_service.py` `ProcessRunner.run`. -/
inductive ProcessOutcome where
  /-- `subprocess.TimeoutExpired`: the child is killed and waited for. -/
  | timeout
  /-- Another exception. -/
  | raised
  | completed (returncode : ℤ) (stdout : String)
  deriving DecidableEq

/-- An exit code of a process is a number of 32 bits. -/
def ProcessOutcome.InRange : ProcessOutcome → Prop
  | .completed returncode _ => -2147483648 ≤ returncode
  | _ => True

instance (outcome : ProcessOutcome) : Decidable outcome.InRange := by
  cases outcome <;> unfold ProcessOutcome.InRange <;> infer_instance

variable [FloatText PyFloat]

/-- The dictionary that a child printed. Source: `signal_service.py` `_result_json`. -/
def resultJson (stdout : String) : Except HealthError JsonValue := do
  require ((utf8 stdout).length ≤ maxStateBytes) (.state "worker output exceeds size limit")
  let result ← orThrow (Json.loadsWith uniqueFields stdout) (.state "duplicate JSON field")
  match result with
  | .obj _ => pure result
  | _ => throw (.state "worker output must be an object")

/-- `payload[key]`; a missing key raises. -/
def item (payload : JsonValue) (key : String) : Except HealthError JsonValue := orThrow (payload.get? key) .member

/-! ## The refresh -/

/-- The status of a refresh. -/
def refreshStatus (attempt : RefreshAttemptStatus) (usability : SnapshotUsability) : StepStatus :=
  if attempt = .success ∧ usability = .usable then .succeeded
  else if attempt = .degraded ∧ usability = .usable then .degraded
  else .failed

/-- The exit code of a status. -/
def refreshExit : StepStatus → ℤ
  | .succeeded => 0
  | .degraded => 2
  | _ => 1

/-- What a refresh reports. Source: `signal_service.py` `SignalService._refresh`, its second `try`. -/
def readRefresh (returncode : ℤ) (stdout : String) : Except HealthError RefreshHealth := do
  let payload ← resultJson stdout
  let attempt ← member RefreshAttemptStatus (← item payload "attempt_status")
  let usability ← member SnapshotUsability (← item payload "snapshot_usability")
  let usable ← item payload "usable"
  require (usable = .bool (usability = .usable)) (.state "contradictory refresh usability")
  let status := refreshStatus attempt usability
  require (returncode = refreshExit status) (.state "refresh exit contradicts payload")
  let runId ← item payload "run_id"
  let errorCode := if status = .succeeded then none else some "publication_not_fully_healthy"
  RefreshHealth.fromDict (.obj [("status", memberValue status), ("run_id", runId), ("attempt_status", memberValue attempt),
    ("snapshot_usability", memberValue usability), ("exit_code", .int returncode), ("error_code", optional .str errorCode)])

/-- Source: `signal_service.py` `SignalService._refresh`.
Fidelity: nesting deeper than the interpreter's stack raises through it. -/
def refreshOf : ProcessOutcome → RefreshHealth
  | .timeout => { status := .timedOut, errorCode := some "refresh_timeout" }
  | .raised => { status := .failed, errorCode := some "refresh_process_failed" }
  | .completed returncode stdout =>
      match readRefresh returncode stdout with
      | .ok health => health
      | .error _ =>
          { status := .failed
            exitCode := some returncode
            errorCode := some (if returncode ≠ 0 then "refresh_process_failed" else "refresh_result_invalid") }

omit [FloatText PyFloat] in
/-- A failed refresh with a reason is valid. -/
lemma RefreshHealth.valid_of_failed {r : RefreshHealth} (hstatus : r.status ≠ .succeeded) (hdegraded : r.status ≠ .degraded)
    (hrun : r.runId = none) (hexit : ∀ n ∈ r.exitCode, -2147483648 ≤ n) (herror : ∀ s ∈ r.errorCode, isText s = true) :
    r.Valid := by
  have hnone : ∀ s ∈ r.runId, isText s = true := by
    rw [hrun]
    exact fun s hs => by cases hs
  refine ⟨hnone, hexit, herror, ?_⟩
  unfold check checkPublication
  rw [if_neg (by simp [hstatus, hdegraded])]
  simp [hstatus]

/-- **Whatever a refresh prints, its health can be written.** -/
theorem refreshOf_valid {outcome : ProcessOutcome} (h : outcome.InRange) : (refreshOf outcome).Valid := by
  cases outcome with
  | timeout =>
      refine RefreshHealth.valid_of_failed (fun h => by cases h) (fun h => by cases h) rfl (fun _ hn => by cases hn) fun s hs => ?_
      obtain rfl := Option.some.inj hs
      decide
  | raised =>
      refine RefreshHealth.valid_of_failed (fun h => by cases h) (fun h => by cases h) rfl (fun _ hn => by cases hn) fun s hs => ?_
      obtain rfl := Option.some.inj hs
      decide
  | completed returncode stdout =>
      rw [refreshOf]
      cases hread : readRefresh returncode stdout with
      | ok health =>
          simp only [readRefresh, bind_eq_ok] at hread
          obtain ⟨_, -, _, -, _, -, _, -, _, -, _, -, _, -, _, -, _, -, hhealth⟩ := hread
          exact RefreshHealth.valid_of_fromDict hhealth
      | error e =>
          refine RefreshHealth.valid_of_failed (fun h => by cases h) (fun h => by cases h) rfl (fun n hn => ?_) fun s hs => ?_
          · obtain rfl := Option.some.inj hn
            exact h
          · obtain rfl := Option.some.inj hs
            split <;> decide

/-! ## The scan -/

variable {O : Type} [HealthCodec O]

/-- What a scan reports. Source: `signal_service.py` `SignalService._scan`, its second `try`. -/
def readScan (symbols : List String) (returncode : ℤ) (stdout : String) : Except HealthError (ScanHealth O) := do
  let payload ← resultJson stdout
  require (payload.hasFields ["schema_version", "scan"] && (payload.field "schema_version").int? = some 1)
    (.state "unsupported scan worker payload")
  let scan ← ScanHealth.fromDict (payload.field "scan")
  let expectedExit : ℤ := if scan.status = .succeeded ∧ scan.persistence = .succeeded then 0 else 1
  require (returncode = expectedExit && (scan.status = .succeeded || scan.status = .failed))
    (.state "scan exit contradicts payload")
  require (scan.cycle.all fun cycle => (cycle.observations.map StageObservation.symbol).isPerm symbols)
    (.state "scan did not cover configured watchlist exactly once")
  pure scan

/-- Source: `signal_service.py` `SignalService._scan`.
Fidelity: nesting deeper than the interpreter's stack raises through it. -/
def scanOf (symbols : List String) : ProcessOutcome → ScanHealth O
  | .timeout => { status := .timedOut, errorCode := some "scan_timeout" }
  | .raised => { status := .failed, errorCode := some "scan_process_failed" }
  | .completed returncode stdout =>
      match readScan symbols returncode stdout with
      | .ok scan => scan
      | .error _ => { status := .failed, errorCode := some "scan_result_invalid" }

/-- A scan that did not succeed, without evidence, is valid. -/
lemma ScanHealth.valid_of_failed {s : ScanHealth O} (hstatus : s.status ≠ .succeeded) (hdegraded : s.status ≠ .degraded)
    (hcycle : s.cycle = none) (hpersistence : s.persistence = .notRun) (herror : ∀ e ∈ s.errorCode, isText e = true) :
    s.Valid := by
  refine ⟨fun c hc => ?_, herror, ?_⟩
  · rw [hcycle] at hc
    cases hc
  · unfold check checkEvidence
    rw [if_neg hstatus, hcycle, hpersistence]
    simp [hstatus, hdegraded]

/-- **Whatever a scan prints, its health can be written**, and its evidence covers the symbols. -/
theorem scanOf_valid (symbols : List String) (outcome : ProcessOutcome) :
    (scanOf symbols outcome : ScanHealth O).Valid ∧
      ∀ cycle ∈ (scanOf symbols outcome : ScanHealth O).cycle,
        (cycle.observations.map StageObservation.symbol).Perm symbols := by
  have hfailed : ∀ {s : ScanHealth O}, s.cycle = none → ∀ cycle ∈ s.cycle,
      (cycle.observations.map StageObservation.symbol).Perm symbols := by
    intro s hs cycle hcycle
    rw [hs] at hcycle
    cases hcycle
  cases outcome with
  | timeout =>
      refine ⟨ScanHealth.valid_of_failed (fun h => by cases h) (fun h => by cases h) rfl rfl fun s hs => ?_, hfailed rfl⟩
      obtain rfl := Option.some.inj hs
      decide
  | raised =>
      refine ⟨ScanHealth.valid_of_failed (fun h => by cases h) (fun h => by cases h) rfl rfl fun s hs => ?_, hfailed rfl⟩
      obtain rfl := Option.some.inj hs
      decide
  | completed returncode stdout =>
      rw [scanOf]
      cases hread : (readScan symbols returncode stdout : Except HealthError (ScanHealth O)) with
      | ok scan =>
          simp only [readScan, bind_eq_ok, require_eq_ok, exists_const, pure_eq_ok_iff, Option.all_eq_true,
            List.isPerm_iff] at hread
          obtain ⟨_, -, -, scan', hscan, -, hcovers, rfl⟩ := hread
          exact ⟨ScanHealth.valid_of_fromDict hscan, hcovers⟩
      | error e =>
          refine ⟨ScanHealth.valid_of_failed (fun h => by cases h) (fun h => by cases h) rfl rfl fun s hs => ?_, hfailed rfl⟩
          obtain rfl := Option.some.inj hs
          decide

end MuStrategy.Service
