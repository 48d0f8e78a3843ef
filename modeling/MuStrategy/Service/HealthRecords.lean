import MuStrategy.Lib.Check
import MuStrategy.Lib.JsonDict
import MuStrategy.Notifications.CycleCodec

/-!
# The health records of the signal service

What the service publishes about itself: the last cycle of a refresh and a scan, and its latest events.

* `RefreshHealth`, `ScanHealth`, `CycleHealth`, `HealthEvent`, `ServiceState` — the records, with `toDict`, `check` and
  `fromDict`.
* `ServiceState.Valid` — what an accepted record fulfils.
* `ServiceState.fromDict_toDict`, `ServiceState.valid_of_fromDict` — a record is accepted exactly when it is valid, in
  whatever order its dictionaries are.
-/

namespace MuStrategy.Service

open Lib
open Notifications (StepStatus Phase HealthEventKind ObservationCycle ObservationCodec StageObservation)

/-! ## Enumerations -/

/-- Source: `trusted_data/contracts.py` `RefreshAttemptStatus`. -/
inductive RefreshAttemptStatus where
  | success
  | degraded
  | failed
  deriving DecidableEq

/-- Source: `trusted_data/contracts.py` `SnapshotUsability`. -/
inductive SnapshotUsability where
  | usable
  | stale
  | invalid
  deriving DecidableEq

instance : PyEnum RefreshAttemptStatus where
  members := [.success, .degraded, .failed]
  value
    | .success => "success"
    | .degraded => "degraded"
    | .failed => "failed"
  find_value := by intro a; cases a <;> decide

instance : PyEnum SnapshotUsability where
  members := [.usable, .stale, .invalid]
  value
    | .usable => "usable"
    | .stale => "stale"
    | .invalid => "invalid"
  find_value := by intro a; cases a <;> decide

instance : PyEnum StepStatus where
  members := [.notRun, .succeeded, .degraded, .failed, .timedOut]
  value := StepStatus.value
  find_value := by intro a; cases a <;> decide

/-- The text of a phase. -/
def phaseValue : Phase → String
  | .idle => "idle"
  | .refresh => "refresh"
  | .scan => "scan"

instance : PyEnum Phase where
  members := [.idle, .refresh, .scan]
  value := phaseValue
  find_value := by intro a; cases a <;> decide

instance : PyEnum HealthEventKind where
  members := [.started, .restarted, .fault, .recovered, .stopped, .interruptionAcknowledged]
  value := HealthEventKind.value
  find_value := by intro a; cases a <;> decide

/-! ## Reading fields -/

/-- What the reading of a record raises. -/
inductive HealthError where
  /-- `HealthStateError(text)`. -/
  | state (text : String)
  /-- The `ValueError` of an enumeration. -/
  | member
  /-- What `Stage0ObservationCycle.from_dict` raises. -/
  | cycle
  /-- The `ValueError` of `canonical_json` for a float that is not finite. -/
  | float
  deriving DecidableEq

/-- Source: `service_health.py` `_object`. -/
def object (value : JsonValue) (name : String) (fields : List String) : Except HealthError Unit :=
  require (value.hasFields fields) (.state ("invalid " ++ name ++ " fields"))

/-- Source: `service_health.py` `_integer`. -/
def integer (value : JsonValue) (minimum : ℤ) : Except HealthError ℤ := do
  let n ← orThrow value.int? (.state "invalid integer")
  require (minimum ≤ n) (.state "invalid integer")
  pure n

/-- The texts that `_text` accepts. -/
def isText (value : String) : Bool :=
  value ≠ "" && value.toList.length ≤ 4096 && value.toList.all fun c => 32 ≤ c.toNat

/-- Source: `service_health.py` `_text`. -/
def text (value : JsonValue) : Except HealthError String := do
  let s ← orThrow value.str? (.state "invalid text")
  require (isText s) (.state "invalid text")
  pure s

/-- Source: `service_health.py` `_texts`. -/
def texts : JsonValue → Except HealthError (List String)
  | .arr items => items.mapM text
  | _ => throw (.state "expected text list")

/-- `Enum(value)`. -/
def member (α : Type) [PyEnum α] (value : JsonValue) : Except HealthError α :=
  orThrow (value.str?.bind PyEnum.ofValue?) .member

/-- A number that counts. -/
def count (value : JsonValue) (minimum : ℕ) : Except HealthError ℕ := Int.toNat <$> integer value minimum

/-- A value that may be absent: `read(value) if value is not None else None`. -/
def nullable {α : Type} (read : JsonValue → Except HealthError α) : JsonValue → Except HealthError (Option α)
  | .null => pure none
  | value => some <$> read value

/-- Source: `service_health.py` `_optional_text`. -/
def optionalText : JsonValue → Except HealthError (Option String) := nullable text

/-- `member.value`. -/
def memberValue {α : Type} [PyEnum α] (a : α) : JsonValue := .str (PyEnum.value a)

/-- A value that may be absent, as it is written. -/
def optional {α : Type} (write : α → JsonValue) : Option α → JsonValue
  | none => .null
  | some a => write a

section readers

variable {value : JsonValue} {s : String} {n : ℤ}

@[simp] lemma object_eq_ok {name : String} {fields : List String} {u : Unit} :
    object value name fields = .ok u ↔ value.hasFields fields = true := require_eq_ok

lemma integer_eq_ok {minimum : ℤ} : integer value minimum = .ok n ↔ value = .int n ∧ minimum ≤ n := by
  simp only [integer, bind_eq_ok, orThrow_eq_ok, require_eq_ok, exists_const, decide_eq_true_eq, pure_eq_ok_iff]
  constructor
  · rintro ⟨m, hm, hle, rfl⟩
    cases value <;> cases hm
    exact ⟨rfl, hle⟩
  · rintro ⟨rfl, hle⟩
    exact ⟨n, rfl, hle, rfl⟩

lemma count_eq_ok {minimum k : ℕ} : count value minimum = .ok k ↔ value = .int k ∧ minimum ≤ k := by
  unfold count
  constructor
  · intro h
    cases hread : integer value minimum with
    | error e =>
        rw [hread] at h
        cases h
    | ok m =>
        obtain ⟨rfl, hle⟩ := integer_eq_ok.mp hread
        rw [hread, map_ok, Except.ok.injEq] at h
        obtain rfl : m = k := by omega
        exact ⟨rfl, by omega⟩
  · rintro ⟨rfl, hle⟩
    rw [integer_eq_ok.mpr ⟨rfl, by omega⟩, map_ok, Int.toNat_natCast]

lemma text_eq_ok : text value = .ok s ↔ value = .str s ∧ isText s = true := by
  simp only [text, bind_eq_ok, orThrow_eq_ok, require_eq_ok, exists_const, pure_eq_ok_iff]
  constructor
  · rintro ⟨t, ht, htext, rfl⟩
    cases value <;> cases ht
    exact ⟨rfl, htext⟩
  · rintro ⟨rfl, htext⟩
    exact ⟨s, rfl, htext, rfl⟩

lemma member_eq_ok {α : Type} [PyEnum α] {a : α} : member α value = .ok a ↔ value = .str (PyEnum.value a) := by
  rw [member, orThrow_eq_ok]
  constructor
  · intro h
    obtain ⟨t, ht, hmember⟩ := Option.bind_eq_some_iff.mp h
    cases value <;> cases ht
    rw [PyEnum.value_of_ofValue? hmember]
  · rintro rfl
    exact PyEnum.ofValue?_value a

lemma mapM_text_eq_ok {items : List JsonValue} {ss : List String} :
    items.mapM text = .ok ss ↔ items = ss.map .str ∧ ∀ s ∈ ss, isText s = true := by
  induction items generalizing ss with
  | nil =>
      rw [List.mapM_nil, pure_eq_ok_iff]
      constructor
      · rintro rfl
        exact ⟨rfl, fun _ hs => by cases hs⟩
      · rintro ⟨hnil, -⟩
        exact (List.map_eq_nil_iff.mp hnil.symm).symm
  | cons item items ih =>
      rw [List.mapM_cons]
      simp only [bind_eq_ok, text_eq_ok, ih, pure_eq_ok_iff]
      constructor
      · rintro ⟨s, ⟨rfl, hs⟩, ss, ⟨rfl, hss⟩, rfl⟩
        exact ⟨rfl, List.forall_mem_cons.mpr ⟨hs, hss⟩⟩
      · rintro ⟨hitems, hall⟩
        cases ss with
        | nil => cases hitems
        | cons s ss =>
            obtain ⟨rfl, rfl⟩ := List.cons.inj hitems
            obtain ⟨hs, hss⟩ := List.forall_mem_cons.mp hall
            exact ⟨s, ⟨rfl, hs⟩, ss, ⟨rfl, hss⟩, rfl⟩

lemma texts_eq_ok {ss : List String} : texts value = .ok ss ↔ value = .arr (ss.map .str) ∧ ∀ s ∈ ss, isText s = true := by
  cases value with
  | arr items => rw [texts, mapM_text_eq_ok, Json.arr.injEq]
  | _ =>
      refine iff_of_false (fun h => by cases h) ?_
      rintro ⟨h, -⟩
      cases h

/-- A value that may be absent is read as it is written. -/
lemma nullable_optional {α : Type} {read : JsonValue → Except HealthError α} {write : α → JsonValue}
    (r : Reordering PyFloat) {a : Option α} (hnull : ∀ b, read .null ≠ .ok b)
    (h : ∀ b ∈ a, read (r.apply (write b)) = .ok b) : nullable read (r.apply (optional write a)) = .ok a := by
  cases a with
  | none =>
      rw [optional, r.apply_null]
      rfl
  | some b =>
      have hread := h b rfl
      rw [optional]
      obtain ⟨w, hw⟩ : ∃ w, w = r.apply (write b) := ⟨_, rfl⟩
      rw [← hw] at hread ⊢
      cases w with
      | null => exact absurd hread (hnull b)
      | _ => rw [nullable, hread, map_ok]; simp

lemma member_null {α : Type} [PyEnum α] (a : α) : member α .null ≠ .ok a := fun h => by cases h

lemma text_null (t : String) : text .null ≠ .ok t := fun h => by cases h

lemma integer_null {minimum : ℤ} (m : ℤ) : integer .null minimum ≠ .ok m := fun h => by cases h

/-- A member is read as it is written. -/
lemma member_value {α : Type} [PyEnum α] (r : Reordering PyFloat) (a : α) : member α (r.apply (memberValue a)) = .ok a := by
  rw [memberValue, r.apply_str]
  exact member_eq_ok.mpr rfl

/-- An optional text is read as it is written. -/
lemma optionalText_optional (r : Reordering PyFloat) {t : Option String} (h : ∀ s ∈ t, isText s = true) :
    optionalText (r.apply (optional .str t)) = .ok t := by
  refine nullable_optional r text_null fun s hs => ?_
  rw [r.apply_str]
  exact text_eq_ok.mpr ⟨rfl, h s hs⟩

lemma nullable_member {α : Type} [PyEnum α] (r : Reordering PyFloat) (a : Option α) :
    nullable (member α) (r.apply (optional memberValue a)) = .ok a :=
  nullable_optional r member_null fun b _ => member_value r b

lemma nullable_eq_ok {α : Type} {read : JsonValue → Except HealthError α} {a : Option α} (h : nullable read value = .ok a) :
    ∀ b ∈ a, read value = .ok b := by
  intro b hb
  cases value with
  | null =>
      cases h
      cases hb
  | _ =>
      obtain rfl := Option.mem_def.mp hb
      rw [nullable] at h
      · cases hread : read _ with
        | error e =>
            rw [hread] at h
            cases h
        | ok c =>
            rw [hread] at h
            cases h
            rfl
      · simp

lemma member_injective {α : Type} [PyEnum α] {a b : α} (h : member α (memberValue a) = .ok b) : b = a :=
  PyEnum.value_injective (Json.str.inj (member_eq_ok.mp h)).symm

lemma nullable_of_ne {α : Type} {read : JsonValue → Except HealthError α} (h : value ≠ .null) :
    nullable read value = some <$> read value := by
  cases value with
  | null => exact absurd rfl h
  | _ => simp only [nullable]

/-- What is read of an optional value that was written is that value. -/
lemma nullable_injective {α : Type} {read : JsonValue → Except HealthError α} {write : α → JsonValue} {a b : Option α}
    (hwrite : ∀ c, write c ≠ .null) (hread : ∀ c d, read (write c) = .ok d → d = c)
    (h : nullable read (optional write a) = .ok b) : b = a := by
  cases a with
  | none =>
      cases h
      rfl
  | some c =>
      rw [optional, nullable_of_ne (hwrite c)] at h
      cases hc : read (write c) with
      | error e =>
          rw [hc] at h
          cases h
      | ok d =>
          rw [hc, map_ok, Except.ok.injEq] at h
          rw [← h, hread c d hc]

lemma optionalText_injective {t t' : Option String} (h : optionalText (optional .str t) = .ok t') : t' = t := by
  refine nullable_injective (fun c hc => by cases hc) (fun c d hd => ?_) h
  exact (Json.str.inj (text_eq_ok.mp hd).1).symm

lemma nullable_member_injective {α : Type} [PyEnum α] {a b : Option α}
    (h : nullable (member α) (optional memberValue a) = .ok b) : b = a :=
  nullable_injective (fun c hc => by cases hc) (fun _ _ hd => member_injective hd) h

lemma texts_injective {ss ss' : List String} (h : texts (.arr (ss.map .str)) = .ok ss') : ss' = ss := by
  have heq := Json.arr.inj (texts_eq_ok.mp h).1
  exact (List.map_injective_iff.mpr (fun a b hab => Json.str.inj hab) heq).symm

lemma isText_of_optionalText {t : Option String} (h : optionalText value = .ok t) : ∀ s ∈ t, isText s = true :=
  fun s hs => (text_eq_ok.mp (nullable_eq_ok h s hs)).2

/-- A dictionary with the expected keys is accepted in any order. -/
lemma object_apply (order : Reordering PyFloat) (name : String) {fields : List String} (hdict : value.IsDict)
    (hfields : value.hasFields fields = true) : object (order.apply value) name fields = .ok () :=
  object_eq_ok.mpr ((order.hasFields_apply hdict fields).trans hfields)

end readers

/-! ## The refresh -/

/-- Source: `service_health.py` `RefreshHealth`. -/
structure RefreshHealth where
  status : StepStatus
  runId : Option String := none
  attemptStatus : Option RefreshAttemptStatus := none
  snapshotUsability : Option SnapshotUsability := none
  exitCode : Option ℤ := none
  errorCode : Option String := none
  deriving DecidableEq

namespace RefreshHealth

/-- Source: `service_health.py` `RefreshHealth.to_dict`. -/
def toDict (r : RefreshHealth) : JsonValue :=
  .obj [("status", memberValue r.status), ("run_id", optional .str r.runId),
    ("attempt_status", optional memberValue r.attemptStatus),
    ("snapshot_usability", optional memberValue r.snapshotUsability),
    ("exit_code", optional .int r.exitCode), ("error_code", optional .str r.errorCode)]

/-- The keys of a refresh. -/
def refreshFields : List String :=
  ["status", "run_id", "attempt_status", "snapshot_usability", "exit_code", "error_code"]

/-- The attempt and the exit code of a refresh that succeeded or is degraded. -/
def expected (status : StepStatus) : Option RefreshAttemptStatus × Option ℤ :=
  if status = .succeeded then (some .success, some 0) else (some .degraded, some 2)

/-- The check of a refresh that published. -/
def checkPublication (r : RefreshHealth) : Except HealthError Unit :=
  if r.status = .succeeded || r.status = .degraded then
    require ((r.attemptStatus, r.exitCode) = expected r.status && r.snapshotUsability = some .usable && r.runId.isSome)
      (.state "refresh success requires a matching usable publication")
  else pure ()

/-- The checks of `from_dict`. -/
def check (r : RefreshHealth) : Except HealthError Unit := do
  r.checkPublication
  require (!(r.status = .succeeded && r.errorCode.isSome)) (.state "successful refresh cannot claim an error")

/-- Source: `service_health.py` `RefreshHealth.from_dict`. -/
def fromDict (value : JsonValue) : Except HealthError RefreshHealth := do
  object value "RefreshHealth" refreshFields
  let status ← member StepStatus (value.field "status")
  let runId ← optionalText (value.field "run_id")
  let attemptStatus ← nullable (member RefreshAttemptStatus) (value.field "attempt_status")
  let snapshotUsability ← nullable (member SnapshotUsability) (value.field "snapshot_usability")
  let exitCode ← nullable (integer · (-2147483648)) (value.field "exit_code")
  let errorCode ← optionalText (value.field "error_code")
  let result : RefreshHealth := ⟨status, runId, attemptStatus, snapshotUsability, exitCode, errorCode⟩
  result.check
  pure result

/-- What an accepted refresh fulfils. -/
structure Valid (r : RefreshHealth) : Prop where
  runId : ∀ s ∈ r.runId, isText s = true
  exitCode : ∀ n ∈ r.exitCode, -2147483648 ≤ n
  errorCode : ∀ s ∈ r.errorCode, isText s = true
  check : r.check = .ok ()

/-- **A refresh is read as it is written**, if it is valid. -/
theorem fromDict_toDict (order : Reordering PyFloat) {r : RefreshHealth} (h : r.Valid) :
    fromDict (order.apply r.toDict) = .ok r := by
  have hdict : r.toDict.IsDict := ⟨_, rfl, (by decide : refreshFields.Nodup)⟩
  have hobject : object (order.apply r.toDict) "RefreshHealth" refreshFields = .ok () := object_apply order _ hdict rfl
  have hexit : nullable (integer · (-2147483648)) (order.apply (optional .int r.exitCode)) = .ok r.exitCode := by
    refine nullable_optional order integer_null fun n hn => ?_
    rw [order.apply_int]
    exact integer_eq_ok.mpr ⟨rfl, h.exitCode n hn⟩
  have hvalues : r.toDict.field "status" = memberValue r.status ∧ r.toDict.field "run_id" = optional .str r.runId ∧
      r.toDict.field "attempt_status" = optional memberValue r.attemptStatus ∧
      r.toDict.field "snapshot_usability" = optional memberValue r.snapshotUsability ∧
      r.toDict.field "exit_code" = optional .int r.exitCode ∧ r.toDict.field "error_code" = optional .str r.errorCode :=
    ⟨rfl, rfl, rfl, rfl, rfl, rfl⟩
  obtain ⟨hstatus, hrun, hattempt, husability, hexitCode, herror⟩ := hvalues
  simp only [fromDict, hobject, order.field_apply hdict, hstatus, hrun, hattempt, husability, hexitCode, herror, hexit,
    member_value, optionalText_optional order h.runId, optionalText_optional order h.errorCode, nullable_member, h.check,
    ok_bind]
  rfl

/-- What is read of a refresh that was written is that refresh. -/
lemma eq_of_fromDict {r r' : RefreshHealth} (h : fromDict r.toDict = .ok r') : r' = r := by
  simp only [fromDict, bind_eq_ok, pure_eq_ok_iff] at h
  obtain ⟨_, -, status, hstatus, runId, hrun, attempt, hattempt, usability, husability, exitCode, hexit, errorCode, herror, _,
    -, rfl⟩ := h
  obtain rfl := member_injective (a := r.status) hstatus
  obtain rfl := optionalText_injective (t := r.runId) hrun
  obtain rfl := nullable_member_injective (a := r.attemptStatus) hattempt
  obtain rfl := nullable_member_injective (a := r.snapshotUsability) husability
  obtain rfl := nullable_injective (a := r.exitCode) (fun c hc => by cases hc)
    (fun c d hd => (Json.int.inj (integer_eq_ok.mp hd).1).symm) hexit
  obtain rfl := optionalText_injective (t := r.errorCode) herror
  rfl

/-- An accepted refresh is valid. -/
lemma valid_of_fromDict {value : JsonValue} {r : RefreshHealth} (h : fromDict value = .ok r) : r.Valid := by
  simp only [fromDict, bind_eq_ok, pure_eq_ok_iff] at h
  obtain ⟨_, -, status, -, runId, hrun, attempt, -, usability, -, exitCode, hexit, errorCode, herror, _, hcheck, rfl⟩ := h
  exact ⟨isText_of_optionalText hrun, fun n hn => (integer_eq_ok.mp (nullable_eq_ok hexit n hn)).2,
    isText_of_optionalText herror, hcheck⟩

end RefreshHealth

/-! ## Events -/

/-- Source: `service_health.py` `HealthEvent`. -/
structure HealthEvent where
  sequence : ℕ
  atMs : ℤ
  kind : HealthEventKind
  problems : List String
  deriving DecidableEq

namespace HealthEvent

/-- Source: `service_health.py` `HealthEvent.to_dict`. -/
def toDict (event : HealthEvent) : JsonValue :=
  .obj [("sequence", .int event.sequence), ("at_ms", .int event.atMs), ("kind", memberValue event.kind),
    ("problems", .arr (event.problems.map .str))]

/-- The keys of an event. -/
def eventFields : List String := ["sequence", "at_ms", "kind", "problems"]

/-- Source: `service_health.py` `HealthEvent.from_dict`. -/
def fromDict (value : JsonValue) : Except HealthError HealthEvent := do
  object value "HealthEvent" eventFields
  let kind ← text (value.field "kind")
  let kind ← orThrow (PyEnum.ofValue? kind) (.state "unknown health event kind")
  let sequence ← count (value.field "sequence") 1
  let atMs ← integer (value.field "at_ms") 0
  let problems ← texts (value.field "problems")
  pure ⟨sequence, atMs, kind, problems⟩

/-- What an accepted event fulfils. -/
structure Valid (event : HealthEvent) : Prop where
  sequence : 1 ≤ event.sequence
  atMs : 0 ≤ event.atMs
  problems : ∀ problem ∈ event.problems, isText problem = true

/-- **An event is read as it is written**, if it is valid. -/
theorem fromDict_toDict (order : Reordering PyFloat) {event : HealthEvent} (h : event.Valid) :
    fromDict (order.apply event.toDict) = .ok event := by
  have hdict : event.toDict.IsDict := ⟨_, rfl, (by decide : eventFields.Nodup)⟩
  have hobject : object (order.apply event.toDict) "HealthEvent" eventFields = .ok () := object_apply order _ hdict rfl
  have hvalues : event.toDict.field "sequence" = .int event.sequence ∧ event.toDict.field "at_ms" = .int event.atMs ∧
      event.toDict.field "kind" = .str (PyEnum.value event.kind) ∧
      event.toDict.field "problems" = .arr (event.problems.map .str) := ⟨rfl, rfl, rfl, rfl⟩
  obtain ⟨hsequence, hat, hkind, hproblems⟩ := hvalues
  have hkindText : isText (PyEnum.value event.kind) = true := by
    cases event.kind <;> decide
  have hstrings : (event.problems.map Json.str).map order.apply = event.problems.map .str := by
    rw [List.map_map]
    exact List.map_congr_left fun s _ => order.apply_str s
  simp only [fromDict, hobject, order.field_apply hdict, hsequence, hat, hkind, hproblems, order.apply_int, order.apply_str,
    order.apply_arr, hstrings, text_eq_ok.mpr ⟨rfl, hkindText⟩, PyEnum.ofValue?_value, orThrow_some,
    count_eq_ok.mpr ⟨rfl, h.sequence⟩, integer_eq_ok.mpr ⟨rfl, h.atMs⟩, texts_eq_ok.mpr ⟨rfl, h.problems⟩, ok_bind]
  rfl

/-- What is read of an event that was written is that event. -/
lemma eq_of_fromDict {event event' : HealthEvent} (h : fromDict event.toDict = .ok event') : event' = event := by
  simp only [fromDict, bind_eq_ok, pure_eq_ok_iff, orThrow_eq_ok] at h
  obtain ⟨_, -, kindText, hkindText, kind, hkind, sequence, hsequence, atMs, hat, problems, hproblems, rfl⟩ := h
  obtain rfl : kindText = PyEnum.value event.kind := (Json.str.inj (text_eq_ok.mp hkindText).1).symm
  obtain rfl : kind = event.kind := PyEnum.value_injective (PyEnum.value_of_ofValue? hkind)
  obtain rfl : sequence = event.sequence := by
    have hint := Json.int.inj (count_eq_ok.mp hsequence).1
    omega
  obtain rfl : atMs = event.atMs := (Json.int.inj (integer_eq_ok.mp hat).1).symm
  obtain rfl : problems = event.problems := texts_injective hproblems
  rfl

/-- An accepted event is valid. -/
lemma valid_of_fromDict {value : JsonValue} {event : HealthEvent} (h : fromDict value = .ok event) : event.Valid := by
  simp only [fromDict, bind_eq_ok, pure_eq_ok_iff] at h
  obtain ⟨_, -, _, -, kind, -, sequence, hsequence, atMs, hat, problems, hproblems, rfl⟩ := h
  exact ⟨(count_eq_ok.mp hsequence).2, (integer_eq_ok.mp hat).2, (texts_eq_ok.mp hproblems).2⟩

/-- Events are read as they are written. -/
lemma mapM_toDict (order : Reordering PyFloat) {events : List HealthEvent} (h : ∀ event ∈ events, event.Valid) :
    ((events.map toDict).map order.apply).mapM fromDict = .ok events := by
  induction events with
  | nil => rfl
  | cons event events ih =>
      obtain ⟨hevent, hevents⟩ := List.forall_mem_cons.mp h
      rw [List.map_cons, List.map_cons, List.mapM_cons, fromDict_toDict order hevent, ih hevents]
      rfl

lemma eq_of_mapM {events events' : List HealthEvent} (h : (events.map toDict).mapM fromDict = .ok events') :
    events' = events := by
  induction events generalizing events' with
  | nil =>
      cases h
      rfl
  | cons event events ih =>
      rw [List.map_cons, List.mapM_cons] at h
      simp only [bind_eq_ok, pure_eq_ok_iff] at h
      obtain ⟨event', hevent, rest, hrest, rfl⟩ := h
      rw [eq_of_fromDict hevent, ih hrest]

lemma valid_of_mapM {items : List JsonValue} {events : List HealthEvent}
    (h : items.mapM fromDict = .ok events) : ∀ event ∈ events, event.Valid := by
  induction items generalizing events with
  | nil =>
      cases h
      exact fun _ hevent => by cases hevent
  | cons item items ih =>
      rw [List.mapM_cons] at h
      simp only [bind_eq_ok, pure_eq_ok_iff] at h
      obtain ⟨event, hevent, rest, hrest, rfl⟩ := h
      exact List.forall_mem_cons.mpr ⟨valid_of_fromDict hevent, ih hrest⟩

end HealthEvent

section records

variable (O : Type)

/-! ## The scan and the cycle -/

/-- Source: `service_health.py` `ScanHealth`. -/
structure ScanHealth where
  status : StepStatus
  cycle : Option (ObservationCycle O) := none
  persistence : StepStatus := .notRun
  errorCode : Option String := none
  deriving DecidableEq

/-- Source: `service_health.py` `CycleHealth`. -/
structure CycleHealth where
  number : ℤ
  serviceRunId : String
  startedAtMs : ℤ
  completedAtMs : ℤ
  refresh : RefreshHealth
  scan : ScanHealth O
  deriving DecidableEq

/-- Source: `service_health.py` `ServiceState`. -/
structure ServiceState where
  dataDir : String
  symbols : List String
  runId : String
  running : Bool
  phase : Phase
  startedAtMs : ℤ
  updatedAtMs : ℤ
  deadlineMs : ℤ
  lastCycle : Option (CycleHealth O)
  consecutiveFailures : ℕ
  events : List HealthEvent
  eventSequence : ℕ
  deriving DecidableEq

end records

/-! ### Observations -/

/-- Observations that are read by their keys, and that are read again if they were read. -/
class HealthCodec (O : Type) [FloatText PyFloat] extends ObservationCodec O where
  ofDict_apply : ∀ (order : Reordering PyFloat) (o : O), ofDict (order.apply (toDict o)) = ofDict (toDict o)
  ofDict_stable : ∀ {value : JsonValue} {o : O}, ofDict value = some o → ofDict (toDict o) = some o

section observations

variable {O : Type} [FloatText PyFloat] [HealthCodec O]

lemma mapM_ofDict_apply (order : Reordering PyFloat) (os : List O) :
    ((os.map StageObservation.toDict).map order.apply).mapM (ObservationCodec.ofDict (O := O)) =
      (os.map StageObservation.toDict).mapM ObservationCodec.ofDict := by
  induction os with
  | nil => rfl
  | cons o os ih => rw [List.map_cons, List.map_cons, List.mapM_cons, List.mapM_cons, ih, HealthCodec.ofDict_apply]

lemma mapM_ofDict_stable {items : List JsonValue} {os : List O} (h : items.mapM ObservationCodec.ofDict = some os) :
    (os.map StageObservation.toDict).mapM ObservationCodec.ofDict = some os := by
  induction items generalizing os with
  | nil =>
      obtain rfl := Option.some.inj h
      rfl
  | cons item items ih =>
      simp only [List.mapM_cons, Option.bind_eq_bind, Option.bind_eq_some_iff, Option.pure_def, Option.some.injEq] at h
      obtain ⟨o, ho, rest, hrest, rfl⟩ := h
      rw [List.map_cons, List.mapM_cons, HealthCodec.ofDict_stable ho, ih hrest]
      rfl

/-- The keys of an observation cycle. -/
lemma cycleDict (cycle : ObservationCycle O) : cycle.toDict.IsDict := ⟨_, rfl, Notifications.cycleFields_nodup⟩

/-- A cycle is read in any order of its keys. -/
lemma ofDict_apply (order : Reordering PyFloat) (cycle : ObservationCycle O) :
    (ObservationCycle.ofDict (order.apply cycle.toDict) : Option (ObservationCycle O)) =
      ObservationCycle.ofDict cycle.toDict := by
  have hget : ∀ key, (order.apply cycle.toDict).get? key = (cycle.toDict.get? key).map order.apply :=
    order.get?_apply (cycleDict cycle)
  have hvalues : cycle.toDict.get? "schema_version" = some (.int cycle.schemaVersion) ∧
      cycle.toDict.get? "cycle_id" = some (.str cycle.cycleId) ∧
      cycle.toDict.get? "created_at_ms" = some (.int cycle.createdAtMs) ∧
      cycle.toDict.get? "observations" = some (.arr (cycle.observations.map StageObservation.toDict)) :=
    ⟨rfl, rfl, rfl, rfl⟩
  obtain ⟨hschema, hid, hcreated, hitems⟩ := hvalues
  unfold ObservationCycle.ofDict
  simp only [order.hasFields_apply (cycleDict cycle), hget, hschema, hid, hcreated, hitems, Option.map_some,
    order.apply_int, order.apply_str, order.apply_arr, Option.bind_some, Notifications.items?, Option.bind_eq_bind,
    mapM_ofDict_apply]

/-- A cycle that was read is read again. -/
lemma ofDict_stable {value : JsonValue} {cycle : ObservationCycle O} (h : ObservationCycle.ofDict value = some cycle) :
    ObservationCycle.ofDict cycle.toDict = some cycle := by
  unfold ObservationCycle.ofDict at h
  split at h
  · simp only [Option.bind_eq_bind, Option.bind_eq_some_iff] at h
    obtain ⟨schema, -, items, -, cycleId, -, created, -, observations, hobservations, h⟩ := h
    split at h
    · rename_i hvalid
      obtain rfl := Option.some.inj h
      have hread := mapM_ofDict_stable hobservations
      have hvalues : (ObservationCycle.mk cycleId created observations schema).toDict.get? "schema_version" =
          some (.int schema) ∧
          (ObservationCycle.mk cycleId created observations schema).toDict.get? "cycle_id" = some (.str cycleId) ∧
          (ObservationCycle.mk cycleId created observations schema).toDict.get? "created_at_ms" = some (.int created) ∧
          (ObservationCycle.mk cycleId created observations schema).toDict.get? "observations" =
            some (.arr (observations.map StageObservation.toDict)) := ⟨rfl, rfl, rfl, rfl⟩
      obtain ⟨hschema, hid, hcreated, hitems⟩ := hvalues
      have hfields : (ObservationCycle.mk cycleId created observations schema).toDict.hasFields
          ["schema_version", "cycle_id", "created_at_ms", "observations"] = true := rfl
      simp only [ObservationCycle.ofDict, hfields, if_true, hschema, hid, hcreated, hitems, Option.bind_some, Json.int?_int,
        Json.str?_str, Notifications.items?, Option.bind_eq_bind, hread, hvalid]
    · cases h
  · cases h

/-- What is read of a cycle that was written is that cycle. -/
lemma ofDict_injective {cycle cycle' : ObservationCycle O} (h : ObservationCycle.ofDict cycle.toDict = some cycle') :
    cycle' = cycle :=
  ObservationCycle.ofDict_toDict ((ofDict_apply .sorted cycle).trans h)

end observations

variable {O : Type} [FloatText PyFloat] [HealthCodec O]

namespace ScanHealth

/-- Source: `service_health.py` `ScanHealth.to_dict`. -/
def toDict (s : ScanHealth O) : JsonValue :=
  .obj [("status", memberValue s.status), ("cycle", optional ObservationCycle.toDict s.cycle),
    ("persistence", memberValue s.persistence), ("error_code", optional .str s.errorCode)]

/-- The check of the evidence of a scan. -/
def checkEvidence (s : ScanHealth O) : Except HealthError Unit :=
  if s.status = .succeeded then
    require (s.cycle.isSome && (s.persistence = .succeeded || s.persistence = .failed))
      (.state "completed scan requires a cycle and a persistence result")
  else
    require (s.cycle.isNone && s.persistence = .notRun)
      (.state "incomplete scan cannot claim cycle or persistence evidence")

/-- The checks of `from_dict`. -/
def check (s : ScanHealth O) : Except HealthError Unit := do
  s.checkEvidence
  require (s.status ≠ .degraded) (.state "scan completion has no degraded state")
  require (!(s.status = .succeeded && s.persistence = .succeeded && s.errorCode.isSome))
    (.state "completed persisted scan cannot claim a process error")

/-- `Stage0ObservationCycle.from_dict(value)`. -/
def readCycle (value : JsonValue) : Except HealthError (ObservationCycle O) :=
  orThrow (ObservationCycle.ofDict value) .cycle

/-- The keys of a scan. -/
def scanFields : List String := ["status", "cycle", "persistence", "error_code"]

/-- Source: `service_health.py` `ScanHealth.from_dict`. -/
def fromDict (value : JsonValue) : Except HealthError (ScanHealth O) := do
  object value "ScanHealth" scanFields
  let status ← member StepStatus (value.field "status")
  let cycle ← nullable readCycle (value.field "cycle")
  let persistence ← member StepStatus (value.field "persistence")
  let errorCode ← optionalText (value.field "error_code")
  let result : ScanHealth O := ⟨status, cycle, persistence, errorCode⟩
  result.check
  pure result

/-- What an accepted scan fulfils. -/
structure Valid (s : ScanHealth O) : Prop where
  cycle : ∀ c ∈ s.cycle, ObservationCycle.ofDict c.toDict = some c
  errorCode : ∀ e ∈ s.errorCode, isText e = true
  check : s.check = .ok ()

/-- **A scan is read as it is written**, if it is valid. -/
theorem fromDict_toDict (order : Reordering PyFloat) {s : ScanHealth O} (h : s.Valid) :
    fromDict (order.apply s.toDict) = .ok s := by
  have hdict : s.toDict.IsDict := ⟨_, rfl, (by decide : scanFields.Nodup)⟩
  have hobject : object (order.apply s.toDict) "ScanHealth" scanFields = .ok () := object_apply order _ hdict rfl
  have hcycle : nullable readCycle (order.apply (optional ObservationCycle.toDict s.cycle)) = .ok s.cycle := by
    refine nullable_optional order (fun c hc => by cases hc) fun c hc => ?_
    rw [readCycle, ofDict_apply, h.cycle c hc, orThrow_some]
  have hvalues : s.toDict.field "status" = memberValue s.status ∧
      s.toDict.field "cycle" = optional ObservationCycle.toDict s.cycle ∧
      s.toDict.field "persistence" = memberValue s.persistence ∧ s.toDict.field "error_code" = optional .str s.errorCode :=
    ⟨rfl, rfl, rfl, rfl⟩
  obtain ⟨hstatus, hcycleField, hpersistence, herror⟩ := hvalues
  simp only [fromDict, hobject, order.field_apply hdict, hstatus, hcycleField, hpersistence, herror, hcycle, member_value,
    optionalText_optional order h.errorCode, h.check, ok_bind]
  rfl

/-- What is read of a scan that was written is that scan. -/
lemma eq_of_fromDict {s s' : ScanHealth O} (h : fromDict s.toDict = .ok s') : s' = s := by
  simp only [fromDict, bind_eq_ok, pure_eq_ok_iff] at h
  obtain ⟨_, -, status, hstatus, cycle, hcycle, persistence, hpersistence, errorCode, herror, _, -, rfl⟩ := h
  obtain rfl := member_injective (a := s.status) hstatus
  obtain rfl := nullable_injective (a := s.cycle) (fun c hc => by cases hc)
    (fun c d hd => ofDict_injective (orThrow_eq_ok.mp hd)) hcycle
  obtain rfl := member_injective (a := s.persistence) hpersistence
  obtain rfl := optionalText_injective (t := s.errorCode) herror
  rfl

/-- An accepted scan is valid. -/
lemma valid_of_fromDict {value : JsonValue} {s : ScanHealth O} (h : fromDict value = .ok s) : s.Valid := by
  simp only [fromDict, bind_eq_ok, pure_eq_ok_iff] at h
  obtain ⟨_, -, status, -, cycle, hcycle, persistence, -, errorCode, herror, _, hcheck, rfl⟩ := h
  refine ⟨fun c hc => ?_, isText_of_optionalText herror, hcheck⟩
  exact ofDict_stable (orThrow_eq_ok.mp (nullable_eq_ok hcycle c hc))

end ScanHealth

namespace CycleHealth

/-- Source: `service_health.py` `CycleHealth.to_dict`. -/
def toDict (c : CycleHealth O) : JsonValue :=
  .obj [("number", .int c.number), ("service_run_id", .str c.serviceRunId), ("started_at_ms", .int c.startedAtMs),
    ("completed_at_ms", .int c.completedAtMs), ("refresh", c.refresh.toDict), ("scan", c.scan.toDict)]

/-- The keys of a cycle. -/
def cycleFields : List String := ["number", "service_run_id", "started_at_ms", "completed_at_ms", "refresh", "scan"]

/-- Source: `service_health.py` `CycleHealth.from_dict`. -/
def fromDict (value : JsonValue) : Except HealthError (CycleHealth O) := do
  object value "CycleHealth" cycleFields
  let number ← integer (value.field "number") 1
  let serviceRunId ← text (value.field "service_run_id")
  let startedAtMs ← integer (value.field "started_at_ms") 0
  let completedAtMs ← integer (value.field "completed_at_ms") 0
  let refresh ← RefreshHealth.fromDict (value.field "refresh")
  let scan ← ScanHealth.fromDict (value.field "scan")
  let result : CycleHealth O := ⟨number, serviceRunId, startedAtMs, completedAtMs, refresh, scan⟩
  require (result.startedAtMs ≤ result.completedAtMs) (.state "cycle completion precedes start")
  pure result

/-- What an accepted cycle fulfils. -/
structure Valid (c : CycleHealth O) : Prop where
  number : 1 ≤ c.number
  serviceRunId : isText c.serviceRunId = true
  started : 0 ≤ c.startedAtMs
  completed : c.startedAtMs ≤ c.completedAtMs
  refresh : c.refresh.Valid
  scan : c.scan.Valid

/-- **A cycle is read as it is written**, if it is valid. -/
theorem fromDict_toDict (order : Reordering PyFloat) {c : CycleHealth O} (h : c.Valid) :
    fromDict (order.apply c.toDict) = .ok c := by
  have hdict : c.toDict.IsDict := ⟨_, rfl, (by decide : cycleFields.Nodup)⟩
  have hobject : object (order.apply c.toDict) "CycleHealth" cycleFields = .ok () := object_apply order _ hdict rfl
  have hvalues : c.toDict.field "number" = .int c.number ∧ c.toDict.field "service_run_id" = .str c.serviceRunId ∧
      c.toDict.field "started_at_ms" = .int c.startedAtMs ∧ c.toDict.field "completed_at_ms" = .int c.completedAtMs ∧
      c.toDict.field "refresh" = c.refresh.toDict ∧ c.toDict.field "scan" = c.scan.toDict :=
    ⟨rfl, rfl, rfl, rfl, rfl, rfl⟩
  obtain ⟨hnumber, hrun, hstarted, hcompleted, hrefresh, hscan⟩ := hvalues
  simp only [fromDict, hobject, order.field_apply hdict, hnumber, hrun, hstarted, hcompleted, hrefresh, hscan,
    order.apply_int, order.apply_str, integer_eq_ok.mpr ⟨rfl, h.number⟩, text_eq_ok.mpr ⟨rfl, h.serviceRunId⟩,
    integer_eq_ok.mpr ⟨rfl, h.started⟩, integer_eq_ok.mpr ⟨rfl, h.started.trans h.completed⟩,
    RefreshHealth.fromDict_toDict order h.refresh, ScanHealth.fromDict_toDict order h.scan,
    decide_eq_true h.completed, require_true, ok_bind]
  rfl

/-- What is read of a cycle that was written is that cycle. -/
lemma eq_of_fromDict {c c' : CycleHealth O} (h : fromDict c.toDict = .ok c') : c' = c := by
  simp only [fromDict, bind_eq_ok, require_eq_ok, exists_const, pure_eq_ok_iff] at h
  obtain ⟨_, -, number, hnumber, runId, hrun, started, hstarted, completed, hcompleted, refresh, hrefresh, scan, hscan, -,
    rfl⟩ := h
  obtain rfl : number = c.number := (Json.int.inj (integer_eq_ok.mp hnumber).1).symm
  obtain rfl : runId = c.serviceRunId := (Json.str.inj (text_eq_ok.mp hrun).1).symm
  obtain rfl : started = c.startedAtMs := (Json.int.inj (integer_eq_ok.mp hstarted).1).symm
  obtain rfl : completed = c.completedAtMs := (Json.int.inj (integer_eq_ok.mp hcompleted).1).symm
  obtain rfl := RefreshHealth.eq_of_fromDict (r := c.refresh) hrefresh
  obtain rfl := ScanHealth.eq_of_fromDict (s := c.scan) hscan
  rfl

/-- An accepted cycle is valid. -/
lemma valid_of_fromDict {value : JsonValue} {c : CycleHealth O} (h : fromDict value = .ok c) : c.Valid := by
  simp only [fromDict, bind_eq_ok, require_eq_ok, exists_const, decide_eq_true_eq, pure_eq_ok_iff] at h
  obtain ⟨_, -, number, hnumber, runId, hrun, started, hstarted, completed, hcompleted, refresh, hrefresh, scan, hscan,
    hordered, rfl⟩ := h
  exact ⟨(integer_eq_ok.mp hnumber).2, (text_eq_ok.mp hrun).2, (integer_eq_ok.mp hstarted).2, hordered,
    RefreshHealth.valid_of_fromDict hrefresh, ScanHealth.valid_of_fromDict hscan⟩

end CycleHealth

/-! ## The state -/

/-- Source: `service_health.py` `EVENT_LIMIT`. -/
def eventLimit : ℕ := 100

/-- Source: `service_health.py` `SCHEMA_VERSION`. -/
def schemaVersion : ℤ := 1

namespace ServiceState

/-- Source: `service_health.py` `ServiceState.to_dict`. -/
def toDict (s : ServiceState O) : JsonValue :=
  .obj [("schema_version", .int schemaVersion), ("data_dir", .str s.dataDir), ("symbols", .arr (s.symbols.map .str)),
    ("run_id", .str s.runId), ("running", .bool s.running), ("phase", memberValue s.phase),
    ("started_at_ms", .int s.startedAtMs), ("updated_at_ms", .int s.updatedAtMs), ("deadline_ms", .int s.deadlineMs),
    ("last_cycle", optional CycleHealth.toDict s.lastCycle), ("consecutive_failures", .int s.consecutiveFailures),
    ("events", .arr (s.events.map HealthEvent.toDict)), ("event_sequence", .int s.eventSequence)]

/-- The keys of a state. -/
def stateFields : List String :=
  ["schema_version", "data_dir", "symbols", "run_id", "running", "phase", "started_at_ms", "updated_at_ms", "deadline_ms",
    "last_cycle", "consecutive_failures", "events", "event_sequence"]

/-- The numbers that the events have to have. -/
def expectedSequences (s : ServiceState O) : List ℤ :=
  (List.range s.events.length).map fun (i : ℕ) => (s.eventSequence : ℤ) - s.events.length + 1 + i

/-- The checks of the last cycle. -/
def checkLastCycle (s : ServiceState O) : Except HealthError Unit :=
  match s.lastCycle with
  | none => pure ()
  | some c => do
      require (!(c.serviceRunId = s.runId && s.updatedAtMs < c.completedAtMs))
        (.state "last cycle is newer than service state")
      require (!(c.serviceRunId = s.runId && c.startedAtMs < s.startedAtMs))
        (.state "current run cycle precedes service start")
      require (c.scan.cycle.all fun cycle => (cycle.observations.map StageObservation.symbol).isPerm s.symbols)
        (.state "scan cycle must cover each configured symbol exactly once")

/-- The checks of `from_dict`. -/
def check (s : ServiceState O) : Except HealthError Unit := do
  require (s.symbols ≠ [] && s.symbols.Nodup) (.state "service symbols must be nonempty and unique")
  require (s.startedAtMs ≤ s.updatedAtMs && s.updatedAtMs ≤ s.deadlineMs && (s.running || s.phase = .idle))
    (.state "invalid service phase/deadline")
  require (s.events.length ≤ eventLimit) (.state "health event retention exceeded")
  require ((s.events.map fun event => (event.sequence : ℤ)) = s.expectedSequences &&
    s.events.isEmpty = (s.eventSequence = 0 : Bool)) (.state "non-contiguous event sequence")
  s.checkLastCycle

/-- The items of `value["events"]`. -/
def eventItems : JsonValue → Except HealthError (List JsonValue)
  | .arr items => pure items
  | _ => throw (.state "invalid running/events type")

/-- `value["running"]`. -/
def bool? : JsonValue → Option Bool
  | .bool b => some b
  | _ => none

/-- Source: `service_health.py` `ServiceState.from_dict`. -/
def fromDict (value : JsonValue) : Except HealthError (ServiceState O) := do
  object value "ServiceState" stateFields
  require ((value.field "schema_version").int? = some schemaVersion) (.state "unsupported health schema")
  let running ← orThrow (bool? (value.field "running")) (.state "invalid running/events type")
  let items ← eventItems (value.field "events")
  let dataDir ← text (value.field "data_dir")
  let symbols ← texts (value.field "symbols")
  let runId ← text (value.field "run_id")
  let phase ← member Phase (value.field "phase")
  let startedAtMs ← integer (value.field "started_at_ms") 0
  let updatedAtMs ← integer (value.field "updated_at_ms") 0
  let deadlineMs ← integer (value.field "deadline_ms") 0
  let lastCycle ← nullable CycleHealth.fromDict (value.field "last_cycle")
  let consecutiveFailures ← count (value.field "consecutive_failures") 0
  let events ← items.mapM HealthEvent.fromDict
  let eventSequence ← count (value.field "event_sequence") 0
  let result : ServiceState O := ⟨dataDir, symbols, runId, running, phase, startedAtMs, updatedAtMs, deadlineMs, lastCycle,
    consecutiveFailures, events, eventSequence⟩
  result.check
  pure result

/-- What an accepted state fulfils. -/
structure Valid (s : ServiceState O) : Prop where
  dataDir : isText s.dataDir = true
  symbols : ∀ symbol ∈ s.symbols, isText symbol = true
  runId : isText s.runId = true
  started : 0 ≤ s.startedAtMs
  lastCycle : ∀ c ∈ s.lastCycle, c.Valid
  events : ∀ event ∈ s.events, event.Valid
  check : s.check = .ok ()

/-- What the checks say. -/
structure Consistent (s : ServiceState O) : Prop where
  symbols_ne : s.symbols ≠ []
  symbols_nodup : s.symbols.Nodup
  started_le : s.startedAtMs ≤ s.updatedAtMs
  updated_le : s.updatedAtMs ≤ s.deadlineMs
  idle : s.running = false → s.phase = .idle
  retained : s.events.length ≤ eventLimit
  sequences : (s.events.map fun event => (event.sequence : ℤ)) = s.expectedSequences
  events_nil : s.events = [] ↔ s.eventSequence = 0
  cycle_le : ∀ c ∈ s.lastCycle, c.serviceRunId = s.runId → s.startedAtMs ≤ c.startedAtMs ∧ c.completedAtMs ≤ s.updatedAtMs
  covers : ∀ c ∈ s.lastCycle, ∀ cycle ∈ c.scan.cycle, (cycle.observations.map StageObservation.symbol).Perm s.symbols

lemma checkLastCycle_eq_ok {s : ServiceState O} : s.checkLastCycle = .ok () ↔
    (∀ c ∈ s.lastCycle, c.serviceRunId = s.runId → s.startedAtMs ≤ c.startedAtMs ∧ c.completedAtMs ≤ s.updatedAtMs) ∧
      ∀ c ∈ s.lastCycle, ∀ cycle ∈ c.scan.cycle, (cycle.observations.map StageObservation.symbol).Perm s.symbols := by
  unfold checkLastCycle
  cases s.lastCycle with
  | none => simp [pure, Except.pure]
  | some c =>
      simp only [bind_eq_ok, require_eq_ok, exists_const, Bool.not_eq_true', Bool.and_eq_false_iff, decide_eq_false_iff_not,
        Option.all_eq_true, List.isPerm_iff, not_lt, Option.mem_def, Option.some.injEq, forall_eq']
      constructor
      · rintro ⟨hnewer, hbefore, hcovers⟩
        exact ⟨fun hrun => ⟨hbefore.resolve_left (not_not.mpr hrun), hnewer.resolve_left (not_not.mpr hrun)⟩, hcovers⟩
      · rintro ⟨hordered, hcovers⟩
        refine ⟨?_, ?_, hcovers⟩
        · exact or_iff_not_imp_left.mpr fun hrun => (hordered (not_not.mp hrun)).2
        · exact or_iff_not_imp_left.mpr fun hrun => (hordered (not_not.mp hrun)).1

/-- **The checks of a state pass exactly when it is consistent.** -/
theorem check_eq_ok {s : ServiceState O} : s.check = .ok () ↔ s.Consistent := by
  have hidle : (s.running || decide (s.phase = .idle)) = true ↔ (s.running = false → s.phase = .idle) := by
    cases s.running <;> simp
  have hnil : decide (s.events.isEmpty = decide (s.eventSequence = 0)) = true ↔ (s.events = [] ↔ s.eventSequence = 0) := by
    rw [decide_eq_true_eq, Bool.eq_iff_iff, List.isEmpty_iff, decide_eq_true_eq]
  unfold check
  simp only [bind_eq_ok, require_eq_ok, exists_const, checkLastCycle_eq_ok, Bool.and_eq_true, hidle, hnil, decide_eq_true_eq]
  constructor
  · rintro ⟨⟨hne, hnodup⟩, ⟨⟨hstarted, hupdated⟩, hphase⟩, hretained, ⟨hsequences, hempty⟩, hcycle, hcovers⟩
    exact ⟨hne, hnodup, hstarted, hupdated, hphase, hretained, hsequences, hempty, hcycle, hcovers⟩
  · intro h
    exact ⟨⟨h.symbols_ne, h.symbols_nodup⟩, ⟨⟨h.started_le, h.updated_le⟩, h.idle⟩, h.retained, ⟨h.sequences, h.events_nil⟩,
      h.cycle_le, h.covers⟩

lemma cycle_null (c : CycleHealth O) : CycleHealth.fromDict .null ≠ .ok c := fun h => by cases h

/-- **A state is read as it is written**, if it is valid, in whatever order its dictionaries are. -/
theorem fromDict_toDict (order : Reordering PyFloat) {s : ServiceState O} (h : s.Valid) :
    fromDict (order.apply s.toDict) = .ok s := by
  have hconsistent := check_eq_ok.mp h.check
  have hdict : s.toDict.IsDict := ⟨_, rfl, (by decide : stateFields.Nodup)⟩
  have hobject : object (order.apply s.toDict) "ServiceState" stateFields = .ok () := object_apply order _ hdict rfl
  have hsymbols : (s.symbols.map Json.str).map order.apply = s.symbols.map .str := by
    rw [List.map_map]
    exact List.map_congr_left fun symbol _ => order.apply_str symbol
  have hcycle : nullable CycleHealth.fromDict (order.apply (optional CycleHealth.toDict s.lastCycle)) = .ok s.lastCycle :=
    nullable_optional order cycle_null fun c hc => CycleHealth.fromDict_toDict order (h.lastCycle c hc)
  have hupdated := h.started.trans hconsistent.started_le
  have hvalues : s.toDict.field "schema_version" = .int schemaVersion ∧ s.toDict.field "data_dir" = .str s.dataDir ∧
      s.toDict.field "symbols" = .arr (s.symbols.map .str) ∧ s.toDict.field "run_id" = .str s.runId ∧
      s.toDict.field "running" = .bool s.running ∧ s.toDict.field "phase" = memberValue s.phase ∧
      s.toDict.field "started_at_ms" = .int s.startedAtMs ∧ s.toDict.field "updated_at_ms" = .int s.updatedAtMs ∧
      s.toDict.field "deadline_ms" = .int s.deadlineMs ∧
      s.toDict.field "last_cycle" = optional CycleHealth.toDict s.lastCycle ∧
      s.toDict.field "consecutive_failures" = .int s.consecutiveFailures ∧
      s.toDict.field "events" = .arr (s.events.map HealthEvent.toDict) ∧
      s.toDict.field "event_sequence" = .int s.eventSequence :=
    ⟨rfl, rfl, rfl, rfl, rfl, rfl, rfl, rfl, rfl, rfl, rfl, rfl, rfl⟩
  obtain ⟨hschema, hdir, hsymbolsField, hrun, hrunning, hphase, hstarted, hupdatedField, hdeadline, hlast, hfailures, hevents,
    hsequence⟩ := hvalues
  simp only [fromDict, hobject, order.field_apply hdict, hschema, hdir, hsymbolsField, hrun, hrunning, hphase, hstarted,
    hupdatedField, hdeadline, hlast, hfailures, hevents, hsequence, order.apply_int, order.apply_str, order.apply_bool,
    order.apply_arr, hsymbols, hcycle, Json.int?_int, bool?, eventItems, decide_true, require_true, orThrow_some, member_value,
    text_eq_ok.mpr ⟨rfl, h.dataDir⟩, texts_eq_ok.mpr ⟨rfl, h.symbols⟩, text_eq_ok.mpr ⟨rfl, h.runId⟩,
    integer_eq_ok.mpr ⟨rfl, h.started⟩, integer_eq_ok.mpr ⟨rfl, hupdated⟩,
    integer_eq_ok.mpr ⟨rfl, hupdated.trans hconsistent.updated_le⟩, count_eq_ok.mpr ⟨rfl, Nat.zero_le s.consecutiveFailures⟩,
    count_eq_ok.mpr ⟨rfl, Nat.zero_le s.eventSequence⟩, HealthEvent.mapM_toDict order h.events, h.check, pure_bind, ok_bind]
  rfl

/-- What is read of a state that was written is that state. -/
lemma eq_of_fromDict {s s' : ServiceState O} (h : fromDict s.toDict = .ok s') : s' = s := by
  simp only [fromDict, bind_eq_ok, pure_eq_ok_iff, orThrow_eq_ok] at h
  obtain ⟨_, -, _, -, running, hrunning, items, hitems, dataDir, hdir, symbols, hsymbols, runId, hrun, phase, hphase, started,
    hstarted, updated, hupdated, deadline, hdeadline, lastCycle, hcycle, failures, hfailures, events, hevents, sequence,
    hsequence, _, -, rfl⟩ := h
  obtain rfl : running = s.running := (Option.some.inj hrunning).symm
  obtain rfl : items = s.events.map HealthEvent.toDict := (Except.ok.inj hitems).symm
  obtain rfl : dataDir = s.dataDir := (Json.str.inj (text_eq_ok.mp hdir).1).symm
  obtain rfl : symbols = s.symbols := texts_injective hsymbols
  obtain rfl : runId = s.runId := (Json.str.inj (text_eq_ok.mp hrun).1).symm
  obtain rfl := member_injective (a := s.phase) hphase
  obtain rfl : started = s.startedAtMs := (Json.int.inj (integer_eq_ok.mp hstarted).1).symm
  obtain rfl : updated = s.updatedAtMs := (Json.int.inj (integer_eq_ok.mp hupdated).1).symm
  obtain rfl : deadline = s.deadlineMs := (Json.int.inj (integer_eq_ok.mp hdeadline).1).symm
  obtain rfl := nullable_injective (a := s.lastCycle) (fun c hc => by cases hc)
    (fun _ _ hd => CycleHealth.eq_of_fromDict hd) hcycle
  obtain rfl : failures = s.consecutiveFailures := by
    have hint := Json.int.inj (count_eq_ok.mp hfailures).1
    omega
  obtain rfl := HealthEvent.eq_of_mapM hevents
  obtain rfl : sequence = s.eventSequence := by
    have hint := Json.int.inj (count_eq_ok.mp hsequence).1
    omega
  rfl

/-- **An accepted state is valid.** -/
theorem valid_of_fromDict {value : JsonValue} {s : ServiceState O} (h : fromDict value = .ok s) : s.Valid := by
  simp only [fromDict, bind_eq_ok, pure_eq_ok_iff] at h
  obtain ⟨_, -, _, -, running, -, items, -, dataDir, hdir, symbols, hsymbols, runId, hrun, phase, -, started, hstarted, updated, -,
    deadline, -, lastCycle, hcycle, failures, -, events, hevents, sequence, -, _, hcheck, rfl⟩ := h
  exact ⟨(text_eq_ok.mp hdir).2, (texts_eq_ok.mp hsymbols).2, (text_eq_ok.mp hrun).2, (integer_eq_ok.mp hstarted).2,
    fun c hc => CycleHealth.valid_of_fromDict (nullable_eq_ok hcycle c hc), HealthEvent.valid_of_mapM hevents, hcheck⟩

end ServiceState

end MuStrategy.Service
