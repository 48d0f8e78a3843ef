import MuStrategy.Service.HealthRecords

/-!
# The file of the signal service

The state is one line of canonical JSON, which is replaced as a whole.

* `HealthStore.render`, `HealthStore.read` — the bytes of a state, and the state of the bytes.
* `health_file_faithful` — what is written is read back, and what is read is valid.
-/

namespace MuStrategy.Service

open Lib
open Notifications (ObservationCycle StageObservation ObservationCodec utf8 decodeUtf8)
open Notifications.ObservationFile (uniqueFields keepsDicts_uniqueFields)

/-- Source: `service_health.py` `MAX_STATE_BYTES`. -/
def maxStateBytes : ℕ := 4 * 1024 * 1024

/-- Source: `service_health.py` `decode_health_json`. -/
def decodeHealthJson [FloatText PyFloat] (raw : List UInt8) : Option JsonValue := (decodeUtf8 raw).bind (Json.loadsWith uniqueFields)

variable {O : Type} [FloatText PyFloat] [HealthCodec O]

namespace HealthStore

/-- The bytes of a state. -/
def bytes (s : ServiceState O) : Option (List UInt8) := s.toDict.dumps.map fun text => utf8 (text ++ "\n")

/-- What `write` writes. Source: `service_health.py` `HealthStore.write`. -/
def render (dataDir : String) (s : ServiceState O) : Except HealthError (List UInt8) := do
  let canonical : ServiceState O ← ServiceState.fromDict s.toDict
  require (canonical.dataDir = dataDir) (.state "health state belongs to another data directory")
  let raw ← orThrow (bytes canonical) .float
  require (raw.length ≤ maxStateBytes) (.state "health state exceeds size limit")
  pure raw

/-- The state in the file. Source: `service_health.py` `HealthStore.read`. -/
def read (dataDir : String) : Option (List UInt8) → Except HealthError (Option (ServiceState O))
  | none => pure none
  | some raw => do
      require (raw.length ≤ maxStateBytes) (.state "health state exceeds size limit")
      let state : ServiceState O ← orThrow ((decodeHealthJson raw).bind fun value => (ServiceState.fromDict value).toOption)
        (.state "health state is corrupt or unsupported")
      require (state.dataDir = dataDir) (.state "health state belongs to another data directory")
      pure (some state)

end HealthStore

/-! ## Dictionaries that can be written -/

lemma optional_tidy {α : Type} {write : α → JsonValue} {a : Option α} (h : ∀ b ∈ a, (write b).Tidy) :
    (optional write a).Tidy := by
  cases a with
  | none => trivial
  | some b => exact h b rfl

lemma optional_str_tidy (t : Option String) : (optional Json.str t : JsonValue).Tidy := optional_tidy fun _ _ => trivial

lemma optional_member_tidy {α : Type} [PyEnum α] (a : Option α) : (optional memberValue a).Tidy :=
  optional_tidy fun _ _ => trivial

lemma strings_tidy (ss : List String) : (Json.arr (ss.map .str) : JsonValue).Tidy := by
  rw [Json.Tidy, tidyItems_iff]
  intro item hitem
  obtain ⟨s, -, rfl⟩ := List.mem_map.mp hitem
  trivial

lemma RefreshHealth.toDict_tidy (r : RefreshHealth) : r.toDict.Tidy :=
  ⟨(by decide : RefreshHealth.refreshFields.Nodup), trivial, optional_str_tidy _, optional_member_tidy _,
    optional_member_tidy _, optional_tidy fun _ _ => trivial, optional_str_tidy _, trivial⟩

lemma ScanHealth.toDict_tidy (s : ScanHealth O) : s.toDict.Tidy :=
  ⟨(by decide : ScanHealth.scanFields.Nodup), trivial, optional_tidy fun cycle _ => cycle.toDict_tidy, trivial,
    optional_str_tidy _, trivial⟩

lemma CycleHealth.toDict_tidy (c : CycleHealth O) : c.toDict.Tidy :=
  ⟨(by decide : CycleHealth.cycleFields.Nodup), trivial, trivial, trivial, trivial, c.refresh.toDict_tidy,
    c.scan.toDict_tidy, trivial⟩

lemma HealthEvent.toDict_tidy (event : HealthEvent) : event.toDict.Tidy :=
  ⟨(by decide : HealthEvent.eventFields.Nodup), trivial, trivial, trivial, strings_tidy _, trivial⟩

lemma ServiceState.toDict_tidy (s : ServiceState O) : s.toDict.Tidy := by
  have hevents : (Json.arr (s.events.map HealthEvent.toDict) : JsonValue).Tidy := by
    rw [Json.Tidy, tidyItems_iff]
    intro item hitem
    obtain ⟨event, -, rfl⟩ := List.mem_map.mp hitem
    exact event.toDict_tidy
  exact ⟨(by decide : ServiceState.stateFields.Nodup), trivial, trivial, strings_tidy _, trivial, trivial, trivial, trivial,
    trivial, trivial, optional_tidy fun cycle _ => cycle.toDict_tidy, trivial, hevents, trivial, trivial⟩

/-! ## The file -/

namespace HealthStore

variable {dataDir : String} {s : ServiceState O} {raw : List UInt8}

/-- The bytes of a state decode to its dictionary, in the order of its text. -/
lemma exists_bytes (s : ServiceState O) : ∃ raw, bytes s = some raw ∧ decodeHealthJson raw = some s.toDict.sortKeys := by
  obtain ⟨text, hdumps, -, hloads⟩ := loadsWith_dumps s.toDict_tidy
  have hspace : ∀ c ∈ ['\n'], isJsonSpace c = true := List.forall_mem_singleton.mpr rfl
  refine ⟨utf8 (text ++ "\n"), by rw [bytes, hdumps, Option.map_some], ?_⟩
  rw [decodeHealthJson, Notifications.decodeUtf8_utf8, Option.bind_some]
  exact hloads _ keepsDicts_uniqueFields ['\n'] hspace

/-- A state is written exactly when it is valid, of this directory, and not too large. -/
lemma render_eq_ok : render dataDir s = .ok raw ↔
    s.Valid ∧ s.dataDir = dataDir ∧ bytes s = some raw ∧ raw.length ≤ maxStateBytes := by
  simp only [render, bind_eq_ok, require_eq_ok, exists_const, orThrow_eq_ok, decide_eq_true_eq, pure_eq_ok_iff]
  constructor
  · rintro ⟨canonical, hcanonical, hdir, raw, hraw, hsize, rfl⟩
    obtain rfl := ServiceState.eq_of_fromDict hcanonical
    exact ⟨ServiceState.valid_of_fromDict hcanonical, hdir, hraw, hsize⟩
  · rintro ⟨hvalid, hdir, hraw, hsize⟩
    exact ⟨s, ServiceState.fromDict_toDict .same hvalid, hdir, raw, hraw, hsize, rfl⟩

/-- **What was written is read back.** -/
lemma read_render (h : render dataDir s = .ok raw) : read dataDir (some raw) = .ok (some s) := by
  obtain ⟨hvalid, hdir, hraw, hsize⟩ := render_eq_ok.mp h
  obtain ⟨raw', hraw', hdecode⟩ := exists_bytes s
  obtain rfl := Option.some.inj (hraw'.symm.trans hraw)
  have hstate : ServiceState.fromDict s.toDict.sortKeys = .ok s := ServiceState.fromDict_toDict .sorted hvalid
  rw [read, hdecode, Option.bind_some, hstate]
  simp only [Except.toOption, orThrow_some, ok_bind, decide_eq_true hsize, decide_eq_true hdir, require_true]
  rfl

/-- What is read is valid, and of this directory. -/
lemma valid_of_read {content : Option (List UInt8)} (h : read dataDir content = .ok (some s)) :
    s.Valid ∧ s.dataDir = dataDir := by
  cases content with
  | none => cases h
  | some raw =>
      simp only [read, bind_eq_ok, require_eq_ok, exists_const, orThrow_eq_ok, decide_eq_true_eq, pure_eq_ok_iff,
        Option.some.injEq] at h
      obtain ⟨-, state, hstate, hdir, rfl⟩ := h
      obtain ⟨value, -, hvalue⟩ := Option.bind_eq_some_iff.mp hstate
      cases hread : (ServiceState.fromDict value : Except HealthError (ServiceState O)) with
      | error e =>
          rw [hread] at hvalue
          cases hvalue
      | ok state' =>
          rw [hread] at hvalue
          obtain rfl := Option.some.inj hvalue
          exact ⟨ServiceState.valid_of_fromDict hread, hdir⟩

end HealthStore

/-- **The health file is faithful.** A state is written exactly when it is valid, of this directory, and not too large;
what is written is read back as the same state; and whatever is in the file, what is read of it is valid and of this
directory. -/
theorem health_file_faithful (dataDir : String) (s : ServiceState O) :
    ((∃ raw, HealthStore.render dataDir s = .ok raw) ↔ s.Valid ∧ s.dataDir = dataDir ∧
        ∀ raw ∈ HealthStore.bytes s, raw.length ≤ maxStateBytes) ∧
      (∀ raw, HealthStore.render dataDir s = .ok raw → HealthStore.read dataDir (some raw) = .ok (some s)) ∧
      ∀ content, HealthStore.read dataDir content = .ok (some s) → s.Valid ∧ s.dataDir = dataDir := by
  refine ⟨⟨?_, ?_⟩, fun _ => HealthStore.read_render, fun _ => HealthStore.valid_of_read⟩
  · rintro ⟨raw, hraw⟩
    obtain ⟨hvalid, hdir, hbytes, hsize⟩ := HealthStore.render_eq_ok.mp hraw
    refine ⟨hvalid, hdir, fun raw' hraw' => ?_⟩
    obtain rfl := Option.some.inj (hbytes.symm.trans hraw')
    exact hsize
  · rintro ⟨hvalid, hdir, hsize⟩
    obtain ⟨raw, hraw, -⟩ := HealthStore.exists_bytes s
    exact ⟨raw, HealthStore.render_eq_ok.mpr ⟨hvalid, hdir, hraw, hsize raw hraw⟩⟩

end MuStrategy.Service
