import MuStrategy.Lib.JsonText
import MuStrategy.Notifications.AlertSystem
import MuStrategy.Notifications.CursorReading

/-!
# The records of observation cycles

A record is the canonical JSON of a cycle in UTF-8, with a newline.

* `ObservationCodec` — the dictionaries of observations, as far as a log needs them.
* `ObservationCycle.toJson`, `ObservationCycle.ofDict` — the text of a cycle, and the cycle of a dictionary.
* `stage0Format` — the format of the log; `stage0Format_lawful` — what was written is a line that reads back, or is refused.
* `cursor_reading` — reading the log by a cursor.
-/

namespace MuStrategy.Notifications

open Lib

/-- Observations as they are written and read. -/
class ObservationCodec (O : Type) [FloatText PyFloat] extends StageObservation O where
  schemaVersion : O → ℤ
  cycleId : O → String
  observationId : O → String
  /-- `Stage0Observation.from_dict(payload)`; `none` when it raises. -/
  ofDict : JsonValue → Option O
  /-- A dictionary has its keys once, and its floats are finite. -/
  toDict_tidy : ∀ o, (toDict o).Tidy
  /-- The dictionary of an observation, in the order of its text, is read as the same observation, or refused. -/
  ofDict_toDict : ∀ {o o' : O}, ofDict (toDict o).sortKeys = some o' → o' = o

section codec

variable {O : Type} [FloatText PyFloat] [ObservationCodec O]

/-- Source: `observations.py` `Stage0ObservationCycle.to_json`. -/
def ObservationCycle.toJson (cycle : ObservationCycle O) : Option String := cycle.toDict.dumps

/-- The checks of a cycle. Source: `observations.py` `Stage0ObservationCycle.__post_init__`. -/
def ObservationCycle.isValid (cycle : ObservationCycle O) : Bool :=
  (cycle.schemaVersion = 1 || cycle.schemaVersion = 2) && cycle.cycleId ≠ "" &&
    cycle.observations.all (fun o => ObservationCodec.schemaVersion o = cycle.schemaVersion &&
      ObservationCodec.cycleId o = cycle.cycleId) &&
    (cycle.observations.map ObservationCodec.observationId).Nodup

/-- The items of a list. -/
def items? : JsonValue → Option (List JsonValue)
  | .arr items => some items
  | _ => none

/-- `Stage0ObservationCycle.from_dict(payload)`; `none` when it raises.
Source: `observations.py` `Stage0ObservationCycle.from_dict`. -/
def ObservationCycle.ofDict (payload : JsonValue) : Option (ObservationCycle O) := do
  if payload.hasFields ["schema_version", "cycle_id", "created_at_ms", "observations"] then
    let schemaVersion ← (payload.get? "schema_version").bind Json.int?
    let items ← (payload.get? "observations").bind items?
    let cycleId ← (payload.get? "cycle_id").bind Json.str?
    let createdAtMs ← (payload.get? "created_at_ms").bind Json.int?
    let observations ← items.mapM ObservationCodec.ofDict
    let cycle : ObservationCycle O := ⟨cycleId, createdAtMs, observations, schemaVersion⟩
    if cycle.isValid then some cycle else none
  else none

omit [FloatText PyFloat] in
lemma cycleFields_nodup : (["schema_version", "cycle_id", "created_at_ms", "observations"] : List String).Nodup := by
  decide

lemma ObservationCycle.toDict_tidy (cycle : ObservationCycle O) : cycle.toDict.Tidy := by
  refine ⟨cycleFields_nodup, ?_⟩
  simp only [TidyFields, Json.Tidy, true_and, and_true]
  refine tidyItems_iff.mpr fun item hitem => ?_
  obtain ⟨o, -, rfl⟩ := List.mem_map.mp hitem
  exact ObservationCodec.toDict_tidy o

/-- Observations that are read are those that were written. -/
lemma mapM_ofDict {os os' : List O}
    (h : (os.map fun o => (StageObservation.toDict o).sortKeys).mapM ObservationCodec.ofDict = some os') : os' = os := by
  induction os generalizing os' with
  | nil => exact (Option.some.inj h).symm
  | cons o os ih =>
      simp only [List.map_cons, List.mapM_cons, Option.bind_eq_bind, Option.bind_eq_some_iff, Option.pure_def,
        Option.some.injEq] at h
      obtain ⟨o', ho', rest, hrest, rfl⟩ := h
      rw [ObservationCodec.ofDict_toDict ho', ih hrest]

/-- **The dictionary of a cycle is read as the cycle**, or refused. -/
theorem ObservationCycle.ofDict_toDict {cycle cycle' : ObservationCycle O}
    (h : ObservationCycle.ofDict cycle.toDict.sortKeys = some cycle') : cycle' = cycle := by
  have hget : ∀ key, cycle.toDict.sortKeys.get? key = (cycle.toDict.get? key).map Json.sortKeys :=
    get?_sortKeys cycleFields_nodup
  unfold ObservationCycle.ofDict at h
  split at h
  · have hschema : cycle.toDict.get? "schema_version" = some (.int cycle.schemaVersion) := rfl
    have hid : cycle.toDict.get? "cycle_id" = some (.str cycle.cycleId) := rfl
    have hcreated : cycle.toDict.get? "created_at_ms" = some (.int cycle.createdAtMs) := rfl
    have hitems : cycle.toDict.get? "observations" =
        some (.arr (cycle.observations.map StageObservation.toDict)) := rfl
    simp only [hget, hschema, hid, hcreated, hitems, Option.map_some, Json.sortKeys, sortItems_eq_map, List.map_map,
      Option.bind_some, Json.int?_int, Json.str?_str, items?, Option.bind_eq_bind, Option.bind_eq_some_iff] at h
    obtain ⟨observations, hobservations, h⟩ := h
    obtain rfl := mapM_ofDict hobservations
    split at h
    · exact (Option.some.inj h).symm
    · cases h
  · cases h

end codec

/-! ## Bytes -/

/-- `text.encode("utf-8")`. -/
def utf8 (text : String) : List UInt8 := text.toList.flatMap String.utf8EncodeChar

/-- `raw.decode("utf-8")`; `none` when it raises. -/
def decodeUtf8 (raw : List UInt8) : Option String := String.fromUTF8? raw.toByteArray

lemma decodeUtf8_utf8 (text : String) : decodeUtf8 (utf8 text) = some text := by
  have hbytes : (utf8 text).toByteArray = text.toByteArray := String.utf8Encode_toList
  rw [decodeUtf8, hbytes, String.fromUTF8?, dif_pos text.isValidUTF8]
  rfl

lemma utf8_append (text text' : String) : utf8 (text ++ text') = utf8 text ++ utf8 text' := by
  rw [utf8, String.toList_append, List.flatMap_append]
  rfl

/-- A printable character is one byte, and no newline. -/
lemma utf8EncodeChar_of_printable {c : Char} (h : IsPrintable c) :
    ∃ byte : UInt8, String.utf8EncodeChar c = [byte] ∧ byte ≠ ObservationFile.newline := by
  obtain ⟨hlow, hhigh⟩ := h
  refine ⟨UInt8.ofNat c.val.toNat, ?_, fun heq => ?_⟩
  · rw [String.utf8EncodeChar]
    exact if_pos (hhigh.trans (by decide))
  · have hnat := congrArg UInt8.toNat heq
    change c.toNat % 256 = 10 at hnat
    omega

lemma newline_notMem_utf8 {text : String} (h : ∀ c ∈ text.toList, IsPrintable c) : ObservationFile.newline ∉ utf8 text := by
  intro hmem
  obtain ⟨c, hc, hbyte⟩ := List.mem_flatMap.mp hmem
  obtain ⟨byte, hencode, hne⟩ := utf8EncodeChar_of_printable (h c hc)
  rw [hencode, List.mem_singleton] at hbyte
  exact hne hbyte.symm

namespace ObservationFile

/-! ## The format of the log -/

/-- A field that comes twice raises. Source: `observations.py` `JsonlObservationRepository.read_batch`, `unique_fields`. -/
def uniqueFields : PairsHook PyFloat := fun pairs => if (pairs.map Prod.fst).Nodup then some pairs else none

lemma keepsDicts_uniqueFields [FloatText PyFloat] : KeepsDicts uniqueFields := fun _ hnodup => if_pos hnodup

section format

variable {O : Type} [FloatText PyFloat] [ObservationCodec O] (recordSha256 : List UInt8 → HexDigest)

/-- The format of the log.
Fidelity: `read_batch` raises for a field that comes twice with a text of its own.
Source: `observations.py` `JsonlObservationRepository`. -/
def stage0Format : LogFormat O where
  decode raw := do
    let text ← decodeUtf8 raw
    let payload ← Json.loadsWith uniqueFields text
    ObservationCycle.ofDict payload
  recordSha256 := recordSha256
  encode cycle := cycle.toJson.map fun text => utf8 (text ++ "\n")
  decodeLine raw := do
    let text ← decodeUtf8 raw
    let payload ← Json.loads text
    ObservationCycle.ofDict payload

/-- **A record reads back**: both readers get the dictionary that was written. -/
theorem stage0Format_reads (cycle : ObservationCycle O) :
    ∃ text, (stage0Format recordSha256).encode cycle = some (utf8 text ++ [newline]) ∧ newline ∉ utf8 text ∧
      (stage0Format (O := O) recordSha256).decode (utf8 text ++ [newline]) =
        ObservationCycle.ofDict cycle.toDict.sortKeys ∧
      (stage0Format (O := O) recordSha256).decodeLine (utf8 text ++ [newline]) =
        ObservationCycle.ofDict cycle.toDict.sortKeys := by
  obtain ⟨text, hdumps, hprintable, hloads⟩ := loadsWith_dumps cycle.toDict_tidy
  have hbytes : utf8 text ++ [newline] = utf8 (text ++ "\n") := by
    rw [utf8_append]
    rfl
  have hspace : ∀ c ∈ ['\n'], isJsonSpace c = true := List.forall_mem_singleton.mpr rfl
  refine ⟨text, ?_, newline_notMem_utf8 hprintable, ?_, ?_⟩
  · rw [hbytes]
    change Option.map _ cycle.toDict.dumps = _
    rw [hdumps, Option.map_some]
  · rw [hbytes]
    change ((decodeUtf8 _).bind fun text => (Json.loadsWith uniqueFields text).bind _) = _
    rw [decodeUtf8_utf8, Option.bind_some, hloads _ keepsDicts_uniqueFields ['\n'] hspace, Option.bind_some]
  · rw [hbytes]
    change ((decodeUtf8 _).bind fun text => (Json.loads text).bind _) = _
    rw [decodeUtf8_utf8, Option.bind_some, Json.loads, hloads _ keepsDicts_dictOf ['\n'] hspace, Option.bind_some]

theorem stage0Format_lawful : (stage0Format (O := O) recordSha256).Lawful where
  line {cycle raw} hencode := by
    obtain ⟨text, htext, hnewline, -⟩ := stage0Format_reads recordSha256 cycle
    rw [htext, Option.some.injEq] at hencode
    exact ⟨utf8 text, hencode.symm, hnewline⟩
  decode {cycle cycle' raw} hencode hdecode := by
    obtain ⟨text, htext, -, hread, -⟩ := stage0Format_reads recordSha256 cycle
    rw [htext, Option.some.injEq] at hencode
    rw [← hencode, hread] at hdecode
    exact ObservationCycle.ofDict_toDict hdecode
  decodeLine {cycle raw} hencode := by
    obtain ⟨text, htext, -, hread, hline⟩ := stage0Format_reads recordSha256 cycle
    rw [htext, Option.some.injEq] at hencode
    rw [← hencode, hread, hline]

end format

section demo

attribute [local instance] demoSha256

/-- No float is written. -/
@[reducible] def demoFloatText : FloatText PyFloat := ⟨fun _ => none, fun _ => .nan⟩

attribute [local instance] demoFloatText

/-- Scans, and how they are written and read. -/
@[reducible] def demoCodec : ObservationCodec DemoScan where
  toStageObservation := demoObservation
  schemaVersion _ := 2
  cycleId _ := "first"
  observationId _ := "BTC"
  ofDict payload := do
    let atMs ← (payload.get? "at_ms").bind Json.int?
    some ⟨payload.get? "ready" = some (.bool true), atMs⟩
  toDict_tidy scan := ⟨show ["ready", "at_ms"].Nodup by decide, trivial, trivial, trivial⟩
  ofDict_toDict {scan scan'} h := by
    have hget : ∀ key, (Json.obj [("ready", .bool scan.ready), ("at_ms", .int scan.atMs)] : JsonValue).sortKeys.get? key =
        ((Json.obj [("ready", .bool scan.ready), ("at_ms", .int scan.atMs)]).get? key).map Json.sortKeys :=
      get?_sortKeys (show ["ready", "at_ms"].Nodup by decide)
    change ((((Json.obj _).sortKeys.get? "at_ms").bind Json.int?).bind fun atMs =>
      some (DemoScan.mk (decide ((Json.obj _).sortKeys.get? "ready" = some (.bool true))) atMs)) = some scan' at h
    rw [hget, hget] at h
    obtain ⟨ready, atMs⟩ := scan
    cases ready <;> exact (Option.some.inj h).symm

attribute [local instance] demoCodec

/-- The log of such scans. -/
def demoLogFormat : LogFormat DemoScan := stage0Format fun _ => canonicalSha256 .null

lemma readyCycle_fits : demoLogFormat.Fits readyCycle := ⟨by decide +kernel, by decide +kernel⟩

lemma readyCycle_readable : demoLogFormat.Readable readyCycle := by
  rw [LogFormat.Readable]
  decide +kernel

end demo

end ObservationFile

end MuStrategy.Notifications
