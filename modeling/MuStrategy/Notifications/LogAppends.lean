import Mathlib.Data.List.Induction
import MuStrategy.Notifications.ObservationFile

/-!
# Appends to the observation log

The scanner appends cycles one after another. A reader can come at any time: before an append, when its marker is set,
when a part of its record is in the file, and after it.

* `LogFormat` — how cycles are written and read; `LogFormat.Lawful` — what is written is a line that reads back, or is
  refused.
* `AppendStep` — the steps of appends, call by call; a write may reach the file in pieces.
* `Shared.readCycles` — a read of the whole log.
* `Logged` — the invariant: the log is the committed records, and a part of the one that is appended.
* `Later` — what appends leave as it is.
-/

namespace MuStrategy.Notifications.ObservationFile

open Lib Prog

variable {O : Type}

/-! ## The format of the log -/

/-- How cycles are written and read. -/
structure LogFormat (O : Type) extends RecordFormat O where
  /-- `(cycle.to_json() + "\n").encode("utf-8")`; `none` when it raises.
  Source: `observations.py` `JsonlObservationRepository.append_cycle`. -/
  encode : ObservationCycle O → Option (List UInt8)
  /-- `Stage0ObservationCycle.from_dict(json.loads(raw_line.decode("utf-8")))`; `none` when it raises.
  Source: `observations.py` `JsonlObservationRepository.read_cycles`. -/
  decodeLine : List UInt8 → Option (ObservationCycle O)

/-- What is written is a line. It is read as the cycle that was written, or refused, by both readers. -/
structure LogFormat.Lawful (fmt : LogFormat O) : Prop where
  line : ∀ {cycle : ObservationCycle O} {raw : List UInt8}, fmt.encode cycle = some raw →
    ∃ line, raw = line ++ [newline] ∧ newline ∉ line
  decode : ∀ {cycle cycle' : ObservationCycle O} {raw : List UInt8}, fmt.encode cycle = some raw →
    fmt.decode raw = some cycle' → cycle' = cycle
  decodeLine : ∀ {cycle : ObservationCycle O} {raw : List UInt8}, fmt.encode cycle = some raw →
    fmt.decodeLine raw = fmt.decode raw

namespace LogFormat

variable (fmt : LogFormat O)

/-- The record of a cycle. -/
def record (cycle : ObservationCycle O) : List UInt8 := (fmt.encode cycle).getD []

/-- The records of cycles, one behind the other. -/
def records (cycles : List (ObservationCycle O)) : List UInt8 := cycles.flatMap fmt.record

/-- A cycle whose record can be written and is not longer than what is read. -/
def Fits (cycle : ObservationCycle O) : Prop := (fmt.encode cycle).isSome ∧ (fmt.record cycle).length ≤ maxRecordBytes

/-- A cycle that is read back. -/
def Readable (cycle : ObservationCycle O) : Prop := fmt.decode (fmt.record cycle) = some cycle

/-- The cursor behind the records of cycles. -/
def cursorAfter (cycles : List (ObservationCycle O)) : LogCursor :=
  cycles.foldl (fun cursor cycle => cursor.advance fmt.toRecordFormat (fmt.record cycle)) {}

variable {fmt}

lemma records_append (cycles cycles' : List (ObservationCycle O)) :
    fmt.records (cycles ++ cycles') = fmt.records cycles ++ fmt.records cycles' := List.flatMap_append

lemma records_cons (cycle : ObservationCycle O) (cycles : List (ObservationCycle O)) :
    fmt.records (cycle :: cycles) = fmt.record cycle ++ fmt.records cycles := List.flatMap_cons

lemma records_singleton (cycle : ObservationCycle O) : fmt.records [cycle] = fmt.record cycle := by
  rw [records_cons]
  exact List.append_nil _

lemma Fits.encode {cycle : ObservationCycle O} (h : fmt.Fits cycle) : fmt.encode cycle = some (fmt.record cycle) := by
  obtain ⟨raw, hraw⟩ := Option.isSome_iff_exists.mp h.1
  rw [record, hraw, Option.getD_some]

lemma fits_of_encode {cycle : ObservationCycle O} {raw : List UInt8} (hencode : fmt.encode cycle = some raw)
    (hsize : raw.length ≤ maxRecordBytes) : fmt.Fits cycle ∧ fmt.record cycle = raw := by
  have hrecord : fmt.record cycle = raw := by rw [record, hencode, Option.getD_some]
  exact ⟨⟨by rw [hencode, Option.isSome_some], by rw [hrecord]; exact hsize⟩, hrecord⟩

lemma Fits.line (hfmt : fmt.Lawful) {cycle : ObservationCycle O} (h : fmt.Fits cycle) :
    ∃ line, fmt.record cycle = line ++ [newline] ∧ newline ∉ line := hfmt.line h.encode

lemma Fits.pos (hfmt : fmt.Lawful) {cycle : ObservationCycle O} (h : fmt.Fits cycle) : 0 < (fmt.record cycle).length := by
  obtain ⟨line, hline, -⟩ := h.line hfmt
  rw [hline, List.length_append, List.length_singleton]
  omega

lemma cursorAfter_concat (cycles : List (ObservationCycle O)) (cycle : ObservationCycle O) :
    fmt.cursorAfter (cycles ++ [cycle]) =
      ⟨(fmt.cursorAfter cycles).offset + (fmt.record cycle).length, (fmt.cursorAfter cycles).offset,
        some (fmt.recordSha256 (fmt.record cycle))⟩ := by
  rw [cursorAfter, List.foldl_append]
  rfl

/-- The cursor is at the end of the records. -/
lemma offset_cursorAfter (cycles : List (ObservationCycle O)) :
    (fmt.cursorAfter cycles).offset = (fmt.records cycles).length := by
  induction cycles using List.reverseRecOn with
  | nil => rfl
  | append_singleton cycles cycle ih => rw [cursorAfter_concat, records_append, records_singleton, List.length_append, ih]

/-- The cursor behind records passes the checks on the arguments of a read. -/
lemma isValid_cursorAfter (hfmt : fmt.Lawful) {cycles : List (ObservationCycle O)} (hfits : ∀ cycle ∈ cycles, fmt.Fits cycle)
    {limit : ℕ} (hlimit : 1 ≤ limit ∧ limit ≤ 1000) : (fmt.cursorAfter cycles).isValid limit = true := by
  rcases List.eq_nil_or_concat cycles with rfl | ⟨cycles, cycle, rfl⟩
  · simp [LogCursor.isValid, cursorAfter, hlimit.1, hlimit.2]
  · have hpos := (hfits cycle (by simp)).pos hfmt
    rw [List.concat_eq_append, cursorAfter_concat]
    simp only [LogCursor.isValid, Option.isSome_some, Option.isNone_some, Bool.or_true, Bool.or_false, Bool.and_true,
      Bool.and_eq_true, Bool.not_eq_true', Bool.and_eq_false_iff, decide_eq_true_eq, decide_eq_false_iff_not]
    omega

end LogFormat

/-! ## The whole log -/

/-- The lines of a file, with their newlines: what iterating over it yields. -/
def lines : List UInt8 → List (List UInt8)
  | [] => []
  | byte :: rest =>
      if byte = newline then [byte] :: lines rest
      else match lines rest with
        | [] => [[byte]]
        | line :: rest => (byte :: line) :: rest

/-- The lines from one with this number on.
Fidelity: the class of the exception, which ends the second text, is left out.
Source: `observations.py` `JsonlObservationRepository.read_cycles`, its loop. -/
def LogFormat.readLines (fmt : LogFormat O) : ℕ → List (List UInt8) → Except AlertError (List (ObservationCycle O))
  | _, [] => pure []
  | number, raw :: rest => do
      require (raw.getLast? = some newline) (.corruption s!"corrupted observation record at line {number}: incomplete")
      let cycle ← orThrow (fmt.decodeLine raw) (.corruption s!"corrupted observation record at line {number}")
      let cycles ← fmt.readLines (number + 1) rest
      pure (cycle :: cycles)

/-- A read of the whole log, when nothing happens meanwhile and no call on a file fails.
Source: `observations.py` `JsonlObservationRepository.read_cycles`. -/
def Shared.readCycles (fmt : LogFormat O) (s : Shared O) : Except AlertError (List (ObservationCycle O)) := do
  require (!s.invalidMarker) (.corruption "observation repository has an unresolved failed-write marker")
  match s.content with
  | none => pure []
  | some bytes => do
      let cycles ← fmt.readLines 1 (lines bytes)
      require (!s.invalidMarker) (.corruption "observation repository has an unresolved failed-write marker")
      pure cycles

lemma lines_append {line : List UInt8} (h : newline ∉ line) (rest : List UInt8) :
    lines (line ++ [newline] ++ rest) = (line ++ [newline]) :: lines rest := by
  induction line with
  | nil => rfl
  | cons byte line ih =>
      rw [List.mem_cons, not_or] at h
      rw [List.cons_append, List.cons_append, lines, if_neg (Ne.symm h.1), ih h.2]

lemma lines_records {fmt : LogFormat O} (hfmt : fmt.Lawful) {cycles : List (ObservationCycle O)}
    (hfits : ∀ cycle ∈ cycles, fmt.Fits cycle) : lines (fmt.records cycles) = cycles.map fmt.record := by
  induction cycles with
  | nil => rfl
  | cons cycle cycles ih =>
      obtain ⟨line, hline, hnewline⟩ := (hfits cycle List.mem_cons_self).line hfmt
      rw [LogFormat.records_cons, hline, lines_append hnewline, ih fun c hc => hfits c (List.mem_cons_of_mem _ hc),
        List.map_cons, hline]

/-- **Records that are read back are all read.** -/
theorem readLines_records {fmt : LogFormat O} (hfmt : fmt.Lawful) {cycles : List (ObservationCycle O)}
    (hfits : ∀ cycle ∈ cycles, fmt.Fits cycle) (hreadable : ∀ cycle ∈ cycles, fmt.Readable cycle) (number : ℕ) :
    fmt.readLines number (cycles.map fmt.record) = .ok cycles := by
  induction cycles generalizing number with
  | nil => rfl
  | cons cycle cycles ih =>
      have hcycle := hfits cycle List.mem_cons_self
      obtain ⟨line, hline, -⟩ := hcycle.line hfmt
      have hlast : (fmt.record cycle).getLast? = some newline := by rw [hline, List.getLast?_concat]
      have hdecode : fmt.decodeLine (fmt.record cycle) = some cycle :=
        (hfmt.decodeLine hcycle.encode).trans (hreadable cycle List.mem_cons_self)
      rw [List.map_cons, LogFormat.readLines, hlast, decide_eq_true rfl, require_true, ok_bind, hdecode, orThrow_some,
        ok_bind, ih (fun c hc => hfits c (List.mem_cons_of_mem _ hc)) (fun c hc => hreadable c (List.mem_cons_of_mem _ hc)),
        ok_bind]
      rfl

lemma Shared.readCycles_records {fmt : LogFormat O} (hfmt : fmt.Lawful) {s : Shared O} (hmarker : s.invalidMarker = false)
    {cycles : List (ObservationCycle O)} (hbytes : s.bytes = fmt.records cycles) (hfits : ∀ cycle ∈ cycles, fmt.Fits cycle)
    (hreadable : ∀ cycle ∈ cycles, fmt.Readable cycle) : s.readCycles fmt = .ok cycles := by
  rw [Shared.readCycles, hmarker, Bool.not_false, require_true, ok_bind]
  cases hcontent : s.content with
  | none =>
      have hnil : fmt.records cycles = [] := by rw [← hbytes, Shared.bytes, hcontent, Option.getD_none]
      cases cycles with
      | nil => rfl
      | cons cycle cycles =>
          have hpos := (hfits cycle List.mem_cons_self).pos hfmt
          rw [LogFormat.records_cons, List.append_eq_nil_iff] at hnil
          rw [hnil.1] at hpos
          cases hpos
  | some bytes =>
      have hsome : bytes = fmt.records cycles := by rw [← hbytes, Shared.bytes, hcontent, Option.getD_some]
      dsimp only
      rw [hsome, lines_records hfmt hfits, readLines_records hfmt hfits hreadable, ok_bind, ok_bind]
      rfl

/-! ## Appends -/

/-- What a call on a file replies, and does, when none of them fails. -/
def files : (op : Op O) → Shared O → op.Reply × Shared O
  | .markerExists, s => (.ok s.invalidMarker, s)
  | .openLog, s => (.ok s.content.isSome, s)
  | .readLine position, s => (.ok (readLine (maxRecordBytes + 1) (s.bytes.drop position)), s)
  | .createMarker, s => (.ok (), { s with invalidMarker := true })
  | .write encoded, s => (.ok encoded.length, { s with content := some (s.bytes ++ encoded) })
  | .removeMarker, s => (.ok (), { s with invalidMarker := false })
  | .fsyncDirectory, s => (.ok (), s)
  | .snapshot, s | .now, s | .beginImmediate, s | .validate, s | .readCursor, s | .update _, s | .commit, s
  | .inTransaction, s | .rollback, s => (.error .database, s)

/-- It is among what they do. -/
lemma files_act (i : ℕ) (op : Op O) (s : Shared O) : Act i op s (files op s).1 (files op s).2 := by
  unfold files
  split
  · exact .markerExists
  · exact .openLog
  · exact .readLine _
  · exact .createMarker _
  · rename_i encoded
    have hwrite : Act i (.write encoded) s (.ok encoded.length)
        { s with content := some (s.bytes ++ encoded.take encoded.length) } := .write encoded.length (.ok encoded.length)
    rw [List.take_length] at hwrite
    exact hwrite
  · exact .removeMarker _
  · exact .fsyncDirectory
  all_goals exact .fault _

/-- An append that was begun: its cycle, and what is left to do. -/
structure Append (O : Type) where
  cycle : ObservationCycle O
  program : Action O Unit

/-- The log, the cycles whose appends committed, the append that holds the lock, and the number of appends so far. -/
structure Log (O : Type) where
  shared : Shared O
  committed : List (ObservationCycle O) := []
  append : Option (Append O) := none
  started : ℕ := 0

/-- An append commits when it removes the marker. -/
def Op.Commits : Op O → Bool
  | .removeMarker => true
  | _ => false

/-- The steps of appends that commit; the lock serializes them. -/
inductive AppendStep (fmt : LogFormat O) (s : Log O) : Log O → Prop where
  | start {cycle : ObservationCycle O} {raw : List UInt8} (hfree : s.append = none)
      (hencode : fmt.encode cycle = some raw) (hsize : raw.length ≤ maxRecordBytes) :
      AppendStep fmt s { s with append := some ⟨cycle, appendCycle raw⟩, started := s.started + 1 }
  | call {cycle : ObservationCycle O} {op : Op O} {next : op.Reply → Action O Unit}
      (happend : s.append = some ⟨cycle, .call op next⟩) :
      AppendStep fmt s { s with
        shared := (files op s.shared).2
        committed := if op.Commits then s.committed ++ [cycle] else s.committed
        append := some ⟨cycle, next (files op s.shared).1⟩ }
  /-- A write reaches the file in pieces; the reply counts all of them. -/
  | piece {cycle : ObservationCycle O} {piece rest : List UInt8}
      {next : Op.Reply (.write (piece ++ rest) : Op O) → Action O Unit}
      (happend : s.append = some ⟨cycle, .call (.write (piece ++ rest)) next⟩) :
      AppendStep fmt s { s with
        shared := (files (.write piece) s.shared).2
        append := some ⟨cycle, .call (.write rest) fun reply => next (reply.map (piece.length + ·))⟩ }
  | return {cycle : ObservationCycle O} (happend : s.append = some ⟨cycle, .done (.ok ())⟩) :
      AppendStep fmt s { s with append := none }

/-! ## The invariant -/

/-- An append after it found no marker. -/
def markThen (encoded : List UInt8) : Action O Unit := do
  call .createMarker
  let written ← call (.write encoded)
  raiseIf (written ≠ encoded.length) .osError
  call .removeMarker
  handle (call .fsyncDirectory) restoreMarker

/-- An append after it wrote its record. -/
def unmarkThen : Action O Unit := do
  call .removeMarker
  handle (call .fsyncDirectory) restoreMarker

/-- What is left to do of an append of a record, its bytes that are in the file and not committed, and the marker. -/
inductive Stage (raw : List UInt8) : Action O Unit → List UInt8 → Bool → Prop where
  | check : Stage raw (appendCycle raw) [] false
  | mark : Stage raw (markThen raw) [] false
  | write {written rest : List UInt8} {next : Op.Reply (.write rest : Op O) → Action O Unit} (hraw : written ++ rest = raw)
      (hnext : next (.ok rest.length) = unmarkThen) : Stage raw (.call (.write rest) next) written true
  | unmark : Stage raw unmarkThen raw true
  | sync : Stage raw (handle (call .fsyncDirectory) restoreMarker) [] false
  | returned : Stage raw (.done (.ok ())) [] false

/-- The log is the committed records, and behind them a part of the one that is appended. -/
inductive Logged (fmt : LogFormat O) (s : Log O) : Prop where
  | idle (hfits : ∀ cycle ∈ s.committed, fmt.Fits cycle) (happend : s.append = none)
      (hmarker : s.shared.invalidMarker = false) (hbytes : s.shared.bytes = fmt.records s.committed)
  | during {cycle : ObservationCycle O} {program : Action O Unit} {written : List UInt8}
      (hfits : ∀ cycle ∈ s.committed, fmt.Fits cycle) (happend : s.append = some ⟨cycle, program⟩) (hcycle : fmt.Fits cycle)
      (hstage : Stage (fmt.record cycle) program written s.shared.invalidMarker)
      (hbytes : s.shared.bytes = fmt.records s.committed ++ written)

variable {fmt : LogFormat O} {s t u : Log O}

lemma Logged.fits (h : Logged fmt s) : ∀ cycle ∈ s.committed, fmt.Fits cycle := by
  rcases h with ⟨hfits, -⟩ | ⟨hfits, -⟩ <;> exact hfits

/-- Without the marker the log is the committed records. -/
lemma Logged.bytes_of_unmarked (h : Logged fmt s) (hmarker : s.shared.invalidMarker = false) :
    s.shared.bytes = fmt.records s.committed := by
  rcases h with ⟨-, -, -, hbytes⟩ | ⟨-, -, -, hstage, hbytes⟩
  · exact hbytes
  · rw [hmarker] at hstage
    cases hstage <;> rw [hbytes, List.append_nil]

/-- The marker is set by an append. -/
lemma Logged.append_of_marked (h : Logged fmt s) (hmarker : s.shared.invalidMarker = true) : s.append.isSome := by
  rcases h with ⟨-, -, hunmarked, -⟩ | ⟨-, happend, -⟩
  · rw [hmarker] at hunmarked
    cases hunmarked
  · rw [happend]
    rfl

lemma Stage.written_isPrefix {raw written : List UInt8} {program : Action O Unit} {marked : Bool}
    (h : Stage raw program written marked) : written <+: raw := by
  cases h with
  | write hraw _ => exact ⟨_, hraw⟩
  | unmark => exact List.prefix_rfl
  | _ => exact List.nil_prefix

/-- A call of an append: it adds bytes of its record, or commits the whole of it. -/
lemma Stage.call {raw written : List UInt8} {op : Op O} {next : op.Reply → Action O Unit} {s : Shared O}
    (h : Stage raw (.call op next) written s.invalidMarker) :
    ∃ written', Stage raw (next (files op s).1) written' (files op s).2.invalidMarker ∧
      (op.Commits = true ∧ (files op s).2.bytes = s.bytes ∧ written = raw ∧ written' = [] ∨
        op.Commits = false ∧ ∃ more, (files op s).2.bytes = s.bytes ++ more ∧ written' = written ++ more) := by
  have hnone : s.bytes = s.bytes ++ [] := (List.append_nil _).symm
  generalize hprogram : Prog.call op next = program at h
  generalize hmarker : s.invalidMarker = marked at h
  cases h with
  | check =>
      change Prog.call op next = Prog.call .markerExists _ at hprogram
      cases hprogram
      refine ⟨[], ?_, .inr ⟨rfl, [], hnone, rfl⟩⟩
      change Stage raw (onValue _ (.ok s.invalidMarker)) [] s.invalidMarker
      rw [hmarker]
      exact .mark
  | mark =>
      change Prog.call op next = Prog.call .createMarker _ at hprogram
      cases hprogram
      refine ⟨[], .write (List.nil_append raw) ?_, .inr ⟨rfl, [], hnone, rfl⟩⟩
      change (raiseIf (decide (raw.length ≠ raw.length)) .osError >>= fun _ => unmarkThen) = unmarkThen
      rw [decide_eq_false (not_not_intro rfl)]
      rfl
  | @write written rest next' hraw hnext =>
      cases hprogram
      refine ⟨raw, ?_, .inr ⟨rfl, rest, rfl, hraw.symm⟩⟩
      change Stage raw (next' (.ok rest.length)) raw s.invalidMarker
      rw [hnext, hmarker]
      exact .unmark
  | unmark =>
      change Prog.call op next = Prog.call .removeMarker _ at hprogram
      cases hprogram
      exact ⟨[], .sync, .inl ⟨rfl, rfl, rfl, rfl⟩⟩
  | sync =>
      change Prog.call op next = Prog.call .fsyncDirectory _ at hprogram
      cases hprogram
      refine ⟨[], ?_, .inr ⟨rfl, [], hnone, rfl⟩⟩
      change Stage raw (.done (.ok ())) [] s.invalidMarker
      rw [hmarker]
      exact .returned
  | returned => cases hprogram

/-- A piece of a write. -/
lemma Stage.piece {raw written piece rest : List UInt8} {marked : Bool}
    {next : Op.Reply (.write (piece ++ rest) : Op O) → Action O Unit}
    (h : Stage raw (.call (.write (piece ++ rest)) next) written marked) :
    Stage raw (.call (.write rest) fun reply => next (reply.map (piece.length + ·))) (written ++ piece) marked := by
  generalize hprogram : Prog.call (Op.write (piece ++ rest)) next = program at h
  cases h with
  | check =>
      change Prog.call (Op.write (piece ++ rest)) next = Prog.call Op.markerExists _ at hprogram
      cases hprogram
  | mark =>
      change Prog.call (Op.write (piece ++ rest)) next = Prog.call Op.createMarker _ at hprogram
      cases hprogram
  | @write written rest' next' hraw hnext =>
      simp only [Prog.call.injEq, Op.write.injEq] at hprogram
      obtain ⟨rfl, hnext'⟩ := hprogram
      obtain rfl := eq_of_heq hnext'
      refine .write (by rw [List.append_assoc, hraw]) ?_
      rw [← hnext, List.length_append]
      rfl
  | unmark =>
      change Prog.call (Op.write (piece ++ rest)) next = Prog.call Op.removeMarker _ at hprogram
      cases hprogram
  | sync =>
      change Prog.call (Op.write (piece ++ rest)) next = Prog.call Op.fsyncDirectory _ at hprogram
      cases hprogram
  | returned => cases hprogram

/-- The end of an append. -/
lemma Stage.returned_done {raw written : List UInt8} {marked : Bool}
    (h : Stage (O := O) raw (.done (.ok ())) written marked) : marked = false ∧ written = [] := by
  generalize hprogram : (Prog.done (.ok ()) : Action O Unit) = program at h
  cases h with
  | check =>
      change Prog.done _ = Prog.call Op.markerExists _ at hprogram
      cases hprogram
  | mark =>
      change Prog.done _ = Prog.call Op.createMarker _ at hprogram
      cases hprogram
  | write hraw hnext => cases hprogram
  | unmark =>
      change Prog.done _ = Prog.call Op.removeMarker _ at hprogram
      cases hprogram
  | sync =>
      change Prog.done _ = Prog.call Op.fsyncDirectory _ at hprogram
      cases hprogram
  | returned => exact ⟨rfl, rfl⟩

/-- What a step of an append does: the invariant is kept, records stay committed and bytes stay in the log. -/
theorem AppendStep.logged (h : AppendStep fmt s t) (hs : Logged fmt s) :
    Logged fmt t ∧ s.committed <+: t.committed ∧ s.shared.bytes <+: t.shared.bytes := by
  cases h with
  | @start cycle raw hfree hencode hsize =>
      obtain ⟨hcycle, rfl⟩ := LogFormat.fits_of_encode hencode hsize
      rcases hs with ⟨hfits, -, hmarker, hbytes⟩ | ⟨-, happend, -⟩
      · refine ⟨.during hfits rfl hcycle ?_ (hbytes.trans (List.append_nil _).symm), List.prefix_rfl, List.prefix_rfl⟩
        rw [hmarker]
        exact .check
      · rw [hfree] at happend
        cases happend
  | @call cycle op next happend =>
      rcases hs with ⟨-, hfree, -⟩ | @⟨cycle', program, written, hfits, happend', hcycle, hstage, hbytes⟩
      · rw [hfree] at happend
        cases happend
      · rw [happend, Option.some.injEq, Append.mk.injEq] at happend'
        obtain ⟨rfl, rfl⟩ := happend'
        obtain ⟨written', hstage', ⟨hcommits, hsame, rfl, rfl⟩ | ⟨hopen, more, hmore, rfl⟩⟩ := hstage.call
        · have hall : ∀ c ∈ s.committed ++ [cycle], fmt.Fits c := by
            intro c hc
            rcases List.mem_append.mp hc with hc | hc
            · exact hfits c hc
            · exact List.mem_singleton.mp hc ▸ hcycle
          rw [hcommits, if_pos rfl]
          refine ⟨.during hall rfl hcycle hstage' ?_, List.prefix_append _ _, ?_⟩
          · dsimp only
            rw [hsame, hbytes, LogFormat.records_append, LogFormat.records_singleton, List.append_nil]
          · exact ⟨[], by rw [List.append_nil, hsame]⟩
        · rw [hopen, if_neg Bool.false_ne_true]
          refine ⟨.during hfits rfl hcycle hstage' ?_, List.prefix_rfl, ?_⟩
          · dsimp only
            rw [hmore, hbytes, List.append_assoc]
          · dsimp only
            rw [hmore]
            exact List.prefix_append _ _
  | @piece cycle piece rest next happend =>
      rcases hs with ⟨-, hfree, -⟩ | @⟨cycle', program, written, hfits, happend', hcycle, hstage, hbytes⟩
      · rw [hfree] at happend
        cases happend
      · rw [happend, Option.some.injEq, Append.mk.injEq] at happend'
        obtain ⟨rfl, rfl⟩ := happend'
        have hstage' := hstage.piece
        have hbytes' : (files (.write piece) s.shared).2.bytes = fmt.records s.committed ++ (written ++ piece) := by
          rw [← List.append_assoc, ← hbytes]
          rfl
        exact ⟨.during hfits rfl hcycle hstage' hbytes', List.prefix_rfl, List.prefix_append _ _⟩
  | @«return» cycle happend =>
      rcases hs with ⟨-, hfree, -⟩ | @⟨cycle', program, written, hfits, happend', hcycle, hstage, hbytes⟩
      · rw [hfree] at happend
        cases happend
      · rw [happend, Option.some.injEq, Append.mk.injEq] at happend'
        obtain ⟨rfl, rfl⟩ := happend'
        obtain ⟨hmarker, rfl⟩ := hstage.returned_done
        refine ⟨.idle hfits rfl hmarker ?_, List.prefix_rfl, List.prefix_rfl⟩
        rw [hbytes, List.append_nil]

/-- A call of an append, by the state it leads to. -/
lemma AppendStep.of_call {cycle : ObservationCycle O} (op : Op O) {next : op.Reply → Action O Unit}
    {shared shared' : Shared O} {committed : List (ObservationCycle O)} {started : ℕ} {program : Action O Unit}
    (hshared : (files op shared).2 = shared') (hnext : next (files op shared).1 = program) :
    AppendStep fmt ⟨shared, committed, some ⟨cycle, .call op next⟩, started⟩
      ⟨shared', if op.Commits then committed ++ [cycle] else committed, some ⟨cycle, program⟩, started⟩ := by
  subst hshared hnext
  exact .call rfl

/-- **An append that nothing disturbs commits its cycle.** -/
theorem exists_appended (hfree : s.append = none) (hmarker : s.shared.invalidMarker = false)
    {cycle : ObservationCycle O} (hcycle : fmt.Fits cycle) :
    ∃ t, Relation.ReflTransGen (AppendStep fmt) s t ∧ t.append = none ∧ t.committed = s.committed ++ [cycle] := by
  have hcheck : onValue (fun marked => raiseIf marked .osError >>= fun _ => markThen (O := O) (fmt.record cycle))
      (.ok s.shared.invalidMarker) = markThen (fmt.record cycle) := by
    rw [hmarker]
    rfl
  have hwritten : onValue (fun written => raiseIf (decide (written ≠ (fmt.record cycle).length)) .osError >>= fun _ =>
      unmarkThen (O := O)) (.ok (fmt.record cycle).length) = unmarkThen := by
    change (raiseIf (decide ((fmt.record cycle).length ≠ (fmt.record cycle).length)) .osError >>= fun _ =>
      unmarkThen (O := O)) = _
    rw [decide_eq_false (not_not_intro rfl)]
    rfl
  have hrun : Relation.ReflTransGen (AppendStep fmt) s
      ⟨{ (files (.write (fmt.record cycle)) s.shared).2 with invalidMarker := false }, s.committed ++ [cycle], none,
        s.started + 1⟩ := by
    refine .head (.start hfree hcycle.encode hcycle.2) ?_
    refine .head (.of_call .markerExists rfl hcheck) ?_
    refine .head (.of_call .createMarker rfl rfl) ?_
    refine .head (.of_call (.write (fmt.record cycle)) rfl hwritten) ?_
    refine .head (.of_call .removeMarker rfl rfl) ?_
    refine .head (.of_call .fsyncDirectory rfl rfl) ?_
    exact .single (.return rfl)
  exact ⟨_, hrun, rfl, rfl⟩

/-! ## Growth -/

/-- An append was under way at some time between two states. -/
def UnderWay (s t : Log O) : Prop := s.append.isSome ∨ s.started < t.started

/-- What appends leave as it is. -/
structure Later (fmt : LogFormat O) (s t : Log O) : Prop where
  logged : Logged fmt t
  committed : s.committed <+: t.committed
  bytes : s.shared.bytes <+: t.shared.bytes
  started : s.started ≤ t.started
  append : t.append.isSome → UnderWay s t

lemma Later.refl (h : Logged fmt s) : Later fmt s s := ⟨h, List.prefix_rfl, List.prefix_rfl, le_rfl, .inl⟩

lemma Later.underWay (h : Later fmt s t) (h' : Later fmt t u) (hunder : UnderWay t u) : UnderWay s u := by
  rcases hunder with happend | hstarted
  · exact (h.append happend).imp id fun hlt => lt_of_lt_of_le hlt h'.started
  · exact .inr (lt_of_le_of_lt h.started hstarted)

lemma Later.trans (h : Later fmt s t) (h' : Later fmt t u) : Later fmt s u where
  logged := h'.logged
  committed := h.committed.trans h'.committed
  bytes := h.bytes.trans h'.bytes
  started := h.started.trans h'.started
  append happend := h.underWay h' (h'.append happend)

lemma AppendStep.later (h : AppendStep fmt s t) (hs : Logged fmt s) : Later fmt s t := by
  obtain ⟨hlogged, hcommitted, hbytes⟩ := h.logged hs
  cases h with
  | start => exact ⟨hlogged, hcommitted, hbytes, Nat.le_succ _, fun _ => .inr (Nat.lt_succ_self _)⟩
  | call happend => exact ⟨hlogged, hcommitted, hbytes, le_rfl, fun _ => .inl (by rw [happend]; rfl)⟩
  | piece happend => exact ⟨hlogged, hcommitted, hbytes, le_rfl, fun _ => .inl (by rw [happend]; rfl)⟩
  | «return» happend => exact ⟨hlogged, hcommitted, hbytes, le_rfl, fun _ => .inl (by rw [happend]; rfl)⟩

/-- What the log shows: whole records, which begin with the committed ones, and a part of a line. -/
structure Shown (fmt : LogFormat O) (s : Log O) (visible : List (ObservationCycle O)) (torn : List UInt8) : Prop where
  bytes : s.shared.bytes = fmt.records visible ++ torn
  fits : ∀ cycle ∈ visible, fmt.Fits cycle
  committed : s.committed <+: visible
  noLine : newline ∉ torn
  size : torn.length ≤ maxRecordBytes
  settled : s.append = none → visible = s.committed ∧ torn = []

theorem Logged.exists_shown (hfmt : fmt.Lawful) (h : Logged fmt s) : ∃ visible torn, Shown fmt s visible torn := by
  rcases h with ⟨hfits, hfree, -, hbytes⟩ | @⟨cycle, program, written, hfits, happend, hcycle, hstage, hbytes⟩
  · refine ⟨s.committed, [], hbytes.trans (List.append_nil _).symm, hfits, List.prefix_rfl, List.not_mem_nil,
      Nat.zero_le _, fun _ => ⟨rfl, rfl⟩⟩
  · have hbusy : s.append ≠ none := happend ▸ Option.some_ne_none _
    obtain ⟨line, hline, hnewline⟩ := hcycle.line hfmt
    obtain ⟨rest, hrest⟩ := hstage.written_isPrefix
    have hsize := hcycle.2
    rcases List.eq_nil_or_concat rest with rfl | ⟨rest, last, rfl⟩
    · -- The whole record is in the file.
      rw [List.append_nil] at hrest
      refine ⟨s.committed ++ [cycle], [], ?_, ?_, List.prefix_append _ _, List.not_mem_nil, Nat.zero_le _,
        fun hfree => absurd hfree hbusy⟩
      · rw [hbytes, hrest, LogFormat.records_append, LogFormat.records_singleton, List.append_nil]
      · rw [List.forall_mem_append, List.forall_mem_singleton]
        exact ⟨hfits, hcycle⟩
    · -- Its newline is missing.
      rw [List.concat_eq_append, ← List.append_assoc, hline] at hrest
      have hwritten := (List.append_inj' hrest rfl).1
      refine ⟨s.committed, written, hbytes, hfits, List.prefix_rfl, fun hmem => hnewline ?_, ?_,
        fun hfree => absurd hfree hbusy⟩
      · rw [← hwritten]
        exact List.mem_append_left _ hmem
      · rw [hline, ← hwritten, List.length_append, List.length_append] at hsize
        omega

/-! ## Positions -/

/-- Cycles that were read from the start of the log. -/
structure Placed (fmt : LogFormat O) (cycles : List (ObservationCycle O)) (s : Log O) : Prop where
  fits : ∀ cycle ∈ cycles, fmt.Fits cycle
  readable : ∀ cycle ∈ cycles, fmt.Readable cycle
  bytes : fmt.records cycles <+: s.shared.bytes

lemma Placed.later {cycles : List (ObservationCycle O)} (h : Placed fmt cycles s) (hlater : Later fmt s t) :
    Placed fmt cycles t := ⟨h.fits, h.readable, h.bytes.trans hlater.bytes⟩

/-- A line ends at its first newline. -/
lemma line_unique {line line' more more' : List UInt8} (h : newline ∉ line) (h' : newline ∉ line')
    (hlines : line ++ [newline] ++ more <+: line' ++ [newline] ++ more') : line = line' ∧ more <+: more' := by
  induction line generalizing line' with
  | nil =>
      cases line' with
      | nil => exact ⟨rfl, (List.cons_prefix_cons.mp hlines).2⟩
      | cons byte line' => exact absurd (List.mem_cons.mpr (.inl (List.cons_prefix_cons.mp hlines).1)) h'
  | cons byte line ih =>
      cases line' with
      | nil => exact absurd (List.mem_cons.mpr (.inl (List.cons_prefix_cons.mp hlines).1.symm)) h
      | cons byte' line' =>
          obtain ⟨rfl, htail⟩ := List.cons_prefix_cons.mp hlines
          obtain ⟨rfl, hmore⟩ := ih (fun hmem => h (List.mem_cons_of_mem _ hmem))
            (fun hmem => h' (List.mem_cons_of_mem _ hmem)) htail
          exact ⟨rfl, hmore⟩

/-- **Cycles that were read are the first ones of those whose records are there.** -/
theorem prefix_of_records (hfmt : fmt.Lawful) {cycles visible : List (ObservationCycle O)} {torn : List UInt8}
    (hfits : ∀ cycle ∈ cycles, fmt.Fits cycle) (hreadable : ∀ cycle ∈ cycles, fmt.Readable cycle)
    (hvisible : ∀ cycle ∈ visible, fmt.Fits cycle) (hnoLine : newline ∉ torn)
    (h : fmt.records cycles <+: fmt.records visible ++ torn) : cycles <+: visible := by
  induction cycles generalizing visible with
  | nil => exact List.nil_prefix
  | cons cycle cycles ih =>
      obtain ⟨line, hline, hnewline⟩ := (hfits cycle List.mem_cons_self).line hfmt
      rw [LogFormat.records_cons] at h
      cases visible with
      | nil =>
          have hmem : newline ∈ fmt.record cycle ++ fmt.records cycles := by rw [hline]; simp
          exact absurd (h.subset hmem) hnoLine
      | cons cycle' visible =>
          have hcycle' := hvisible cycle' List.mem_cons_self
          obtain ⟨line', hline', hnewline'⟩ := hcycle'.line hfmt
          rw [LogFormat.records_cons, List.append_assoc, hline, hline'] at h
          obtain ⟨rfl, hrest⟩ := line_unique hnewline hnewline' h
          -- Equal records are of one cycle, because this one was read.
          have hdecode := hreadable cycle List.mem_cons_self
          rw [LogFormat.Readable, hline, ← hline'] at hdecode
          obtain rfl := hfmt.decode hcycle'.encode hdecode
          refine List.cons_prefix_cons.mpr ⟨rfl, ih (fun c hc => hfits c (List.mem_cons_of_mem _ hc))
            (fun c hc => hreadable c (List.mem_cons_of_mem _ hc)) (fun c hc => hvisible c (List.mem_cons_of_mem _ hc)) hrest⟩

end MuStrategy.Notifications.ObservationFile
