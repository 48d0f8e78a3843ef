import MuStrategy.Notifications.AlertSystem
import MuStrategy.Notifications.ObservationFile

/-!
# Collections consume the log exactly once

Whatever collections and appends run at the same time, fail and crash: the consumed cycles are those of the records in
front of the persisted cursor, and the database changes only when a collection returns.

* `Records.unique`, `Records.append` — the records between two cursors are a function of the bytes, and stay.
* `unconsumed`, `consume_unconsumed` — a batch acts as the records in it that are new.
* `Collected` — what a collection commits; `Collected.collects` — it is a collection of the abstract log.
* `Consumed` — the invariant; `collection_exactly_once` — the result.
-/

namespace MuStrategy.Notifications.ObservationFile

open Lib Prog

variable {O : Type}

/-! ## Lines -/

lemma newline_notMem_of_readLine {size : ℕ} {bytes line : List UInt8} (h : readLine size bytes = line ++ [newline]) :
    newline ∉ line := by
  induction bytes generalizing size line with
  | nil => cases size <;> simp [readLine] at h
  | cons byte rest ih =>
      cases size with
      | zero => simp [readLine] at h
      | succ size =>
          cases line with
          | nil => exact List.not_mem_nil
          | cons first line =>
              rw [readLine, List.cons_append, List.cons.injEq] at h
              obtain ⟨rfl, h⟩ := h
              split at h
              · simp at h
              · rename_i hbyte
                rw [List.mem_cons, not_or]
                exact ⟨Ne.symm hbyte, ih h⟩

variable {bytes : List UInt8} {position : ℕ} {raw raw' : List UInt8}

/-- A line that was read is complete when it ends with a newline. -/
lemma isLine_of_readLine (h : readLine (maxRecordBytes + 1) (bytes.drop position) = raw)
    (hlast : raw.getLast? = some newline) (hsize : raw.length ≤ maxRecordBytes) : IsLine bytes position raw := by
  obtain ⟨line, rfl⟩ := List.getLast?_eq_some_iff.mp hlast
  obtain ⟨after, hafter⟩ := readLine_append (maxRecordBytes + 1) (bytes.drop position)
  rw [h] at hafter
  refine ⟨⟨bytes.take position, after, ?_, ?_⟩, ⟨line, rfl, newline_notMem_of_readLine h⟩, hsize⟩
  · rw [List.append_assoc, ← hafter, List.take_append_drop]
  · have hlength := congrArg List.length hafter
    simp only [List.length_drop, List.length_append, List.length_singleton] at hlength
    rw [List.length_take]
    omega

lemma IsLine.append (h : IsLine bytes position raw) (more : List UInt8) : IsLine (bytes ++ more) position raw := by
  obtain ⟨⟨before, after, rfl, hbefore⟩, hterminated, hsize⟩ := h
  exact ⟨⟨before, after ++ more, List.append_assoc _ _ _, hbefore⟩, hterminated, hsize⟩

lemma IsLine.pos (h : IsLine bytes position raw) : 0 < raw.length := by
  obtain ⟨line, rfl, -⟩ := h.terminated
  simp

/-- There is one line at a position. -/
lemma IsLine.unique (h : IsLine bytes position raw) (h' : IsLine bytes position raw') : raw = raw' := by
  obtain ⟨⟨before, after, hbytes, hbefore⟩, ⟨line, rfl, hline⟩, -⟩ := h
  obtain ⟨⟨before', after', hbytes', hbefore'⟩, ⟨line', rfl, hline'⟩, -⟩ := h'
  rw [hbytes] at hbytes'
  simp only [List.append_assoc, List.singleton_append] at hbytes'
  obtain ⟨-, hrest⟩ := List.append_inj hbytes' (hbefore.trans hbefore'.symm)
  have htake := congrArg (List.takeWhile fun byte => decide (byte ≠ newline)) hrest
  have htakeWhile : ∀ (xs ys : List UInt8), newline ∉ xs →
      (xs ++ newline :: ys).takeWhile (fun byte => decide (byte ≠ newline)) = xs := by
    intro xs ys hxs
    rw [List.takeWhile_append_of_pos]
    · simp
    · intro byte hbyte
      exact decide_eq_true fun heq => hxs (heq ▸ hbyte)
  rw [htakeWhile _ _ hline, htakeWhile _ _ hline'] at htake
  rw [htake]

/-! ## Records -/

section records

variable {fmt : RecordFormat O} {cursor next last : LogCursor} {cycles cycles' : List (ObservationCycle O)}

lemma Records.append (h : Records fmt bytes cursor cycles next) (more : List UInt8) :
    Records fmt (bytes ++ more) cursor cycles next := by
  induction h with
  | nil => exact .nil _
  | cons hline hdecode _ ih => exact .cons (hline.append more) hdecode ih

lemma Records.trans (h : Records fmt bytes cursor cycles next) (h' : Records fmt bytes next cycles' last) :
    Records fmt bytes cursor (cycles ++ cycles') last := by
  induction h with
  | nil => exact h'
  | cons hline hdecode _ ih => exact .cons hline hdecode (ih h')

lemma Records.offset_le (h : Records fmt bytes cursor cycles next) : cursor.offset + cycles.length ≤ next.offset := by
  induction h with
  | nil => simp
  | cons hline _ _ ih =>
      have hpos := hline.pos
      simp only [LogCursor.advance] at ih
      rw [List.length_cons]
      omega

/-- The records between two cursors are a function of the bytes. -/
lemma Records.unique (h : Records fmt bytes cursor cycles next) (h' : Records fmt bytes cursor cycles' next) :
    cycles = cycles' := by
  induction h generalizing cycles' with
  | nil cursor =>
      cases cycles' with
      | nil => rfl
      | cons cycle cycles =>
          have hle := h'.offset_le
          rw [List.length_cons] at hle
          omega
  | @cons cursor next raw cycle cycles hline hdecode hrest ih =>
      cases h' with
      | nil =>
          have hpos := hline.pos
          have hle := hrest.offset_le
          simp only [LogCursor.advance] at hle
          omega
      | cons hline' hdecode' hrest' =>
          obtain rfl := hline.unique hline'
          rw [hdecode, Option.some.injEq] at hdecode'
          rw [hdecode', ih hrest']

end records

/-! ## Batches -/

section batches

variable [DecidableEq O] [Sha256] [StageObservation O] {alerts : EmailAlerts} {c : Collection O}
  {store store' : AlertStore O} {cycles : List (ObservationCycle O)}

omit [DecidableEq O] [Sha256] [StageObservation O] in
/-- The records whose cycle id was not seen before, in the order of the log. -/
def unconsumed : List String → List (ObservationCycle O) → List (ObservationCycle O)
  | _, [] => []
  | seen, cycle :: cycles =>
      if cycle.cycleId ∈ seen then unconsumed seen cycles else cycle :: unconsumed (seen ++ [cycle.cycleId]) cycles

/-- **A batch acts as its new records.** -/
theorem consume_unconsumed (h : cycles.foldlM (AlertStore.consumeCycle alerts c) store = .ok store') :
    (unconsumed (store.consumedCycles.map Prod.fst) cycles).foldlM (AlertStore.applyCycle alerts c) store = .ok store' := by
  induction cycles generalizing store with
  | nil => exact h
  | cons cycle cycles ih =>
      rw [List.foldlM_cons, bind_eq_ok] at h
      obtain ⟨mid, hmid, hcycles⟩ := h
      rcases AlertStore.consumeCycle_cases hmid with ⟨hmem, rfl⟩ | ⟨hnew, happly⟩
      · rw [unconsumed, if_pos (List.mem_map_of_mem hmem)]
        exact ih hcycles
      · rw [unconsumed, if_neg hnew, List.foldlM_cons, happly]
        have hrest := ih hcycles
        rw [(AlertStore.consumedCycles_applyCycle happly).1, List.map_append] at hrest
        exact hrest

/-- What a batch adds to the consumed cycles: its ids with the digests of their records. -/
lemma consumedCycles_batch (hkeys : Table.UniqueKeys Prod.fst store.consumedCycles)
    (h : cycles.foldlM (AlertStore.consumeCycle alerts c) store = .ok store') :
    Table.UniqueKeys Prod.fst store'.consumedCycles ∧ store'.observationCursor = store.observationCursor ∧
      ∀ entry, entry ∈ store'.consumedCycles ↔
        entry ∈ store.consumedCycles ∨ ∃ cycle ∈ cycles, entry = (cycle.cycleId, cycle.digest) := by
  induction cycles generalizing store with
  | nil =>
      obtain rfl := pure_eq_ok_iff.mp h
      exact ⟨hkeys, rfl, fun entry => by simp⟩
  | cons cycle cycles ih =>
      rw [List.foldlM_cons, bind_eq_ok] at h
      obtain ⟨mid, hmid, hcycles⟩ := h
      rcases AlertStore.consumeCycle_cases hmid with ⟨hmem, rfl⟩ | ⟨hnew, happly⟩
      · obtain ⟨hkeys', hcursor, hentries⟩ := ih hkeys hcycles
        refine ⟨hkeys', hcursor, fun entry => ?_⟩
        rw [hentries, List.exists_mem_cons_iff]
        constructor
        · rintro (hentry | hentry)
          · exact .inl hentry
          · exact .inr (.inr hentry)
        · rintro (hentry | rfl | hentry)
          · exact .inl hentry
          · exact .inl hmem
          · exact .inr hentry
      · obtain ⟨hconsumed, hcursor⟩ := AlertStore.consumedCycles_applyCycle happly
        have hfresh : ∀ entry ∈ store.consumedCycles, entry.1 ≠ cycle.cycleId :=
          fun entry hentry hid => hnew (hid ▸ List.mem_map_of_mem hentry)
        have hkeys' : Table.UniqueKeys Prod.fst mid.consumedCycles := by
          rw [hconsumed]
          exact Table.UniqueKeys.append hkeys hfresh
        obtain ⟨hkeys'', hcursor', hentries⟩ := ih hkeys' hcycles
        refine ⟨hkeys'', hcursor'.trans hcursor, fun entry => ?_⟩
        rw [hentries, hconsumed, List.exists_mem_cons_iff, List.mem_append, List.mem_singleton, or_assoc]

end batches

/-! ## What a collection commits -/

section collections

variable [DecidableEq O] [Sha256] [StageObservation O] (fmt : RecordFormat O) (alerts : EmailAlerts)

/-- A committed collection: it consumed the next records, at most a thousand, acted as those of them that are new, and
moved the cursor behind them. -/
inductive Collected (bytes : List UInt8) (db db' : LogStore O) : Prop where
  | intro {c : Collection O} {cycles : List (ObservationCycle O)}
      (hrecords : Records fmt bytes db.cursor cycles db'.cursor) (hlimit : cycles.length ≤ 1000)
      (hbatch : db.tables.collectBatch alerts c cycles = .ok db'.tables)
      (hnew : (do
        let consumed ← (unconsumed (db.tables.consumedCycles.map Prod.fst) cycles).foldlM
          (AlertStore.applyCycle alerts c) db.tables
        AlertStore.afterRecords alerts c
          { consumed with observationCursor := db.tables.observationCursor + cycles.length }) = .ok db'.tables)

variable {fmt alerts} {bytes : List UInt8} {db db' : LogStore O}

/-- The statements of a collection that read these records. -/
lemma collected_of_consumeBatch {c : Collection O} {cycles : List (ObservationCycle O)} {next : LogCursor}
    (hrecords : Records fmt bytes db.cursor cycles next) (hlimit : cycles.length ≤ 1000)
    (h : consumeBatch alerts c cycles next db = .ok db') : Collected fmt alerts bytes db db' := by
  simp only [consumeBatch, bind_eq_ok, pure_eq_ok_iff] at h
  obtain ⟨tables, htables, rfl⟩ := h
  refine .intro hrecords hlimit htables ?_
  obtain ⟨consumed, hconsumed, hafter⟩ := bind_eq_ok.mp htables
  exact bind_eq_ok.mpr ⟨consumed, consume_unconsumed hconsumed, hafter⟩

lemma Collected.append (h : Collected fmt alerts bytes db db') (more : List UInt8) :
    Collected fmt alerts (bytes ++ more) db db' := by
  obtain ⟨hrecords, hlimit, hbatch, hnew⟩ := h
  exact .intro (hrecords.append more) hlimit hbatch hnew

/-! ## The invariant -/

/-- The consumed cycles are the ids of these records, each with the digest of its content. -/
structure ConsumedRecords (tables : AlertStore O) (records : List (ObservationCycle O)) : Prop where
  keys : Table.UniqueKeys Prod.fst tables.consumedCycles
  entries : ∀ entry, entry ∈ tables.consumedCycles ↔ ∃ record ∈ records, entry = (record.cycleId, record.digest)
  count : tables.observationCursor = records.length

omit [DecidableEq O] in
/-- Records with the same cycle id have the same digest. -/
lemma ConsumedRecords.digest_eq {tables : AlertStore O} {records : List (ObservationCycle O)}
    (h : ConsumedRecords tables records) {record record' : ObservationCycle O} (hrecord : record ∈ records)
    (hrecord' : record' ∈ records) (hid : record.cycleId = record'.cycleId) : record.digest = record'.digest := by
  have hentry := (h.entries _).mpr ⟨record, hrecord, rfl⟩
  have hentry' := (h.entries _).mpr ⟨record', hrecord', rfl⟩
  exact congrArg Prod.snd (h.keys.eq_of_key hentry hentry' hid)

lemma ConsumedRecords.batch {c : Collection O} {tables tables' : AlertStore O} {records cycles : List (ObservationCycle O)}
    (h : ConsumedRecords tables records) (hbatch : tables.collectBatch alerts c cycles = .ok tables') :
    ConsumedRecords tables' (records ++ cycles) := by
  obtain ⟨consumed, hconsumed, hafter⟩ := bind_eq_ok.mp hbatch
  obtain ⟨hkeys, hcursor, hentries⟩ := consumedCycles_batch h.keys hconsumed
  have hkeeps := AlertStore.keepsRecords_afterRecords hafter
  refine ⟨?_, fun entry => ?_, ?_⟩
  · rw [hkeeps.consumedCycles]
    exact hkeys
  · rw [hkeeps.consumedCycles, hentries, h.entries]
    simp only [List.mem_append, or_and_right, exists_or]
  · rw [hkeeps.observationCursor, List.length_append, ← h.count]

variable (fmt) in
/-- The records in front of the persisted cursor, and what the tables say of them. -/
def Consumed (s : Shared O) : Prop :=
  ∃ records, Records fmt s.bytes {} records s.db.cursor ∧ ConsumedRecords s.db.tables records

/-- **A committed collection is a collection of the abstract log** that has the records in front of its cursor. -/
theorem Collected.collects {records : List (ObservationCycle O)} (h : Collected fmt alerts bytes db db')
    (hrecords : Records fmt bytes {} records db.cursor) (hconsumed : ConsumedRecords db.tables records) :
    ∃ (cycles : List (ObservationCycle O)) (c : Collection O), Records fmt bytes {} (records ++ cycles) db'.cursor ∧
      db.tables.collect alerts ⟨records ++ cycles, false⟩ (some (c.state, c.alive)) c.nowMs = .ok db'.tables := by
  obtain ⟨hnext, hlimit, hbatch, -⟩ := h
  rename_i c cycles
  refine ⟨cycles, c, hrecords.trans hnext, ?_⟩
  have hread : ObservationLog.readBatch ⟨records ++ cycles, false⟩ db.tables.observationCursor 1000 = .ok cycles := by
    have hle : records.length ≤ (records ++ cycles).length := by simp
    simp only [ObservationLog.readBatch, hconsumed.count, decide_eq_true hle, Bool.not_false, require_true, ok_bind,
      List.drop_left, List.take_of_length_le hlimit]
    rfl
  rw [AlertStore.collect_eq, hread]
  exact hbatch

/-! ## Guarantees -/

variable (fmt alerts) in
/-- What a process may do: bytes are added to the log, the database changes when it commits a collection, and no other
process is given a transaction. -/
structure Guarantee (i : ℕ) (s t : Shared O) : Prop where
  log : ∃ more, t.bytes = s.bytes ++ more
  db : t.commits = s.commits ∧ t.db = s.db ∨
    t.commits = s.commits + 1 ∧ t.working = none ∧ Collected fmt alerts s.bytes s.db t.db
  working : ∀ j store, j ≠ i → t.working = some (j, store) → s.working = some (j, store)

variable {s t : Shared O} {i : ℕ}

lemma consumed_persistent : Persistent (Guarantee fmt alerts) (Consumed fmt) := by
  rintro i s t ⟨records, hrecords, hconsumed⟩ ⟨⟨more, hmore⟩, hdb, -⟩
  unfold Consumed
  rw [hmore]
  rcases hdb with ⟨-, hdb⟩ | ⟨-, -, hnext, -, hbatch, -⟩
  · rw [hdb]
    exact ⟨records, hrecords.append more, hconsumed⟩
  · exact ⟨_, (hrecords.trans hnext).append more, hconsumed.batch hbatch⟩

/-- Every call but a commit keeps the guarantee. -/
lemma guarantee_of_act {op : Op O} {reply : op.Reply} (hop : op ≠ .commit) (h : Act i op s reply t) :
    Guarantee fmt alerts i s t := by
  have hnone : s.bytes = s.bytes ++ [] := (List.append_nil _).symm
  cases h with
  | commit => exact absurd rfl hop
  | write count reply => exact ⟨⟨_, rfl⟩, .inl ⟨rfl, rfl⟩, fun _ _ _ => id⟩
  | beginImmediate => exact ⟨⟨[], hnone⟩, .inl ⟨rfl, rfl⟩, fun j store hj h => absurd (congrArg Prod.fst (Option.some.inj h)).symm hj⟩
  | update => exact ⟨⟨[], hnone⟩, .inl ⟨rfl, rfl⟩, fun j store hj h => absurd (congrArg Prod.fst (Option.some.inj h)).symm hj⟩
  | updateRaised =>
      exact ⟨⟨[], hnone⟩, .inl ⟨rfl, rfl⟩, fun j store hj h => absurd (congrArg Prod.fst (Option.some.inj h)).symm hj⟩
  | giveUp => exact ⟨⟨[], hnone⟩, .inl ⟨rfl, rfl⟩, fun _ _ _ h => by cases h⟩
  | rollback => exact ⟨⟨[], hnone⟩, .inl ⟨rfl, rfl⟩, fun _ _ _ h => by cases h⟩
  | _ => exact ⟨⟨[], hnone⟩, .inl ⟨rfl, rfl⟩, fun _ _ _ => id⟩

/-! ## What an open transaction holds -/

/-- If the process still has its transaction, the tables it has written satisfy `K`. -/
def Held (i : ℕ) (K : List UInt8 → LogStore O → LogStore O → Prop) (s : Shared O) : Prop :=
  ∀ store, s.working = some (i, store) → K s.bytes s.db store

variable {K : List UInt8 → LogStore O → LogStore O → Prop}

lemma held_stable (hK : ∀ bytes more db store, K bytes db store → K (bytes ++ more) db store) :
    Stable (Guarantee fmt alerts) i (Held i K) := by
  rintro j hj s t hs ⟨⟨more, hmore⟩, hdb, hworking⟩ store hstore
  rcases hdb with ⟨-, hdb⟩ | ⟨-, hnone, -⟩
  · rw [hmore, hdb]
    exact hK _ _ _ _ (hs store (hworking i store (Ne.symm hj) hstore))
  · rw [hnone] at hstore
    cases hstore

/-- The calls that only read. -/
def Op.IsRead : Op O → Prop
  | .markerExists | .openLog | .readLine _ | .snapshot | .now | .validate | .readCursor => True
  | _ => False

omit [DecidableEq O] [Sha256] [StageObservation O] in
/-- They leave everything alone; the database may give the transaction up. -/
lemma Op.IsRead.act {op : Op O} {reply : op.Reply} (hop : op.IsRead) (h : Act i op s reply t) :
    t = s ∨ t = { s with working := none } := by
  cases h with
  | giveUp => exact .inr rfl
  | fault => exact .inl rfl
  | markerExists => exact .inl rfl
  | openLog => exact .inl rfl
  | readLine => exact .inl rfl
  | snapshot => exact .inl rfl
  | now => exact .inl rfl
  | validate => exact .inl rfl
  | readCursor => exact .inl rfl
  | _ => exact hop.elim

omit [DecidableEq O] [Sha256] [StageObservation O] in
lemma held_of_read {op : Op O} {reply : op.Reply} (hop : op.IsRead) (hs : Held i K s) (h : Act i op s reply t) :
    Held i K t := by
  rcases hop.act h with rfl | rfl
  · exact hs
  · rintro store ⟨⟩

omit [DecidableEq O] [Sha256] [StageObservation O] in
lemma Op.IsRead.ne_commit {op : Op O} (hop : op.IsRead) : op ≠ .commit := by
  rintro rfl
  exact hop

/-! ## Programs -/

variable (fmt alerts) in
/-- Among collections and appends: if the program starts with `P` and returns a value, this satisfies `Φ`. -/
abbrev Ensured {α : Type} (i : ℕ) (P : Shared O → Prop) (p : Action O α) (Φ : α → Shared O → Prop) : Prop :=
  Ensures Act (Guarantee fmt alerts) (Consumed fmt) i P p Φ

lemma ensured_call {op : Op O} {P : Shared O → Prop} {Φ : op.Value → Shared O → Prop} (hop : op ≠ .commit)
    (hP : Stable (Guarantee fmt alerts) i P) (hΦ : ∀ value, Stable (Guarantee fmt alerts) i (Φ value))
    (h : ∀ s value t, P s → Act i op s (.ok value) t → Φ value t) : Ensured fmt alerts i P (call op) Φ := by
  intro s hR hs
  refine safe_call hP hs fun t reply u ht hact => ⟨guarantee_of_act hop hact, ?_⟩
  rintro v hv value rfl
  exact (hΦ value).others (h t value u ht hact) hv

lemma ensured_check {α : Type} {P : Shared O → Prop} {x : Except AlertError α} {Φ : α → Shared O → Prop}
    (hΦ : ∀ a, Stable (Guarantee fmt alerts) i (Φ a)) (h : ∀ s a, P s → x = .ok a → Φ a s) :
    Ensured fmt alerts i P (check x) Φ := by
  rintro s - hs t ht a ha
  exact (hΦ a).others (h s a hs (raiseAs_eq_ok.mp ha)) ht

/-! ### Reading -/

/-- Bytes that were read as the line at a position, when the log had fewer bytes. -/
def LineRead (position : ℕ) (raw : List UInt8) (s : Shared O) : Prop :=
  ∃ bytes more, s.bytes = bytes ++ more ∧ readLine (maxRecordBytes + 1) (bytes.drop position) = raw

lemma lineRead_persistent (position : ℕ) (raw : List UInt8) :
    Persistent (Guarantee fmt alerts) (LineRead (O := O) position raw) := by
  rintro i s t ⟨bytes, more, hs, hread⟩ ⟨⟨more', hmore⟩, -, -⟩
  exact ⟨bytes, more ++ more', by rw [hmore, hs, List.append_assoc], hread⟩

lemma ensured_readLine (position : ℕ) :
    Ensured fmt alerts i (fun _ => True) (call (.readLine position)) (LineRead position) := by
  refine ensured_call (by simp) .true (fun raw => (lineRead_persistent position raw).stable) ?_
  rintro s raw t - hact
  cases hact
  exact ⟨s.bytes, [], (List.append_nil _).symm, rfl⟩

omit [DecidableEq O] [Sha256] [StageObservation O] in
/-- A line that is a record is a complete one. -/
lemma LineRead.isLine {position : ℕ} {raw : List UInt8} {cycle : ObservationCycle O} (h : LineRead position raw s)
    (hparse : fmt.parse raw = .ok (some cycle)) : IsLine s.bytes position raw ∧ fmt.decode raw = some cycle := by
  obtain ⟨bytes, more, hbytes, hread⟩ := h
  unfold RecordFormat.parse at hparse
  split at hparse
  · cases pure_eq_ok_iff.mp hparse
  · simp only [bind_eq_ok, require_eq_ok, exists_const, Bool.and_eq_true, decide_eq_true_eq] at hparse
    obtain ⟨⟨hsize, hlast⟩, hdecode⟩ := hparse
    rw [hbytes]
    refine ⟨(isLine_of_readLine hread hlast hsize).append more, ?_⟩
    cases hcycle : fmt.decode raw with
    | none =>
        rw [hcycle] at hdecode
        cases hdecode
    | some read =>
        rw [hcycle, orThrow_some, map_ok, Except.ok.injEq] at hdecode
        exact hdecode

/-- The records from a cursor on were read, at most `limit` of them. -/
def BatchRead (fmt : RecordFormat O) (cursor : LogCursor) (limit : ℕ) (batch : List (ObservationCycle O) × LogCursor)
    (s : Shared O) : Prop :=
  Records fmt s.bytes cursor batch.1 batch.2 ∧ batch.1.length ≤ limit

lemma batchRead_persistent (cursor : LogCursor) (limit : ℕ) (batch : List (ObservationCycle O) × LogCursor) :
    Persistent (Guarantee fmt alerts) (BatchRead fmt cursor limit batch) := by
  rintro i s t ⟨hrecords, hlimit⟩ ⟨⟨more, hmore⟩, -, -⟩
  exact ⟨hmore ▸ hrecords.append more, hlimit⟩

lemma ensured_readRecords (limit : ℕ) (cursor : LogCursor) :
    Ensured fmt alerts i (fun _ => True) (readRecords fmt limit cursor) (BatchRead fmt cursor limit) := by
  induction limit generalizing cursor with
  | zero => exact ensures_pure (batchRead_persistent _ _ _).stable fun s _ => ⟨.nil cursor, le_rfl⟩
  | succ limit ih =>
      refine Ensures.bind consumed_persistent (ensured_readLine cursor.offset) fun raw => ?_
      cases hparse : fmt.parse raw with
      | error error => exact ensures_raise
      | ok record =>
          cases record with
          | none => exact ensures_pure (batchRead_persistent _ _ _).stable fun s _ => ⟨.nil cursor, Nat.zero_le _⟩
          | some cycle =>
              have hrest := (ih (cursor.advance fmt raw)).frame (lineRead_persistent cursor.offset raw)
              refine Ensures.bind consumed_persistent (hrest.mono (fun s hs => ⟨trivial, hs⟩) fun _ _ => id) fun batch => ?_
              refine ensures_pure (batchRead_persistent _ _ _).stable ?_
              rintro s ⟨⟨hrecords, hlimit⟩, hline⟩
              obtain ⟨hisLine, hdecode⟩ := hline.isLine hparse
              exact ⟨.cons hisLine hdecode hrecords, Nat.succ_le_succ hlimit⟩

/-- A program without a commit: nothing is known of its result. -/
lemma ensured_calls {α : Type} {p : Action O α} (hp : p.Calls (· ≠ .commit)) :
    Ensured fmt alerts i (fun _ => True) p fun _ _ => True := by
  intro s _ _
  have hsafe : Safe Act (Guarantee fmt alerts) i (fun _ _ => True) p s :=
    Safe.of_calls (fun op hop _ _ _ hact => guarantee_of_act hop hact) hp s
  exact hsafe.mono fun _ _ _ _ _ => trivial

lemma ensured_reads {α : Type} {p : Action O α} (hp : p.Calls Op.IsRead) :
    Ensured fmt alerts i (fun _ => True) p fun _ _ => True := ensured_calls (hp.mono fun _ => Op.IsRead.ne_commit)

omit [DecidableEq O] [Sha256] [StageObservation O] in
lemma calls_call {op : Op O} (hop : op.IsRead) : (call op).Calls Op.IsRead := ⟨hop, fun _ => trivial⟩

omit [DecidableEq O] [Sha256] [StageObservation O] in
lemma calls_rejectInvalidMarker : (rejectInvalidMarker (O := O)).Calls Op.IsRead := .bind (calls_call trivial) fun _ => trivial

omit [DecidableEq O] [Sha256] [StageObservation O] in
lemma calls_readAnchor (cursor : LogCursor) : (readAnchor fmt cursor).Calls Op.IsRead := by
  unfold readAnchor
  split
  · trivial
  · exact .bind (calls_call trivial) fun _ => trivial

omit [DecidableEq O] [Sha256] [StageObservation O] in
lemma calls_readRecords (limit : ℕ) (cursor : LogCursor) : (readRecords fmt limit cursor).Calls Op.IsRead := by
  induction limit generalizing cursor with
  | zero => trivial
  | succ limit ih =>
      refine .bind (calls_call trivial) fun raw => ?_
      cases fmt.parse raw with
      | error error => trivial
      | ok record =>
          cases record with
          | none => trivial
          | some cycle => exact .bind (ih _) fun _ => trivial

omit [DecidableEq O] [Sha256] [StageObservation O] in
lemma calls_readBatch (cursor : LogCursor) (limit : ℕ) : (readBatch fmt cursor limit).Calls Op.IsRead := by
  refine .bind trivial fun _ => .handle ?_ fun _ => trivial
  refine .bind calls_rejectInvalidMarker fun _ => .bind (calls_call trivial) fun found => ?_
  split
  · refine .bind (.bind (calls_readAnchor cursor) fun _ => calls_readRecords limit cursor) fun _ => ?_
    exact .bind calls_rejectInvalidMarker fun _ => trivial
  · exact .bind calls_rejectInvalidMarker fun _ => .bind trivial fun _ => trivial

/-- **A read returns the records after the cursor**, of the log as it is when it returns. -/
theorem ensured_readBatch (cursor : LogCursor) (limit : ℕ) :
    Ensured fmt alerts i (fun _ => True) (readBatch fmt cursor limit)
      fun batch s => BatchRead fmt cursor limit batch s ∧ 1 ≤ limit ∧ limit ≤ 1000 := by
  have hlimits : Persistent (Guarantee fmt alerts) fun _ : Shared O => 1 ≤ limit ∧ limit ≤ 1000 := fun _ _ _ h _ => h
  have hchecked : Ensured fmt alerts i (fun _ => True)
      (check (require (cursor.isValid limit) (.corruption "invalid observation cursor")))
      fun _ _ => 1 ≤ limit ∧ limit ≤ 1000 := by
    refine ensured_check (fun _ => hlimits.stable) fun s _ _ h => ?_
    simp only [require_eq_ok, LogCursor.isValid, Bool.and_eq_true, decide_eq_true_eq] at h
    exact h.1.1.1
  have hmarker : Ensured fmt alerts i (fun _ => True) rejectInvalidMarker fun _ _ => True :=
    ensured_reads calls_rejectInvalidMarker
  have hopened : Ensured fmt alerts i (fun _ => True) (readOpened fmt cursor limit) (BatchRead fmt cursor limit) :=
    Ensures.bind consumed_persistent (ensured_reads (calls_readAnchor cursor)) fun _ => ensured_readRecords limit cursor
  have hmissing : Ensured fmt alerts i (fun _ => True) (readMissing cursor) (BatchRead fmt cursor limit) := by
    refine Ensures.bind consumed_persistent hmarker fun _ => ?_
    have hfirst : Ensured fmt alerts i (fun _ => True)
        (check (require (cursor.offset = 0) (.corruption "observation log missing at persisted cursor"))) fun _ _ => True :=
      ensured_check (fun _ => .true) fun _ _ _ _ => trivial
    refine Ensures.bind consumed_persistent hfirst fun _ => ?_
    exact ensures_pure (batchRead_persistent _ _ _).stable fun s _ => ⟨.nil cursor, Nat.zero_le _⟩
  have hfiles : Ensured fmt alerts i (fun _ => True) (readFiles fmt cursor limit) (BatchRead fmt cursor limit) := by
    refine Ensures.bind consumed_persistent hmarker fun _ => ?_
    refine Ensures.bind consumed_persistent (ensured_reads (calls_call trivial)) fun found => ?_
    split
    · refine Ensures.bind consumed_persistent hopened fun batch => ?_
      have hkept := hmarker.frame (batchRead_persistent cursor limit batch)
      refine Ensures.bind consumed_persistent (hkept.mono (fun s hs => ⟨trivial, hs⟩) fun _ _ => id) fun _ => ?_
      exact ensures_pure (batchRead_persistent _ _ _).stable fun s hs => hs.2
    · exact hmissing
  have hhandled : Ensured fmt alerts i (fun _ => True)
      (handle (readFiles fmt cursor limit) fun error => raise (asCorruption error)) (BatchRead fmt cursor limit) :=
    Ensures.handle consumed_persistent (fun batch => (batchRead_persistent _ _ batch).stable) hfiles fun _ => ensures_raise
  refine Ensures.bind consumed_persistent hchecked fun _ => ?_
  exact (hhandled.frame hlimits).mono (fun s hs => ⟨trivial, hs⟩) fun _ _ => id

/-! ### The transaction -/

/-- The tables of a transaction that has written nothing. -/
def Unwritten (_ : List UInt8) (db store : LogStore O) : Prop := store = db

/-- It has written nothing, and these are the records after its cursor. -/
def ReadyToWrite (fmt : RecordFormat O) (batch : List (ObservationCycle O) × LogCursor) (bytes : List UInt8)
    (db store : LogStore O) : Prop :=
  store = db ∧ Records fmt bytes db.cursor batch.1 batch.2 ∧ batch.1.length ≤ 1000

lemma unwritten_stable : Stable (Guarantee fmt alerts) i (Held (O := O) i Unwritten) :=
  held_stable fun _ _ _ _ h => h

lemma readyToWrite_stable (batch : List (ObservationCycle O) × LogCursor) :
    Stable (Guarantee fmt alerts) i (Held i (ReadyToWrite fmt batch)) :=
  held_stable fun _ _ _ _ h => ⟨h.1, h.2.1.append _, h.2.2⟩

lemma collected_stable : Stable (Guarantee fmt alerts) i (Held i (Collected fmt alerts)) :=
  held_stable fun _ more _ _ h => h.append more

/-- A call that only reads keeps what an open transaction holds. -/
lemma ensured_read {op : Op O} (hop : op.IsRead) (hK : Stable (Guarantee fmt alerts) i (Held i K)) :
    Ensured fmt alerts i (Held i K) (call op) fun _ => Held i K :=
  ensured_call hop.ne_commit hK (fun _ => hK) fun _ _ _ hs hact => held_of_read hop hs hact

/-- A read of the log in an open transaction. -/
lemma ensured_batch (cursor : LogCursor) (limit : ℕ) :
    Ensured fmt alerts i (Held i fun bytes db store => Unwritten bytes db store ∧ db.cursor = cursor)
      (readBatch fmt cursor limit) fun batch => Held i (ReadyToWrite fmt batch) := by
  have hheld : Stable (Guarantee fmt alerts) i
      (Held (O := O) i fun bytes db store => Unwritten bytes db store ∧ db.cursor = cursor) :=
    held_stable fun _ _ _ _ h => h
  refine ((ensured_readBatch cursor limit).frameCalls (calls_readBatch cursor limit) hheld fun op hop s reply t hs hact =>
    held_of_read hop hs hact).mono (fun s hs => ⟨trivial, hs⟩) ?_
  rintro batch s ⟨⟨⟨hrecords, hlength⟩, -, hlimit⟩, hs⟩ store hstore
  obtain ⟨hsame, rfl⟩ := hs store hstore
  exact ⟨hsame, hrecords, hlength.trans hlimit⟩

/-- The statements of a collection. -/
lemma ensured_update (c : Collection O) (batch : List (ObservationCycle O) × LogCursor) :
    Ensured fmt alerts i (Held i (ReadyToWrite fmt batch)) (call (.update (consumeBatch alerts c batch.1 batch.2)))
      fun _ => Held i (Collected fmt alerts) := by
  refine ensured_call (by simp) (readyToWrite_stable batch) (fun _ => collected_stable) ?_
  intro s value t hs hact store' hstore'
  cases hact with
  | @update _ _ store _ hown hf =>
      obtain ⟨rfl, hrecords, hlimit⟩ := hs store hown
      cases hstore'
      exact collected_of_consumeBatch hrecords hlimit hf

/-- **The body of a collection**: what its transaction holds at the end is a collection of the log. -/
theorem ensured_collectBody (limit : ℕ) :
    Ensured fmt alerts i (Held i Unwritten) (collectBody fmt alerts limit) fun _ => Held i (Collected fmt alerts) := by
  refine Ensures.bind consumed_persistent (ensured_read trivial unwritten_stable) fun _ => ?_
  have hcursor : Ensured fmt alerts i (Held i Unwritten) (call .readCursor)
      fun cursor => Held i fun bytes db store => Unwritten bytes db store ∧ db.cursor = cursor := by
    refine ensured_call (by simp) unwritten_stable (fun _ => held_stable fun _ _ _ _ h => h) ?_
    intro s cursor t hs hact store hstore
    cases hact with
    | readCursor hown =>
        rw [hown] at hstore
        cases hstore
        exact ⟨hs store hown, congrArg LogStore.cursor (hs store hown).symm⟩
  refine Ensures.bind consumed_persistent hcursor fun cursor => ?_
  refine Ensures.bind consumed_persistent (ensured_batch cursor limit) fun batch => ?_
  refine Ensures.bind consumed_persistent (ensured_read trivial (readyToWrite_stable batch)) fun snapshot => ?_
  refine Ensures.bind consumed_persistent (ensured_read trivial (readyToWrite_stable batch)) fun nowMs => ?_
  refine Ensures.bind consumed_persistent (ensured_update ⟨snapshot.1, snapshot.2, nowMs⟩ batch) fun store => ?_
  exact ensures_pure collected_stable fun _ => id

/-- A commit publishes what the transaction holds. -/
lemma ensured_commit :
    Ensured fmt alerts i (Held i (Collected fmt alerts)) (call .commit) fun _ _ => True := by
  intro s _ hs
  refine safe_call collected_stable hs fun t reply u ht hact => ⟨?_, fun _ _ _ _ => trivial⟩
  have hnone : t.bytes = t.bytes ++ [] := (List.append_nil _).symm
  cases hact with
  | fault => exact ⟨⟨[], hnone⟩, .inl ⟨rfl, rfl⟩, fun _ _ _ => id⟩
  | commit hown => exact ⟨⟨[], hnone⟩, .inr ⟨rfl, rfl, ht _ hown⟩, fun _ _ _ h => by cases h⟩
  | giveUp => exact ⟨⟨[], hnone⟩, .inl ⟨rfl, rfl⟩, fun _ _ _ h => by cases h⟩

omit [DecidableEq O] [Sha256] [StageObservation O] in
lemma calls_rollBack {α : Type} (error : CollectError) : (rollBack (O := O) (α := α) error).Calls (· ≠ .commit) := by
  refine .bind ⟨by simp, fun _ => trivial⟩ fun inTransaction => .bind ?_ fun _ => trivial
  cases inTransaction with
  | true => exact ⟨by simp, fun _ => trivial⟩
  | false => trivial

/-- **A collection keeps its guarantee**, whatever it reads and however it fails. -/
theorem ensured_collect (limit : ℕ) :
    Ensured fmt alerts i (fun _ => True) (collect fmt alerts limit) fun _ _ => True := by
  have hbegin : Ensured fmt alerts i (fun _ => True) (call .beginImmediate) fun _ => Held i Unwritten := by
    refine ensured_call (by simp) .true (fun _ => unwritten_stable) ?_
    intro s _ t _ hact store hstore
    cases hact
    cases hstore
    rfl
  refine Ensures.bind consumed_persistent hbegin fun _ => ?_
  refine Ensures.handle consumed_persistent (fun _ => .true) ?_ fun error => ensured_calls (calls_rollBack error)
  refine Ensures.bind consumed_persistent (ensured_collectBody limit) fun summary => ?_
  refine Ensures.bind consumed_persistent ensured_commit fun _ => ?_
  exact ensures_pure .true fun _ _ => trivial

/-! ## What is left after a commit -/

/-- A commit that took effect. -/
def Committed : (op : Op O) → op.Reply → Prop
  | .commit, .ok _ => True
  | _, _ => False

omit [DecidableEq O] [Sha256] [StageObservation O] in
lemma not_committed {op : Op O} (hop : op ≠ .commit) (reply : op.Reply) : ¬ Committed op reply := by
  unfold Committed
  split
  · exact absurd rfl hop
  · exact id

omit [DecidableEq O] [Sha256] [StageObservation O] in
/-- Only a commit that took effect changes the database. -/
lemma committed_of_ne {op : Op O} {reply : op.Reply} (h : Act i op s reply t) (hdb : t.db ≠ s.db) : Committed op reply := by
  cases h with
  | commit => trivial
  | _ => exact absurd rfl hdb

omit [DecidableEq O] [Sha256] [StageObservation O] in
lemma commits_of_committed {op : Op O} {reply : op.Reply} (h : Act i op s reply t) (hcommitted : Committed op reply) :
    t.commits = s.commits + 1 := by
  cases h with
  | commit => rfl
  | fault error => cases op <;> exact hcommitted.elim
  | giveUp hown error => cases op <;> exact hcommitted.elim
  | _ => exact hcommitted.elim

lemma calls_collectBody (limit : ℕ) : (collectBody fmt alerts limit).Calls (· ≠ .commit) := by
  refine .bind ⟨by simp, fun _ => trivial⟩ fun _ => .bind ⟨by simp, fun _ => trivial⟩ fun cursor => ?_
  refine .bind ((calls_readBatch cursor limit).mono fun _ => Op.IsRead.ne_commit) fun batch => ?_
  refine .bind ⟨by simp, fun _ => trivial⟩ fun snapshot => .bind ⟨by simp, fun _ => trivial⟩ fun nowMs => ?_
  exact .bind ⟨by simp, fun _ => trivial⟩ fun store => trivial

omit [DecidableEq O] [Sha256] [StageObservation O] in
/-- The commit is the last thing that can go wrong in a transaction. -/
lemma returnsAfter_transaction {α : Type} {body : Action O α} (hbody : body.Calls (· ≠ .commit)) :
    (transaction body).ReturnsAfter Committed := by
  have hfirst : (call (.beginImmediate : Op O)).Calls (· ≠ .commit) := ⟨by simp, fun _ => trivial⟩
  refine .bind (fun op hop reply => not_committed hop reply) hfirst fun _ => ?_
  refine .handle (.bind (fun op hop reply => not_committed hop reply) hbody fun result reply => ⟨fun hcommitted => ?_, ?_⟩)
    fun error => .of_calls (fun op hop reply => not_committed hop reply) (calls_rollBack error)
  · cases reply with
    | ok _ => exact ⟨result, rfl⟩
    | error _ => exact hcommitted.elim
  · cases reply <;> trivial

omit [DecidableEq O] [Sha256] [StageObservation O] in
/-- And a transaction returns only after its commit. -/
lemma returnsThrough_transaction {α : Type} {body : Action O α} : (transaction body).ReturnsThrough Committed := by
  refine .bind fun _ => .handle (.bind fun result reply => ?_) fun error => .bind fun _ => .bind fun _ => ?_
  · cases reply with
    | ok _ => exact .inl trivial
    | error error => exact .inr fun _ => by rintro ⟨⟩
  · rintro a ⟨⟩

omit [DecidableEq O] [Sha256] [StageObservation O] in
lemma calls_appendCycle (encoded : List UInt8) : (appendCycle (O := O) encoded).Calls (· ≠ .commit) := by
  have hraiseIf : ∀ condition error, (raiseIf (O := O) condition error).Calls (· ≠ .commit) := by
    intro condition error
    cases condition <;> trivial
  refine .bind ⟨by simp, fun _ => trivial⟩ fun marked => .bind (hraiseIf _ _) fun _ => ?_
  refine .bind ⟨by simp, fun _ => trivial⟩ fun _ => .bind ⟨by simp, fun _ => trivial⟩ fun written => ?_
  refine .bind (hraiseIf _ _) fun _ => .bind ⟨by simp, fun _ => trivial⟩ fun _ => ?_
  refine .handle ⟨by simp, fun _ => trivial⟩ fun error => ?_
  exact .bind (.handle ⟨by simp, fun _ => trivial⟩ fun _ => trivial) fun _ => trivial

/-- What is left of the program of a request: after a commit it can only return, and an append does not commit. -/
def Remaining (request : Request) (p : Action O (Option CollectSummary)) : Prop :=
  p.ReturnsAfter Committed ∧ ∀ encoded, request = .append encoded → p.Calls (· ≠ .commit)

lemma remaining_program (request : Request) : Remaining request (request.program fmt alerts) := by
  cases request with
  | collect limit =>
      refine ⟨.followed (returnsAfter_transaction (calls_collectBody limit)) fun summary => ⟨⟨_, rfl⟩, trivial⟩, ?_⟩
      rintro encoded ⟨⟩
  | append encoded =>
      have hcalls : (Request.program fmt alerts (.append encoded)).Calls (· ≠ .commit) :=
        .bind (calls_appendCycle encoded) fun _ => trivial
      exact ⟨.of_calls (fun op hop reply => not_committed hop reply) hcalls, fun _ _ => hcalls⟩

omit [DecidableEq O] [Sha256] [StageObservation O] in
lemma remaining_next (request : Request) (op : Op O) (next : op.Reply → Action O (Option CollectSummary))
    (h : Remaining request (.call op next)) (reply : op.Reply) : Remaining request (next reply) :=
  ⟨(h.1 reply).2, fun encoded hrequest => (h.2 encoded hrequest).2 reply⟩

/-! ## Runs -/

lemma safe_program (i : ℕ) (request : Request) (s : Shared O) (hs : Consumed fmt s) :
    Safe Act (Guarantee fmt alerts) i (fun _ _ => True) (request.program fmt alerts) s := by
  cases request with
  | collect limit =>
      have hensured : Ensured fmt alerts i (fun _ => True) (Request.program fmt alerts (.collect limit)) fun _ _ => True :=
        Ensures.bind consumed_persistent (ensured_collect limit) fun _ => ensures_pure .true fun _ _ => trivial
      exact (hensured s hs trivial).mono fun _ _ _ => trivial
  | append encoded =>
      refine Safe.of_calls (fun op hop _ _ _ hact => guarantee_of_act hop hact) ?_ s
      exact .bind (calls_appendCycle encoded) fun _ => trivial

omit [DecidableEq O] [StageObservation O] [Sha256] in
variable (fmt) in
lemma consumed_initial [Sha256] [StageObservation O] (content : Option (List UInt8)) (invalidMarker : Bool) :
    Consumed fmt (initial content invalidMarker : Shared O) :=
  ⟨[], .nil _, List.nodup_nil, fun _ => by simp [initial, AlertStore.empty], rfl⟩

variable {content : Option (List UInt8)} {invalidMarker : Bool} {pool pool' : Collectors O}

/-- The thread raised. -/
def Raised (pool : Collectors O) (i : ℕ) : Prop := ∃ request error, pool.threads[i]? = some (request, some (.done (.error error)))

variable (fmt alerts content invalidMarker) in
/-- The process has committed a collection. -/
def HasCollected (pool : Collectors O) (i : ℕ) : Prop :=
  ∃ before after tr, (collections fmt alerts content invalidMarker).Reachable before ∧
    (collections fmt alerts content invalidMarker).step before (.act i) after ∧
    (collections fmt alerts content invalidMarker).Run after tr pool ∧
    Collected fmt alerts before.shared.bytes before.shared.db after.shared.db

lemma HasCollected.step {label : PoolStep Request} (h : HasCollected fmt alerts content invalidMarker pool i)
    (hstep : (collections fmt alerts content invalidMarker).step pool label pool') :
    HasCollected fmt alerts content invalidMarker pool' i := by
  obtain ⟨before, after, tr, hbefore, hact, hrun, hcollected⟩ := h
  exact ⟨before, after, tr ++ [(label, pool')], hbefore, hact, hrun.append (.single hstep), hcollected⟩

lemma allSafe_of_reachable (h : (collections fmt alerts content invalidMarker).Reachable pool) :
    Pool.AllSafe (fun i => Act i) (Guarantee fmt alerts) (Consumed fmt) (fun _ _ _ _ => True) pool :=
  Pool.safe consumed_persistent safe_program (consumed_initial fmt content invalidMarker) h

/-- A collection that has not committed yet has not returned. -/
lemma hasCollected_or_returnsThrough (h : (collections fmt alerts content invalidMarker).Reachable pool) :
    ∀ (i : ℕ) limit p, pool.threads[i]? = some (.collect limit, some p) →
      HasCollected fmt alerts content invalidMarker pool i ∨ p.ReturnsThrough Committed := by
  have hboth : (collections fmt alerts content invalidMarker).Reachable pool ∧ ∀ (i : ℕ) limit p,
      pool.threads[i]? = some (.collect limit, some p) →
        HasCollected fmt alerts content invalidMarker pool i ∨ p.ReturnsThrough Committed := by
    refine h.invariant (I := fun pool => (collections fmt alerts content invalidMarker).Reachable pool ∧
      ∀ (i : ℕ) limit p, pool.threads[i]? = some (.collect limit, some p) →
        HasCollected fmt alerts content invalidMarker pool i ∨ p.ReturnsThrough Committed) ?_ ?_
    · rintro _ rfl
      exact ⟨.init rfl, fun i limit p hp => by cases hp⟩
    · rintro pool label pool' ⟨hpool, hthreads⟩ hstep
      refine ⟨hpool.step hstep, fun i limit p hp => ?_⟩
      have hsafe := allSafe_of_reachable hpool
      have hold : ∀ q, pool.threads[i]? = some (.collect limit, some q) → q.ReturnsThrough Committed ∨
          HasCollected fmt alerts content invalidMarker pool' i := fun q hq =>
        (hthreads i limit q hq).symm.imp_right fun hcollected => hcollected.step hstep
      cases hstep with
      | start request =>
          rw [List.getElem?_append] at hp
          split at hp
          · exact (hold p hp).symm
          · rw [List.getElem?_singleton] at hp
            split at hp
            · cases hp
              exact .inr (.followed returnsThrough_transaction _)
            · cases hp
      | @act j request op next reply t hthread hact =>
          rw [List.getElem?_set] at hp
          split at hp
          · rename_i hij
            subst hij
            split at hp
            · cases hp
              rcases hold _ hthread with hreturns | hcollected
              · rcases hreturns reply with hcommitted | hrest
                · have hg := (hsafe.2 j _ _ hthread pool.shared .refl reply t hact).1
                  have hcount := commits_of_committed hact hcommitted
                  have hnext := hg.db.resolve_left fun hsame => by omega
                  exact .inl ⟨pool, _, [], hpool, .act hthread hact, .nil _, hnext.2.2⟩
                · exact .inr hrest
              · exact .inl hcollected
            · cases hp
          · exact (hold p hp).symm
      | @crash j request op next hthread =>
          rw [List.getElem?_set] at hp
          split at hp
          · split at hp
            · cases hp
            · cases hp
          · exact (hold p hp).symm
  exact hboth.2

/-- **Collection is exactly-once and atomic.** Whatever collections, with whatever limits, and appends run at the same
time, fail and crash, starting with any log: (1) the consumed cycles are the ids of the log's records in front of the
persisted cursor, each with the digest of its content, so that records with the same id have the same content; (2) a
collection that has returned has committed, as the new ones of the next records, with the cursor behind them; (3) a step
that changes the database is the commit of a collection, and that collection never raises: one that raises has changed
nothing. -/
theorem collection_exactly_once (h : (collections fmt alerts content invalidMarker).Reachable pool) :
    (∃ records, (∀ records', Records fmt pool.shared.bytes {} records' pool.shared.db.cursor ↔ records' = records) ∧
      ConsumedRecords pool.shared.db.tables records ∧
      ∀ record ∈ records, ∀ record' ∈ records, record.cycleId = record'.cycleId →
        (record.digest = record'.digest → record.toDict = record'.toDict) → record.toDict = record'.toDict) ∧
    (∀ (i : ℕ) limit summary, pool.threads[i]? = some (.collect limit, some (.done (.ok summary))) →
      HasCollected fmt alerts content invalidMarker pool i) ∧
    ∀ i pool', (collections fmt alerts content invalidMarker).step pool (.act i) pool' →
      pool'.shared.db ≠ pool.shared.db →
        (∃ limit p, pool.threads[i]? = some (.collect limit, some p)) ∧
        Collected fmt alerts pool.shared.bytes pool.shared.db pool'.shared.db ∧
        ∀ tr pool'', (collections fmt alerts content invalidMarker).Run pool' tr pool'' → ¬ Raised pool'' i := by
  obtain ⟨⟨records, hrecords, hconsumed⟩, hsafe⟩ := allSafe_of_reachable h
  refine ⟨⟨records, fun records' => ⟨fun h' => h'.unique hrecords, ?_⟩, hconsumed, ?_⟩, ?_, ?_⟩
  · rintro rfl
    exact hrecords
  · exact fun record hrecord record' hrecord' hid hfree => hfree (hconsumed.digest_eq hrecord hrecord' hid)
  · intro i limit summary hthread
    refine (hasCollected_or_returnsThrough h i limit _ hthread).resolve_right fun hreturns => hreturns summary rfl
  · intro i pool' hstep hdb
    have hremaining := Pool.reachable_inherits (fun _ request => remaining_program request) remaining_next h
    cases hstep with
    | @act _ request op next reply t hthread hact =>
        have hcommitted := committed_of_ne hact hdb
        obtain ⟨hreturns, hcalls⟩ := hremaining i request _ hthread
        have hg := (hsafe i request _ hthread pool.shared .refl reply t hact).1
        have hcollected := hg.db.resolve_left fun hsame => hdb hsame.2
        refine ⟨?_, hcollected.2.2, ?_⟩
        · cases request with
          | collect limit => exact ⟨limit, _, hthread⟩
          | append encoded => exact absurd hcommitted (not_committed (hcalls encoded rfl).1 reply)
        · rintro tr pool'' hrun ⟨request', error, hraised⟩
          obtain ⟨hlt, -⟩ := List.getElem?_eq_some_iff.mp hthread
          have hleft := Pool.run_inherits (H := fun _ p => p.Returns) (fun _ _ _ hH reply => hH reply) hrun (i := i)
            (by simpa using hlt) ?_
          · obtain ⟨a, ha⟩ := hleft request' _ hraised
            cases ha
          · intro request'' p hp
            rw [List.getElem?_set_self hlt] at hp
            cases hp
            exact (hreturns reply).1 hcommitted

end collections

/-! ## A small run -/

section demo

attribute [local instance] demoSha256 demoObservation

/-- Every line is the first cycle. -/
def demoFormat : RecordFormat DemoScan := ⟨fun _ => some readyCycle, fun _ => canonicalSha256 .null⟩

/-- One record. -/
def demoLog : List UInt8 := [123, 125, newline]

/-- The calls of the first process, without faults; it does not append. -/
def performFirst : (op : Op DemoScan) → Shared DemoScan → op.Reply × Shared DemoScan
  | .markerExists, s => (.ok s.invalidMarker, s)
  | .openLog, s => (.ok s.content.isSome, s)
  | .readLine position, s => (.ok (readLine (maxRecordBytes + 1) (s.bytes.drop position)), s)
  | .snapshot, s => (.ok (none, false), s)
  | .now, s => (.ok 2000, s)
  | .validate, s => (.ok (), s)
  | .beginImmediate, s => (.ok (), { s with working := some (0, s.db) })
  | .inTransaction, s => (.ok (s.working.any fun w => w.1 = 0), s)
  | .readCursor, s =>
      match s.working with
      | some (0, store) => (.ok store.cursor, s)
      | _ => (.error .database, s)
  | .update f, s =>
      match s.working with
      | some (0, store) =>
          match f store with
          | .ok store' => (.ok store', { s with working := some (0, store') })
          | .error error => (.error (.alert error), s)
      | _ => (.error .database, s)
  | .commit, s =>
      match s.working with
      | some (0, store) => (.ok (), { s with db := store, commits := s.commits + 1, working := none })
      | _ => (.error .database, s)
  | .rollback, s =>
      match s.working with
      | some (0, _) => (.ok (), { s with working := none })
      | _ => (.error .database, s)
  | .createMarker, s | .write _, s | .removeMarker, s | .fsyncDirectory, s => (.error .osError, s)

lemma performFirst_act (op : Op DemoScan) (s : Shared DemoScan) : Act 0 op s (performFirst op s).1 (performFirst op s).2 := by
  unfold performFirst
  split
  · exact .markerExists
  · exact .openLog
  · exact .readLine _
  · exact .snapshot _ _
  · exact .now _
  · exact .validate
  · exact .beginImmediate
  · exact .inTransaction
  · split
    · rename_i hown
      exact .readCursor hown
    · exact .fault _
  · split
    · rename_i hown
      split
      · rename_i hf
        exact .update hown hf
      · exact .fault _
    · exact .fault _
  · split
    · rename_i hown
      exact .commit hown
    · exact .fault _
  · split
    · rename_i hown
      exact .rollback hown
    · exact .fault _
  all_goals exact .fault _

/-- A collection that consumed the record and has returned. -/
theorem collection_exactly_once_demo : ∃ pool : Collectors DemoScan,
    (collections demoFormat demoAlerts (some demoLog) false).Reachable pool ∧
      HasCollected demoFormat demoAlerts (some demoLog) false pool 0 := by
  have hinit : (collections demoFormat demoAlerts (some demoLog) false).Reachable ⟨initial (some demoLog) false, []⟩ :=
    .init rfl
  have hstart := hinit.step (Pool.Step.start (Request.collect 1))
  have hend := Pool.reachable_alone (i := 0) performFirst_act hstart rfl
  have hreturned : (Prog.run performFirst (Request.program demoFormat demoAlerts (.collect 1))
      (initial (some demoLog) false)).1.isOk = true := by decide +kernel
  obtain ⟨result, hresult⟩ := exists_eq_ok_of_isOk hreturned
  refine ⟨_, hend, (collection_exactly_once hend).2.1 0 1 result ?_⟩
  exact congrArg (fun r => some (Request.collect 1, some (Prog.done r))) hresult

end demo

end MuStrategy.Notifications.ObservationFile
