import Mathlib.Logic.Relation
import MuStrategy.Notifications.Collect
import MuStrategy.Notifications.Rows

/-!
# What a collection changes

The transactions that write the streams are made of a few changes: a stream is saved, an entry expires, an event about
the service is stored, the active entry is withdrawn, a signal starts an entry.

* `Sound` — the keys, and the active events of the streams.
* `Extends` — rows move on, and counters grow.
* `Change`, `Changes` — the changes; `Changes.sound`, `Changes.extends`.
* `collect_changes`, `sourceUnavailable_changes` — the transactions are made of changes.
-/

namespace MuStrategy.Notifications

open Lib

variable {O : Type}

/-! ## Streams -/

namespace AlertStore

lemma streamOf_putStream (store : AlertStore O) (symbol symbol' : String) (stream : SignalStream) :
    (store.putStream symbol stream).streamOf symbol' = if symbol' = symbol then stream else store.streamOf symbol' := by
  unfold streamOf putStream
  rw [Table.lookup_upsert]
  split <;> rfl

lemma saveStream_eq_ok {store store' : AlertStore O} {symbol : String} {stream : SignalStream} :
    store.saveStream symbol stream = .ok store' ↔ stream.check = .ok () ∧ store' = store.putStream symbol stream := by
  simp only [saveStream, bind_eq_ok, pure_eq_ok_iff]
  constructor
  · rintro ⟨_, hcheck, rfl⟩
    exact ⟨hcheck, rfl⟩
  · rintro ⟨hcheck, rfl⟩
    exact ⟨(), hcheck, rfl⟩

lemma stream_eq_ok {store : AlertStore O} {symbol : String} {stream : SignalStream} :
    store.stream symbol = .ok stream ↔ (store.streamOf symbol).check = .ok () ∧ stream = store.streamOf symbol := by
  simp only [AlertStore.stream, bind_eq_ok, pure_eq_ok_iff]
  constructor
  · rintro ⟨_, hcheck, rfl⟩
    exact ⟨hcheck, rfl⟩
  · rintro ⟨hcheck, rfl⟩
    exact ⟨(), hcheck, rfl⟩

end AlertStore

namespace SignalStream

/-- The same signal: the counter, the active entry and its key. -/
def SameSignal (stream stream' : SignalStream) : Prop :=
  stream'.counter = stream.counter ∧ stream'.activeEventId = stream.activeEventId ∧ stream'.signalKey = stream.signalKey

lemma SameSignal.refl (stream : SignalStream) : stream.SameSignal stream := ⟨rfl, rfl, rfl⟩

/-- A stream that was checked has an active event exactly when it has a key. -/
lemma isNone_of_check {stream : SignalStream} (h : stream.check = .ok ()) :
    stream.activeEventId = none ↔ stream.signalKey = none := by
  simp only [check, bind_eq_ok, require_eq_ok, exists_const] at h
  have hsame := of_decide_eq_true h.2.2
  rw [← Option.isNone_iff_eq_none, ← Option.isNone_iff_eq_none, hsame]

end SignalStream

/-- The suppression of the withdrawal of an entry in a delivery state.
Source: `notifications/service.py` `EmailAlerts._invalidate`. -/
def unseenReason (state : DeliveryState) : Option SuppressedReason :=
  if state = .confirmed ∨ state = .unknown then none else some .historicalEvent

/-! ## Sound stores -/

/-- Event ids are unique, saved streams pass their checks, and an active event is an entry. -/
structure Sound (store : AlertStore O) : Prop where
  keyed : store.delivery.Keyed
  checked : ∀ symbol, (store.streamOf symbol).check = .ok ()
  active : ∀ symbol eventId, (store.streamOf symbol).activeEventId = some eventId →
    ∃ row ∈ store.delivery.outbox, row.eventId = eventId ∧ row.payload.kind = .entryReview

lemma Sound.empty : Sound (AlertStore.empty : AlertStore O) where
  keyed := List.nodup_nil
  checked _ := show SignalStream.check {} = .ok () by decide
  active _ _ h := by cases h

/-- Streams that were not touched, and rows that are there still. -/
lemma Sound.of_rows {store store' : AlertStore O} (h : Sound store) (hkeyed : store'.delivery.Keyed)
    (hstreams : store'.streams = store.streams)
    (hrows : ∀ row ∈ store.delivery.outbox, ∃ row' ∈ store'.delivery.outbox, row'.eventId = row.eventId ∧
      row'.payload = row.payload) : Sound store' := by
  have hstream : ∀ symbol, store'.streamOf symbol = store.streamOf symbol := fun symbol => by
    rw [AlertStore.streamOf, AlertStore.streamOf, hstreams]
  refine ⟨hkeyed, fun symbol => hstream symbol ▸ h.checked symbol, fun symbol eventId hactive => ?_⟩
  obtain ⟨row, hrow, rfl, hentry⟩ := h.active symbol eventId (hstream symbol ▸ hactive)
  obtain ⟨row', hrow', hid, hpayload⟩ := hrows row hrow
  exact ⟨row', hrow', hid, hpayload ▸ hentry⟩

/-- Deliveries keep a store sound. -/
lemma Sound.delivers {store : AlertStore O} {db : Database O} (h : Sound store) (hdb : Delivers store.delivery db) :
    Sound { store with delivery := db } := by
  refine h.of_rows (hdb.keyed h.keyed) rfl fun row hrow => ?_
  obtain ⟨g, hg, hout⟩ := hdb
  exact ⟨g row, hout ▸ List.mem_map_of_mem hrow, (hg row hrow).eventId, (hg row hrow).payload⟩

/-- A saved stream that passes its checks, whose active event is an entry. -/
lemma Sound.putStream {store : AlertStore O} {symbol : String} {stream : SignalStream} (h : Sound store)
    (hcheck : stream.check = .ok ()) (hactive : ∀ eventId, stream.activeEventId = some eventId →
      ∃ row ∈ store.delivery.outbox, row.eventId = eventId ∧ row.payload.kind = .entryReview) :
    Sound (store.putStream symbol stream) := by
  refine ⟨h.keyed, fun symbol' => ?_, fun symbol' eventId hid => ?_⟩
  · rw [AlertStore.streamOf_putStream]
    split
    · exact hcheck
    · exact h.checked symbol'
  · rw [AlertStore.streamOf_putStream] at hid
    split at hid
    · exact hactive eventId hid
    · exact h.active symbol' eventId hid

/-! ## What is there stays there -/

variable {store store' : AlertStore O}

/-- Rows move on, and counters grow. -/
structure Extends (store store' : AlertStore O) : Prop where
  rows : ∀ row ∈ store.delivery.outbox, ∃ row' ∈ store'.delivery.outbox, RowLe row row'
  counter : ∀ symbol, (store.streamOf symbol).counter ≤ (store'.streamOf symbol).counter

lemma Extends.refl (store : AlertStore O) : Extends store store :=
  ⟨fun row hrow => ⟨row, hrow, .refl row⟩, fun _ => le_rfl⟩

lemma Extends.trans {store'' : AlertStore O} (h : Extends store store') (h' : Extends store' store'') :
    Extends store store'' := by
  refine ⟨fun row hrow => ?_, fun symbol => (h.counter symbol).trans (h'.counter symbol)⟩
  obtain ⟨row', hrow', hle⟩ := h.rows row hrow
  obtain ⟨row'', hrow'', hle'⟩ := h'.rows row' hrow'
  exact ⟨row'', hrow'', hle.trans hle'⟩

/-- Deliveries move rows on. -/
lemma Extends.delivers {db : Database O} (hdb : Delivers store.delivery db) : Extends store { store with delivery := db } := by
  obtain ⟨g, hg, hout⟩ := hdb
  exact ⟨fun row hrow => ⟨g row, hout ▸ List.mem_map_of_mem hrow, hg row hrow⟩, fun _ => le_rfl⟩

lemma AlertStore.counter_putStream (store : AlertStore O) {symbol : String} {stream : SignalStream} (symbol' : String)
    (h : (store.streamOf symbol).counter ≤ stream.counter) :
    (store.streamOf symbol').counter ≤ ((store.putStream symbol stream).streamOf symbol').counter := by
  rw [AlertStore.streamOf_putStream]
  split
  · rename_i hsymbol
    exact hsymbol ▸ h
  · exact le_rfl

/-- The row of an active event is an entry. -/
lemma Sound.entry_of_active {symbol : String} {row : OutboxRow O} (h : Sound store)
    (hactive : (store.streamOf symbol).activeEventId = some row.eventId) (hrow : row ∈ store.delivery.outbox) :
    row.payload.kind = .entryReview := by
  obtain ⟨entry, hentry, hid, hkind⟩ := h.active symbol row.eventId hactive
  rwa [← h.keyed.eq_of_key hentry hrow hid]

/-! ## Changes -/

section changes

variable [Sha256]

/-- The stored rows contain the rows before, and that of the event. -/
lemma Database.Stores.mem {db : Database O} {event : AlertEvent O} {suppressed : Option SuppressedReason}
    {outbox : List (OutboxRow O)} (h : Stores db event suppressed outbox) :
    (∀ row ∈ db.outbox, row ∈ outbox) ∧ ∃ row ∈ outbox, row.eventId = event.eventId ∧ row.payload = event := by
  cases h with
  | found hmem hid hpayload => exact ⟨fun _ => id, _, hmem, hid, hpayload⟩
  | added hfresh =>
      exact ⟨fun row hrow => List.mem_append_left _ hrow, _, List.mem_append_right _ (List.mem_singleton.mpr rfl), rfl, rfl⟩

variable [StageObservation O]

/-- A change of the tables, while the records of the log are consumed. -/
inductive Change (records : List (ObservationCycle O)) (store : AlertStore O) : AlertStore O → Prop where
  /-- Tables other than the outbox and the streams. -/
  | note {store' : AlertStore O} (hdelivery : store'.delivery = store.delivery)
      (hstreams : store'.streams = store.streams) (hcursor : store'.observationCursor = store.observationCursor)
      (hlast : store'.lastCycleSha256 = store.lastCycleSha256 ∨
        ∃ record ∈ records, store'.lastCycleSha256 = some record.digest) : Change records store store'
  /-- A stream with the same signal is saved. -/
  | stream {symbol : String} {stream : SignalStream} (hcheck : stream.check = .ok ())
      (hsame : (store.streamOf symbol).SameSignal stream) : Change records store (store.putStream symbol stream)
  /-- The review of an entry is over. -/
  | expire {row : OutboxRow O} {db : Database O} (hrow : row ∈ store.delivery.outbox)
      (hentry : row.payload.kind = .entryReview)
      (hout : db.outbox = (store.delivery.updateRow row.eventId (·.suppress .reviewExpired)).outbox) :
      Change records store { store with delivery := db }
  /-- An event about the service is stored. -/
  | service {event : AlertEvent O} {suppressed : Option SuppressedReason} {db : Database O}
      (hkind : event.kind = .serviceFault ∨ event.kind = .serviceRecovered)
      (hstores : store.delivery.Stores event suppressed db.outbox) : Change records store { store with delivery := db }
  /-- The active entry is withdrawn: its withdrawal is stored, and it is suppressed. -/
  | withdraw {symbol : String} {stream : SignalStream} {row : OutboxRow O} {event : AlertEvent O}
      {stored db : Database O} {reason : SuppressedReason} (hrow : row ∈ store.delivery.outbox)
      (hactive : (store.streamOf symbol).activeEventId = some row.eventId) (hcheck : stream.check = .ok ())
      (hcounter : stream.counter = (store.streamOf symbol).counter) (hnone : stream.activeEventId = none)
      (hkind : event.kind = .signalInvalidated) (hrelated : event.relatedEventId = some row.eventId)
      (hstores : store.delivery.Stores event (unseenReason row.state) stored.outbox)
      (hout : db.outbox = (stored.updateRow row.eventId (·.suppress reason)).outbox) :
      Change records store ({ store with delivery := db }.putStream symbol stream)
  /-- The signal of an observation starts an entry. -/
  | start {stream : SignalStream} {observation : O} {key : HexDigest} {occurredAtMs reviewMs : ℕ} {db : Database O}
      {suppressed : Option SuppressedReason}
      (hnone : (store.streamOf (StageObservation.symbol observation)).activeEventId = none)
      (hkey : signalKey observation = some key) (hcheck : stream.check = .ok ())
      (hcounter : stream.counter = (store.streamOf (StageObservation.symbol observation)).counter + 1)
      (hactive : stream.activeEventId = some (entryEvent key stream.counter occurredAtMs reviewMs observation).eventId)
      (hsignal : stream.signalKey = some key)
      (hstores : store.delivery.Stores (entryEvent key stream.counter occurredAtMs reviewMs observation) suppressed
        db.outbox) :
      Change records store ({ store with delivery := db }.putStream (StageObservation.symbol observation) stream)

/-- Changes in a row. -/
abbrev Changes (records : List (ObservationCycle O)) : AlertStore O → AlertStore O → Prop :=
  Relation.ReflTransGen (Change records)

variable {records : List (ObservationCycle O)}

lemma Change.sound (h : Change records store store') (hsound : Sound store) : Sound store' := by
  cases h with
  | note hdelivery hstreams hcursor hlast =>
      refine hsound.of_rows (hdelivery ▸ hsound.keyed) hstreams fun row hrow => ?_
      exact ⟨row, hdelivery ▸ hrow, rfl, rfl⟩
  | stream hcheck hsame =>
      refine hsound.putStream hcheck fun eventId hid => ?_
      exact hsound.active _ eventId (hsame.2.1 ▸ hid)
  | expire hrow hentry hout =>
      exact hsound.delivers (.of_updateRow hsound.keyed hrow (rowLe_suppress hentry) hout)
  | @service event suppressed db hkind hstores =>
      refine hsound.of_rows (hstores.keyed hsound.keyed) rfl fun row hrow => ?_
      exact ⟨row, hstores.mem.1 row hrow, rfl, rfl⟩
  | @withdraw symbol stream row event stored db reason hrow hactive hcheck hcounter hnone hkind hrelated hstores hout =>
      refine Sound.putStream ?_ hcheck fun eventId hid => ?_
      · refine hsound.of_rows ?_ rfl fun r hr => ?_
        · unfold Database.Keyed
          rw [hout]
          exact Database.Keyed.updateRow (hstores.keyed hsound.keyed) fun _ => rfl
        · change ∃ r' ∈ db.outbox, _
          rw [hout]
          exact ⟨_, Table.mem_update.mpr ⟨r, hstores.mem.1 r hr, rfl⟩, by split <;> rfl, by split <;> rfl⟩
      · rw [hnone] at hid
        cases hid
  | @start stream observation key occurredAtMs reviewMs db suppressed hnone hkey hcheck hcounter hactive hsignal
      hstores =>
      refine Sound.putStream ?_ hcheck fun eventId hid => ?_
      · refine hsound.of_rows (hstores.keyed hsound.keyed) rfl fun row hrow => ?_
        exact ⟨row, hstores.mem.1 row hrow, rfl, rfl⟩
      · obtain ⟨row, hrow, hrid, hpayload⟩ := hstores.mem.2
        rw [hactive, Option.some.injEq] at hid
        exact ⟨row, hrow, hrid.trans hid, by rw [hpayload]; rfl⟩

lemma Changes.sound (h : Changes records store store') (hsound : Sound store) : Sound store' := by
  induction h with
  | refl => exact hsound
  | tail _ hchange ih => exact hchange.sound ih

lemma Change.extends (h : Change records store store') (hsound : Sound store) : Extends store store' := by
  cases h with
  | note hdelivery hstreams _ _ =>
      refine ⟨fun row hrow => ⟨row, hdelivery ▸ hrow, .refl row⟩, fun symbol => ?_⟩
      rw [AlertStore.streamOf, AlertStore.streamOf, hstreams]
  | stream hcheck hsame =>
      exact ⟨fun row hrow => ⟨row, hrow, .refl row⟩, fun symbol => AlertStore.counter_putStream store symbol hsame.1.ge⟩
  | expire hrow hentry hout => exact .delivers (.of_updateRow hsound.keyed hrow (rowLe_suppress hentry) hout)
  | service hkind hstores => exact ⟨fun row hrow => ⟨row, hstores.mem.1 row hrow, .refl row⟩, fun _ => le_rfl⟩
  | @withdraw symbol stream row event stored db reason hrow hactive hcheck hcounter hnone hkind hrelated hstores hout =>
      refine ⟨fun r hr => ?_, fun symbol' => ?_⟩
      · have hsuppress : Delivers stored db :=
          .of_updateRow (hstores.keyed hsound.keyed) (hstores.mem.1 row hrow)
            (rowLe_suppress (hsound.entry_of_active hactive hrow)) hout
        obtain ⟨g, hg, hmap⟩ := hsuppress
        have hr' := hstores.mem.1 r hr
        change ∃ r' ∈ db.outbox, RowLe r r'
        exact ⟨g r, hmap ▸ List.mem_map_of_mem hr', hg r hr'⟩
      · exact AlertStore.counter_putStream { store with delivery := db } symbol' hcounter.ge
  | @start stream observation key occurredAtMs reviewMs db suppressed hnone hkey hcheck hcounter hactive hsignal
      hstores =>
      refine ⟨fun r hr => ⟨r, hstores.mem.1 r hr, .refl r⟩, fun symbol' => ?_⟩
      refine AlertStore.counter_putStream { store with delivery := db } symbol' ?_
      rw [hcounter]
      exact Nat.le_succ _

lemma Changes.extends (h : Changes records store store') (hsound : Sound store) : Extends store store' := by
  induction h with
  | refl => exact .refl _
  | tail hchanges hchange ih => exact ih.trans (hchange.extends (Changes.sound hchanges hsound))

/-- Changes leave the cursor where it is. -/
lemma Changes.cursor (h : Changes records store store') : store'.observationCursor = store.observationCursor := by
  induction h with
  | refl => rfl
  | tail _ hchange ih =>
      rw [← ih]
      cases hchange with
      | note _ _ hcursor _ => exact hcursor
      | _ => rfl

/-- The last cycle that was consumed is the one before, or one of the records. -/
lemma Changes.lastCycle (h : Changes records store store') :
    store'.lastCycleSha256 = store.lastCycleSha256 ∨ ∃ record ∈ records, store'.lastCycleSha256 = some record.digest := by
  induction h with
  | refl => exact .inl rfl
  | tail _ hchange ih =>
      cases hchange with
      | note _ _ _ hlast =>
          rcases hlast with hlast | hlast
          · rw [hlast]
            exact ih
          · exact .inr hlast
      | _ => exact ih

/-- A change of other tables. -/
lemma Changes.of_note (hdelivery : store'.delivery = store.delivery) (hstreams : store'.streams = store.streams)
    (hcursor : store'.observationCursor = store.observationCursor)
    (hlast : store'.lastCycleSha256 = store.lastCycleSha256) : Changes records store store' :=
  .single (.note hdelivery hstreams hcursor (.inl hlast))

/-- The changes of a loop. -/
lemma Changes.foldlM {α ε : Type} {f : AlertStore O → α → Except ε (AlertStore O)} {xs : List α}
    (hf : ∀ store store' x, x ∈ xs → Sound store → f store x = .ok store' → Changes records store store')
    (hsound : Sound store) (h : xs.foldlM f store = .ok store') : Changes records store store' := by
  induction xs generalizing store with
  | nil =>
      obtain rfl := pure_eq_ok_iff.mp h
      exact .refl
  | cons x xs ih =>
      rw [List.foldlM_cons] at h
      obtain ⟨mid, hmid, hrest⟩ := bind_eq_ok.mp h
      have hfirst := hf store mid x List.mem_cons_self hsound hmid
      refine hfirst.trans (ih (fun store store' y hy => hf store store' y (List.mem_cons_of_mem x hy)) ?_ hrest)
      exact hfirst.sound hsound

end changes

/-! ## The transactions -/

section transactions

variable [DecidableEq O] [Sha256] [StageObservation O] {records : List (ObservationCycle O)}
  {symbol : String} {stream stream' : SignalStream} {nowMs : ℤ}

/-- A withdrawal is one change; the stream it returns is the one it saved. -/
lemma invalidate_change (records : List (ObservationCycle O)) {reason : InvalidationReason} {observation : Option O} (hsound : Sound store)
    (hsame : (store.streamOf symbol).SameSignal stream)
    (h : store.invalidate symbol stream reason nowMs observation = .ok (store', stream')) :
    Change records store store' ∧ store'.streamOf symbol = stream' ∧ stream'.activeEventId = none := by
  simp only [AlertStore.invalidate, bind_eq_ok, orThrow_eq_ok, AlertStore.saveStream_eq_ok, pure_eq_ok_iff,
    Prod.mk.injEq] at h
  obtain ⟨activeEventId, hactive, _, hrec, entry, rfl, occurredAtMs, -, event, hevent, stored, hstored, db, hdb,
    saved, ⟨hcheck, rfl⟩, rfl, rfl⟩ := h
  simp only [AlertEvent.make, bind_eq_ok, pure_eq_ok_iff] at hevent
  obtain ⟨_, -, rfl⟩ := hevent
  obtain ⟨row, hrow, -, rfl, hid, -, hstate, -⟩ := Database.row_of_record hrec
  have hstores := Database.spec_stores hstored
  have hseen : (if AlertStore.seen entry then none else some SuppressedReason.historicalEvent) =
      unseenReason row.state := by
    simp only [AlertStore.seen, unseenReason, hstate, Bool.or_eq_true, decide_eq_true_eq]
  rw [hseen] at hstores
  obtain ⟨-, -, -, hout⟩ := Database.spec_suppress_row (hstores.keyed hsound.keyed) hdb
  rw [hid] at hout
  refine ⟨?_, ?_, rfl⟩
  · refine .withdraw hrow (hsame.2.1.symm.trans hactive) hcheck hsame.1 rfl rfl ?_ hstores hout
    exact congrArg some hid
  · rw [AlertStore.streamOf_putStream, if_pos rfl]

variable {observation : O}

/-- A new run of the service: at most a withdrawal. -/
lemma startEpoch_changes (records : List (ObservationCycle O)) {serviceRunId : Option String} (hsound : Sound store)
    (hsame : (store.streamOf (StageObservation.symbol observation)).SameSignal stream)
    (h : store.startEpoch observation stream nowMs serviceRunId = .ok (store', stream')) :
    Changes records store store' ∧ (store'.streamOf (StageObservation.symbol observation)).SameSignal stream' := by
  unfold AlertStore.startEpoch at h
  split at h
  · split at h
    · simp only [bind_eq_ok, pure_eq_ok_iff, Prod.exists, Prod.mk.injEq] at h
      obtain ⟨store₁, stream₁, hfirst, rfl, rfl⟩ := h
      obtain ⟨hchange, hstream, -⟩ := invalidate_change records hsound hsame hfirst
      exact ⟨.single hchange, hstream ▸ .refl _⟩
    · simp only [pure_bind, pure_eq_ok_iff, Prod.mk.injEq] at h
      obtain ⟨rfl, rfl⟩ := h
      exact ⟨.refl, hsame⟩
  · simp only [pure_eq_ok_iff, Prod.mk.injEq] at h
    obtain ⟨rfl, rfl⟩ := h
    exact ⟨.refl, hsame⟩

/-- The entry of a signal, together with saving its stream. -/
lemma startEntry_changes {reviewMs : ℕ} {key : HexDigest} (hsound : Sound store)
    (hsame : (store.streamOf (StageObservation.symbol observation)).SameSignal stream)
    (hkey : signalKey observation = some key) (hcheck : stream'.check = .ok ())
    (h : store.startEntry reviewMs observation key stream nowMs = .ok (store', stream')) :
    Changes records store (store'.putStream (StageObservation.symbol observation) stream') := by
  unfold AlertStore.startEntry at h
  split at h
  · simp only [bind_eq_ok, pure_eq_ok_iff, Prod.exists, Prod.mk.injEq, AlertEvent.make] at h
    obtain ⟨store₁, stream₁, hfirst, occurredAtMs, -, event, ⟨_, -, rfl⟩, db, hdb, rfl, rfl⟩ := h
    obtain ⟨hchange, rfl, hnone⟩ := invalidate_change records hsound hsame hfirst
    refine (Relation.ReflTransGen.single hchange).tail ?_
    exact .start hnone hkey hcheck rfl rfl rfl (Database.spec_stores hdb)
  · rename_i hnone
    simp only [pure_bind, bind_eq_ok, pure_eq_ok_iff, Prod.mk.injEq, AlertEvent.make] at h
    obtain ⟨occurredAtMs, -, event, ⟨_, -, rfl⟩, db, hdb, rfl, rfl⟩ := h
    have hinactive : stream.activeEventId = none := by simpa using hnone
    refine .single (.start (hsame.2.1.symm.trans hinactive) hkey hcheck ?_ rfl rfl (Database.spec_stores hdb))
    rw [← hsame.1]

/-- What an outcome does, together with saving the stream. -/
lemma applyOutcome_changes {reviewMs : ℕ} (hsound : Sound store)
    (hsame : (store.streamOf (StageObservation.symbol observation)).SameSignal stream)
    (hcheck : stream'.check = .ok ())
    (h : store.applyOutcome reviewMs observation stream nowMs = .ok (store', stream')) :
    Changes records store (store'.putStream (StageObservation.symbol observation) stream') := by
  unfold AlertStore.applyOutcome at h
  split at h
  · simp only [bind_eq_ok, orThrow_eq_ok, require_eq_ok, exists_const] at h
    obtain ⟨_, -, -, key, hkey, h⟩ := h
    split at h
    · simp only [pure_eq_ok_iff, Prod.mk.injEq] at h
      obtain ⟨rfl, rfl⟩ := h
      exact .single (.stream hcheck hsame)
    · exact startEntry_changes hsound hsame hkey hcheck h
  split at h
  · obtain ⟨hchange, hstream, -⟩ := invalidate_change records hsound hsame h
    exact (Relation.ReflTransGen.single hchange).tail (.stream hcheck (hstream ▸ .refl _))
  · simp only [pure_eq_ok_iff, Prod.mk.injEq] at h
    obtain ⟨rfl, rfl⟩ := h
    exact .single (.stream hcheck hsame)

/-- An observation is made of changes. -/
lemma observe_changes {reviewMs : ℕ} {serviceRunId collectionRunId : Option String} (hsound : Sound store)
    (h : store.observe reviewMs nowMs serviceRunId collectionRunId observation = .ok store') :
    Changes records store store' := by
  simp only [AlertStore.observe, bind_eq_ok, raiseAs_eq_ok, AlertStore.stream_eq_ok] at h
  obtain ⟨o, -, stream, ⟨-, rfl⟩, ⟨store₁, stream₁⟩, hepoch, h⟩ := h
  obtain ⟨hchanges, hsame⟩ := startEpoch_changes records hsound (.refl _) hepoch
  have hsound₁ := hchanges.sound hsound
  split at h
  · obtain rfl := pure_eq_ok_iff.mp h
    exact hchanges.tail (.note rfl rfl rfl (.inl rfl))
  refine hchanges.trans ?_
  unfold AlertStore.observeInOrder at h
  split at h
  · simp only [bind_eq_ok, require_eq_ok, exists_const, AlertStore.saveStream_eq_ok] at h
    obtain ⟨-, hcheck, rfl⟩ := h
    exact .single (.stream hcheck hsame)
  · simp only [bind_eq_ok, AlertStore.saveStream_eq_ok, Prod.exists] at h
    obtain ⟨store₂, stream₂, happly, hcheck, rfl⟩ := h
    refine applyOutcome_changes hsound₁ ?_ hcheck happly
    exact ⟨hsame.1, hsame.2.1, hsame.2.2⟩

/-! ## Collections -/

variable {alerts : EmailAlerts} {c : Collection O}

lemma observeAll_changes {serviceRunId : Option String} {observations : List O} (hsound : Sound store)
    (h : AlertStore.observeAll alerts c serviceRunId store observations = .ok store') : Changes records store store' :=
  Changes.foldlM (fun _ _ _ _ hsound h => observe_changes hsound h) hsound h

/-- A record that is consumed is the last cycle then. -/
lemma consumeCycle_changes {cycle : ObservationCycle O} (hcycle : cycle ∈ records) (hsound : Sound store)
    (h : store.consumeCycle alerts c cycle = .ok store') : Changes records store store' := by
  unfold AlertStore.consumeCycle at h
  split at h
  · simp only [bind_eq_ok, require_eq_ok, exists_const, pure_eq_ok_iff] at h
    obtain ⟨-, rfl⟩ := h
    exact .refl
  · simp only [bind_eq_ok, pure_eq_ok_iff] at h
    obtain ⟨observed, hobserved, rfl⟩ := h
    have hnote : Changes records store
        { store with consumedCycles := store.consumedCycles ++ [(cycle.cycleId, cycle.digest)] } :=
      .of_note rfl rfl rfl rfl
    have hchanges : Changes records _ observed := observeAll_changes (hnote.sound hsound) hobserved
    exact (hnote.trans hchanges).tail (.note rfl rfl rfl (.inr ⟨cycle, hcycle, rfl⟩))

lemma rematch_changes (hsound : Sound store) (h : store.rematch alerts c = .ok store') :
    Changes records store store' := by
  unfold AlertStore.rematch at h
  split at h
  · split at h
    · refine Changes.foldlM (fun store store' o _ hsound h => ?_) hsound h
      simp only [AlertStore.rematchOne, bind_eq_ok] at h
      obtain ⟨stream, -, h⟩ := h
      split at h
      · obtain rfl := pure_eq_ok_iff.mp h
        exact .refl
      · exact observe_changes hsound h
    · obtain rfl := pure_eq_ok_iff.mp h
      exact .refl
  · obtain rfl := pure_eq_ok_iff.mp h
    exact .refl

omit [DecidableEq O] [StageObservation O] in
lemma healthAlert_kind (event : HealthEvent) : (AlertStore.healthAlert alerts event : AlertEvent O).kind = .serviceFault ∨
    (AlertStore.healthAlert alerts event : AlertEvent O).kind = .serviceRecovered := by
  unfold AlertStore.healthAlert
  split
  · exact .inr rfl
  · exact .inl rfl

/-- An event about the service is stored, and other tables are written. -/
lemma service_changes {event : AlertEvent O} {suppressed : Option SuppressedReason} {db : Database O} {stored : AlertStore O}
    (hkind : event.kind = .serviceFault ∨ event.kind = .serviceRecovered)
    (h : store.delivery.enqueue event nowMs suppressed = .ok db) (hdelivery : stored.delivery = db)
    (hstreams : stored.streams = store.streams) (hcursor : stored.observationCursor = store.observationCursor)
    (hlast : stored.lastCycleSha256 = store.lastCycleSha256) : Changes records store stored := by
  have hservice : Changes records store { store with delivery := db } :=
    .single (.service hkind (Database.spec_stores h))
  exact hservice.tail (.note hdelivery hstreams hcursor (.inl hlast))

lemma healthEvent_changes {runId : String} {event : HealthEvent}
    (h : AlertStore.healthEvent alerts c runId store event = .ok store') : Changes records store store' := by
  unfold AlertStore.healthEvent at h
  split at h
  · simp only [bind_eq_ok, pure_eq_ok_iff, AlertEvent.make] at h
    obtain ⟨alert, ⟨_, -, rfl⟩, db, hdb, rfl⟩ := h
    exact service_changes (healthAlert_kind event) hdb rfl rfl rfl rfl
  · obtain rfl := pure_eq_ok_iff.mp h
    exact .refl

lemma healthEvents_changes (hsound : Sound store) (h : store.healthEvents alerts c = .ok store') :
    Changes records store store' := by
  unfold AlertStore.healthEvents at h
  split at h
  · simp only [bind_eq_ok, require_eq_ok, exists_const, pure_eq_ok_iff] at h
    obtain ⟨-, rfl⟩ := h
    exact .refl
  · simp only [bind_eq_ok, orThrow_eq_ok, raiseAs_eq_ok, pure_eq_ok_iff] at h
    obtain ⟨events, -, informed, hinformed, rfl⟩ := h
    have hchanges : Changes records store informed :=
      Changes.foldlM (fun _ _ _ _ _ h => healthEvent_changes h) hsound hinformed
    exact hchanges.tail (.note rfl rfl rfl (.inl rfl))

lemma runtimeChanged_changes {runtime : Runtime} {runId : Option String}
    (h : store.runtimeChanged alerts runtime runId nowMs = .ok store') : Changes records store store' := by
  simp only [AlertStore.runtimeChanged] at h
  generalize (if runtime = .running then (runtime, none) else (runtime, runId)) = key at h
  split at h
  · obtain rfl := pure_eq_ok_iff.mp h
    exact .refl
  split at h
  · simp only [bind_eq_ok, pure_eq_ok_iff, AlertEvent.make] at h
    obtain ⟨occurredAtMs, -, alert, ⟨_, -, rfl⟩, db, hdb, rfl⟩ := h
    refine service_changes ?_ hdb rfl rfl rfl rfl
    unfold AlertStore.runtimeAlert
    split
    · exact .inr rfl
    · exact .inl rfl
  · obtain rfl := pure_eq_ok_iff.mp h
    exact .of_note rfl rfl rfl rfl

omit [DecidableEq O] in
/-- An event that is reviewed until a time is an entry. -/
lemma entry_of_review {eventId : HexDigest} {entry : DeliveryRecord O} {reviewUntilMs : ℕ} {row : OutboxRow O}
    (hsound : Sound store) (hrec : store.delivery.record eventId = .ok (some entry))
    (hreview : entry.event.reviewUntilMs = some reviewUntilMs) (hrow : row ∈ store.delivery.outbox)
    (hid : row.eventId = entry.event.eventId) : row.payload.kind = .entryReview := by
  obtain ⟨row', hrow', -, hid', hevent, hpayload, -⟩ := Database.row_of_record hrec
  obtain rfl := hsound.keyed.eq_of_key hrow hrow' (hid.trans (hevent.trans hid'.symm))
  rw [← hpayload]
  exact Database.kind_of_record hrec hreview

omit [DecidableEq O] in
/-- An entry expires, and the streams stay. -/
lemma expireReview_changes (records : List (ObservationCycle O)) {eventId : HexDigest} {entry : DeliveryRecord O} {reviewUntilMs : ℕ} (hsound : Sound store)
    (hrec : store.delivery.record eventId = .ok (some entry)) (hreview : entry.event.reviewUntilMs = some reviewUntilMs)
    (h : store.expireReview nowMs entry.event reviewUntilMs = .ok store') :
    Changes records store store' ∧ ∀ symbol, (store'.streamOf symbol).SameSignal (store.streamOf symbol) := by
  unfold AlertStore.expireReview at h
  split at h
  · simp only [bind_eq_ok, pure_eq_ok_iff] at h
    obtain ⟨db, hdb, rfl⟩ := h
    obtain ⟨row, hrow, hid, hout⟩ := Database.spec_suppress_row hsound.keyed hdb
    rw [← hid] at hout
    exact ⟨.single (.expire hrow (entry_of_review hsound hrec hreview hrow hid) hout), fun _ => .refl _⟩
  · obtain rfl := pure_eq_ok_iff.mp h
    exact ⟨.refl, fun _ => .refl _⟩

/-- The review of the active entry of a symbol: it may expire, and it may be withdrawn. -/
lemma reviewStream_changes {caughtUp : Bool} (hsound : Sound store)
    (h : store.reviewStream c caughtUp symbol = .ok store') : Changes records store store' := by
  simp only [AlertStore.reviewStream, bind_eq_ok, AlertStore.stream_eq_ok] at h
  obtain ⟨stream, ⟨-, rfl⟩, h⟩ := h
  split at h
  · obtain rfl := pure_eq_ok_iff.mp h
    exact .refl
  · simp only [bind_eq_ok, orThrow_eq_ok] at h
    obtain ⟨_, hrec, entry, rfl, reviewUntilMs, hreview, expired, hexpired, h⟩ := h
    obtain ⟨hexpire, hsame⟩ := expireReview_changes records hsound hrec hreview hexpired
    split at h
    · simp only [bind_eq_ok, pure_eq_ok_iff, Prod.exists] at h
      obtain ⟨withdrawn, stream, hwithdrawn, rfl⟩ := h
      exact hexpire.tail (invalidate_change records (Changes.sound hexpire hsound) (hsame symbol) hwithdrawn).1
    · obtain rfl := pure_eq_ok_iff.mp h
      exact hexpire

/-- **A collection is made of changes**, and moves the cursor behind the records it read. -/
theorem collect_changes {log : ObservationLog O} {snapshot : Snapshot O} (hsound : Sound store)
    (h : store.collect alerts log snapshot nowMs = .ok store') :
    ∃ records consumed, log.readBatch store.observationCursor 1000 = .ok records ∧ Changes records store consumed ∧
      Changes records { consumed with observationCursor := store.observationCursor + records.length } store' := by
  simp only [AlertStore.collect, bind_eq_ok, orThrow_eq_ok, raiseAs_eq_ok, pure_eq_ok_iff, Prod.exists] at h
  obtain ⟨records, hrecords, state, alive, -, consumed, hconsumed, matched, hmatched, informed, hinformed, announced,
    hannounced, reviewed, hreviewed, rfl⟩ := h
  have hfirst : Changes records store consumed :=
    Changes.foldlM (fun _ _ cycle hcycle hsound h => consumeCycle_changes hcycle hsound h) hsound hconsumed
  refine ⟨records, consumed, hrecords, hfirst, ?_⟩
  have hsound₁ : Sound { consumed with observationCursor := store.observationCursor + records.length } :=
    (hfirst.sound hsound).of_rows (hfirst.sound hsound).keyed rfl fun row hrow => ⟨row, hrow, rfl, rfl⟩
  have hmatch : Changes records _ matched := rematch_changes hsound₁ hmatched
  have hinform := hmatch.trans (healthEvents_changes (hmatch.sound hsound₁) hinformed)
  have hannounce : Changes records informed announced := by
    split at hannounced
    · exact runtimeChanged_changes hannounced
    · obtain rfl := pure_eq_ok_iff.mp hannounced
      exact .refl
  have hall := hinform.trans hannounce
  have hreview : Changes records announced reviewed :=
    Changes.foldlM (fun _ _ _ _ hsound h => reviewStream_changes hsound h) (Changes.sound hall hsound₁) hreviewed
  exact (hall.trans hreview).tail (.note rfl rfl rfl (.inl rfl))

/-- So is the transaction when the source is unreadable. -/
theorem sourceUnavailable_changes (hsound : Sound store) (h : store.sourceUnavailable alerts nowMs = .ok store') :
    Changes [] store store' := by
  simp only [AlertStore.sourceUnavailable, raiseAs_eq_ok, bind_eq_ok] at h
  obtain ⟨announced, hannounced, hwithdrawn⟩ := h
  have hnote : Changes [] store { store with sourceReady := false } := .of_note rfl rfl rfl rfl
  have hannounce := hnote.trans (runtimeChanged_changes hannounced)
  refine hannounce.trans (Changes.foldlM (fun store store' symbol _ hsound h => ?_) (Changes.sound hannounce hsound) hwithdrawn)
  simp only [AlertStore.withdraw, bind_eq_ok, AlertStore.stream_eq_ok] at h
  obtain ⟨stream, ⟨-, rfl⟩, h⟩ := h
  split at h
  · simp only [bind_eq_ok, pure_eq_ok_iff, Prod.exists] at h
    obtain ⟨withdrawn, stream, hwithdrawn, rfl⟩ := h
    exact .single (invalidate_change [] hsound (.refl _) hwithdrawn).1
  · obtain rfl := pure_eq_ok_iff.mp h
    exact .refl

omit [DecidableEq O] in
lemma observationUnavailable_changes (h : store.observationUnavailable nowMs = .ok store') :
    Changes records store store' := by
  simp only [AlertStore.observationUnavailable, bind_eq_ok, require_eq_ok, exists_const, pure_eq_ok_iff] at h
  obtain ⟨-, rfl⟩ := h
  exact .of_note rfl rfl rfl rfl

lemma reconcileHealth_changes {state : ServiceState O} (h : store.reconcileHealth alerts state nowMs = .ok store') :
    Changes records store store' := by
  simp only [AlertStore.reconcileHealth, bind_eq_ok, pure_eq_ok_iff, AlertEvent.make] at h
  obtain ⟨occurredAtMs, -, audit, ⟨_, -, rfl⟩, db, hdb, rfl⟩ := h
  exact service_changes (.inl rfl) hdb rfl rfl rfl rfl

end transactions

end MuStrategy.Notifications

