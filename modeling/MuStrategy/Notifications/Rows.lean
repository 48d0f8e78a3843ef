import MuStrategy.Notifications.Delivery
import MuStrategy.Notifications.Health

/-!
# What happens to the rows

The rows of the outbox are only added and moved on: an event keeps its row and its payload, a suppression stays, and
only entries are suppressed after they were stored.

* `RowLe`, `Delivers` — what a sender or the operator does to the rows; one lemma for each statement of the outbox.
* `Stores` — what storing an event does; `Database.spec_stores`.
* `OutboxRow.suppress` — what a suppression does; `Database.spec_suppress_row`.
-/

namespace MuStrategy.Notifications

open Lib

variable {O : Type}

/-! ## Rows that move on -/

/-- A row that moved on: the same event; a suppression stays, a confirmation stays, a suppressed row that no attempt
holds stays as it is, and only an entry is suppressed. -/
structure RowLe (r r' : OutboxRow O) : Prop where
  eventId : r'.eventId = r.eventId
  payload : r'.payload = r.payload
  suppressed : r.suppressedReason.isSome → r'.suppressedReason = r.suppressedReason
  kept : r.payload.kind ≠ .entryReview → r'.suppressedReason = r.suppressedReason
  confirmed : r.state = .confirmed → r'.state = .confirmed
  settled : r.suppressedReason.isSome → r.state ≠ .unknown → r'.state = r.state

lemma RowLe.refl (r : OutboxRow O) : RowLe r r := ⟨rfl, rfl, fun _ => rfl, fun _ => rfl, id, fun _ _ => rfl⟩

lemma RowLe.trans {r r' r'' : OutboxRow O} (h : RowLe r r') (h' : RowLe r' r'') : RowLe r r'' where
  eventId := h'.eventId.trans h.eventId
  payload := h'.payload.trans h.payload
  suppressed hs := (h'.suppressed (h.suppressed hs ▸ hs)).trans (h.suppressed hs)
  kept hk := (h'.kept (h.payload ▸ hk)).trans (h.kept hk)
  confirmed hc := h'.confirmed (h.confirmed hc)
  settled hs hu := by
    have hstate := h.settled hs hu
    exact (h'.settled (h.suppressed hs ▸ hs) (hstate ▸ hu)).trans hstate

/-- The rows moved on, one by one. -/
def Delivers (db db' : Database O) : Prop :=
  ∃ g : OutboxRow O → OutboxRow O, (∀ r ∈ db.outbox, RowLe r (g r)) ∧ db'.outbox = db.outbox.map g

namespace Delivers

variable {db db' db'' : Database O}

lemma of_outbox_eq (h : db'.outbox = db.outbox) : Delivers db db' :=
  ⟨id, fun r _ => .refl r, by rw [h, List.map_id]⟩

lemma refl (db : Database O) : Delivers db db := of_outbox_eq rfl

lemma trans (h : Delivers db db') (h' : Delivers db' db'') : Delivers db db'' := by
  obtain ⟨g, hg, hout⟩ := h
  obtain ⟨g', hg', hout'⟩ := h'
  refine ⟨g' ∘ g, fun r hr => (hg r hr).trans (hg' _ ?_), by rw [hout', hout, List.map_map]⟩
  rw [hout]
  exact List.mem_map_of_mem hr

lemma keyed (h : Delivers db db') (hkeyed : db.Keyed) : db'.Keyed := by
  obtain ⟨g, hg, hout⟩ := h
  have hkeys : db'.outbox.map OutboxRow.eventId = db.outbox.map OutboxRow.eventId := by
    rw [hout, List.map_map]
    exact List.map_congr_left fun r hr => (hg r hr).eventId
  unfold Database.Keyed Table.UniqueKeys
  rw [hkeys]
  exact hkeyed

/-- An update of one row with a line of history. -/
lemma of_updateRow {f : OutboxRow O → OutboxRow O} {row : OutboxRow O} (hkeyed : db.Keyed) (hrow : row ∈ db.outbox)
    (hf : RowLe row (f row)) (h : db'.outbox = (db.updateRow row.eventId f).outbox) : Delivers db db' := by
  refine ⟨fun r => if r.eventId = row.eventId then f r else r, fun r hr => ?_, ?_⟩
  · change RowLe r (if r.eventId = row.eventId then f r else r)
    by_cases hid : r.eventId = row.eventId
    · obtain rfl := hkeyed.eq_of_key hr hrow hid
      rw [if_pos rfl]
      exact hf
    · rw [if_neg hid]
      exact .refl r
  · rw [h]
    simp only [Database.updateRow, Table.update, decide_eq_true_eq]

end Delivers

/-! ## Records -/

/-- Reading an event back returns it. -/
lemma AlertEvent.eq_of_fromJson [StageObservation O] {event result : AlertEvent O} (h : event.fromJson = .ok result) :
    result = event := by
  simp only [fromJson, bind_eq_ok, raiseAs_eq_ok, pure_eq_ok_iff] at h
  obtain ⟨observation, hobservation, _, -, rfl⟩ := h
  unfold fromJsonObservation at hobservation
  split at hobservation
  · rename_i hnone
    obtain rfl := pure_eq_ok_iff.mp hobservation
    rw [← hnone]
  · rename_i o hsome
    cases hread : (ReviewObservation.fromDict o : Option O) with
    | none =>
        rw [hread] at hobservation
        cases hobservation
    | some o' =>
        rw [hread] at hobservation
        obtain rfl : some o' = observation := Except.ok.inj hobservation
        rw [StageObservation.fromDict_eq hread, ← hsome]

/-- Only entries can be reviewed until a time. -/
lemma AlertEvent.kind_of_fromJson [ReviewObservation O] {event result : AlertEvent O} {reviewUntilMs : ℕ}
    (h : event.fromJson = .ok result) (hreview : result.reviewUntilMs = some reviewUntilMs) :
    result.kind = .entryReview := by
  simp only [fromJson, bind_eq_ok, raiseAs_eq_ok, pure_eq_ok_iff] at h
  obtain ⟨observation, -, _, hinit, rfl⟩ := h
  by_contra hkind
  change event.kind ≠ .entryReview at hkind
  change event.reviewUntilMs = some reviewUntilMs at hreview
  simp only [postInit, bind_eq_ok, require_eq_ok, exists_const] at hinit
  obtain ⟨-, -, hchecks⟩ := hinit
  split at hchecks
  · simp only [checkSignal, bind_eq_ok, require_eq_ok, exists_const, if_neg hkind] at hchecks
    obtain ⟨_, -, -, -, hrelated⟩ := hchecks
    rw [hreview] at hrelated
    simp at hrelated
  · simp only [checkService, require_eq_ok] at hchecks
    rw [hreview] at hchecks
    simp at hchecks

/-- An entry carries an observation. -/
lemma AlertEvent.observation_of_fromJson [ReviewObservation O] {event result : AlertEvent O}
    (h : event.fromJson = .ok result) (hkind : result.kind = .entryReview) : ∃ o, result.observation = some o := by
  simp only [fromJson, bind_eq_ok, raiseAs_eq_ok, pure_eq_ok_iff] at h
  obtain ⟨observation, -, _, hinit, rfl⟩ := h
  simp only [postInit, bind_eq_ok, require_eq_ok, exists_const] at hinit
  obtain ⟨-, -, hchecks⟩ := hinit
  rw [if_pos (.inl hkind)] at hchecks
  simp only [checkSignal, bind_eq_ok, orThrow_eq_ok] at hchecks
  obtain ⟨o, ho, -⟩ := hchecks
  exact ⟨o, ho⟩

namespace Database

variable {db db' : Database O} {eventId : HexDigest} {nowMs : ℤ} [Sha256] [StageObservation O]
  {record : DeliveryRecord O}

/-- A record that was read is its payload, read back. -/
lemma fromJson_of_record (h : db.record eventId = .ok (some record)) :
    ∃ row, db.row eventId = some row ∧ row.payload.fromJson = .ok record.event ∧ record.event.eventId = row.eventId ∧
      record.state = row.state ∧ record.attempts = row.attempts ∧ record.suppressedReason = row.suppressedReason := by
  unfold Database.record at h
  split at h
  · cases h
  · rename_i row hrow
    cases hread : readRow row with
    | error e =>
        rw [hread] at h
        cases h
    | ok read =>
        rw [hread, map_ok, Except.ok.injEq, Option.some.injEq] at h
        subst h
        simp only [readRow, bind_eq_ok, require_eq_ok, exists_const, pure_eq_ok_iff] at hread
        obtain ⟨event, hevent, hid, -, rfl⟩ := hread
        exact ⟨row, hrow, hevent, of_decide_eq_true hid, rfl, rfl, rfl⟩

/-- A record that was read is that of a row. -/
lemma row_of_record (h : db.record eventId = .ok (some record)) :
    ∃ row ∈ db.outbox, db.row eventId = some row ∧ row.eventId = eventId ∧ record.event.eventId = eventId ∧
      record.event = row.payload ∧ record.state = row.state ∧ record.attempts = row.attempts ∧
      record.suppressedReason = row.suppressedReason := by
  obtain ⟨row, hrow, hevent, hid, hstate, hattempts, hsuppressed⟩ := fromJson_of_record h
  have hkey := Table.key_of_lookup hrow
  exact ⟨row, Table.mem_of_lookup hrow, hrow, hkey, hid.trans hkey, AlertEvent.eq_of_fromJson hevent, hstate, hattempts,
    hsuppressed⟩

/-- Only entries can be reviewed until a time. -/
lemma kind_of_record {reviewUntilMs : ℕ} (h : db.record eventId = .ok (some record))
    (hreview : record.event.reviewUntilMs = some reviewUntilMs) : record.event.kind = .entryReview := by
  obtain ⟨row, -, hevent, -⟩ := fromJson_of_record h
  exact AlertEvent.kind_of_fromJson hevent hreview

/-- An entry carries an observation. -/
lemma observation_of_record (h : db.record eventId = .ok (some record)) (hkind : record.event.kind = .entryReview) :
    ∃ o, record.event.observation = some o := by
  obtain ⟨row, -, hevent, -⟩ := fromJson_of_record h
  exact AlertEvent.observation_of_fromJson hevent hkind

/-! ## The statements of senders and the operator -/

omit [Sha256] [StageObservation O] in
/-- A row that is claimed is pending or failed, and not suppressed. -/
lemma rowLe_reserve {row : OutboxRow O} {dueMs : ℕ} (h : isClaimable 3 dueMs row = true) : RowLe row (reserveRow row) := by
  simp only [isClaimable, Bool.and_eq_true, Bool.or_eq_true, decide_eq_true_eq, Option.isNone_iff_eq_none] at h
  obtain ⟨⟨⟨hopen, -⟩, -⟩, hstate⟩ := h
  refine ⟨rfl, rfl, fun _ => rfl, fun _ => rfl, fun hc => ?_, fun hs => ?_⟩
  · rcases hstate with hstate | ⟨hstate, -⟩ <;> rw [hc] at hstate <;> cases hstate
  · rw [hopen] at hs
    cases hs

/-- A claim moves one row on, and returns what it made of it. -/
lemma delivers_claim {claimed : Option (DeliveryRecord O)} (hkeyed : db.Keyed) (h : db.claim nowMs = .ok (db', claimed)) :
    Delivers db db' ∧ ∀ record, claimed = some record → ∃ row ∈ db.outbox, row.suppressedReason = none ∧
      row.state ≠ .unknown ∧ row.state ≠ .confirmed ∧ reserveRow row ∈ db'.outbox ∧ record.event = row.payload ∧
      record.event.eventId = row.eventId ∧ record.attempts = row.attempts + 1 ∧
      db'.outbox = (db.updateRow row.eventId reserveRow).outbox := by
  simp only [claim, bind_eq_ok] at h
  obtain ⟨dueMs, -, dueMs', -, h⟩ := h
  split at h
  · simp only [pure_eq_ok_iff, Prod.mk.injEq] at h
    obtain ⟨rfl, rfl⟩ := h
    exact ⟨.refl _, by simp⟩
  · rename_i found hfound
    have hmem : found ∈ db.outbox := List.mem_of_find?_eq_some hfound
    have hclaimable : isClaimable 3 dueMs' found = true := List.find?_some hfound
    simp only [claimRow, bind_eq_ok, orThrow_eq_ok, pure_eq_ok_iff, Prod.mk.injEq] at h
    obtain ⟨_, hrec, db₁, hdb₁, record, rfl, again, hagain, rfl, rfl⟩ := h
    have hout := outbox_history hdb₁
    refine ⟨.of_updateRow hkeyed hmem (rowLe_reserve hclaimable) hout, ?_⟩
    rintro record' rfl
    obtain ⟨row, -, -, -, hid, -⟩ := row_of_record hrec
    rw [hid] at hagain
    obtain ⟨row', hrow', -, hid', hevent', hpayload, -, hattempts, -⟩ := row_of_record hagain
    have hreserved : row' = reserveRow found := by
      rw [hout] at hrow'
      obtain ⟨hne, hrow'⟩ | ⟨r, hr, hrid, rfl⟩ := Table.mem_update_key.mp hrow'
      · exact absurd hid' hrow'
      · rw [hkeyed.eq_of_key hr hmem hrid]
    subst hreserved
    simp only [isClaimable, Bool.and_eq_true, Bool.or_eq_true, decide_eq_true_eq, Option.isNone_iff_eq_none] at hclaimable
    obtain ⟨⟨⟨hopen, -⟩, -⟩, hstate⟩ := hclaimable
    refine ⟨found, hmem, hopen, ?_, ?_, hrow', hpayload, hevent', hattempts, hout⟩
    · rcases hstate with hstate | ⟨hstate, -⟩ <;> rw [hstate] <;> decide
    · rcases hstate with hstate | ⟨hstate, -⟩ <;> rw [hstate] <;> decide

/-- A statement that moves one unknown attempt on, keeping what the row is about. -/
lemma delivers_unknown {f : OutboxRow O → OutboxRow O} {action result : String} (hkeyed : db.Keyed)
    (h : (db.updateRow eventId f).history eventId nowMs action result = .ok db')
    (hrec : db.record eventId = .ok (some record)) (hstate : record.state = .unknown)
    (hf : ∀ r, (f r).eventId = r.eventId ∧ (f r).payload = r.payload ∧ (f r).suppressedReason = r.suppressedReason) :
    Delivers db db' := by
  obtain ⟨row, hmem, -, rfl, -, -, hrs, -⟩ := row_of_record hrec
  rw [hstate] at hrs
  obtain ⟨hid, hpayload, hsuppressed⟩ := hf row
  refine .of_updateRow hkeyed hmem ⟨hid, hpayload, fun _ => hsuppressed, fun _ => hsuppressed, ?_, ?_⟩ (outbox_history h)
  · intro hc
    rw [hc] at hrs
    cases hrs
  · exact fun _ hu => absurd hrs.symm hu

lemma delivers_finish {state : DeliveryState} {code : String} {retryable : Bool} (hkeyed : db.Keyed)
    (h : db.finish eventId state nowMs code retryable = .ok db') : Delivers db db' := by
  simp only [finish, bind_eq_ok, orThrow_eq_ok, require_eq_ok, exists_const, Bool.and_eq_true, decide_eq_true_eq] at h
  obtain ⟨_, hrec, record, rfl, hstate, _, -, _, -, h⟩ := h
  exact delivers_unknown hkeyed h hrec hstate.1 fun _ => ⟨rfl, rfl, rfl⟩

lemma delivers_deferUnstarted {reason : UnstartedReason} (hkeyed : db.Keyed)
    (h : db.deferUnstarted eventId nowMs reason = .ok db') : Delivers db db' := by
  simp only [deferUnstarted, bind_eq_ok, orThrow_eq_ok, require_eq_ok, exists_const, Bool.and_eq_true,
    decide_eq_true_eq] at h
  obtain ⟨_, hrec, record, rfl, hstate, _, -, _, -, h⟩ := h
  exact delivers_unknown hkeyed h hrec hstate.1 fun _ => ⟨rfl, rfl, rfl⟩

lemma delivers_resolve {outcome : DeliveryState} (hkeyed : db.Keyed) (h : db.resolve eventId outcome nowMs = .ok db') :
    Delivers db db' := by
  simp only [resolve, bind_eq_ok, require_eq_ok, exists_const] at h
  exact delivers_finish hkeyed h.2

lemma delivers_retryFailed (hkeyed : db.Keyed) (h : db.retryFailed eventId nowMs = .ok db') : Delivers db db' := by
  simp only [retryFailed, bind_eq_ok, orThrow_eq_ok, require_eq_ok, exists_const] at h
  obtain ⟨_, hrec, record, rfl, -, _, -, _, -, h⟩ := h
  obtain ⟨row, hmem, -, rfl, -⟩ := row_of_record hrec
  exact .of_updateRow hkeyed hmem ⟨rfl, rfl, fun _ => rfl, fun _ => rfl, id, fun _ _ => rfl⟩ (outbox_history h)

end Database

/-! ## Suppressions -/

/-- A suppressed row: the first reason stays. Source: `notifications/store.py` `NotificationStore.suppress`. -/
def OutboxRow.suppress (reason : SuppressedReason) (row : OutboxRow O) : OutboxRow O :=
  { row with suppressedReason := some (row.suppressedReason.getD reason) }

/-- A suppressed row stays. -/
lemma OutboxRow.suppress_eq_self {row : OutboxRow O} {reason previous : SuppressedReason}
    (h : row.suppressedReason = some previous) : row.suppress reason = row := by
  rw [OutboxRow.suppress, h, Option.getD_some, ← h]

/-- Suppressing an entry moves its row on. -/
lemma rowLe_suppress {row : OutboxRow O} {reason : SuppressedReason} (hentry : row.payload.kind = .entryReview) :
    RowLe row (row.suppress reason) where
  eventId := rfl
  payload := rfl
  suppressed hs := by
    obtain ⟨previous, hprevious⟩ := Option.isSome_iff_exists.mp hs
    rw [OutboxRow.suppress, hprevious, Option.getD_some]
  kept hk := absurd hentry hk
  confirmed := id
  settled _ _ := rfl

namespace Database

variable {db db' : Database O} {eventId : HexDigest} {nowMs : ℤ} [Sha256] [StageObservation O]
  {record : DeliveryRecord O}

/-- A suppression suppresses the row of the event. -/
lemma spec_suppress_row {reason : SuppressedReason} (hkeyed : db.Keyed) (h : db.suppress eventId reason nowMs = .ok db') :
    ∃ row ∈ db.outbox, row.eventId = eventId ∧ db'.outbox = (db.updateRow eventId (·.suppress reason)).outbox := by
  simp only [suppress, bind_eq_ok, orThrow_eq_ok] at h
  obtain ⟨_, hrec, record, rfl, h⟩ := h
  obtain ⟨row, hmem, hrow, hid, -, -, -, -, hsuppressed⟩ := row_of_record hrec
  refine ⟨row, hmem, hid, ?_⟩
  split at h
  · rename_i hnone
    rw [setSuppressed] at h
    rw [outbox_history h]
    refine List.map_congr_left fun r hr => ?_
    by_cases hr' : r.eventId = eventId
    · obtain rfl := hkeyed.eq_of_key hr hmem (hr'.trans hid.symm)
      rw [hnone] at hsuppressed
      simp only [hr', decide_true, if_true, OutboxRow.suppress, ← hsuppressed, Option.getD_none]
    · simp only [hr', decide_false, Bool.false_eq_true, if_false]
  · rename_i hsome
    obtain rfl := pure_eq_ok_iff.mp h
    have hsame : (db.updateRow eventId (·.suppress reason)).outbox = db.outbox.map id := by
      refine List.map_congr_left fun r hr => ?_
      by_cases hr' : r.eventId = eventId
      · obtain rfl := hkeyed.eq_of_key hr hmem (hr'.trans hid.symm)
        obtain ⟨previous, hprevious⟩ := Option.ne_none_iff_exists'.mp (hsuppressed ▸ hsome)
        rw [if_pos (decide_eq_true hr')]
        exact OutboxRow.suppress_eq_self hprevious
      · simp only [hr', decide_false, Bool.false_eq_true, if_false, id]
    rw [hsame, List.map_id]

/-- Suppressing an entry moves its row on. -/
lemma delivers_suppress {reason : SuppressedReason} (hkeyed : db.Keyed)
    (hentry : ∀ row ∈ db.outbox, row.eventId = eventId → row.payload.kind = .entryReview)
    (h : db.suppress eventId reason nowMs = .ok db') : Delivers db db' := by
  obtain ⟨row, hmem, rfl, hout⟩ := spec_suppress_row hkeyed h
  exact .of_updateRow hkeyed hmem (rowLe_suppress (hentry row hmem rfl)) hout

/-! ## Storing an event -/

/-- An event was stored: its row was added, or it was there already. -/
inductive Stores (db : Database O) (event : AlertEvent O) (suppressed : Option SuppressedReason) :
    List (OutboxRow O) → Prop where
  | found {row : OutboxRow O} (hmem : row ∈ db.outbox) (hid : row.eventId = event.eventId)
      (hpayload : row.payload = event) : Stores db event suppressed db.outbox
  | added {nowMs : ℕ} (hfresh : ∀ r ∈ db.outbox, r.eventId ≠ event.eventId) :
      Stores db event suppressed (db.outbox ++ [newRow event event nowMs suppressed])

lemma spec_stores [DecidableEq O] {event : AlertEvent O} {suppressed : Option SuppressedReason}
    (h : db.enqueue event nowMs suppressed = .ok db') : Stores db event suppressed db'.outbox := by
  simp only [enqueue, bind_eq_ok] at h
  obtain ⟨canonical, hcanonical, existing, hexisting, h⟩ := h
  obtain rfl := AlertEvent.eq_of_fromJson hcanonical
  cases existing with
  | some existing =>
      simp only [checkSame, bind_eq_ok, require_eq_ok, exists_const, pure_eq_ok_iff] at h
      obtain ⟨hsame, rfl⟩ := h
      obtain ⟨row, hmem, -, hid, -, hpayload, -⟩ := row_of_record hexisting
      exact .found hmem hid (hpayload.symm.trans (of_decide_eq_true hsame))
  | none =>
      simp only [insertRow, bind_eq_ok, orThrow_eq_ok, Table.insertUnique_eq_some_iff] at h
      obtain ⟨_, -, _, -, outbox, ⟨hfresh, houtbox⟩, h⟩ := h
      rw [outbox_history h]
      change Stores db canonical suppressed outbox
      rw [houtbox]
      exact .added hfresh

omit [StageObservation O] in
lemma Stores.keyed {event : AlertEvent O} {suppressed : Option SuppressedReason} {outbox : List (OutboxRow O)}
    (h : Stores db event suppressed outbox) (hkeyed : db.Keyed) : Table.UniqueKeys OutboxRow.eventId outbox := by
  cases h with
  | found => exact hkeyed
  | added hfresh => exact Table.UniqueKeys.append hkeyed hfresh

end Database

end MuStrategy.Notifications
