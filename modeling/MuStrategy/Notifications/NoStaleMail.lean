import Mathlib.Data.List.Infix
import MuStrategy.Notifications.SignalLifecycle

/-!
# No stale entry mail

A sender decides to mail an entry in its second transaction, while it holds the lock of the observation log. What it
has found stays true until the mail, because neither the database nor the log can change before.

* `HandlesRows` — a sender that holds a record holds that of a row.
* `Consumed` — what the cursor and the last cycle say about the log.
* `Ready` — what a sender has found when it mails an entry; `ready_of_reachable`.
* `NotStale`, `no_stale_entry_mail` — an entry is mailed only while it is current, and never once it was suppressed.
-/

namespace MuStrategy.Notifications

open Lib

section steps

variable {ι O : Type} [DecidableEq ι] [DecidableEq O] [Sha256] [StageObservation O]

/-! ## Records in hand -/

/-- The record is that of a row; an event other than an entry is not suppressed. -/
def Handles (db : Database O) (record : DeliveryRecord O) : Prop :=
  ∃ row ∈ db.outbox, row.eventId = record.event.eventId ∧ row.payload = record.event ∧
    (record.event.kind ≠ .entryReview → row.suppressedReason = none)

/-- Every record that a sender has in hand is that of a row. -/
def HandlesRows (s : State ι O) : Prop :=
  ∀ p record, (s.senders p).record? = some record → Handles s.db record

section handles

variable {s t : State ι O}

omit [DecidableEq ι] [DecidableEq O] in
/-- The record that a sender read again is the claimed one. -/
lemma handles_mail {claimed current : DeliveryRecord O} (hkeyed : s.db.Keyed) (hclaimed : Handles s.db claimed)
    (hrec : s.db.record claimed.event.eventId = .ok (some current)) :
    Handles s.db current ∧ current.event = claimed.event := by
  obtain ⟨row, hrow, hid, hpayload, hkept⟩ := hclaimed
  obtain ⟨row', hrow', -, hid', -, hevent, -⟩ := Database.row_of_record hrec
  obtain rfl := hkeyed.eq_of_key hrow' hrow (hid'.trans hid.symm)
  have hsame : current.event = claimed.event := hevent.trans hpayload
  exact ⟨⟨row', hrow, hsame ▸ hid, hsame ▸ hpayload, hsame ▸ hkept⟩, hsame⟩

omit [DecidableEq O] in
lemma SenderStep.handlesRows {label : Label ι O} (h : SenderStep label s t) (hkeyed : s.db.Keyed) (hs : HandlesRows s)
    (hkeep : ∀ record, Handles s.db record → Handles t.db record) : HandlesRows t := by
  intro q record hq
  have hother : t.senders q = s.senders q → Handles t.db record := fun hsame => hkeep record (hs q record (hsame ▸ hq))
  cases h with
  | stay => exact hother rfl
  | commit => exact hother rfl
  | @free p db lock sender hrecord _ _ =>
      by_cases hqp : q = p
      · subst hqp
        rw [State.senders_move_self, hrecord] at hq
        cases hq
      · exact hother (State.senders_move_of_ne hqp)
  | @claim p left nowMs db record' hlock hclaim =>
      by_cases hqp : q = p
      · subst hqp
        rw [State.senders_move_self] at hq
        obtain rfl := Option.some.inj hq
        obtain ⟨row, hrow, hopen, -, -, hreserved, hpayload, hid, -⟩ := (Database.delivers_claim hkeyed hclaim).2 _ rfl
        exact ⟨_, hreserved, hid.symm, hpayload.symm, fun _ => hopen⟩
      · exact hother (State.senders_move_of_ne hqp)
  | @mail p left claimed current nowMs evidence db _ hlock hp hrecheck =>
      by_cases hqp : q = p
      · subst hqp
        rw [State.senders_move_self] at hq
        obtain rfl := Option.some.inj hq
        obtain ⟨rfl, hrec, -⟩ := spec_mailed hrecheck
        exact (handles_mail hkeyed (hs q claimed (by rw [hp]; rfl)) hrec).1
      · exact hother (State.senders_move_of_ne hqp)
  | @send p left record' hp =>
      by_cases hqp : q = p
      · subst hqp
        rw [State.senders_send_self] at hq
        exact hs q record (by rw [hp]; exact hq)
      · exact hother (State.senders_send_of_ne hqp)

end handles

variable {alerts : EmailAlerts} {s t : AlertState ι O}

omit [DecidableEq ι] [DecidableEq O] [StageObservation O] in
lemma Extends.handles {store store' : AlertStore O} (h : Extends store store') {record : DeliveryRecord O}
    (hrecord : Handles store.delivery record) : Handles store'.delivery record := by
  obtain ⟨row, hrow, hid, hpayload, hkept⟩ := hrecord
  obtain ⟨row', hrow', hle⟩ := h.rows row hrow
  refine ⟨row', hrow', hle.eventId.trans hid, hle.payload.trans hpayload, fun hkind => ?_⟩
  rw [hle.kept (hpayload ▸ hkind)]
  exact hkept hkind

lemma handlesRows_of_reachable (h : (alertSystem ι O alerts).Reachable s) : HandlesRows s.mail := by
  refine (System.Reachable.invariant (I := fun s => Sound s.store ∧ HandlesRows s.mail) ?_ ?_ h).2
  · rintro s rfl
    refine ⟨.empty, fun p record hp => ?_⟩
    cases hp
  · intro s label t hs hstep
    have hevolves := step_evolves hs.1 hstep
    refine ⟨hevolves.sound, ?_⟩
    obtain ⟨_, hsender⟩ := senderStep_of_alertStep hstep
    exact hsender.handlesRows hs.1.keyed hs.2 fun _ => hevolves.grows.handles

/-! ## The consumed part of the log -/

/-- The cursor is inside the log, and the last consumed cycle is a record before it. -/
structure Consumed (s : AlertState ι O) : Prop where
  cursor : s.signals.observationCursor ≤ s.log.records.length
  last : ∀ digest, s.signals.lastCycleSha256 = some digest →
    ∃ record ∈ s.log.records.take s.signals.observationCursor, record.digest = digest

omit [DecidableEq ι] [DecidableEq O] in
/-- Changes that consume nothing. -/
lemma Consumed.changes (hs : Consumed s) {store : AlertStore O} (h : Changes [] s.store store) :
    Consumed { s with mail := s.mail.withDb store.delivery, signals := store.toSignals } := by
  have hcursor : store.observationCursor = s.signals.observationCursor := h.cursor
  have hlast : store.lastCycleSha256 = s.store.lastCycleSha256 := by simpa using h.lastCycle
  exact ⟨hcursor ▸ hs.cursor, fun digest hd => hcursor ▸ hs.last digest (hlast ▸ hd)⟩

omit [DecidableEq ι] in
/-- A collection consumes the records that it read. -/
lemma Consumed.collect (hs : Consumed s) (hsound : Sound s.store) {found : ℕ} {nowMs : ℤ} {snapshot : Snapshot O}
    {store : AlertStore O} (h : s.store.collect alerts (s.log.before found) snapshot nowMs = .ok store) :
    Consumed { s with mail := s.mail.withDb store.delivery, signals := store.toSignals } := by
  obtain ⟨records, consumed, hrecords, hfirst, hrest⟩ := collect_changes hsound h
  simp only [ObservationLog.readBatch, bind_eq_ok, require_eq_ok, exists_const, pure_eq_ok_iff, decide_eq_true_eq]
    at hrecords
  obtain ⟨-, hbound, hrecords⟩ := hrecords
  have hcursor : store.observationCursor = s.signals.observationCursor + records.length := hrest.cursor
  have hread : records <+: s.log.records.drop s.signals.observationCursor := by
    rw [← hrecords]
    exact (List.take_prefix ..).trans (List.IsPrefix.drop (List.take_prefix found s.log.records) _)
  have htake : s.log.records.take store.observationCursor =
      s.log.records.take s.signals.observationCursor ++ records := by
    rw [hcursor, List.take_add, ← List.prefix_iff_eq_take.mp hread]
  refine ⟨?_, fun digest hd => ?_⟩
  · change store.observationCursor ≤ s.log.records.length
    have hlength := hread.length_le
    rw [List.length_drop] at hlength
    have hinside := hs.cursor
    omega
  · change ∃ record ∈ s.log.records.take store.observationCursor, record.digest = digest
    change store.lastCycleSha256 = some digest at hd
    rw [htake]
    have hold : s.signals.lastCycleSha256 = some digest ∨ ∃ record ∈ records, record.digest = digest := by
      rcases hrest.lastCycle with hlast | ⟨record, hrecord, hlast⟩
      · rcases hfirst.lastCycle with hlast' | ⟨record, hrecord, hlast'⟩
        · exact .inl (hlast'.symm.trans (hlast.symm.trans hd))
        · exact .inr ⟨record, hrecord, Option.some.inj (hlast'.symm.trans (hlast.symm.trans hd))⟩
      · exact .inr ⟨record, hrecord, Option.some.inj (hlast.symm.trans hd)⟩
    rcases hold with hold | ⟨record, hrecord, hdigest⟩
    · obtain ⟨record, hrecord, hdigest⟩ := hs.last digest hold
      exact ⟨record, List.mem_append_left _ hrecord, hdigest⟩
    · exact ⟨record, List.mem_append_right _ hrecord, hdigest⟩

omit [DecidableEq ι] [DecidableEq O] in
lemma Consumed.transaction {ε : Type} {result : Except ε (AlertStore O)} (hs : Consumed s)
    (h : transaction? s result = some t) (hresult : ∀ store, result = .ok store →
      Consumed { s with mail := s.mail.withDb store.delivery, signals := store.toSignals }) : Consumed t := by
  obtain ⟨-, rfl | ⟨store, rfl, rfl, -⟩⟩ := transaction_eq_some h
  · exact hs
  · exact hresult store rfl

lemma Consumed.step {label : AlertLabel ι O} (hs : Consumed s) (hsound : Sound s.store)
    (h : alertStep? alerts s label = some t) : Consumed t := by
  cases label with
  | mail label =>
      obtain ⟨-, -, mail, -, rfl⟩ := mailStep_eq_some h
      exact ⟨hs.cursor, hs.last⟩
  | recheck p attempt nowMs snapshot =>
      simp only [alertStep?] at h
      split at h
      · obtain ⟨mail, -, rfl⟩ := Option.map_eq_some_iff.mp h
        exact ⟨hs.cursor, hs.last⟩
      · cases h
  | collect found nowMs snapshot => exact hs.transaction h fun store hstore => hs.collect hsound hstore
  | sourceUnavailable nowMs =>
      exact hs.transaction h fun store hstore => hs.changes (sourceUnavailable_changes hsound hstore)
  | observationUnavailable nowMs =>
      exact hs.transaction h fun store hstore => hs.changes (observationUnavailable_changes hstore)
  | reconcileHealth nowMs state =>
      exact hs.transaction h fun store hstore => hs.changes (reconcileHealth_changes hstore)
  | beginAppend cycle =>
      simp only [alertStep?] at h
      split at h
      · cases h
      split at h <;> cases h <;> exact ⟨hs.cursor, hs.last⟩
  | writeAppend =>
      simp only [alertStep?] at h
      split at h <;> cases h
      rename_i cycle _
      have htake : (s.log.records ++ [cycle]).take s.signals.observationCursor =
          s.log.records.take s.signals.observationCursor := List.take_append_of_le_length hs.cursor
      refine ⟨?_, fun digest hd => ?_⟩
      · exact hs.cursor.trans (by simp)
      · exact htake ▸ hs.last digest hd
  | finishAppend =>
      simp only [alertStep?] at h
      split at h <;> cases h
      exact ⟨hs.cursor, hs.last⟩
  | abortAppend =>
      simp only [alertStep?] at h
      split at h <;> cases h
      exact ⟨hs.cursor, hs.last⟩

lemma sound_of_reachable (h : (alertSystem ι O alerts).Reachable s) : Sound s.store := (evolves_of_reachable h).sound

lemma consumed_of_reachable (h : (alertSystem ι O alerts).Reachable s) : Consumed s := by
  refine (System.Reachable.invariant (I := fun s => Sound s.store ∧ Consumed s) ?_ ?_ h).2
  · rintro s rfl
    exact ⟨.empty, Nat.zero_le _, fun _ hd => by cases hd⟩
  · intro s label t hs hstep
    exact ⟨(step_evolves hs.1 hstep).sound, hs.2.step hs.1 hstep⟩

/-! ## The decision to mail an entry -/

/-- The observation of a symbol in a cycle. -/
def ObservationCycle.evidenceOf (cycle : ObservationCycle O) (symbol : String) : Option O :=
  cycle.observations.find? fun o => StageObservation.symbol o = symbol

/-- What a sender has found when it mails an entry. -/
structure Ready (s : AlertState ι O) (p : ι) (event : AlertEvent O) : Prop where
  unsuppressed : ∃ row ∈ s.store.delivery.outbox, row.eventId = event.eventId ∧ row.payload = event ∧
    row.suppressedReason = none
  committed : s.log.records.drop s.signals.observationCursor = [] ∧ s.log.invalidMarker = false ∧ s.append = none
  current : ∃ o reading latest evidence, event.observation = some o ∧
    (s.store.streamOf (StageObservation.symbol o)).activeEventId = some event.eventId ∧
    s.readings p = some reading ∧ (event.occurredAtMs : ℤ) ≤ reading.nowMs ∧
    (∃ reviewUntilMs, event.reviewUntilMs = some reviewUntilMs ∧ reading.nowMs < reviewUntilMs) ∧
    reading.latest = some latest ∧ s.signals.lastCycleSha256 = some latest.digest ∧
    latest.evidenceOf (StageObservation.symbol o) = some evidence ∧
    signalKey evidence = (s.store.streamOf (StageObservation.symbol o)).signalKey

omit [DecidableEq ι] [DecidableEq O] [Sha256] [StageObservation O] in
/-- The log was read to its end. -/
lemma committed_of_remaining (h : s.remaining = false) :
    s.log.records.drop s.signals.observationCursor = [] ∧ s.log.invalidMarker = false := by
  unfold AlertState.remaining at h
  split at h
  · rename_i hread
    simp only [ObservationLog.readBatch, bind_eq_ok, require_eq_ok, exists_const, pure_eq_ok_iff] at hread
    obtain ⟨hmarker, -, hread⟩ := hread
    refine ⟨?_, by simpa using hmarker⟩
    rcases List.take_eq_nil_iff.mp hread with hlimit | hnil
    · cases hlimit
    · exact hnil
  · cases h

omit [DecidableEq O] in
/-- The sender finds all of it before it mails. -/
lemma ready_of_recheck {p : ι} {claimed current : DeliveryRecord O} {nowMs : ℤ} {snapshot : Snapshot O}
    {db : Database O} {mail : State ι O}
    (h : recheckClaim s.mail.db claimed nowMs (s.entryEvidence claimed nowMs snapshot) = .ok (db, some current))
    (hkind : current.event.kind = .entryReview) (hmail : mail.db = s.mail.db) :
    Ready { s with mail, readings := Function.update s.readings p (some (AlertState.reading nowMs snapshot)) } p
      current.event := by
  obtain ⟨-, hrec, hmails⟩ := spec_mailed h
  obtain ⟨hfenced, hopen, ⟨hoccurred, hreview⟩, health, hhealth, hcaught, hremaining, hevidence, hactive⟩ := hmails hkind
  obtain ⟨row, hrow, -, hid, hevent, hpayload, -, -, hsuppressed⟩ := Database.row_of_record hrec
  obtain ⟨o, ho⟩ := Database.observation_of_record hrec hkind
  have hsymbol : s.symbolOf claimed = StageObservation.symbol o := by
    rw [AlertState.symbolOf, hrec]
    change (current.event.observation.map StageObservation.symbol).getD "" = _
    rw [ho]
    rfl
  obtain ⟨⟨state, alive⟩, hsnapshot, rfl⟩ := Option.map_eq_some_iff.mp hhealth
  rw [hsymbol] at hevidence hactive
  obtain ⟨latest, hlatest, hlast⟩ := (Option.any_eq_true ..).mp hcaught
  obtain ⟨latest', hlatest', hfound⟩ := Option.bind_eq_some_iff.mp hevidence
  obtain rfl := Option.some.inj (hlatest.symm.trans hlatest')
  obtain ⟨evidence, hfound, hkey⟩ := Option.bind_eq_some_iff.mp hfound
  have hstore : ({ s with mail, readings := Function.update s.readings p (some (AlertState.reading nowMs snapshot)) } :
      AlertState ι O).store = s.store := by
    unfold AlertState.store
    rw [hmail]
  obtain ⟨hnothing, hmarker⟩ := committed_of_remaining hremaining
  have happend : s.append = none := Option.isNone_iff_eq_none.mp (Option.isSome_eq_false_iff.mp hfenced)
  refine ⟨⟨row, ?_, hid.trans hevent.symm, hpayload.symm, hsuppressed ▸ hopen⟩, ⟨hnothing, hmarker, happend⟩,
    o, AlertState.reading nowMs snapshot, latest, evidence, ho, ?_, Function.update_self .., hoccurred, hreview, ?_, ?_,
    hfound, ?_⟩
  · rw [hstore]
    exact hrow
  · rw [hstore]
    exact hactive
  · rw [AlertState.reading, hsnapshot]
    exact hlatest
  · exact of_decide_eq_true hlast
  · rw [hstore]
    exact Option.some.inj hkey

/-! ## Nothing changes before the mail -/

section frozen

variable {s t : State ι O} {p : ι} {left : ℕ} {record : DeliveryRecord O}

omit [DecidableEq O] in
/-- A sender that is about to mail was so before, and no other process wrote; or it has just decided to mail. -/
lemma SenderStep.frozen {label : Label ι O} (h : SenderStep label s t) (hlock : LocksMailing s)
    (hp : t.senders p = .sending left record) :
    (s.senders p = .sending left record ∧ t.db = s.db) ∨ ∃ claimed nowMs evidence db,
      label = .recheck p claimed.attempt nowMs evidence ∧ s.senders p = .claimed left claimed ∧
        recheckClaim s.db claimed nowMs evidence = .ok (db, some record) ∧ t.db = db := by
  have hown : ∀ {q : ι}, s.lock = none → s.senders p = .sending left record → s.lock = some q := by
    intro q hnone hsending
    rw [hlock p (by rw [hsending]; rfl)] at hnone
    cases hnone
  cases h with
  | stay => exact .inl ⟨hp, rfl⟩
  | commit hnone => exact .inl ⟨hp, by cases hnone.symm.trans (hown (q := p) hnone hp)⟩
  | @free q db lock sender hrecord _ hdb =>
      by_cases hpq : p = q
      · subst hpq
        rw [State.senders_move_self] at hp
        rw [hp] at hrecord
        cases hrecord
      · rw [State.senders_move_of_ne hpq] at hp
        refine .inl ⟨hp, ?_⟩
        rcases hdb with rfl | hnone | ⟨left', record', hq⟩
        · rfl
        · cases hnone.symm.trans (hown (q := p) hnone hp)
        · have hplock := hlock p (by rw [hp]; rfl)
          have hqlock := hlock q (by rw [hq]; rfl)
          exact absurd (Option.some.inj (hplock.symm.trans hqlock)) hpq
  | @claim q left' nowMs db record' hnone hclaim =>
      by_cases hpq : p = q
      · subst hpq
        rw [State.senders_move_self] at hp
        cases hp
      · rw [State.senders_move_of_ne hpq] at hp
        cases hnone.symm.trans (hown (q := p) hnone hp)
  | @mail q left' claimed current nowMs evidence db hlabel hnone hq hrecheck =>
      by_cases hpq : p = q
      · subst hpq
        rw [State.senders_move_self] at hp
        cases hp
        exact .inr ⟨claimed, nowMs, evidence, db, hlabel, hq, hrecheck, rfl⟩
      · rw [State.senders_move_of_ne hpq] at hp
        cases hnone.symm.trans (hown (q := p) hnone hp)
  | @send q left' record' hq =>
      by_cases hpq : p = q
      · subst hpq
        rw [State.senders_send_self] at hp
        cases hp
      · rw [State.senders_send_of_ne hpq] at hp
        exact .inl ⟨hp, rfl⟩

end frozen

omit [DecidableEq ι] [DecidableEq O] in
/-- What a sender has found stays as it is until it mails. -/
lemma Ready.of_same {p : ι} {event : AlertEvent O} (h : Ready s p event) (hstore : t.store = s.store) (hlog : t.log = s.log)
    (happend : t.append = s.append) (hreadings : t.readings p = s.readings p) : Ready t p event := by
  have hsignals : t.signals = s.signals := congrArg AlertStore.toSignals hstore
  refine ⟨hstore ▸ h.unsuppressed, ?_, ?_⟩
  · rw [hlog, hsignals, happend]
    exact h.committed
  · rw [hstore, hsignals, hreadings]
    exact h.current

/-- The senders that are about to mail an entry have found what they need. -/
def MailsReady (s : AlertState ι O) : Prop :=
  ∀ p left record, s.mail.senders p = .sending left record → record.event.kind = .entryReview → Ready s p record.event

lemma mailsReady_step {label : AlertLabel ι O} (hlock : LocksMailing s.mail) (hs : MailsReady s)
    (h : alertStep? alerts s label = some t) : MailsReady t := by
  intro p left record hp hkind
  have hlocked : ∀ {q : ι}, s.mail.senders q = .sending left record → s.mail.lock = some q := fun hq =>
    hlock _ (by rw [hq]; rfl)
  have htransaction : ∀ {ε : Type} {result : Except ε (AlertStore O)}, transaction? s result = some t →
      Ready t p record.event := by
    intro ε result h
    obtain ⟨hnone, rfl | ⟨store, rfl, rfl, -⟩⟩ := transaction_eq_some h
    · exact hs p left record hp hkind
    · cases hnone.symm.trans (hlocked hp)
  have hfenced : s.mail.senders p = .sending left record → s.fenced = true := fun hp => by
    simp only [AlertState.fenced, hlocked hp, Option.any_some, hp, decide_eq_true_eq]
    exact hkind
  have hclosed : s.mail.senders p = .sending left record → s.append = none := fun hp => (hs p left record hp hkind).committed.2.2
  cases label with
  | mail label =>
      obtain ⟨hrecheck, hcollect, mail, hstep, rfl⟩ := mailStep_eq_some h
      rcases (senderStep_of_step hcollect hstep).frozen hlock hp with ⟨hsame, hdb⟩ | ⟨claimed, _, _, _, hlabel, -⟩
      · refine (hs p left record hsame hkind).of_same ?_ rfl rfl rfl
        change ({ s.signals with delivery := mail.db } : AlertStore O) = _
        rw [hdb]
        rfl
      · exact (hrecheck _ _ _ _ hlabel).elim
  | recheck q attempt nowMs snapshot =>
      simp only [alertStep?] at h
      split at h
      · rename_i left' record' hq
        obtain ⟨mail, hstep, rfl⟩ := Option.map_eq_some_iff.mp h
        rcases (senderStep_of_step (by simp) hstep).frozen hlock hp with
          ⟨hsame, hdb⟩ | ⟨claimed, nowMs', evidence, db, hlabel, hclaimed, hrecheck, hdb⟩
        · have hne : p ≠ q := fun hpq => by
            rw [hpq, hq] at hsame
            cases hsame
          refine (hs p left record hsame hkind).of_same ?_ rfl rfl (Function.update_of_ne hne ..)
          change ({ s.signals with delivery := mail.db } : AlertStore O) = _
          rw [hdb]
          rfl
        · obtain ⟨rfl, -, rfl, rfl⟩ := Label.recheck.inj hlabel
          rw [hq] at hclaimed
          obtain ⟨rfl, rfl⟩ := Sender.claimed.inj hclaimed
          exact ready_of_recheck hrecheck hkind (hdb.trans (spec_mailed hrecheck).1)
      · cases h
  | collect => exact htransaction h
  | sourceUnavailable => exact htransaction h
  | observationUnavailable => exact htransaction h
  | reconcileHealth => exact htransaction h
  | beginAppend cycle =>
      simp only [alertStep?] at h
      split at h
      · cases h
      · rename_i hfree
        have hp' : s.mail.senders p = .sending left record := by
          split at h <;> cases h <;> exact hp
        simp [hfenced hp'] at hfree
  | writeAppend =>
      simp only [alertStep?] at h
      split at h <;> cases h
      rename_i happend
      cases happend.symm.trans (hclosed hp)
  | finishAppend =>
      simp only [alertStep?] at h
      split at h <;> cases h
      rename_i happend
      cases happend.symm.trans (hclosed hp)
  | abortAppend =>
      simp only [alertStep?] at h
      split at h <;> cases h
      rename_i happend
      rw [hclosed hp] at happend
      cases happend

lemma mailsReady_of_reachable (h : (alertSystem ι O alerts).Reachable s) : MailsReady s := by
  refine (System.Reachable.invariant (I := fun s => LocksMailing s.mail ∧ MailsReady s) ?_ ?_ h).2
  · rintro s rfl
    constructor
    · intro p hp
      cases hp
    · intro p left record hp
      cases hp
  · intro s label t hs hstep
    obtain ⟨_, hsender⟩ := senderStep_of_alertStep hstep
    exact ⟨hsender.locksMailing hs.1, mailsReady_step hs.1 hs.2 hstep⟩

/-! ## An entry that is mailed is current -/

/-- What holds of an entry while it is handed to the transport. -/
structure NotStale (s : AlertState ι O) (p : ι) (event : AlertEvent O) : Prop where
  /-- It is not suppressed. -/
  unsuppressed : ∃ row ∈ s.store.delivery.outbox, row.eventId = event.eventId ∧ row.payload = event ∧
    row.suppressedReason = none
  /-- It was not withdrawn. -/
  notWithdrawn : s.store.delivery.withdrawalsOf event.eventId = []
  /-- It is the active event of its symbol. -/
  active : ∃ o, event.observation = some o ∧
    (s.store.streamOf (StageObservation.symbol o)).activeEventId = some event.eventId
  /-- The clock of the sender was inside its review. -/
  inTime : ∃ reading reviewUntilMs, s.readings p = some reading ∧ event.reviewUntilMs = some reviewUntilMs ∧
    (event.occurredAtMs : ℤ) ≤ reading.nowMs ∧ reading.nowMs < reviewUntilMs
  /-- No record was appended after the cursor, and no append is going on. -/
  committed : s.log.records.drop s.signals.observationCursor = [] ∧ s.log.invalidMarker = false ∧ s.append = none
  /-- The last consumed cycle is a record of the log, and yields the key of the active signal. -/
  sameSignal : ∃ o key latest evidence, event.observation = some o ∧
    latest ∈ s.log.records.take s.signals.observationCursor ∧ s.signals.lastCycleSha256 = some latest.digest ∧
    latest.evidenceOf (StageObservation.symbol o) = some evidence ∧ signalKey evidence = some key ∧
    (s.store.streamOf (StageObservation.symbol o)).signalKey = some key

/-- The cycle that a sender read and a record of the log with the same digest are the same cycle. -/
def DistinctCycles (s : AlertState ι O) (p : ι) : Prop :=
  ∀ reading latest, s.readings p = some reading → reading.latest = some latest → ∀ record ∈ s.log.records,
    record.digest = latest.digest → record = latest

omit [DecidableEq ι] [DecidableEq O] in
lemma Ready.notStale {p : ι} {event : AlertEvent O} (h : Ready s p event) (htracked : Tracked s.store)
    (hconsumed : Consumed s) (hdistinct : DistinctCycles s p) : NotStale s p event := by
  obtain ⟨o, reading, latest, evidence, ho, hactive, hreading, hoccurred, ⟨reviewUntilMs, hreview, hbefore⟩, hlatest,
    hlast, hfound, hkey⟩ := h.current
  obtain ⟨record, hrecord, hdigest⟩ := hconsumed.last _ hlast
  obtain rfl := hdistinct reading latest hreading hlatest record (List.mem_of_mem_take hrecord) hdigest
  have hsome : (s.store.streamOf (StageObservation.symbol o)).signalKey ≠ none := fun hnone => by
    rw [(SignalStream.isNone_of_check (htracked.sound.checked _)).mpr hnone] at hactive
    cases hactive
  obtain ⟨key, hsignal⟩ := Option.ne_none_iff_exists'.mp hsome
  exact ⟨h.unsuppressed, (htracked.active _ _ hactive).2, ⟨o, ho, hactive⟩,
    ⟨reading, reviewUntilMs, hreading, hreview, hoccurred, hbefore⟩, h.committed,
    o, key, record, evidence, ho, hrecord, hlast, hfound, hkey.trans hsignal, hsignal⟩

/-- The sender of a mail was about to send it. -/
lemma sending_of_send {p : ι} {a : Attempt} (h : alertStep? alerts s (.mail (.send p a)) = some t) :
    ∃ left record, s.mail.senders p = .sending left record ∧ record.attempt = a := by
  change mailStep? s (.send p a) = some t at h
  obtain ⟨-, -, mail, hstep, -⟩ := mailStep_eq_some h
  simp only [step?] at hstep
  split at hstep
  · rename_i left record hp
    split at hstep
    · rename_i hattempt
      exact ⟨left, record, hp, hattempt⟩
    · cases hstep
  · cases hstep

/-- **No stale entry mail.** Over every interleaving of appends to the log, states of the service, collections,
transactions for an unreadable source, senders and clock readings: an entry that is handed to the transport is current;
and an entry that is suppressed is never handed to it from then on. -/
theorem no_stale_entry_mail (h : (alertSystem ι O alerts).Reachable s) :
    (∀ p a t left record, (alertSystem ι O alerts).step s (.mail (.send p a)) t →
      s.mail.senders p = .sending left record → record.event.kind = .entryReview → DistinctTransitions s.store →
        DistinctCycles s p → NotStale s p record.event) ∧
    ∀ row ∈ s.store.delivery.outbox, row.payload.kind = .entryReview → row.suppressedReason.isSome →
      ∀ tr t p a u, (alertSystem ι O alerts).Run s tr t → (alertSystem ι O alerts).step t (.mail (.send p a)) u →
        a.1 ≠ row.eventId := by
  refine ⟨fun p a t left record _ hp hkind htransitions hcycles => ?_,
    fun row hrow hkind hsuppressed tr t p a u hr hsend hid => ?_⟩
  · exact (mailsReady_of_reachable h p left record hp hkind).notStale (tracked_of_reachable h htransitions)
      (consumed_of_reachable h) hcycles
  · have ht := h.run hr
    obtain ⟨left, record, hp, rfl⟩ := sending_of_send hsend
    obtain ⟨row', hrow', hle⟩ := (run_evolves hr (sound_of_reachable h)).grows.rows row hrow
    obtain ⟨sent, hsent, hsid, hpayload, -⟩ := handlesRows_of_reachable ht p record (by rw [hp]; rfl)
    have hkeyed := (sound_of_reachable ht).keyed
    obtain rfl := hkeyed.eq_of_key hsent hrow' ((hsid.trans hid).trans hle.eventId.symm)
    have hentry : record.event.kind = .entryReview := by rw [← hpayload, hle.payload, hkind]
    obtain ⟨open', hopen, hoid, -, hnone⟩ := (mailsReady_of_reachable ht p left record hp hentry).unsuppressed
    obtain rfl := hkeyed.eq_of_key hopen hrow' (hoid.trans hsid.symm)
    rw [hle.suppressed hsuppressed] at hnone
    rw [hnone] at hsuppressed
    cases hsuppressed

end steps

/-! ## An entry that is about to be mailed -/

section concrete

attribute [local instance] demoSha256 demoObservation

/-- A signal starts an entry, and a sender decides to mail it. -/
def sendingLabels : List (AlertLabel Unit DemoScan) :=
  publish readyCycle 1 1500 ++ claimEntry ++ [.recheck () (demoEntry, 1) 2000 (demoSnapshot readyCycle)]

lemma sendingLabels_enabled : (sendingLabels.foldlM (alertStep? demoAlerts) .initial).isSome = true := by
  decide +kernel

/-- The state they lead to. -/
def sendingState : AlertState Unit DemoScan :=
  (sendingLabels.foldlM (alertStep? demoAlerts) .initial).get sendingLabels_enabled

lemma sendingState_reachable : (alertSystem Unit DemoScan demoAlerts).Reachable sendingState := by
  obtain ⟨tr, hr⟩ := System.run_of_foldlM AlertState.initial (Option.some_get sendingLabels_enabled).symm
  exact ⟨_, tr, rfl, hr⟩

lemma sendingState_sends : (alertStep? demoAlerts sendingState (.mail (.send () (demoEntry, 1)))).isSome = true := by
  decide +kernel

lemma sendingState_transitions : DistinctTransitions sendingState.store := by
  intro row hrow o key ho hkey m n hm hmn hn
  have hcounter : (sendingState.store.streamOf "BTC").counter = 1 := by decide +kernel
  have hle : n ≤ 1 := hn.trans hcounter.le
  omega

lemma sendingState_cycles : DistinctCycles sendingState () := by
  intro reading latest hreading hlatest record hrecord _
  have hread : (sendingState.readings ()).bind Reading.latest = some readyCycle := by decide +kernel
  have hlog : sendingState.log.records = [readyCycle] := by decide +kernel
  rw [hreading, Option.bind_some, hlatest, Option.some.injEq] at hread
  rw [hlog, List.mem_singleton] at hrecord
  rw [hread, hrecord]

/-- The entry that the sender is about to mail is current. -/
theorem no_stale_entry_mail_demo : ∃ left record, sendingState.mail.senders () = .sending left record ∧
    record.event.eventId = demoEntry ∧ NotStale sendingState () record.event := by
  obtain ⟨t, hsend⟩ := Option.isSome_iff_exists.mp sendingState_sends
  obtain ⟨left, record, hp, hattempt⟩ := sending_of_send hsend
  have hid : record.event.eventId = demoEntry := congrArg Prod.fst hattempt
  obtain ⟨row, hrow, -, hpayload, -⟩ := handlesRows_of_reachable sendingState_reachable () record (by rw [hp]; rfl)
  have hentries : ∀ row ∈ sendingState.mail.db.outbox, row.payload.kind = .entryReview := by decide +kernel
  have hkind : record.event.kind = .entryReview := hpayload ▸ hentries row hrow
  exact ⟨left, record, hp, hid, (no_stale_entry_mail sendingState_reachable).1 () _ t left record hsend hp hkind
    sendingState_transitions sendingState_cycles⟩

end concrete

end MuStrategy.Notifications
