import MuStrategy.Notifications.AlertSystem
import MuStrategy.Notifications.Rows

/-!
# What a sender does

* `delivers_recheckClaim`, `delivers_step` — senders and the operator only move rows on.
* `spec_mailed` — what a sender has found when it mails an entry.
* `SenderStep` — what a step of the system does to the senders; `senderStep_of_alertStep`.
-/

namespace MuStrategy.Notifications

open Lib

/-! ## Rows -/

section rows

variable {O : Type} [Sha256] [StageObservation O] {db db' : Database O} {nowMs : ℤ} {mail : Bool}

lemma delivers_deferEntry {event : AlertEvent O} {reason : UnstartedReason} (hkeyed : db.Keyed)
    (h : deferEntry db event nowMs reason = .ok (db', mail)) : Delivers db db' := by
  simp only [deferEntry, bind_eq_ok, pure_eq_ok_iff, Prod.mk.injEq] at h
  obtain ⟨_, h, rfl, -⟩ := h
  exact Database.delivers_deferUnstarted hkeyed h

variable {current : DeliveryRecord O} {row : OutboxRow O}

/-- Suppressing an entry, after its reservation was given back. -/
lemma delivers_suppressEntry {reason : SuppressedReason} (hkeyed : db.Keyed) (hrow : row ∈ db.outbox)
    (hid : row.eventId = current.event.eventId) (hentry : row.payload.kind = .entryReview)
    (h : suppressEntry db current.event nowMs reason = .ok (db', mail)) : Delivers db db' := by
  simp only [suppressEntry, bind_eq_ok, pure_eq_ok_iff, Prod.mk.injEq] at h
  obtain ⟨db₁, hdefer, _, hsuppress, rfl, -⟩ := h
  have hfirst := Database.delivers_deferUnstarted hkeyed hdefer
  refine hfirst.trans (Database.delivers_suppress (hfirst.keyed hkeyed) (fun r hr hrid => ?_) hsuppress)
  obtain ⟨g, hg, hout⟩ := hfirst
  rw [hout] at hr
  obtain ⟨r₀, hr₀, rfl⟩ := List.mem_map.mp hr
  have hsame : r₀ = row := hkeyed.eq_of_key hr₀ hrow (((hg r₀ hr₀).eventId.symm.trans hrid).trans hid.symm)
  rw [(hg r₀ hr₀).payload, hsame]
  exact hentry

lemma delivers_prepareMail {evidence : EntryEvidence} (hkeyed : db.Keyed) (hrow : row ∈ db.outbox)
    (hid : row.eventId = current.event.eventId) (hpayload : current.event = row.payload)
    (h : prepareMail db current nowMs evidence = .ok (db', mail)) : Delivers db db' := by
  unfold prepareMail at h
  split at h
  · rename_i hkind
    have hentry : row.payload.kind = .entryReview := hpayload ▸ hkind
    split at h
    · exact delivers_deferEntry hkeyed h
    unfold prepareEntry at h
    split at h
    · exact delivers_suppressEntry hkeyed hrow hid hentry h
    · cases h
    split at h
    · exact delivers_suppressEntry hkeyed hrow hid hentry h
    split at h
    · exact delivers_deferEntry hkeyed h
    unfold prepareWithHealth at h
    split at h
    · exact delivers_deferEntry hkeyed h
    split at h
    · exact delivers_deferEntry hkeyed h
    split at h
    · split at h
      · exact delivers_suppressEntry hkeyed hrow hid hentry h
      · simp only [pure_eq_ok_iff, Prod.mk.injEq] at h
        obtain ⟨rfl, -⟩ := h
        exact .refl _
    · exact delivers_suppressEntry hkeyed hrow hid hentry h
  · simp only [pure_eq_ok_iff, Prod.mk.injEq] at h
    obtain ⟨rfl, -⟩ := h
    exact .refl _

lemma delivers_recheckClaim {claimed : DeliveryRecord O} {evidence : EntryEvidence} {mailed : Option (DeliveryRecord O)}
    (hkeyed : db.Keyed) (h : recheckClaim db claimed nowMs evidence = .ok (db', mailed)) : Delivers db db' := by
  simp only [recheckClaim, bind_eq_ok, orThrow_eq_ok] at h
  obtain ⟨_, hrec, current, rfl, h⟩ := h
  obtain ⟨row, hrow, -, hid, hevent, hpayload, -⟩ := Database.row_of_record hrec
  split at h
  · simp only [pure_eq_ok_iff, Prod.mk.injEq] at h
    obtain ⟨rfl, -⟩ := h
    exact .refl _
  · simp only [bind_eq_ok, Prod.exists, pure_eq_ok_iff, Prod.mk.injEq] at h
    obtain ⟨db₁, go, hgate, rfl, -⟩ := h
    exact delivers_prepareMail hkeyed hrow (hid.trans hevent.symm) hpayload hgate

variable {ι : Type} [DecidableEq ι] [DecidableEq O] {s t : State ι O}

omit [Sha256] [StageObservation O] [DecidableEq O] in
/-- A transaction that only moves rows on. -/
lemma delivers_commit {result : Except NotificationError (Database O)} (h : ∀ db', result = .ok db' → Delivers db db') :
    Delivers db (commit db result) := by
  cases result with
  | error e => exact .refl db
  | ok db' => exact h db' rfl

/-- Senders and the operator only move rows on. -/
lemma delivers_step {label : Label ι O} (hlabel : ∀ writes nowMs, label ≠ .collect writes nowMs) (hkeyed : s.db.Keyed)
    (h : step? s label = some t) : Delivers s.db t.db := by
  cases label with
  | deliver p targetFingerprint limit =>
      simp only [step?, State.deliver] at h
      split at h
      · cases h
        split
        · rename_i db hdb
          exact .of_outbox_eq (Database.spec_bindTarget hdb)
        · exact .refl _
      · cases h
  | claim p nowMs =>
      simp only [step?, State.claim] at h
      split at h
      · cases h
        split
        · rename_i db record hdb
          exact (Database.delivers_claim hkeyed hdb).1
        · rename_i db hdb
          exact (Database.delivers_claim hkeyed hdb).1
        · exact .refl _
      · cases h
  | recheck p attempt nowMs evidence =>
      simp only [step?, State.recheck] at h
      split at h
      · split at h
        · cases h
          split
          · rename_i db current hdb
            exact delivers_recheckClaim hkeyed hdb
          · rename_i db hdb
            exact delivers_recheckClaim hkeyed hdb
          · exact .refl _
        · cases h
      · cases h
  | send p attempt =>
      simp only [step?] at h
      split at h
      · split at h
        · cases h
          exact .refl _
        · cases h
      · cases h
  | finish p attempt result nowMs =>
      simp only [step?, State.finish] at h
      split at h
      · split at h
        · cases h
          split
          · rename_i db hdb
            exact Database.delivers_finish hkeyed hdb
          · exact .refl _
        · cases h
      · cases h
  | crash p =>
      cases h
      exact .refl _
  | collect writes nowMs => exact absurd rfl (hlabel writes nowMs)
  | resolve eventId outcome nowMs =>
      simp only [step?] at h
      split at h
      · cases h
        exact delivers_commit fun _ hdb => Database.delivers_resolve hkeyed hdb
      · cases h
  | retry eventId nowMs =>
      simp only [step?] at h
      split at h
      · cases h
        exact delivers_commit fun _ hdb => Database.delivers_retryFailed hkeyed hdb
      · cases h

end rows

/-! ## The decision to mail -/

section decision

variable {O : Type} [Sha256] [StageObservation O] {db db' : Database O} {nowMs : ℤ}

/-- What a sender has found when it mails an entry. -/
structure MailsEntry (current : DeliveryRecord O) (nowMs : ℤ) (evidence : EntryEvidence) : Prop where
  fenced : evidence.publicationBusy = false
  unsuppressed : current.suppressedReason = none
  inTime : (current.event.occurredAtMs : ℤ) ≤ nowMs ∧ ∃ reviewUntilMs,
    current.event.reviewUntilMs = some reviewUntilMs ∧ nowMs < reviewUntilMs
  health : ∃ health, evidence.snapshot = some health ∧ health.caughtUp = true ∧ health.remaining = false ∧
    health.evidence = some health.signalKey ∧ health.activeEventId = some current.event.eventId

lemma not_mails_deferEntry {event : AlertEvent O} {reason : UnstartedReason} :
    deferEntry db event nowMs reason ≠ .ok (db', true) := by
  intro h
  simp [deferEntry, bind_eq_ok, pure_eq_ok_iff, -bind_pure_comp] at h

lemma not_mails_suppressEntry {event : AlertEvent O} {reason : SuppressedReason} :
    suppressEntry db event nowMs reason ≠ .ok (db', true) := by
  intro h
  simp [suppressEntry, bind_eq_ok, pure_eq_ok_iff, -bind_pure_comp] at h

/-- An entry that passes the checks. -/
lemma mailsEntry_of_prepareEntry {current : DeliveryRecord O} {evidence : EntryEvidence}
    (hfenced : evidence.publicationBusy = false)
    (h : prepareEntry db current nowMs evidence.snapshot = .ok (db', true)) :
    db' = db ∧ MailsEntry current nowMs evidence := by
  unfold prepareEntry at h
  split at h
  · exact absurd h not_mails_suppressEntry
  · cases h
  rename_i reviewUntilMs hsuppressed hreview
  split at h
  · exact absurd h not_mails_suppressEntry
  rename_i htime
  simp only [Bool.not_eq_true, Bool.not_eq_false', Bool.and_eq_true, decide_eq_true_eq] at htime
  split at h
  · exact absurd h not_mails_deferEntry
  rename_i health hhealth
  unfold prepareWithHealth at h
  split at h
  · exact absurd h not_mails_deferEntry
  rename_i hready
  split at h
  · exact absurd h not_mails_deferEntry
  rename_i hremaining
  split at h
  · rename_i key hserved hkey
    split at h
    · exact absurd h not_mails_suppressEntry
    · rename_i hsame
      simp only [Bool.or_eq_true, decide_eq_true_eq, not_or, not_not] at hsame
      simp only [pure_eq_ok_iff, Prod.mk.injEq] at h
      refine ⟨h.1.symm, hfenced, hsuppressed, ⟨htime.1, reviewUntilMs, hreview, htime.2⟩, health, hhealth, ?_, ?_, ?_,
        hsame.2⟩
      · simp only [Bool.or_eq_true, Bool.not_eq_true', not_or, Bool.not_eq_false] at hready
        exact hready.2
      · simpa using hremaining
      · rw [hkey, hsame.1]
  · exact absurd h not_mails_suppressEntry

/-- A sender that mails has written nothing; it read the record again, and an entry passed every check. -/
lemma spec_mailed {claimed current : DeliveryRecord O} {evidence : EntryEvidence}
    (h : recheckClaim db claimed nowMs evidence = .ok (db', some current)) :
    db' = db ∧ db.record claimed.event.eventId = .ok (some current) ∧
      (current.event.kind = .entryReview → MailsEntry current nowMs evidence) := by
  simp only [recheckClaim, bind_eq_ok, orThrow_eq_ok] at h
  obtain ⟨_, hrec, current', rfl, h⟩ := h
  split at h
  · simp at h
  simp only [bind_eq_ok, Prod.exists, pure_eq_ok_iff, Prod.mk.injEq] at h
  obtain ⟨db₁, go, hgate, rfl, hgo⟩ := h
  cases go with
  | false => cases hgo
  | true =>
      obtain rfl := Option.some.inj hgo
      unfold prepareMail at hgate
      split at hgate
      · split at hgate
        · exact absurd hgate not_mails_deferEntry
        · rename_i hfenced
          obtain ⟨hdb, hentry⟩ := mailsEntry_of_prepareEntry (by simpa using hfenced) hgate
          exact ⟨hdb, hrec, fun _ => hentry⟩
      · rename_i hkind
        simp only [pure_eq_ok_iff, Prod.mk.injEq] at hgate
        exact ⟨hgate.1.symm, hrec, fun hentry => absurd hentry hkind⟩

end decision

/-! ## Steps of the senders -/

/-- What a sender has in hand. -/
def Sender.record? {O : Type} : Sender O → Option (DeliveryRecord O)
  | .idle => none
  | .ready _ => none
  | .claimed _ record => some record
  | .sending _ record => some record
  | .sent _ record => some record

/-- The second transaction of a sender is open. -/
def Sender.isMailing {O : Type} : Sender O → Bool
  | .sending _ _ => true
  | .sent _ _ => true
  | _ => false

section moves

variable {ι O : Type} [DecidableEq ι] {s : State ι O} {db : Database O} {lock : Option ι} {p q : ι} {sender : Sender O}
  {left : ℕ} {record : DeliveryRecord O}

lemma State.senders_move_self : (s.move db lock p sender).senders p = sender := Function.update_self ..

lemma State.senders_move_of_ne (h : q ≠ p) : (s.move db lock p sender).senders q = s.senders q :=
  Function.update_of_ne h ..

variable [Sha256]

lemma State.senders_send_self : (s.send p left record).senders p = .sent left record := Function.update_self ..

lemma State.senders_send_of_ne (h : q ≠ p) : (s.send p left record).senders q = s.senders q := Function.update_of_ne h ..

end moves

section steps

variable {ι O : Type} [DecidableEq ι] [DecidableEq O] [Sha256] [StageObservation O]

/-- What a step does to the senders, and what it may do to the rows. -/
inductive SenderStep (label : Label ι O) (s : State ι O) : State ι O → Prop where
  | stay : SenderStep label s s
  | commit {db : Database O} (hlock : s.lock = none) : SenderStep label s (s.withDb db)
  | free {p : ι} {db : Database O} {lock : Option ι} {sender : Sender O} (hrecord : sender.record? = none)
      (hlock : (∀ q, q ≠ p → s.lock = some q → lock = some q) ∨ ∃ left record, s.senders p = .sent left record)
      (hdb : db = s.db ∨ s.lock = none ∨ ∃ left record, s.senders p = .sent left record) :
      SenderStep label s (s.move db lock p sender)
  | claim {p : ι} {left : ℕ} {nowMs : ℤ} {db : Database O} {record : DeliveryRecord O} (hlock : s.lock = none)
      (hclaim : s.db.claim nowMs = .ok (db, some record)) : SenderStep label s (s.move db none p (.claimed left record))
  | mail {p : ι} {left : ℕ} {claimed current : DeliveryRecord O} {nowMs : ℤ} {evidence : EntryEvidence}
      {db : Database O} (hlabel : label = .recheck p claimed.attempt nowMs evidence) (hlock : s.lock = none)
      (hp : s.senders p = .claimed left claimed)
      (hrecheck : recheckClaim s.db claimed nowMs evidence = .ok (db, some current)) :
      SenderStep label s (s.move db (some p) p (.sending left current))
  | send {p : ι} {left : ℕ} {record : DeliveryRecord O} (hp : s.senders p = .sending left record) :
      SenderStep label s (s.send p left record)

variable {label : Label ι O} {s t : State ι O} {p : ι}

omit [DecidableEq ι] [DecidableEq O] [Sha256] [StageObservation O] in
lemma record?_next (left : ℕ) : (Sender.next left : Sender O).record? = none := by
  cases left <;> rfl

omit [DecidableEq O] in
/-- A sender that stops. -/
lemma SenderStep.stop : SenderStep label s (s.stop p) := by
  refine .free rfl (.inl fun q hq hlock => ?_) (.inl rfl)
  rw [Reservation.unlock, hlock, if_neg]
  simpa using hq

lemma senderStep_of_step (hlabel : ∀ writes nowMs, label ≠ .collect writes nowMs)
    (h : step? s label = some t) : SenderStep label s t := by
  cases label with
  | deliver p targetFingerprint limit =>
      simp only [step?, State.deliver] at h
      split at h
      · rename_i hlock hp
        cases h
        split
        · exact .free (record?_next _) (.inl fun _ _ => id) (.inr (.inl hlock))
        · exact .stay
      · cases h
  | claim p nowMs =>
      simp only [step?, State.claim] at h
      split at h
      · rename_i left hlock hp
        cases h
        split
        · rename_i db record hdb
          rw [hlock]
          exact .claim hlock hdb
        · exact .free rfl (.inl fun _ _ => id) (.inr (.inl hlock))
        · exact .stop
      · cases h
  | recheck p attempt nowMs evidence =>
      simp only [step?, State.recheck] at h
      split at h
      · rename_i left record hlock hp
        split at h
        · rename_i hattempt
          cases h
          split
          · rename_i db current hdb
            exact .mail (by rw [hattempt]) hlock hp hdb
          · exact .free (record?_next _) (.inl fun _ _ => id) (.inr (.inl hlock))
          · exact .stop
        · cases h
      · cases h
  | send p attempt =>
      simp only [step?] at h
      split at h
      · rename_i left record hp
        split at h
        · cases h
          exact .send hp
        · cases h
      · cases h
  | finish p attempt result nowMs =>
      simp only [step?, State.finish] at h
      split at h
      · rename_i left record hp
        split at h
        · cases h
          split
          · exact .free (record?_next _) (.inr ⟨left, record, hp⟩) (.inr (.inr ⟨left, record, hp⟩))
          · exact .stop
        · cases h
      · cases h
  | crash p =>
      cases h
      exact .stop
  | collect writes nowMs => exact absurd rfl (hlabel writes nowMs)
  | resolve eventId outcome nowMs =>
      simp only [step?] at h
      split at h
      · rename_i hlock
        cases h
        exact .commit hlock
      · cases h
  | retry eventId nowMs =>
      simp only [step?] at h
      split at h
      · rename_i hlock
        cases h
        exact .commit hlock
      · cases h

/-- What a step of the system does to the senders. -/
lemma senderStep_of_alertStep {alerts : EmailAlerts} {s t : AlertState ι O} {label : AlertLabel ι O}
    (h : alertStep? alerts s label = some t) : ∃ label, SenderStep label s.mail t.mail := by
  have hstay : ∃ label, SenderStep label s.mail s.mail := ⟨.collect [] 0, .stay⟩
  have htransaction : ∀ {ε : Type} {result : Except ε (AlertStore O)}, transaction? s result = some t →
      ∃ label, SenderStep label s.mail t.mail := by
    intro ε result h
    obtain ⟨hlock, rfl | ⟨store, rfl, rfl, -⟩⟩ := transaction_eq_some h
    · exact hstay
    · exact ⟨.collect [] 0, .commit hlock⟩
  cases label with
  | mail label =>
      obtain ⟨-, hcollect, mail, hstep, rfl⟩ := mailStep_eq_some h
      exact ⟨label, senderStep_of_step hcollect hstep⟩
  | recheck p attempt nowMs snapshot =>
      simp only [alertStep?] at h
      split at h
      · obtain ⟨mail, hstep, rfl⟩ := Option.map_eq_some_iff.mp h
        exact ⟨_, senderStep_of_step (by simp) hstep⟩
      · cases h
  | collect => exact htransaction h
  | sourceUnavailable => exact htransaction h
  | observationUnavailable => exact htransaction h
  | reconcileHealth => exact htransaction h
  | beginAppend =>
      simp only [alertStep?] at h
      split at h
      · cases h
      split at h <;> cases h <;> exact hstay
  | writeAppend =>
      simp only [alertStep?] at h
      split at h <;> cases h
      exact hstay
  | finishAppend =>
      simp only [alertStep?] at h
      split at h <;> cases h
      exact hstay
  | abortAppend =>
      simp only [alertStep?] at h
      split at h <;> cases h
      exact hstay

/-! ## The lock -/

/-- A sender whose second transaction is open holds the lock of the database. -/
def LocksMailing (s : State ι O) : Prop := ∀ p, (s.senders p).isMailing = true → s.lock = some p

omit [DecidableEq ι] [DecidableEq O] [Sha256] [StageObservation O] in
lemma isMailing_of_record? {sender : Sender O} (h : sender.record? = none) : sender.isMailing = false := by
  cases sender <;> first | rfl | cases h

omit [DecidableEq O] in
lemma SenderStep.locksMailing (h : SenderStep label s t) (hlock : LocksMailing s) : LocksMailing t := by
  intro q hq
  cases h with
  | stay => exact hlock q hq
  | commit => exact hlock q hq
  | @free p db lock sender hrecord hkeep hdb =>
      by_cases hqp : q = p
      · subst hqp
        rw [State.senders_move_self, isMailing_of_record? hrecord] at hq
        cases hq
      · rw [State.senders_move_of_ne hqp] at hq
        have hqlock := hlock q hq
        rcases hkeep with hkeep | ⟨left, record, hp⟩
        · exact hkeep q hqp hqlock
        · have hplock := hlock p (by rw [hp]; rfl)
          exact absurd (Option.some.inj (hqlock.symm.trans hplock)) hqp
  | @claim p left nowMs db record hnone hclaim =>
      by_cases hqp : q = p
      · subst hqp
        rw [State.senders_move_self] at hq
        cases hq
      · rw [State.senders_move_of_ne hqp] at hq
        rw [hlock q hq] at hnone
        cases hnone
  | @mail p left claimed current nowMs evidence db _ hnone hp hrecheck =>
      by_cases hqp : q = p
      · rw [hqp]
        rfl
      · rw [State.senders_move_of_ne hqp] at hq
        rw [hlock q hq] at hnone
        cases hnone
  | @send p left record hp =>
      by_cases hqp : q = p
      · rw [hqp]
        exact hlock p (by rw [hp]; rfl)
      · rw [State.senders_send_of_ne hqp] at hq
        exact hlock q hq

lemma locksMailing_of_reachable {alerts : EmailAlerts} {s : AlertState ι O}
    (h : (alertSystem ι O alerts).Reachable s) : LocksMailing s.mail := by
  refine System.Reachable.invariant (I := fun s => LocksMailing s.mail) ?_
    (fun _ _ _ hs hstep => (senderStep_of_alertStep hstep).elim fun _ hsender => hsender.locksMailing hs) h
  rintro s rfl p hp
  cases hp

end steps

end MuStrategy.Notifications
