import MuStrategy.Notifications.Delivery

/-!
# Delivery on the attempt ledger

The delivery system refines the attempt ledger of `Lib.Reservation`: an outbox row is a slot, a claimed
record is a reservation, the call of `transport.send` is the effect.

* `State.ledger` — the ledger of a state; `Settles`, `GivesBack` — what ends an attempt.
* `gate_prepareMail`, `spec_recheckClaim` — what the checks before the mail can do.
* `step_simulates` — every step is matched by a run of the ledger; `run_simulates` lifts it to runs.
* `ledger_reachable` — the ledger of a reachable state is reachable.
-/

namespace MuStrategy.Notifications

open Lib

section steps

variable {ι O : Type} [DecidableEq ι] [DecidableEq O] [Sha256] [ReviewObservation O]

/-! ## The attempt ledger -/

/-- What a sender holds of the attempt ledger. -/
def Sender.stage : Sender O → Reservation.Stage HexDigest
  | .idle => .away
  | .ready _ => .away
  | .claimed _ record => .holding record.attempt
  | .sending _ record => .acting record.attempt
  | .sent _ record => .acted record.attempt

/-- The attempt ledger of a state. -/
def State.ledger (s : State ι O) : Reservation.Ledger ι HexDigest :=
  ⟨s.db.slot, fun p => (s.senders p).stage, s.lock, s.sends⟩

/-- The transaction settles the attempt: its sender recorded what the transport reported, other than
`UNKNOWN`, or the operator resolved the event. -/
def Settles (a : Attempt) (x : Label ι O × State ι O) : Prop :=
  (∃ p result nowMs, x.1 = .finish p a result nowMs ∧ result.state ≠ .unknown ∧
    x.2.db.stateOf a.1 = some result.state) ∨
  ∃ outcome nowMs, x.1 = .resolve a.1 outcome nowMs ∧ x.2.db.stateOf a.1 = some outcome

/-- The transaction gives the attempt back, because its sender does not call the transport: the
attempt is not counted any more. -/
def GivesBack (a : Attempt) (x : Label ι O × State ι O) : Prop :=
  ∃ p nowMs evidence n, x.1 = .recheck p a nowMs evidence ∧ a.2 = n + 1 ∧
    x.2.db.slot a.1 = some (.free, n)

/-- A transaction ends the attempts that an action of the ledger ends. -/
def Matches (x : Label ι O × State ι O)
    (y : Reservation.Action ι HexDigest × Reservation.Ledger ι HexDigest) : Prop :=
  ∀ a, (y.1.Settles a → Settles a x) ∧ ((∃ p, y.1 = .release p a) → GivesBack a x)

/-- The step is matched by a run of the attempt ledger. -/
def Simulates (s : State ι O) (label : Label ι O) (t : State ι O) : Prop :=
  ∃ tr, (Reservation.ledger ι HexDigest 3).Run s.ledger tr t.ledger ∧
    ∀ y ∈ tr, Matches (label, t) y

omit [DecidableEq O] [ReviewObservation O] in
lemma stage_next (left : ℕ) : (Sender.next left : Sender O).stage = .away := by
  cases left <;> rfl

variable {s t : State ι O} {p : ι} {nowMs : ℤ}

omit [ReviewObservation O] [DecidableEq O] in
/-- A sender that moves changes its own stage only. -/
lemma stage_update (s : State ι O) (p : ι) (sender : Sender O) :
    (fun q => (Function.update s.senders p sender q).stage) =
      Function.update s.ledger.stage p sender.stage := by
  funext q
  by_cases hq : q = p
  · subst hq
    simp
  · simp [State.ledger, hq]

omit [ReviewObservation O] [DecidableEq O] in
lemma ledger_move (s : State ι O) (db : Database O) (lock : Option ι) (p : ι) (sender : Sender O) :
    (s.move db lock p sender).ledger =
      ⟨db.slot, Function.update s.ledger.stage p sender.stage, lock, s.sends⟩ := by
  rw [← stage_update]
  rfl

omit [ReviewObservation O] [DecidableEq O] in
lemma ledger_send (s : State ι O) (p : ι) (left : ℕ) (record : DeliveryRecord O) :
    (s.send p left record).ledger =
      ⟨s.db.slot, Function.update s.ledger.stage p (.acted record.attempt), s.lock,
        s.sends ++ [record.attempt]⟩ := by
  have h := stage_update s p (.sent left record)
  rw [Sender.stage] at h
  rw [← h]
  rfl

omit [DecidableEq ι] [ReviewObservation O] [DecidableEq O] in
lemma ledger_withDb (s : State ι O) (db : Database O) :
    (s.withDb db).ledger = ⟨db.slot, s.ledger.stage, s.lock, s.sends⟩ := rfl

omit [DecidableEq ι] [ReviewObservation O] [DecidableEq O] in
lemma stage_of {sender : Sender O} (h : s.senders p = sender) : s.ledger.stage p = sender.stage :=
  congrArg Sender.stage h

section simulates

variable {label : Label ι O}

omit [ReviewObservation O] [DecidableEq O] in
/-- Nothing changes that attempts depend on. -/
lemma simulates_of_eq (h : t.ledger = s.ledger) : Simulates s label t :=
  ⟨[], by rw [h]; exact .nil _, by simp⟩

omit [ReviewObservation O] [DecidableEq O] in
/-- One step of the ledger. -/
lemma simulates_of_step (action : Reservation.Action ι HexDigest)
    (h : Reservation.Step 3 s.ledger action t.ledger)
    (hmatch : Matches (label, t) (action, t.ledger)) : Simulates s label t :=
  ⟨[(action, t.ledger)], .single h, by simpa using hmatch⟩

omit [ReviewObservation O] [DecidableEq O] in
/-- One step of the ledger that ends no attempt. -/
lemma simulates_of_quiet (action : Reservation.Action ι HexDigest)
    (h : Reservation.Step 3 s.ledger action t.ledger) (hquiet : ∀ a, ¬ action.Ends a) :
    Simulates s label t :=
  simulates_of_step action h fun a =>
    ⟨fun ha => absurd (.inl ha) (hquiet a), fun ha => absurd (.inr ha) (hquiet a)⟩

omit [ReviewObservation O] [DecidableEq O] in
/-- A sender that stops. -/
lemma simulates_stop : Simulates s label (s.stop p) := by
  refine simulates_of_quiet (.leave p) ?_ (by simp)
  rw [State.stop, ledger_move]
  exact .leave p

omit [ReviewObservation O] [DecidableEq O] in
/-- A sender that holds nothing moves without holding anything. -/
lemma simulates_away {sender : Sender O} {db : Database O} (hp : s.ledger.stage p = .away)
    (hsender : sender.stage = .away) (hslot : db.slot = s.db.slot) :
    Simulates s label (s.move db s.lock p sender) := by
  refine simulates_of_eq ?_
  rw [ledger_move, hsender, ← hp, Function.update_eq_self, hslot]
  rfl

end simulates

omit [ReviewObservation O] [DecidableEq O] in
lemma simulates_deliver {targetFingerprint : HexDigest} {limit : ℤ} (hp : s.senders p = .idle) :
    Simulates s (.deliver p targetFingerprint limit) (s.deliver p targetFingerprint limit) := by
  unfold State.deliver
  split
  · rename_i db hdb
    refine simulates_away (stage_of hp) (stage_next _) ?_
    exact Database.slot_congr (Database.spec_bindTarget hdb)
  · exact simulates_of_eq rfl

omit [DecidableEq O] in
lemma simulates_claim {left : ℕ} (hkeyed : s.db.Keyed) (hlock : s.lock = none)
    (hp : s.senders p = .ready left) : Simulates s (.claim p nowMs) (s.claim p left nowMs) := by
  unfold State.claim
  split
  · rename_i db record hdb
    obtain ⟨-, -, hclaimed⟩ := Database.spec_claim hkeyed hdb
    obtain ⟨e, n, hslot, hn, hslot', hattempt⟩ := hclaimed record rfl
    refine simulates_of_quiet (.reserve p e) ?_ (by simp)
    rw [ledger_move, Sender.stage, hattempt, hslot']
    exact .reserve hlock hslot hn
  · rename_i db hdb
    obtain ⟨hsame, -, -⟩ := Database.spec_claim hkeyed hdb
    refine simulates_away (stage_of hp) rfl ?_
    rw [hsame rfl]
  · exact simulates_stop

/-! ## The second transaction on the attempt ledger -/

section prepare

variable {db db' : Database O}

/-- A reservation of the event was given back. -/
def Released (db db' : Database O) (eventId : HexDigest) : Prop :=
  ∃ n, db.slot eventId = some (.reserved, n + 1) ∧
    db'.slot = Function.update db.slot eventId (some (.free, n))

/-- A gate before the mail leaves the tables alone, or gives the reservation back. -/
def GateSpec (db : Database O) (eventId : HexDigest)
    (gate : Except NotificationError (Database O × Bool)) : Prop :=
  ∀ db' mail, gate = .ok (db', mail) →
    (db.Keyed → db'.Keyed) ∧ (mail = true → db' = db) ∧ (mail = false → Released db db' eventId)

omit [DecidableEq O] [Sha256] [ReviewObservation O] in
lemma gate_pass {eventId : HexDigest} : GateSpec db eventId (pure (db, true)) := by
  intro db' mail h
  simp only [pure_eq_ok_iff, Prod.mk.injEq] at h
  obtain ⟨rfl, rfl⟩ := h
  exact ⟨id, fun _ => rfl, by simp⟩

omit [DecidableEq O] in
lemma gate_deferEntry {event : AlertEvent O} {reason : UnstartedReason} :
    GateSpec db event.eventId (deferEntry db event nowMs reason) := by
  intro db' mail h
  simp only [deferEntry, bind_eq_ok, pure_eq_ok_iff, Prod.mk.injEq] at h
  obtain ⟨_, h, rfl, rfl⟩ := h
  obtain ⟨hreleased, hkeyed⟩ := Database.spec_deferUnstarted h
  exact ⟨hkeyed, by simp, fun _ => hreleased⟩

omit [DecidableEq O] in
lemma gate_suppressEntry {event : AlertEvent O} {reason : SuppressedReason} :
    GateSpec db event.eventId (suppressEntry db event nowMs reason) := by
  intro db' mail h
  simp only [suppressEntry, bind_eq_ok, pure_eq_ok_iff, Prod.mk.injEq] at h
  obtain ⟨db₁, hdefer, _, hsuppress, rfl, rfl⟩ := h
  obtain ⟨⟨n, hslot, hslot'⟩, hkeyed⟩ := Database.spec_deferUnstarted hdefer
  obtain ⟨hsame, hkeyed'⟩ := Database.spec_suppress hsuppress
  exact ⟨hkeyed' ∘ hkeyed, by simp, fun _ => ⟨n, hslot, hsame.trans hslot'⟩⟩

omit [DecidableEq O] in
lemma gate_prepareWithHealth {event : AlertEvent O} {evidence : HealthEvidence} :
    GateSpec db event.eventId (prepareWithHealth db event nowMs evidence) := by
  unfold prepareWithHealth
  split
  · exact gate_deferEntry
  split
  · exact gate_deferEntry
  split
  · split
    · exact gate_suppressEntry
    · exact gate_pass
  · exact gate_suppressEntry

omit [DecidableEq O] in
lemma gate_prepareEntry {current : DeliveryRecord O} {snapshot : Option HealthEvidence} :
    GateSpec db current.event.eventId (prepareEntry db current nowMs snapshot) := by
  unfold prepareEntry
  split
  · exact gate_suppressEntry
  · intro db' mail h
    simp at h
  split
  · exact gate_suppressEntry
  split
  · exact gate_deferEntry
  · exact gate_prepareWithHealth

omit [DecidableEq O] in
lemma gate_prepareMail {current : DeliveryRecord O} {evidence : EntryEvidence} :
    GateSpec db current.event.eventId (prepareMail db current nowMs evidence) := by
  unfold prepareMail
  split
  · split
    · exact gate_deferEntry
    · exact gate_prepareEntry
  · exact gate_pass

omit [DecidableEq O] in
/-- The second transaction up to the mail: it mails on the standing reservation it claimed and has
written nothing, or it ends, and then it gave its own reservation back or did nothing. -/
lemma spec_recheckClaim {claimed : DeliveryRecord O} {evidence : EntryEvidence}
    {mail : Option (DeliveryRecord O)} (h : recheckClaim db claimed nowMs evidence = .ok (db', mail)) :
    (db.Keyed → db'.Keyed) ∧
    (∀ current, mail = some current → db' = db ∧ current.attempt = claimed.attempt ∧
      db.slot claimed.attempt.1 = some (.reserved, claimed.attempt.2)) ∧
    (mail = none → db' = db ∨ (db.slot claimed.attempt.1 = some (.reserved, claimed.attempt.2) ∧
      Released db db' claimed.attempt.1)) := by
  simp only [recheckClaim, bind_eq_ok, orThrow_eq_ok] at h
  obtain ⟨_, hrec, current, rfl, h⟩ := h
  obtain ⟨hslot, hid⟩ := Database.slot_of_record hrec
  split at h
  · simp only [pure_eq_ok_iff, Prod.mk.injEq] at h
    obtain ⟨rfl, rfl⟩ := h
    exact ⟨id, by simp, fun _ => .inl rfl⟩
  · rename_i hstale
    simp only [Bool.or_eq_true, decide_eq_true_eq, not_or, not_not] at hstale
    obtain ⟨hstate, hattempts⟩ := hstale
    have hattempt : current.attempt = claimed.attempt := by
      rw [DeliveryRecord.attempt, DeliveryRecord.attempt, hid, hattempts]
    rw [hstate, hattempts] at hslot
    simp only [bind_eq_ok, Prod.exists, pure_eq_ok_iff, Prod.mk.injEq] at h
    obtain ⟨db₁, go, hgate, rfl, rfl⟩ := h
    obtain ⟨hkeyed, hpass, hblock⟩ := gate_prepareMail db₁ go hgate
    rw [hid] at hblock
    refine ⟨hkeyed, ?_, ?_⟩
    · intro current' hmail
      cases go with
      | false => cases hmail
      | true =>
          obtain rfl := Option.some.inj hmail
          exact ⟨hpass rfl, hattempt, hslot⟩
    · intro hmail
      cases go with
      | false => exact .inr ⟨hslot, hblock rfl⟩
      | true => cases hmail

end prepare

omit [DecidableEq O] in
lemma simulates_recheck {left : ℕ} {record : DeliveryRecord O} {evidence : EntryEvidence}
    (hlock : s.lock = none) (hp : s.senders p = .claimed left record) :
    Simulates s (.recheck p record.attempt nowMs evidence)
      (s.recheck p left record nowMs evidence) := by
  have hstage := stage_of hp
  unfold State.recheck
  split
  · rename_i db current hdb
    obtain ⟨-, hmail, -⟩ := spec_recheckClaim hdb
    obtain ⟨rfl, hattempt, hslot⟩ := hmail current rfl
    refine simulates_of_quiet (.start p) ?_ (by simp)
    rw [ledger_move, Sender.stage, hattempt]
    exact .start hlock hstage hslot
  · rename_i db hdb
    obtain ⟨-, -, hend⟩ := spec_recheckClaim hdb
    rcases hend rfl with rfl | ⟨hslot, n, hslot', hfree⟩
    · refine simulates_of_quiet (.leave p) ?_ (by simp)
      rw [ledger_move, stage_next]
      have h : Reservation.Step 3 s.ledger (.leave p) _ := .leave p
      rw [Reservation.unlock, if_neg (by rw [State.ledger, hlock]; simp)] at h
      exact h
    · have hn : record.attempt = (record.attempt.1, n + 1) := by
        rw [hslot', Option.some.injEq, Prod.mk.injEq] at hslot
        exact Prod.ext rfl hslot.2.symm
      refine simulates_of_step (.release p (record.attempt.1, n + 1)) ?_ ?_
      · rw [ledger_move, stage_next, hfree]
        refine .release hlock ?_ hslot'
        rw [← hn]
        exact hstage
      · intro a
        refine ⟨fun ha => ha.elim, ?_⟩
        rintro ⟨q, hq⟩
        obtain ⟨rfl, rfl⟩ := Reservation.Action.release.inj hq
        refine ⟨p, nowMs, evidence, n, by rw [← hn], rfl, ?_⟩
        change db.slot record.attempt.1 = _
        rw [hfree, Function.update_self]
  · exact simulates_stop

omit [DecidableEq O] [ReviewObservation O] in
lemma step_send {left : ℕ} {record : DeliveryRecord O} (hp : s.senders p = .sending left record) :
    Reservation.Step 3 s.ledger (.act p record.attempt) (s.send p left record).ledger := by
  rw [ledger_send]
  exact .act (stage_of hp)

omit [DecidableEq O] in
lemma simulates_finish {left : ℕ} {record : DeliveryRecord O} {result : SendResult}
    (hp : s.senders p = .sent left record) :
    Simulates s (.finish p record.attempt result nowMs) (s.finish p left record result nowMs) := by
  unfold State.finish
  split
  · rename_i db hdb
    obtain ⟨⟨n, hslot, hslot'⟩, hstate, -⟩ := Database.spec_finish hdb
    refine simulates_of_step (.settle p record.attempt result.state.phase) ?_ ?_
    · rw [ledger_move, stage_next, hslot']
      exact .settle _ (stage_of hp) hslot
    · intro a
      refine ⟨?_, by simp⟩
      rintro ⟨rfl, hphase⟩
      exact .inl ⟨p, result, nowMs, rfl, fun hu => hphase (by rw [hu]; rfl), hstate⟩
  · exact simulates_stop

omit [DecidableEq O] in
lemma simulates_resolve {eventId : HexDigest} {outcome : DeliveryState} (hlock : s.lock = none) :
    Simulates s (.resolve eventId outcome nowMs)
      (s.withDb (commit s.db (s.db.resolve eventId outcome nowMs))) := by
  cases hdb : s.db.resolve eventId outcome nowMs with
  | error e => exact simulates_of_eq rfl
  | ok db =>
      obtain ⟨⟨n, hslot, hslot'⟩, hstate, -⟩ := Database.spec_resolve hdb
      refine simulates_of_step (.resolve eventId outcome.phase) ?_ ?_
      · rw [commit, ledger_withDb, hslot']
        exact .resolve _ hlock hslot
      · intro a
        refine ⟨?_, by simp⟩
        rintro rfl
        exact .inr ⟨outcome, nowMs, rfl, hstate⟩

/-- The ledgers are linked by steps that end no attempt. -/
def Quiet (s t : Reservation.Ledger ι HexDigest) : Prop :=
  ∃ tr, (Reservation.ledger ι HexDigest 3).Run s tr t ∧ ∀ y ∈ tr, ∀ a, ¬ y.1.Ends a

omit [DecidableEq O] [ReviewObservation O] in
lemma Quiet.simulates {label : Label ι O} (h : Quiet s.ledger t.ledger) : Simulates s label t := by
  obtain ⟨tr, hr, hquiet⟩ := h
  exact ⟨tr, hr, fun y hy a =>
    ⟨fun ha => absurd (.inl ha) (hquiet y hy a), fun ha => absurd (.inr ha) (hquiet y hy a)⟩⟩

/-- A write of a collector opens at most one slot. -/
lemma quiet_write {db : Database O} {write : OutboxWrite O} (hlock : s.lock = none)
    (h : write.run nowMs s.db = .ok db) : Quiet s.ledger (s.withDb db).ledger := by
  have hsame : db.slot = s.db.slot → Quiet s.ledger (s.withDb db).ledger := by
    intro hslot
    refine ⟨[], ?_, by simp⟩
    rw [ledger_withDb, hslot]
    exact .nil s.ledger
  cases write with
  | enqueue event suppressedReason =>
      rcases (Database.spec_enqueue h).1 with hslot | ⟨hnone, hslot⟩
      · exact hsame hslot
      · refine ⟨[(.add event.eventId, _)], .single ?_, ?_⟩
        · rw [ledger_withDb, hslot]
          exact .add hlock hnone
        · simp
  | suppress eventId reason => exact hsame (Database.spec_suppress h).1

/-- So does a whole collection. -/
lemma quiet_collectWrites {db : Database O} {writes : List (OutboxWrite O)} (hlock : s.lock = none)
    (h : collectWrites nowMs s.db writes = .ok db) : Quiet s.ledger (s.withDb db).ledger := by
  induction writes generalizing s with
  | nil =>
      rw [collectWrites, pure_eq_ok_iff] at h
      subst h
      exact ⟨[], .nil _, by simp⟩
  | cons write writes ih =>
      simp only [collectWrites, bind_eq_ok] at h
      obtain ⟨db₁, hwrite, hrest⟩ := h
      obtain ⟨tr, hr, hquiet⟩ := quiet_write hlock hwrite
      obtain ⟨tr', hr', hquiet'⟩ := ih (s := s.withDb db₁) hlock hrest
      refine ⟨tr ++ tr', hr.append hr', fun y hy => ?_⟩
      rcases List.mem_append.mp hy with hy | hy
      · exact hquiet y hy
      · exact hquiet' y hy

lemma simulates_collect {writes : List (OutboxWrite O)} (hlock : s.lock = none) :
    Simulates s (.collect writes nowMs)
      (s.withDb (commit s.db (collectWrites nowMs s.db writes))) := by
  cases hdb : collectWrites nowMs s.db writes with
  | error e => exact simulates_of_eq rfl
  | ok db => exact (quiet_collectWrites hlock hdb).simulates

omit [DecidableEq O] in
lemma simulates_retry {eventId : HexDigest} :
    Simulates s (.retry eventId nowMs)
      (s.withDb (commit s.db (s.db.retryFailed eventId nowMs))) := by
  refine simulates_of_eq ?_
  cases hdb : s.db.retryFailed eventId nowMs with
  | error e => rfl
  | ok db =>
      rw [commit, ledger_withDb, (Database.spec_retryFailed hdb).1]
      rfl

/-- **Every step is matched by the attempt ledger.** -/
theorem step_simulates {label : Label ι O} (hkeyed : s.db.Keyed) (h : step? s label = some t) :
    Simulates s label t := by
  cases label with
  | deliver p targetFingerprint limit =>
      simp only [step?] at h
      split at h
      · rename_i hlock hp
        cases h
        exact simulates_deliver hp
      · cases h
  | claim p nowMs =>
      simp only [step?] at h
      split at h
      · rename_i left hlock hp
        cases h
        exact simulates_claim hkeyed hlock hp
      · cases h
  | recheck p attempt nowMs evidence =>
      simp only [step?] at h
      split at h
      · rename_i left record hlock hp
        split at h
        · rename_i hattempt
          cases h
          subst hattempt
          exact simulates_recheck hlock hp
        · cases h
      · cases h
  | send p attempt =>
      simp only [step?] at h
      split at h
      · rename_i left record hp
        split at h
        · cases h
          exact simulates_of_quiet _ (step_send hp) (by simp)
        · cases h
      · cases h
  | finish p attempt result nowMs =>
      simp only [step?] at h
      split at h
      · rename_i left record hp
        split at h
        · rename_i hattempt
          cases h
          subst hattempt
          exact simulates_finish hp
        · cases h
      · cases h
  | crash p =>
      cases h
      exact simulates_stop
  | collect writes nowMs =>
      simp only [step?] at h
      split at h
      · rename_i hlock
        cases h
        exact simulates_collect hlock
      · cases h
  | resolve eventId outcome nowMs =>
      simp only [step?] at h
      split at h
      · rename_i hlock
        cases h
        exact simulates_resolve hlock
      · cases h
  | retry eventId nowMs =>
      simp only [step?] at h
      split at h
      · cases h
        exact simulates_retry
      · cases h

/-! ## The primary key -/

lemma keyed_collectWrites {db db' : Database O} {writes : List (OutboxWrite O)} (hkeyed : db.Keyed)
    (h : collectWrites nowMs db writes = .ok db') : db'.Keyed := by
  induction writes generalizing db with
  | nil =>
      rw [collectWrites, pure_eq_ok_iff] at h
      subst h
      exact hkeyed
  | cons write writes ih =>
      simp only [collectWrites, bind_eq_ok] at h
      obtain ⟨db₁, hwrite, hrest⟩ := h
      refine ih ?_ hrest
      cases write with
      | enqueue event suppressedReason => exact (Database.spec_enqueue hwrite).2 hkeyed
      | suppress eventId reason => exact (Database.spec_suppress hwrite).2 hkeyed

omit [DecidableEq O] [Sha256] [ReviewObservation O] in
/-- A transaction keeps what its body keeps. -/
lemma keyed_commit {db : Database O} {result : Except NotificationError (Database O)}
    (hkeyed : db.Keyed) (h : ∀ db', result = .ok db' → db'.Keyed) : (commit db result).Keyed := by
  cases result with
  | error e => exact hkeyed
  | ok db' => exact h db' rfl

/-- Every step keeps `event_id` unique. -/
lemma step_keyed {label : Label ι O} (hkeyed : s.db.Keyed) (h : step? s label = some t) :
    t.db.Keyed := by
  cases label with
  | deliver p targetFingerprint limit =>
      simp only [step?, State.deliver] at h
      split at h
      · cases h
        split
        · rename_i db hdb
          exact (Database.keyed_congr (Database.spec_bindTarget hdb)).mpr hkeyed
        · exact hkeyed
      · cases h
  | claim p nowMs =>
      simp only [step?, State.claim] at h
      split at h
      · cases h
        split
        · rename_i db record hdb
          exact (Database.spec_claim hkeyed hdb).2.1
        · rename_i db hdb
          exact (Database.spec_claim hkeyed hdb).2.1
        · exact hkeyed
      · cases h
  | recheck p attempt nowMs evidence =>
      simp only [step?, State.recheck] at h
      split at h
      · split at h
        · cases h
          split
          · rename_i db current hdb
            exact (spec_recheckClaim hdb).1 hkeyed
          · rename_i db hdb
            exact (spec_recheckClaim hdb).1 hkeyed
          · exact hkeyed
        · cases h
      · cases h
  | send p attempt =>
      simp only [step?] at h
      split at h
      · split at h
        · cases h
          exact hkeyed
        · cases h
      · cases h
  | finish p attempt result nowMs =>
      simp only [step?, State.finish] at h
      split at h
      · split at h
        · cases h
          split
          · rename_i db hdb
            exact (Database.spec_finish hdb).2.2 hkeyed
          · exact hkeyed
        · cases h
      · cases h
  | crash p =>
      cases h
      exact hkeyed
  | collect writes nowMs =>
      simp only [step?] at h
      split at h
      · cases h
        exact keyed_commit hkeyed fun db' hdb => keyed_collectWrites hkeyed hdb
      · cases h
  | resolve eventId outcome nowMs =>
      simp only [step?] at h
      split at h
      · cases h
        exact keyed_commit hkeyed fun db' hdb => (Database.spec_resolve hdb).2.2 hkeyed
      · cases h
  | retry eventId nowMs =>
      simp only [step?] at h
      split at h
      · cases h
        exact keyed_commit hkeyed fun db' hdb => (Database.spec_retryFailed hdb).2 hkeyed
      · cases h

/-! ## Runs -/

lemma keyed_of_reachable (h : (system ι O).Reachable s) : s.db.Keyed := by
  refine System.Reachable.invariant (I := fun s => s.db.Keyed) ?_ (fun _ _ _ => step_keyed) h
  rintro s rfl
  exact List.nodup_nil

/-- Every run is matched by the attempt ledger. -/
lemma run_simulates {tr : List (Label ι O × State ι O)} (hkeyed : s.db.Keyed)
    (h : (system ι O).Run s tr t) :
    ∃ tr', (Reservation.ledger ι HexDigest 3).Run s.ledger tr' t.ledger ∧
      ∀ y ∈ tr', ∃ x ∈ tr, Matches x y :=
  h.simulate State.ledger Matches (fun _ _ _ => step_keyed) (fun _ _ _ => step_simulates) hkeyed

/-- The ledger of a reachable state is reachable. -/
lemma ledger_reachable (h : (system ι O).Reachable s) :
    (Reservation.ledger ι HexDigest 3).Reachable s.ledger := by
  obtain ⟨s₀, tr, rfl, hr⟩ := h
  have hkeyed : (State.initial : State ι O).db.Keyed := List.nodup_nil
  obtain ⟨tr', hr', -⟩ := run_simulates hkeyed hr
  exact ⟨_, tr', rfl, hr'⟩

end steps

end MuStrategy.Notifications
