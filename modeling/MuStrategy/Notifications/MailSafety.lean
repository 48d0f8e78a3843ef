import MuStrategy.Notifications.AttemptLedger

/-!
# Mail is sent at most once per attempt

* `MailSafety` — one mail for each attempt, three for each event, none after confirmation, and none
  while the outcome of an earlier attempt is unknown and not resolved by the operator.
* `mail_at_most_once` — it holds of every reachable state.
-/

namespace MuStrategy.Notifications

open Lib

section steps

variable {ι O : Type} [DecidableEq ι] [DecidableEq O] [Sha256] [ReviewObservation O]

variable {s t : State ι O} {p : ι}

/-- The calls of `transport.send` for an event. -/
def State.sendsOf (s : State ι O) (eventId : HexDigest) : List Attempt :=
  s.sends.filter fun a => a.1 = eventId

/-- What the outbox guarantees of its mails, in a state and from it on. -/
structure MailSafety (s : State ι O) : Prop where
  /-- `transport.send` was called at most once for each event and attempt number. -/
  once : s.sends.Nodup
  /-- It was called at most three times for each event. -/
  three : ∀ e, (s.sendsOf e).length ≤ 3
  /-- It is not called any more for a confirmed event. -/
  confirmed : ∀ e tr t, s.db.stateOf e = some .confirmed → (system ι O).Run s tr t →
    t.sendsOf e = s.sendsOf e
  /-- While the outcome of an attempt is `UNKNOWN`, it is not called for another attempt of the event:
  first the outcome is settled, or the sender that reserved the attempt gives it back uncalled. -/
  unknown : ∀ q a b tr u v row, s.db.row a.1 = some row → row.state = .unknown →
    row.attempts = a.2 → (system ι O).Run s tr u → (system ι O).step u (.send q b) v →
    b.1 = a.1 → b ≠ a → ∃ x ∈ tr, Settles a x ∨ GivesBack a x
  /-- Between a call and a later call for the same event, the outcome of the first was settled: its
  sender recorded what the transport reported, other than `UNKNOWN`, or the operator resolved the
  event. -/
  settled : ∀ p q a b t tr u v, (system ι O).step s (.send p a) t → (system ι O).Run t tr u →
    (system ι O).step u (.send q b) v → b.1 = a.1 → ∃ x ∈ tr, Settles a x

/-- The mail is a step of the ledger. -/
lemma step_send_ledger {a : Attempt} (h : (system ι O).step s (.send p a) t) :
    (Reservation.ledger ι HexDigest 3).step s.ledger (.act p a) t.ledger := by
  change step? s (.send p a) = some t at h
  simp only [step?] at h
  split at h
  · rename_i left record hp
    split at h
    · rename_i hattempt
      cases h
      subst hattempt
      exact step_send hp
    · cases h
  · cases h

/-- **Mail is sent at most once for each attempt**, over every interleaving of senders with crashes,
collectors and operator commands. -/
theorem mail_at_most_once (h : (system ι O).Reachable s) : MailSafety s where
  once := Reservation.Reachable.acts_nodup (ledger_reachable h)
  three e := Reservation.Reachable.acts_le (ledger_reachable h) e
  confirmed e tr t hstate hr := by
    obtain ⟨row, hrow, hconfirmed⟩ := Option.map_eq_some_iff.mp hstate
    have hslot : s.ledger.slot e = some (.closed, row.attempts) := by
      change s.db.slot e = _
      rw [Database.slot, hrow, Option.map_some, OutboxRow.slot, hconfirmed]
      rfl
    obtain ⟨tr', hr', -⟩ := run_simulates (keyed_of_reachable h) hr
    exact Reservation.Run.acts_of_closed (ledger_reachable h) hr' hslot
  unknown q a b tr u v row hrow hstate hattempts hr hsend hab hne := by
    have hslot : s.ledger.slot a.1 = some (.reserved, a.2) := by
      change s.db.slot a.1 = _
      rw [Database.slot, hrow, Option.map_some, OutboxRow.slot, hstate, hattempts]
      rfl
    obtain ⟨tr', hr', hends⟩ := run_simulates (keyed_of_reachable h) hr
    obtain ⟨y, hy, hya⟩ := Reservation.Run.ended_between (ledger_reachable h) hslot hr'
      (step_send_ledger hsend) hab hne
    obtain ⟨x, hx, hxy⟩ := hends y hy
    exact ⟨x, hx, hya.imp (hxy a).1 (hxy a).2⟩
  settled p q a b t tr u v hsend hr hsend' hab := by
    obtain ⟨tr', hr', hset⟩ := run_simulates (keyed_of_reachable (h.step hsend)) hr
    obtain ⟨y, hy, hya⟩ := Reservation.Run.settled_between (ledger_reachable h)
      (step_send_ledger hsend) hr' (step_send_ledger hsend') hab
    obtain ⟨x, hx, hxy⟩ := hset y hy
    exact ⟨x, hx, (hxy a).1 hya⟩

end steps

/-! ## A mail whose outcome is unknown -/

section concrete

attribute [local instance] zeroSha256

/-- Observations of a run without signals: there are none. -/
@[reducible] def noObservation : ReviewObservation Empty where
  completeReady := Empty.elim
  fromDict := Empty.elim

attribute [local instance] noObservation

/-- A fault of the service. -/
def demoFault : AlertEvent Empty where
  kind := .serviceFault
  identity := canonicalSha256 .null
  occurredAtMs := 1000
  reviewUntilMs := none
  reason := .healthEvent
  problems := ["runtime.stopped"]

/-- The first attempt at mailing the fault. -/
def demoAttempt : Attempt := (demoFault.eventId, 1)

/-- A collector records the fault, and a sender mails it with unknown outcome. -/
def demoLabels : List (Label Unit Empty) :=
  [.collect [.enqueue demoFault none] 1000,
    .deliver () (canonicalSha256 .null) 20,
    .claim () 2000,
    .recheck () demoAttempt 2000 ⟨false, none⟩,
    .send () demoAttempt,
    .finish () demoAttempt ⟨.unknown, .smtpResultUnknown, false, by decide, by decide⟩ 3000]

/-- The labels are enabled one after another. -/
lemma demoLabels_enabled : (demoLabels.foldlM step? State.initial).isSome = true := by
  decide +kernel

/-- The state they lead to. -/
def demoState : State Unit Empty := (demoLabels.foldlM step? State.initial).get demoLabels_enabled

lemma demoState_reachable : (system Unit Empty).Reachable demoState := by
  obtain ⟨tr, hr⟩ := System.run_of_foldlM State.initial (Option.some_get demoLabels_enabled).symm
  exact ⟨_, tr, rfl, hr⟩

/-- One mail was sent, its outcome is unknown, and the guarantees hold. -/
theorem mail_at_most_once_demo :
    demoState.sends = [demoAttempt] ∧ demoState.db.stateOf demoFault.eventId = some .unknown ∧
      MailSafety demoState :=
  ⟨by decide +kernel, by decide +kernel, mail_at_most_once demoState_reachable⟩

end concrete

end MuStrategy.Notifications
