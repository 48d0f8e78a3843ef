import MuStrategy.Notifications.Lifecycle
import MuStrategy.Notifications.Senders

/-!
# The lifecycle of the signals, over every run

* `Evolves`, `step_evolves` — what every step does to the email database.
* `signal_lifecycle` — the lifecycle holds in every reachable state.
-/

namespace MuStrategy.Notifications

open Lib

/-! ## Every step -/

section steps

variable {O : Type} [Sha256] [StageObservation O] {store store' store'' : AlertStore O}

/-- What a step does to the email database. -/
structure Evolves (store store' : AlertStore O) : Prop where
  sound : Sound store'
  grows : Extends store store'
  tracked : Tracked store → DistinctTransitions store' → Tracked store'

lemma Evolves.refl (hsound : Sound store) : Evolves store store := ⟨hsound, .refl store, fun h _ => h⟩

lemma Evolves.trans (h : Evolves store store') (h' : Evolves store' store'') : Evolves store store'' where
  sound := h'.sound
  grows := h.grows.trans h'.grows
  tracked htracked hdistinct := h'.tracked (h.tracked htracked (hdistinct.of_extends h'.grows)) hdistinct

lemma Evolves.changes {records : List (ObservationCycle O)} (hsound : Sound store) (h : Changes records store store') :
    Evolves store store' where
  sound := Changes.sound h hsound
  grows := Changes.extends h hsound
  tracked := Changes.tracked h

lemma Evolves.delivers {db : Database O} (hsound : Sound store) (h : Delivers store.delivery db) :
    Evolves store { store with delivery := db } where
  sound := hsound.delivers h
  grows := .delivers h
  tracked htracked _ := htracked.delivers h

/-- The cursor moves. -/
lemma Evolves.cursor (cursor : ℕ) (hsound : Sound store) : Evolves store { store with observationCursor := cursor } := by
  have hnew : Sound { store with observationCursor := cursor } :=
    hsound.of_rows hsound.keyed rfl fun row hrow => ⟨row, hrow, rfl, rfl⟩
  exact ⟨hnew, ⟨fun row hrow => ⟨row, hrow, .refl row⟩, fun _ => le_rfl⟩,
    fun htracked _ => htracked.moved hnew (.refl _) fun _ => .refl _⟩

variable {ι : Type} [DecidableEq ι] [DecidableEq O] {alerts : EmailAlerts} {s t : AlertState ι O}

lemma Evolves.collect {log : ObservationLog O} {snapshot : Snapshot O} {nowMs : ℤ} (hsound : Sound store)
    (h : store.collect alerts log snapshot nowMs = .ok store') : Evolves store store' := by
  obtain ⟨records, consumed, -, hfirst, hrest⟩ := collect_changes hsound h
  have hconsumed := Evolves.changes hsound hfirst
  have hcursor := hconsumed.trans (.cursor (store.observationCursor + records.length) hconsumed.sound)
  exact hcursor.trans (.changes hcursor.sound hrest)

omit [DecidableEq ι] [DecidableEq O] in
lemma evolves_transaction {ε : Type} {result : Except ε (AlertStore O)} (hsound : Sound s.store)
    (h : transaction? s result = some t) (hresult : ∀ store, result = .ok store → Evolves s.store store) :
    Evolves s.store t.store := by
  obtain ⟨-, rfl | ⟨store, hstore, -, rfl⟩⟩ := transaction_eq_some h
  · exact .refl hsound
  · exact hresult _ hstore

/-- **What every step does to the email database.** -/
theorem step_evolves {label : AlertLabel ι O} (hsound : Sound s.store)
    (h : alertStep? alerts s label = some t) : Evolves s.store t.store := by
  cases label with
  | mail label =>
      obtain ⟨-, hcollect, mail, hstep, rfl⟩ := mailStep_eq_some h
      exact .delivers hsound (delivers_step hcollect hsound.keyed hstep)
  | recheck p attempt nowMs snapshot =>
      simp only [alertStep?] at h
      split at h
      · obtain ⟨mail, hstep, rfl⟩ := Option.map_eq_some_iff.mp h
        exact .delivers hsound (delivers_step (by simp) hsound.keyed hstep)
      · cases h
  | collect found nowMs snapshot => exact evolves_transaction hsound h fun store hstore => .collect hsound hstore
  | sourceUnavailable nowMs =>
      exact evolves_transaction hsound h fun store hstore => .changes hsound (sourceUnavailable_changes hsound hstore)
  | observationUnavailable nowMs =>
      refine evolves_transaction hsound h fun store hstore => ?_
      have hchanges : Changes [] s.store store := observationUnavailable_changes hstore
      exact .changes hsound hchanges
  | reconcileHealth nowMs state =>
      refine evolves_transaction hsound h fun store hstore => ?_
      have hchanges : Changes [] s.store store := reconcileHealth_changes hstore
      exact .changes hsound hchanges
  | beginAppend cycle =>
      simp only [alertStep?] at h
      split at h
      · cases h
      split at h <;> cases h <;> exact .refl hsound
  | writeAppend =>
      simp only [alertStep?] at h
      split at h <;> cases h
      exact .refl hsound
  | finishAppend =>
      simp only [alertStep?] at h
      split at h <;> cases h
      exact .refl hsound
  | abortAppend =>
      simp only [alertStep?] at h
      split at h <;> cases h
      exact .refl hsound

/-! ## Every run -/

/-- What a run does to the email database. -/
lemma run_evolves {tr : List (AlertLabel ι O × AlertState ι O)} (h : (alertSystem ι O alerts).Run s tr t)
    (hsound : Sound s.store) : Evolves s.store t.store :=
  h.rel (I := fun _ => True)
    (R := fun s t : AlertState ι O => Sound s.store → Evolves s.store t.store) (fun _ => .refl)
    (fun _ _ _ hst htu hs => (hst hs).trans (htu (hst hs).sound)) (fun _ _ _ _ _ => trivial)
    (fun _ _ _ _ hstep hs => step_evolves hs hstep) trivial hsound

lemma evolves_of_reachable (h : (alertSystem ι O alerts).Reachable s) : Evolves AlertStore.empty s.store := by
  obtain ⟨s₀, tr, rfl, hr⟩ := h
  exact run_evolves hr .empty

lemma tracked_of_reachable (h : (alertSystem ι O alerts).Reachable s) (hdistinct : DistinctTransitions s.store) :
    Tracked s.store := (evolves_of_reachable h).tracked .empty hdistinct

/-- **The lifecycle of the signals.** Over every interleaving of collections, transactions for an unreadable source,
senders, operator commands and appends to the log, with any states of the service, any clock and any crashes: entries,
withdrawals and streams belong together, and once an entry is confirmed, its withdrawal is mailed. -/
theorem signal_lifecycle {tr : List (AlertLabel ι O × AlertState ι O)} (hs : (alertSystem ι O alerts).Reachable s)
    (hr : (alertSystem ι O alerts).Run s tr t) (hdistinct : DistinctTransitions t.store) :
    Lifecycle t.store ∧ ∀ entry ∈ s.store.delivery.outbox, entry.payload.kind = .entryReview →
      entry.state = .confirmed → ∀ row ∈ t.store.delivery.withdrawalsOf entry.eventId, row.suppressedReason = none := by
  have htracked := tracked_of_reachable (hs.run hr) hdistinct
  refine ⟨htracked.lifecycle, fun entry hentry hkind hconfirmed row hrow => ?_⟩
  obtain ⟨entry', hentry', hle⟩ := (run_evolves hr (evolves_of_reachable hs).sound).grows.rows entry hentry
  by_contra hsuppressed
  rw [← hle.eventId] at hrow
  have hunseen := htracked.unseen entry' hentry' (hle.payload ▸ hkind) row hrow (Option.isSome_iff_ne_none.mpr hsuppressed)
  exact hunseen.2.1 (hle.confirmed hconfirmed)

end steps

/-! ## An entry that is mailed and withdrawn -/

section concrete

attribute [local instance] demoSha256 demoObservation

/-- A signal starts an entry, which is mailed and accepted; the next cycle withdraws it. -/
def lifecycleLabels : List (AlertLabel Unit DemoScan) :=
  publish readyCycle 1 1500 ++ claimEntry ++ mailEntry ++
    [.mail (.finish () (demoEntry, 1)
      ⟨.confirmed, .smtpAccepted, false, confirmed_ne_pending, confirmed_not_retryable⟩ 2500)] ++
      publish quietCycle 2 3500

lemma lifecycleLabels_enabled : (lifecycleLabels.foldlM (alertStep? demoAlerts) .initial).isSome = true := by
  decide +kernel

/-- The state they lead to. -/
def lifecycleState : AlertState Unit DemoScan :=
  (lifecycleLabels.foldlM (alertStep? demoAlerts) .initial).get lifecycleLabels_enabled

lemma lifecycleState_reachable : (alertSystem Unit DemoScan demoAlerts).Reachable lifecycleState := by
  obtain ⟨tr, hr⟩ := System.run_of_foldlM AlertState.initial (Option.some_get lifecycleLabels_enabled).symm
  exact ⟨_, tr, rfl, hr⟩

/-- The stream has started one transition, so its transitions are distinct. -/
lemma lifecycleState_distinct : DistinctTransitions lifecycleState.store := by
  intro row hrow o key ho hkey m n hm hmn hn
  have hcounter : (lifecycleState.store.streamOf "BTC").counter = 1 := by decide +kernel
  have hle : n ≤ 1 := hn.trans hcounter.le
  omega

/-- The entry was confirmed, and its withdrawal is there to be mailed. -/
theorem signal_lifecycle_demo :
    lifecycleState.mail.sends = [(demoEntry, 1)] ∧
      (lifecycleState.store.delivery.withdrawalsOf demoEntry).map OutboxRow.suppressedReason = [none] ∧
      Lifecycle lifecycleState.store :=
  ⟨by decide +kernel, by decide +kernel,
    (signal_lifecycle lifecycleState_reachable (.nil _) lifecycleState_distinct).1⟩

end concrete

end MuStrategy.Notifications
