import MuStrategy.Execution.Fence
import MuStrategy.Lib.Path

/-!
# No double dispatch

* `stateHistory` — the states one reservation takes along a run.
* `State.Keeps` — what a later state keeps of an earlier one: the facts of every reservation, and
  the whole reservation once it is settled.
* `Inv.key_eq_of_action` — an action has one entry order and one leverage configuration.
* `no_double_dispatch` — the guarantees over a whole run, assembled.
-/

namespace MuStrategy.Execution

open Lib

/-- The states a reservation never leaves. -/
def settledStates : List ReservationState := [.acknowledged, .rejected, .unknown, .invalidated]

/-- A settled reservation may move nowhere. -/
lemma not_allowed_of_settled {a b : ReservationState} (h : a ∈ settledStates) :
    isReservationTransitionAllowed a b = false := by
  revert h
  cases a <;> cases b <;> decide

/-- The transition graph as a relation. -/
def Allowed (a b : ReservationState) : Prop := isReservationTransitionAllowed a b = true

/-- A path of the transition graph from `DISPATCHING` back to `DISPATCHING` goes through
`NOT_SENT_FAILED`. -/
lemma notSentFailed_mem_of_path {before between after : List ReservationState}
    (h : (before ++ .dispatching :: (between ++ .dispatching :: after)).IsChain Allowed) :
    .notSentFailed ∈ between := by
  have hpath : (.dispatching :: (between ++ .dispatching :: after)).IsChain Allowed :=
    (List.isChain_append.mp h).2.1
  cases between with
  | nil =>
      have hself : Allowed .dispatching .dispatching := (List.isChain_cons_cons.mp hpath).1
      revert hself
      unfold Allowed
      decide
  | cons x between =>
      obtain ⟨hx, hrest⟩ := List.isChain_cons_cons.mp hpath
      -- whatever follows `x` exists, so `x` is not settled
      have hnext : ∃ y, Allowed x y := by
        cases between with
        | nil => exact ⟨_, (List.isChain_cons_cons.mp hrest).1⟩
        | cons y between => exact ⟨y, (List.isChain_cons_cons.mp hrest).1⟩
      obtain ⟨y, hy⟩ := hnext
      have hcases : ∀ x y, isReservationTransitionAllowed .dispatching x = true →
            isReservationTransitionAllowed x y = true → x = .notSentFailed := by
        intro x y
        cases x <;> cases y <;> decide
      rw [hcases x y hx hy]
      exact List.mem_cons_self

section dispatch

variable [Sha256]

/-- The states a reservation takes along a list of store states. -/
def stateHistory (key : ReservationKey) (states : List State) : List ReservationState :=
  observed (fun s => (s.reservationAt key).map MutationReservation.state) states

namespace State

variable {s s' : State}

/-- Every reservation keeps its facts, and a settled one keeps everything. -/
def Keeps (s s' : State) : Prop :=
  ∀ r ∈ s.reservations, ∃ r' ∈ s'.reservations,
    r'.facts = r.facts ∧ (r.state ∈ settledStates → r' = r)

omit [Sha256] in
lemma Keeps.refl (s : State) : s.Keeps s := fun r hr => ⟨r, hr, rfl, fun _ => rfl⟩

omit [Sha256] in
lemma Keeps.trans (s t u : State) (h : s.Keeps t) (h' : t.Keeps u) : s.Keeps u := by
  intro r hr
  obtain ⟨r', hr', hfacts, hsettled⟩ := h r hr
  obtain ⟨r'', hr'', hfacts', hsettled'⟩ := h' r' hr'
  refine ⟨r'', hr'', hfacts'.trans hfacts, fun hr => ?_⟩
  obtain rfl := hsettled hr
  exact hsettled' hr

lemma keeps_step (s : State) (call : Call) (s' : State) (h : Inv s)
    (hst : system.step s call s') : s.Keeps s' := by
  obtain rfl | hstep := h.system_step_cases hst
  · exact .refl _
  intro r hr
  have hat : s.reservationAt r.key = some r := h.reservationAt_eq_some_iff.mpr ⟨hr, rfl⟩
  obtain hsame | ⟨hnone, -⟩ | ⟨r₀, state, hr₀, hallowed, hmoved⟩ :=
    hstep.reservationAt_cases h r.key
  · exact ⟨r, Table.mem_of_lookup (hsame.trans hat), rfl, fun _ => rfl⟩
  · rw [hat] at hnone
    cases hnone
  · rw [hat, Option.some.injEq] at hr₀
    subst hr₀
    refine ⟨_, Table.mem_of_lookup hmoved, rfl, fun hsettled => ?_⟩
    rw [not_allowed_of_settled hsettled] at hallowed
    cases hallowed

/-- What a call does to the state of one reservation. -/
lemma observes_step (key : ReservationKey) (s : State) (call : Call) (s' : State) (h : Inv s)
    (hst : system.step s call s') :
    Observes (fun s => (s.reservationAt key).map MutationReservation.state) Allowed .reserved s s' := by
  obtain rfl | hstep := h.system_step_cases hst
  · exact .same rfl
  obtain hsame | ⟨hnone, r, hr, hstate⟩ | ⟨r, state, hr, hallowed, hmoved⟩ :=
    hstep.reservationAt_cases h key
  · exact .same (by rw [hsame])
  · exact .appear (by rw [hnone]; rfl) (by rw [hr, ← hstate]; rfl)
  · exact .move (by rw [hr]; rfl) (by rw [hmoved]; rfl) hallowed

/-- The mutation action of an entry order or a leverage configuration is determined by its intent:
an action of an environment has at most one of each. -/
lemma Inv.key_eq_of_action (h : Inv s) {r r' : MutationReservation} (hr : r ∈ s.reservations)
    (hr' : r' ∈ s.reservations) (haction : r.actionKey = r'.actionKey)
    (hop : r.operation = r'.operation) (hcancel : r.operation ≠ .cancelOrder) : r.key = r'.key := by
  obtain ⟨x, row, hrow, hx, hsel, -, hbind⟩ := h.reservations_bound r hr
  obtain ⟨x', row', hrow', hx', hsel', -, hbind'⟩ := h.reservations_bound r' hr'
  have hkeys : row.key = row'.key := by
    rw [hsel.key, hsel'.key, ← hbind.actionKey, ← hbind'.actionKey, haction]
  obtain rfl := h.selections_unique.eq_of_key hrow hrow' hkeys
  obtain rfl := h.eq_of_stores hx hx' (hsel.selectedIntentId.symm.trans hsel'.selectedIntentId)
  have hmid := (validateMutationAction_eq_ok.mp hbind.action).1
  have hmid' := (validateMutationAction_eq_ok.mp hbind'.action).1
  rw [← hop] at hmid'
  have hsame : r.mutationActionId = r'.mutationActionId := by
    cases hop' : r.operation with
    | cancelOrder => exact absurd hop' hcancel
    | submitEntry =>
        rw [hop'] at hmid hmid'
        exact Except.ok.inj (hmid.symm.trans hmid')
    | configureLeverage =>
        rw [hop'] at hmid hmid'
        exact Except.ok.inj (hmid.symm.trans hmid')
  have henv : r.environment = r'.environment := congrArg Prod.fst haction
  rw [MutationReservation.key, MutationReservation.key, henv, hop, hsame]

end State

/-- What no double dispatch means along the states of a run. -/
structure NoDoubleDispatch (states : List State) : Prop where
  /-- The identity facts of a reservation never change after it is inserted. -/
  facts_kept : states.Pairwise fun s t =>
    ∀ r ∈ s.reservations, ∃ r' ∈ t.reservations, r'.facts = r.facts
  /-- The states of a reservation are a path of the transition graph … -/
  history_path : ∀ key, (stateHistory key states).IsChain Allowed
  /-- … that begins at `RESERVED`. -/
  history_start : ∀ key, ∀ state ∈ (stateHistory key states).head?, state = .reserved
  /-- A reservation never leaves `ACKNOWLEDGED`, `REJECTED`, `UNKNOWN` or `INVALIDATED`. -/
  settled_kept : states.Pairwise fun s t =>
    ∀ r ∈ s.reservations, r.state ∈ settledStates → r ∈ t.reservations
  /-- Between two entries into `DISPATCHING` there is a `NOT_SENT_FAILED`. -/
  dispatch_again : ∀ key before between after,
    stateHistory key states = before ++ .dispatching :: (between ++ .dispatching :: after) →
      .notSentFailed ∈ between
  /-- An action has at most one entry order and one leverage configuration over the whole run. -/
  one_per_action : ∀ s ∈ states, ∀ t ∈ states, ∀ r ∈ s.reservations, ∀ r' ∈ t.reservations,
    r.actionKey = r'.actionKey → r.operation = r'.operation →
      r.operation ∈ [MutationOperation.submitEntry, .configureLeverage] → r.key = r'.key
  /-- Different mutations share neither an idempotency key nor a client order identifier. -/
  identifiers_distinct : ∀ s ∈ states, ∀ t ∈ states, ∀ r ∈ s.reservations,
    ∀ r' ∈ t.reservations, r.key ≠ r'.key → r.idempotencyKey ≠ r'.idempotencyKey ∧
      ∀ id, r.clientOrderId = some id → r'.clientOrderId ≠ some id

open State in
/-- **No double dispatch**: along every run of the store, from the empty tables, by any clients.
Source: `execution/store.py` `reserve_mutation`, `transition_reservation`,
`_validate_mutation_action`; `execution/audit.py` `_ALLOWED_RESERVATION_TRANSITIONS`. -/
theorem no_double_dispatch {tr : List (Call × State)} {s : State}
    (hrun : system.Run State.empty tr s) : NoDoubleDispatch (System.states State.empty tr) := by
  have hkeeps : (System.states State.empty tr).Pairwise Keeps :=
    hrun.pairwise_states Keeps.refl Keeps.trans inv_step keeps_step inv_empty
  have hend : ∀ t ∈ System.states State.empty tr, t.Keeps s :=
    hrun.rel_end Keeps.refl Keeps.trans inv_step keeps_step inv_empty
  have h : Inv s := inv_of_reachable ⟨_, tr, rfl, hrun⟩
  have hobserves (key : ReservationKey) := hrun.isChain_states inv_step (observes_step key) inv_empty
  refine ⟨?_, fun key => isChain_observed (hobserves key), ?_, ?_, ?_, ?_, ?_⟩
  · refine hkeeps.imp fun hst r hr => ?_
    obtain ⟨r', hr', hfacts, -⟩ := hst r hr
    exact ⟨r', hr', hfacts⟩
  · exact fun key => head?_observed (hobserves key) rfl
  · refine hkeeps.imp fun hst r hr hsettled => ?_
    obtain ⟨r', hr', -, heq⟩ := hst r hr
    exact heq hsettled ▸ hr'
  · intro key before between after heq
    have hpath : (stateHistory key (System.states State.empty tr)).IsChain Allowed :=
      isChain_observed (hobserves key)
    rw [heq] at hpath
    exact notSentFailed_mem_of_path hpath
  · intro t ht u hu r hr r' hr' haction hop hkind
    obtain ⟨r₁, hr₁, hfacts, -⟩ := hend t ht r hr
    obtain ⟨r₂, hr₂, hfacts', -⟩ := hend u hu r' hr'
    have hop₁ : r₁.operation = r.operation := eq_of_facts hfacts fun _ => rfl
    have hop₂ : r₂.operation = r'.operation := eq_of_facts hfacts' fun _ => rfl
    have hcancel : r₁.operation ≠ .cancelOrder := by
      rw [hop₁]
      rintro hc
      rw [hc] at hkind
      revert hkind
      decide
    have haction₁ : r₁.actionKey = r.actionKey := eq_of_facts hfacts fun _ => rfl
    have haction₂ : r₂.actionKey = r'.actionKey := eq_of_facts hfacts' fun _ => rfl
    have hkey₁ : r₁.key = r.key := eq_of_facts hfacts fun _ => rfl
    have hkey₂ : r₂.key = r'.key := eq_of_facts hfacts' fun _ => rfl
    rw [← hkey₁, ← hkey₂]
    refine h.key_eq_of_action hr₁ hr₂ ?_ ?_ hcancel
    · rw [haction₁, haction₂, haction]
    · rw [hop₁, hop₂, hop]
  · intro t ht u hu r hr r' hr' hne
    obtain ⟨r₁, hr₁, hfacts, -⟩ := hend t ht r hr
    obtain ⟨r₂, hr₂, hfacts', -⟩ := hend u hu r' hr'
    have hne' : r₁ ≠ r₂ := by
      rintro rfl
      have hkey₁ : r₁.key = r.key := eq_of_facts hfacts fun _ => rfl
      have hkey₂ : r₁.key = r'.key := eq_of_facts hfacts' fun _ => rfl
      exact hne (hkey₁.symm.trans hkey₂)
    have hid₁ : r₁.idempotencyKey = r.idempotencyKey :=
      eq_of_facts hfacts fun _ => rfl
    have hid₂ : r₂.idempotencyKey = r'.idempotencyKey :=
      eq_of_facts hfacts' fun _ => rfl
    have hclient₁ : r₁.clientOrderId = r.clientOrderId :=
      eq_of_facts hfacts fun _ => rfl
    have hclient₂ : r₂.clientOrderId = r'.clientOrderId :=
      eq_of_facts hfacts' fun _ => rfl
    constructor
    · intro heq
      exact hne' (h.idempotencyKeys_unique.eq_of_key hr₁ hr₂ (hid₁.trans (heq.trans hid₂.symm)))
    · intro id hid hid'
      refine hne' (h.clientOrderIds_unique r₁ hr₁ r₂ hr₂ ?_ ?_).symm
      · rw [hclient₁, hid]
        rfl
      · rw [hclient₁, hclient₂, hid, hid']

end dispatch

/-! ## A concrete run -/

section concrete

attribute [local instance] zeroSha256

/-- The run that records, reserves and dispatches the demo entry order dispatches it once. -/
theorem no_double_dispatch_demo : NoDoubleDispatch (System.states State.empty
    (System.traceFn (fun s call => (s.run call).2) State.empty demoCalls)) :=
  no_double_dispatch demoRun

end concrete

end MuStrategy.Execution
