import MuStrategy.Execution.StoreInvariant

/-!
# The effect of a store call

* `State.Step` — the effect of a committed call, one constructor for each branch that writes.
* `recordIntent_step`, `reserveMutation_cases`, `transitionReservation_step` — what each transaction
  does when it returns; `run_cases` — a call leaves the store as it is or performs one `Step`.
* `Step.inv`, `inv_of_reachable` — the store invariant holds in every reachable state.
* `Step.reservationAt_cases` — what a step does to one reservation: nothing, insert it, or move its
  state along the transition graph; `Step.selectionOf_eq` — the selection of a reserved action stays.
-/

namespace MuStrategy.Execution

open Lib

variable [Sha256]

namespace State

/-- What `_insert_or_verify_intent` leaves in `intents`. -/
inductive IntentsAfter (s : State) (intent : OrderIntent) (sourceScanId : String) :
    List IntentRow → Prop where
  | kept : s.Stores intent → IntentsAfter s intent sourceScanId s.intents
  | added : isToken sourceScanId = true → (∀ row ∈ s.intents, row.intentId ≠ intent.intentId) →
      IntentsAfter s intent sourceScanId (s.intents ++ [.ofIntent intent sourceScanId])

/-- The store with one more audit event. -/
def withEvent (s : State) (event : ExecutionAuditEvent) : State :=
  { s with auditEvents := s.auditEvents ++ [eventRow event] }

/-- **The effect of a committed call.** -/
inductive Step (s : State) : State → Prop where
  /-- The first intent of an action: a selection at version 1 and `intent.created`. -/
  | create {intent : OrderIntent} {sourceScanId : String} {metadata : EventMetadata}
      {event : ExecutionAuditEvent} {intents : List IntentRow}
      (hintents : s.IntentsAfter intent sourceScanId intents)
      (hnone : Table.lookup ActionSelection.key s.actionSelections intent.actionKey = none)
      (hreservations : ∀ r ∈ s.reservations, r.actionKey ≠ intent.actionKey)
      (hevents : ∀ row ∈ s.auditEvents, row.auditCorrelationId ≠ intent.businessActionId)
      (hevent : event.toExecutionAuditEventFields = s.eventFields intent sourceScanId metadata
        .intentCreated (.obj [("intent", intent.toDict)])) :
      Step s (withEvent { s with
        intents := intents
        actionSelections := s.actionSelections ++ [firstSelection intent] } event)
  /-- The selected intent again: only `intent.reused`. -/
  | reuse {existing : OrderIntent} {selection : ActionSelection} {sourceScanId : String}
      {metadata : EventMetadata} {event : ExecutionAuditEvent}
      (hstores : s.Stores existing)
      (hselection : selection ∈ s.actionSelections) (hselects : selection.Selects existing)
      (hevent : event.toExecutionAuditEventFields = s.eventFields existing sourceScanId metadata
        .intentReused (reusedPayload existing sourceScanId)) :
      Step s (s.withEvent event)
  /-- Another intent of an unreserved action: the next version and `intent.superseded`. -/
  | supersede {existing intent : OrderIntent} {selection : ActionSelection}
      {sourceScanId : String} {metadata : EventMetadata} {event : ExecutionAuditEvent}
      {intents : List IntentRow}
      (hintents : s.IntentsAfter intent sourceScanId intents)
      (hselection : selection ∈ s.actionSelections) (hkey : selection.key = intent.actionKey)
      (hfree : selection.mutationReserved = false)
      (hevent : event.toExecutionAuditEventFields = s.eventFields intent sourceScanId metadata
        .intentSuperseded (supersededPayload existing intent (selection.selectionVersion + 1))) :
      Step s (withEvent { s with
        intents := intents
        actionSelections := Table.update (fun row => decide (row.key = intent.actionKey))
          (selectRevision intent (selection.selectionVersion + 1)) s.actionSelections } event)
  /-- A fresh reservation for the selected intent: the action is fenced, `idempotency.reserved`. -/
  | reserve {intent : OrderIntent} {selection : ActionSelection} {r : MutationReservation}
      {sourceScanId : String} {metadata : EventMetadata} {event : ExecutionAuditEvent}
      (hstores : s.Stores intent)
      (hselection : selection ∈ s.actionSelections) (hselects : selection.Selects intent)
      (hbinds : r.Binds intent) (hstate : r.state = .reserved)
      (hkey : ∀ r' ∈ s.reservations, r'.key ≠ r.key)
      (hidem : ∀ r' ∈ s.reservations, r'.idempotencyKey ≠ r.idempotencyKey)
      (hclient : ∀ r' ∈ s.reservations, r.clientOrderId.isSome = true →
        r'.clientOrderId ≠ r.clientOrderId)
      (hslot : r.operation = .cancelOrder → ∀ r' ∈ s.reservations,
        r'.environment = r.environment → r'.operation = .cancelOrder →
          r'.orderLineageId = r.orderLineageId → r'.state = .rejected)
      (hevent : event.toExecutionAuditEventFields = s.eventFields intent sourceScanId metadata
        .idempotencyReserved (reservedPayload r)) :
      Step s (withEvent { s with
        reservations := s.reservations ++ [r]
        actionSelections := Table.update (fun row => decide (row.key = intent.actionKey))
          (fun row => { row with mutationReserved := true }) s.actionSelections } event)
  /-- A reservation moves along the transition graph, `idempotency.reservation_state_changed`. -/
  | transition {intent : OrderIntent} {r : MutationReservation} {q : TransitionRequest}
      {sourceScanId : String} {event : ExecutionAuditEvent}
      (hmem : r ∈ s.reservations) (hkey : r.key = q.key) (hstate : r.state = q.expectedState)
      (hallowed : isReservationTransitionAllowed q.expectedState q.newState = true)
      (hstores : s.Stores intent) (hbinds : r.Binds intent)
      (hevent : event.toExecutionAuditEventFields = s.eventFields intent sourceScanId q.metadata
        .reservationStateChanged (stateChangedPayload q r.idempotencyKey)) :
      Step s (withEvent { s with
        reservations := Table.update (fun row => decide (row.key = q.key))
          (fun row => { row with state := q.newState }) s.reservations } event)

variable {s s' : State}

/-! ## Transactions perform steps -/

lemma appendEvent_eq_ok {intent : OrderIntent} {sourceScanId : String} {metadata : EventMetadata}
    {eventType : AuditEventType} {payload : JsonValue}
    (h : s.appendEvent intent sourceScanId metadata eventType payload = .ok s') :
    ∃ event : ExecutionAuditEvent, event.toExecutionAuditEventFields =
        s.eventFields intent sourceScanId metadata eventType payload ∧ s' = s.withEvent event := by
  simp only [appendEvent, insertAuditEvent, bind_eq_ok, raiseAs_eq_ok, require_eq_ok, exists_const,
    orThrow_eq_ok, pure_eq_ok_iff, Table.insertUnique_eq_some_iff] at h
  obtain ⟨event, hevent, -, -, -, auditEvents, ⟨-, rfl⟩, rfl⟩ := h
  exact ⟨event, ExecutionAuditEvent.toFields_of_ofFields hevent, rfl⟩

lemma Inv.insertOrVerifyIntent_cases (h : Inv s) {intent : OrderIntent} {sourceScanId : String}
    (hs : s.insertOrVerifyIntent intent sourceScanId = .ok s') :
    ∃ intents, s.IntentsAfter intent sourceScanId intents ∧ s' = { s with intents } := by
  simp only [insertOrVerifyIntent, storeToken, requireToken, bind_eq_ok, raiseAs_eq_ok,
    require_eq_ok, exists_const] at hs
  obtain ⟨htok, hs⟩ := hs
  split at hs
  · rename_i row hrow
    obtain ⟨existing, hstores, hfrom, -⟩ := h.stores_of_mem (Table.mem_of_lookup hrow)
    simp only [hfrom, ok_bind, bind_eq_ok, require_eq_ok, exists_const, pure_eq_ok_iff,
      Bool.and_eq_true, decide_eq_true_eq] at hs
    obtain ⟨⟨rfl, -⟩, rfl⟩ := hs
    exact ⟨s.intents, .kept hstores, rfl⟩
  · simp only [insertIntent, bind_eq_ok, require_eq_ok, exists_const, orThrow_eq_ok,
      pure_eq_ok_iff, Table.insertUnique_eq_some_iff] at hs
    obtain ⟨-, -, -, intents, ⟨hfresh, rfl⟩, rfl⟩ := hs
    exact ⟨_, .added htok hfresh, rfl⟩

/-- A recorded intent creates, reuses or supersedes a selection. -/
theorem Inv.recordIntent_step (h : Inv s) {intent : OrderIntent} {sourceScanId : String}
    {metadata : EventMetadata} {plan : IntentRevisionPlan}
    (hs : s.recordIntent intent sourceScanId metadata = .ok (plan, s')) : s.Step s' := by
  simp only [recordIntent, canonicalIntent_eq, ok_bind, bind_eq_ok,
    h.loadActionSelection_eq] at hs
  obtain ⟨-, -, hs⟩ := hs
  split at hs
  · rename_i hnone
    simp only [createSelection, requireNoOrphanedActionEvidence, insertSelection, bind_eq_ok,
      require_eq_ok, exists_const, orThrow_eq_ok, pure_eq_ok_iff, Table.insertUnique_eq_some_iff,
      Bool.and_eq_true, Prod.mk.injEq] at hs
    obtain ⟨⟨⟨-, hres⟩, hev⟩, s₁, hins, s₂, ⟨-, -, _, ⟨-, rfl⟩, rfl⟩, s₃, happ, -, rfl⟩ := hs
    obtain ⟨intents, hintents, rfl⟩ := h.insertOrVerifyIntent_cases hins
    obtain ⟨event, hevent, rfl⟩ := appendEvent_eq_ok happ
    exact .create hintents hnone (reservationsOf_isEmpty_iff.mp hres) (by simpa using hev) hevent
  · rename_i selection hl
    have hmem := Table.mem_of_lookup hl
    have hkey := Table.key_of_lookup hl
    obtain ⟨intent₀, hstores, hselects⟩ := h.selections_bound selection hmem
    simp only [hselects.selectedIntentId, h.loadIntent_of_stores hstores, bind_eq_ok,
      Except.ok.injEq, exists_eq_left', orThrow_some, raiseAs_eq_ok] at hs
    obtain ⟨plan', hplan, hs⟩ := hs
    obtain ⟨-, -, hcases⟩ := classifyIntentRevision_some hplan
    obtain ⟨haction, -⟩ | ⟨haction, -⟩ | ⟨haction, hfree, -⟩ := hcases
    · -- the selected revision again
      simp only [haction, bind_eq_ok, pure_eq_ok_iff, Prod.mk.injEq] at hs
      obtain ⟨s₁, happ, -, rfl⟩ := hs
      obtain ⟨event, hevent, rfl⟩ := appendEvent_eq_ok happ
      exact .reuse hstores hmem hselects hevent
    · -- a conflict never returns
      simp only [haction, reduceCtorEq] at hs
    · -- another revision of an unreserved action
      simp only [haction, supersedeSelection, updateSelection, bind_eq_ok, require_eq_ok,
        exists_const, pure_eq_ok_iff, Prod.mk.injEq] at hs
      obtain ⟨s₁, ⟨s₂, hins, -, -, s₃, ⟨-, rfl⟩, happ⟩, -, rfl⟩ := hs
      obtain ⟨intents, hintents, rfl⟩ := h.insertOrVerifyIntent_cases hins
      obtain ⟨event, hevent, rfl⟩ := appendEvent_eq_ok happ
      have hfence := Table.update_fence (f := selectRevision intent (selection.selectionVersion + 1))
        h.selections_unique hmem hkey
        (p := fun row => decide (row.key = (intent.environment, intent.businessActionId)) &&
          decide (row.selectionVersion = selection.selectionVersion) && !row.mutationReserved)
        (by simp [hkey, hfree]) (by intro r hr; simp at hr; exact hr.1.1)
      have hstep := Step.supersede hintents hmem hkey hfree hevent
      dsimp only
      rw [hfence]
      exact hstep

/-- The reservation a call asks for is one that the intent binds. -/
lemma requestedReservation_binds {intent : OrderIntent} {q : ReserveRequest}
    {r : MutationReservation} (h : requestedReservation intent q = .ok r) :
    r.Binds intent ∧ r.state = .reserved ∧ r.key = (intent.environment, q.operation,
      q.mutationActionId) := by
  simp only [requestedReservation, storeToken, requireToken, bind_eq_ok, raiseAs_eq_ok,
    require_eq_ok, exists_const, idempotencyKeyFor_eq_ok, pure_eq_ok_iff] at h
  obtain ⟨hmid, hlineage, _, -, _, haction, _, ⟨-, rfl⟩, clientOrderId, hclient, rfl⟩ := h
  refine ⟨⟨rfl, rfl, rfl, hmid, hlineage, rfl, ?_, haction⟩, rfl, rfl⟩
  show _ = clientOrderIdOf q.operation _
  unfold requestedClientOrderId at hclient
  unfold clientOrderIdOf
  split_ifs at hclient ⊢
  · simp only [bind_eq_ok, raiseAs_eq_ok, okxClientOrderIdFor_eq_ok, pure_eq_ok_iff] at hclient
    obtain ⟨_, ⟨-, rfl⟩, rfl⟩ := hclient
    rfl
  · exact (pure_eq_ok_iff.mp hclient).symm

/-- A cancellation that may be reserved finds every earlier one of its order rejected. -/
lemma requireSlot_rejected {r : MutationReservation} {u : Unit} (h : s.requireSlot r = .ok u) :
    r.operation = .cancelOrder → ∀ r' ∈ s.reservations, r'.environment = r.environment →
      r'.operation = .cancelOrder → r'.orderLineageId = r.orderLineageId →
        r'.state = .rejected := by
  intro hop r' hr' henv hop' hlineage
  rw [requireSlot, if_pos hop, requireCancelSlot, forEach_eq_ok] at h
  have hcheck := h r' (by simp [hr', henv, hop', hlineage])
  simp only [bind_eq_ok, require_eq_ok, decide_eq_true_eq] at hcheck
  obtain ⟨reservation, hrow, -, -, hstate⟩ := hcheck
  rwa [reservationFromRow_eq_ok hrow] at hstate

/-- A reservation call returns the reservation its mutation already has, or reserves it. -/
theorem Inv.reserveMutation_cases (h : Inv s) {q : ReserveRequest} {r : MutationReservation}
    (hs : s.reserveMutation q = .ok (r, s')) :
    (Table.lookup MutationReservation.key s.reservations
        (q.intent.environment, q.operation, q.mutationActionId) = some r ∧ s' = s) ∨
      (Table.lookup MutationReservation.key s.reservations
        (q.intent.environment, q.operation, q.mutationActionId) = none ∧ s.Step s') := by
  simp only [reserveMutation, canonicalIntent_eq, ok_bind, h.loadActionSelection_eq,
    h.loadReservation_eq, bind_eq_ok, require_eq_ok, exists_const, orThrow_eq_ok,
    decide_eq_true_eq, Bool.and_eq_true] at hs
  obtain ⟨r₁, hr₁, selection, hl, ⟨hid, hfp⟩, stored, hload, rfl, sourceScanId, -, hs⟩ := hs
  obtain ⟨hbinds, hstate, hkey⟩ := requestedReservation_binds hr₁
  obtain ⟨hstores, -⟩ := h.stores_of_loadIntent hload
  have hmem := Table.mem_of_lookup hl
  split at hs
  · rename_i existing hexisting
    simp only [bind_eq_ok, require_eq_ok, exists_const, pure_eq_ok_iff, Prod.mk.injEq] at hs
    obtain ⟨-, rfl, rfl⟩ := hs
    exact .inl ⟨hexisting, rfl⟩
  · rename_i hfresh
    refine .inr ⟨hfresh, ?_⟩
    simp only [insertFreshReservation, insertReservation, updateSelection, bind_eq_ok,
      require_eq_ok, exists_const, orThrow_eq_ok, pure_eq_ok_iff, Table.insertUnique_eq_some_iff,
      Prod.mk.injEq] at hs
    obtain ⟨s₁, ⟨-, -, _, hslot, s₂, ⟨hidem, hclient, -, -, _, ⟨hnew, rfl⟩, rfl⟩, s₃, ⟨-, rfl⟩,
      happ⟩, -, rfl⟩ := hs
    obtain ⟨event, hevent, rfl⟩ := appendEvent_eq_ok happ
    obtain ⟨intent, hstores', hselects⟩ := h.selections_bound selection hmem
    obtain rfl := h.eq_of_stores hstores' hstores (hselects.selectedIntentId.symm.trans hid)
    have hfence := Table.update_fence (f := fun row => { row with mutationReserved := true })
      h.selections_unique hmem hselects.key
      (p := fun row =>
        decide (row.key = (q.intent.environment, q.intent.businessActionId)) &&
          decide (row.selectionVersion = selection.selectionVersion) &&
          decide (row.selectedIntentId = q.intent.intentId) &&
          decide (row.selectedIntentFingerprint = q.intent.intentFingerprint))
      (by simp [hid, hfp, show selection.key = (q.intent.environment, q.intent.businessActionId)
        from hselects.key]) (by intro r hr; simp at hr; exact hr.1.1.1)
    have hstep := Step.reserve hstores hmem hselects hbinds hstate hnew (by simpa using hidem)
      (by simpa using hclient) (requireSlot_rejected hslot) hevent
    dsimp only
    rw [hfence]
    exact hstep

/-- A transition moves its reservation. -/
theorem Inv.transitionReservation_step (h : Inv s) {q : TransitionRequest}
    {r : MutationReservation} (hs : s.transitionReservation q = .ok (r, s')) : s.Step s' := by
  simp only [transitionReservation, h.loadReservation_eq, bind_eq_ok, require_eq_ok, exists_const,
    Except.ok.injEq, exists_eq_left', orThrow_eq_ok, decide_eq_true_eq, pure_eq_ok_iff,
    Prod.mk.injEq] at hs
  obtain ⟨-, -, -, -, hallowed, r₀, hl, hstate, hs⟩ := hs
  have hmem := Table.mem_of_lookup hl
  have hkey := Table.key_of_lookup hl
  obtain ⟨intent, -, -, hstores, -, -, hbinds⟩ := h.reservations_bound r₀ hmem
  simp only [hbinds.selectedIntentId, h.loadIntent_of_stores hstores, Except.ok.injEq,
    exists_eq_left', Option.some.injEq, updateReservation, bind_eq_ok, require_eq_ok, exists_const,
    pure_eq_ok_iff] at hs
  obtain ⟨sourceScanId, -, _, ⟨-, rfl⟩, s₁, happ, -, rfl⟩ := hs
  obtain ⟨event, hevent, rfl⟩ := appendEvent_eq_ok happ
  have hfence := Table.update_fence (f := fun row => { row with state := q.newState })
    h.reservations_unique hmem hkey
    (p := fun row => decide (row.key = q.key) && decide (row.state = q.expectedState))
    (by simp [hkey, hstate]) (by intro r hr; simp at hr; exact hr.1)
  have hstep := Step.transition hmem hkey hstate hallowed hstores hbinds hevent
  rw [hfence]
  exact hstep

/-- **A call leaves the store as it is or performs one step.** -/
theorem Inv.run_cases (h : Inv s) (call : Call) :
    (s.run call).2 = s ∨ s.Step (s.run call).2 := by
  unfold run
  split
  · rename_i outcome s' htr
    cases call with
    | recordIntent intent sourceScanId metadata =>
        simp only [transaction, bind_eq_ok, pure_eq_ok_iff, Prod.mk.injEq] at htr
        obtain ⟨⟨plan, s₁⟩, hrec, -, rfl⟩ := htr
        exact .inr (h.recordIntent_step hrec)
    | reserveMutation q =>
        simp only [transaction, bind_eq_ok, pure_eq_ok_iff, Prod.mk.injEq] at htr
        obtain ⟨⟨r, s₁⟩, hres, -, rfl⟩ := htr
        obtain ⟨-, hs⟩ | ⟨-, hs⟩ := h.reserveMutation_cases hres
        · exact .inl hs
        · exact .inr hs
    | transitionReservation q =>
        simp only [transaction, bind_eq_ok, pure_eq_ok_iff, Prod.mk.injEq] at htr
        obtain ⟨⟨r, s₁⟩, hres, -, rfl⟩ := htr
        exact .inr (h.transitionReservation_step hres)
  · exact .inl rfl

/-- A call that raises rolls back. -/
lemma run_of_error {call : Call} {error : StoreError} (h : (s.run call).1 = .error error) :
    (s.run call).2 = s := by
  unfold run at h ⊢
  split at h
  · cases h
  · rfl

/-- Reserving a mutation that has a reservation changes nothing. -/
lemma Inv.run_repeated_reserve (h : Inv s) {q : ReserveRequest}
    (hsome : (Table.lookup MutationReservation.key s.reservations
      (q.intent.environment, q.operation, q.mutationActionId)).isSome = true) :
    (s.run (.reserveMutation q)).2 = s := by
  cases hrun : s.reserveMutation q with
  | error e => simp [run, transaction, hrun]
  | ok result =>
      obtain ⟨r, s'⟩ := result
      obtain ⟨-, rfl⟩ | ⟨hnone, -⟩ := h.reserveMutation_cases hrun
      · simp [run, transaction, hrun, pure, Except.pure]
      · rw [hnone] at hsome
        cases hsome

/-! ## Steps keep the invariant -/

lemma Stores.mono {intent : OrderIntent} (h : s.Stores intent)
    (hsub : ∀ row ∈ s.intents, row ∈ s'.intents) : s'.Stores intent := by
  obtain ⟨sourceScanId, htok, hrow⟩ := h
  exact ⟨sourceScanId, htok, hsub _ hrow⟩

namespace IntentsAfter

variable {intent : OrderIntent} {sourceScanId : String} {intents : List IntentRow}

lemma subset (hi : s.IntentsAfter intent sourceScanId intents) :
    ∀ row ∈ s.intents, row ∈ intents := by
  cases hi with
  | kept => exact fun _ h => h
  | added => exact fun _ h => List.mem_append_left _ h

lemma stores (hi : s.IntentsAfter intent sourceScanId intents) :
    ∃ sourceScanId, isToken sourceScanId = true ∧ IntentRow.ofIntent intent sourceScanId ∈ intents := by
  cases hi with
  | kept hstores => exact hstores
  | added htok => exact ⟨sourceScanId, htok, by simp⟩

lemma unique (h : Inv s) (hi : s.IntentsAfter intent sourceScanId intents) :
    Table.UniqueKeys IntentRow.intentId intents := by
  cases hi with
  | kept => exact h.intents_unique
  | added _ hfresh => exact h.intents_unique.append hfresh

lemma stored (h : Inv s) (hi : s.IntentsAfter intent sourceScanId intents) :
    ∀ row ∈ intents, ∃ intent sourceScanId,
      isToken sourceScanId = true ∧ row = .ofIntent intent sourceScanId := by
  cases hi with
  | kept => exact h.intents_stored
  | added htok =>
      intro row hrow
      rcases List.mem_append.mp hrow with hrow | hrow
      · exact h.intents_stored row hrow
      · exact ⟨intent, sourceScanId, htok, List.mem_singleton.mp hrow⟩

end IntentsAfter

/-- The invariant does not read the audit log. -/
lemma Inv.withEvent (h : Inv s) (event : ExecutionAuditEvent) : Inv (s.withEvent event) :=
  ⟨h.intents_unique, h.intents_stored, h.selections_unique, h.selections_bound,
    h.reservations_unique, h.idempotencyKeys_unique, h.clientOrderIds_unique, h.reservations_bound,
    h.reserved_backed⟩

/-- **Every step keeps the invariant.** -/
theorem Step.inv (h : Inv s) (hstep : s.Step s') : Inv s' := by
  cases hstep with
  | @create intent sourceScanId metadata event intents hintents hnone hreservations hevents hevent =>
      have hfresh : ∀ row ∈ s.actionSelections, row.key ≠ (firstSelection intent).key :=
        Table.lookup_eq_none_iff.mp hnone
      apply Inv.withEvent
      refine ⟨hintents.unique h, hintents.stored h, h.selections_unique.append hfresh, ?_,
        h.reservations_unique, h.idempotencyKeys_unique, h.clientOrderIds_unique, ?_, ?_⟩
      · intro selection hs
        rcases List.mem_append.mp hs with hold | hnew
        · obtain ⟨x, hx, hsel⟩ := h.selections_bound selection hold
          exact ⟨x, hx.mono hintents.subset, hsel⟩
        · obtain rfl := List.mem_singleton.mp hnew
          exact ⟨intent, hintents.stores, ⟨rfl, rfl, rfl, Int.one_pos⟩⟩
      · intro r hr
        obtain ⟨x, selection, hs, hx, hsel, hres, hbind⟩ := h.reservations_bound r hr
        exact ⟨x, selection, List.mem_append_left _ hs, hx.mono hintents.subset, hsel, hres, hbind⟩
      · intro selection hs hres
        rcases List.mem_append.mp hs with hold | hnew
        · exact h.reserved_backed selection hold hres
        · obtain rfl := List.mem_singleton.mp hnew
          cases hres
  | reuse => exact h.withEvent _
  | @supersede existing intent selection sourceScanId metadata event intents hintents hmem hkey
      hfree hevent =>
      apply Inv.withEvent
      refine ⟨hintents.unique h, hintents.stored h,
        h.selections_unique.update fun _ _ _ => rfl, ?_, h.reservations_unique,
        h.idempotencyKeys_unique, h.clientOrderIds_unique, ?_, ?_⟩
      · intro row hrow
        obtain ⟨hold, -⟩ | ⟨row₀, hold, hk, rfl⟩ := Table.mem_update_key.mp hrow
        · obtain ⟨x, hx, hsel⟩ := h.selections_bound row hold
          exact ⟨x, hx.mono hintents.subset, hsel⟩
        · obtain ⟨_, _, hsel⟩ := h.selections_bound selection hmem
          exact ⟨intent, hintents.stores, ⟨hk, rfl, rfl, Int.add_pos hsel.selectionVersion (by decide)⟩⟩
      · intro r hr
        obtain ⟨x, row, hrow, hx, hsel, hres, hbind⟩ := h.reservations_bound r hr
        refine ⟨x, row, Table.mem_update_key.mpr (.inl ⟨hrow, ?_⟩), hx.mono hintents.subset, hsel,
          hres, hbind⟩
        -- a reserved action is never superseded
        intro hk
        obtain rfl := h.selections_unique.eq_of_key hrow hmem (hk.trans hkey.symm)
        rw [hfree] at hres
        cases hres
      · intro row hrow hres
        obtain ⟨hold, -⟩ | ⟨row₀, hold, hk, rfl⟩ := Table.mem_update_key.mp hrow
        · exact h.reserved_backed row hold hres
        · exact h.reserved_backed row₀ hold hres
  | @reserve intent selection r sourceScanId metadata event hstores hmem hselects hbinds hstate
      hkey hidem hclient hslot hevent =>
      -- the row of a selection after the fence is raised
      have hfenced : ∀ row ∈ s.actionSelections, ∀ x, row.Selects x →
          ∃ row' ∈ Table.update (fun row => decide (row.key = intent.actionKey))
            (fun row : ActionSelection => { row with mutationReserved := true }) s.actionSelections,
            row'.Selects x ∧ (row.mutationReserved = true → row'.mutationReserved = true) ∧
              (row.key = intent.actionKey → row'.mutationReserved = true) := by
        intro row hrow x hsel
        by_cases hk : row.key = intent.actionKey
        · exact ⟨_, Table.mem_update_key.mpr (.inr ⟨row, hrow, hk, rfl⟩),
            ⟨hsel.key, hsel.selectedIntentId, hsel.selectedIntentFingerprint,
              hsel.selectionVersion⟩, fun _ => rfl, fun _ => rfl⟩
        · exact ⟨row, Table.mem_update_key.mpr (.inl ⟨hrow, hk⟩), hsel, id, fun h => absurd h hk⟩
      apply Inv.withEvent
      refine ⟨h.intents_unique, h.intents_stored, h.selections_unique.update fun _ _ _ => rfl, ?_,
        h.reservations_unique.append hkey, h.idempotencyKeys_unique.append hidem, ?_, ?_, ?_⟩
      · intro row hrow
        obtain ⟨hold, -⟩ | ⟨row₀, hold, hk, rfl⟩ := Table.mem_update_key.mp hrow
        · exact h.selections_bound row hold
        · obtain ⟨x, hx, hsel⟩ := h.selections_bound row₀ hold
          exact ⟨x, hx, ⟨hsel.key, hsel.selectedIntentId, hsel.selectedIntentFingerprint,
            hsel.selectionVersion⟩⟩
      · intro r₁ hr₁ r₂ hr₂ hsome heq
        rcases List.mem_append.mp hr₁ with hold₁ | hnew₁ <;>
          rcases List.mem_append.mp hr₂ with hold₂ | hnew₂
        · exact h.clientOrderIds_unique r₁ hold₁ r₂ hold₂ hsome heq
        · obtain rfl := List.mem_singleton.mp hnew₂
          exact absurd heq.symm (hclient r₁ hold₁ (heq ▸ hsome))
        · obtain rfl := List.mem_singleton.mp hnew₁
          exact absurd heq (hclient r₂ hold₂ hsome)
        · rw [List.mem_singleton.mp hnew₁, List.mem_singleton.mp hnew₂]
      · intro r₁ hr₁
        rcases List.mem_append.mp hr₁ with hold | hnew
        · obtain ⟨x, row, hrow, hx, hsel, hres, hbind⟩ := h.reservations_bound r₁ hold
          obtain ⟨row', hrow', hsel', hres', -⟩ := hfenced row hrow x hsel
          exact ⟨x, row', hrow', hx, hsel', hres' hres, hbind⟩
        · obtain rfl := List.mem_singleton.mp hnew
          obtain ⟨row', hrow', hsel', -, hres'⟩ := hfenced selection hmem intent hselects
          exact ⟨intent, row', hrow', hstores, hsel', hres' hselects.key, hbinds⟩
      · intro row hrow hres
        obtain ⟨hold, -⟩ | ⟨row₀, hold, hk, rfl⟩ := Table.mem_update_key.mp hrow
        · obtain ⟨r₁, hr₁, hk₁⟩ := h.reserved_backed row hold hres
          exact ⟨r₁, List.mem_append_left _ hr₁, hk₁⟩
        · exact ⟨r, by simp, hbinds.actionKey.trans hk.symm⟩
  | @transition intent r q sourceScanId event hmem hkey hstate hallowed hstores hbinds hevent =>
      have hold : ∀ row ∈ Table.update (fun row => decide (row.key = q.key))
          (fun row : MutationReservation => { row with state := q.newState }) s.reservations,
          ∃ row₀ ∈ s.reservations, ∃ state, row = { row₀ with state := state } := by
        intro row hrow
        obtain ⟨hold, -⟩ | ⟨row₀, hold, -, rfl⟩ := Table.mem_update_key.mp hrow
        · exact ⟨row, hold, row.state, rfl⟩
        · exact ⟨row₀, hold, q.newState, rfl⟩
      have hunique := h.reservations_unique.update (p := fun row => decide (row.key = q.key))
        (f := fun row => { row with state := q.newState }) fun _ _ _ => rfl
      apply Inv.withEvent
      refine ⟨h.intents_unique, h.intents_stored, h.selections_unique, h.selections_bound, hunique,
        h.idempotencyKeys_unique.update fun _ _ _ => rfl, ?_, ?_, ?_⟩
      · intro r₁ hr₁ r₂ hr₂ hsome heq
        obtain ⟨r₁', hr₁', _, rfl⟩ := hold r₁ hr₁
        obtain ⟨r₂', hr₂', _, rfl⟩ := hold r₂ hr₂
        have hsame := h.clientOrderIds_unique r₁' hr₁' r₂' hr₂' hsome heq
        exact hunique.eq_of_key hr₂ hr₁ (by rw [hsame]; rfl)
      · intro r₁ hr₁
        obtain ⟨r₁', hr₁', _, rfl⟩ := hold r₁ hr₁
        obtain ⟨x, row, hrow, hx, hsel, hres, hbind⟩ := h.reservations_bound r₁' hr₁'
        exact ⟨x, row, hrow, hx, hsel, hres, hbind.withState _⟩
      · intro row hrow hres
        obtain ⟨r₁, hr₁, hk₁⟩ := h.reserved_backed row hrow hres
        by_cases hk : r₁.key = q.key
        · exact ⟨_, Table.mem_update_key.mpr (.inr ⟨r₁, hr₁, hk, rfl⟩), hk₁⟩
        · exact ⟨r₁, Table.mem_update_key.mpr (.inl ⟨hr₁, hk⟩), hk₁⟩

/-- The steps of the system: nothing, or the effect of a committed call. -/
lemma Inv.system_step_cases (h : Inv s) {call : Call} (hst : system.step s call s') :
    s' = s ∨ s.Step s' := by
  obtain rfl : s' = (s.run call).2 := hst
  exact h.run_cases call

/-- The invariant is kept by every call. -/
lemma inv_step (s : State) (call : Call) (s' : State) (h : Inv s) (hst : system.step s call s') :
    Inv s' := by
  obtain rfl | hstep := h.system_step_cases hst
  · exact h
  · exact hstep.inv h

/-- The invariant holds in every reachable state. -/
theorem inv_of_reachable (hs : system.Reachable s) : Inv s := by
  refine hs.invariant ?_ inv_step
  rintro _ rfl
  exact inv_empty

/-! ## What a step does to one action and one reservation -/

omit [Sha256] in
/-- The selection of a business action. -/
def selectionOf (s : State) (key : ActionKey) : Option ActionSelection :=
  Table.lookup ActionSelection.key s.actionSelections key

omit [Sha256] in
/-- The reservation of a mutation. -/
def reservationAt (s : State) (key : ReservationKey) : Option MutationReservation :=
  Table.lookup MutationReservation.key s.reservations key

lemma Inv.reservationAt_eq_some_iff (h : Inv s) {key : ReservationKey} {r : MutationReservation} :
    s.reservationAt key = some r ↔ r ∈ s.reservations ∧ r.key = key :=
  Table.lookup_eq_some_iff h.reservations_unique

lemma Inv.selectionOf_eq_some_iff (h : Inv s) {key : ActionKey} {selection : ActionSelection} :
    s.selectionOf key = some selection ↔
      selection ∈ s.actionSelections ∧ selection.key = key :=
  Table.lookup_eq_some_iff h.selections_unique

/-- A step leaves a reservation alone, inserts it in `RESERVED`, or moves its state along the
transition graph. -/
theorem Step.reservationAt_cases (h : Inv s) (hstep : s.Step s') (key : ReservationKey) :
    s'.reservationAt key = s.reservationAt key ∨
      (s.reservationAt key = none ∧ ∃ r, s'.reservationAt key = some r ∧ r.state = .reserved) ∨
      ∃ r state, s.reservationAt key = some r ∧
        isReservationTransitionAllowed r.state state = true ∧
        s'.reservationAt key = some { r with state := state } := by
  cases hstep with
  | create => exact .inl rfl
  | reuse => exact .inl rfl
  | supersede => exact .inl rfl
  | @reserve intent selection r _ _ _ _ _ _ _ hstate hkey =>
      by_cases hk : r.key = key
      · refine .inr (.inl ⟨?_, r, ?_, hstate⟩)
        · exact Table.lookup_eq_none_iff.mpr (hk ▸ hkey)
        · exact (Table.lookup_eq_some_iff (h.reservations_unique.append hkey)).mpr ⟨by simp, hk⟩
      · exact .inl (Table.lookup_append_of_ne hk)
  | @transition intent r q _ _ hmem hkey hstate hallowed =>
      have hl := @Table.lookup_update _ _ MutationReservation.key s.reservations
        (fun row => decide (row.key = q.key)) (fun row => { row with state := q.newState }) _
        (fun _ _ => rfl) key
      by_cases hk : r.key = key
      · have hr : s.reservationAt key = some r := h.reservationAt_eq_some_iff.mpr ⟨hmem, hk⟩
        refine .inr (.inr ⟨r, q.newState, hr, hstate ▸ hallowed, hl.trans ?_⟩)
        rw [show Table.lookup _ _ key = some r from hr]
        simp [hkey]
      · refine .inl (hl.trans ?_)
        show Option.map _ (s.reservationAt key) = s.reservationAt key
        cases hr : s.reservationAt key with
        | none => rfl
        | some r' =>
            have hne : r'.key ≠ q.key := by
              rw [Table.key_of_lookup hr, ← hkey]
              exact fun heq => hk heq.symm
            simp [hne]

/-- A stored reservation keeps its facts. -/
theorem Step.facts_kept (h : Inv s) (hstep : s.Step s') {r : MutationReservation}
    (hr : r ∈ s.reservations) : ∃ r' ∈ s'.reservations, r'.facts = r.facts := by
  have hat : s.reservationAt r.key = some r := h.reservationAt_eq_some_iff.mpr ⟨hr, rfl⟩
  obtain hsame | ⟨hnone, -⟩ | ⟨r₀, state, hr₀, -, hmoved⟩ := hstep.reservationAt_cases h r.key
  · exact ⟨r, Table.mem_of_lookup (hsame.trans hat), rfl⟩
  · rw [hat] at hnone
    cases hnone
  · rw [hat, Option.some.injEq] at hr₀
    subst hr₀
    exact ⟨_, Table.mem_of_lookup hmoved, rfl⟩

omit [Sha256] in
/-- What does not read the state of a reservation is determined by its facts. -/
lemma eq_of_facts {α : Type} {g : MutationReservation → α} {r r' : MutationReservation}
    (h : r'.facts = r.facts) (hg : ∀ r, g (MutationReservation.facts r) = g r) : g r' = g r := by
  rw [← hg r', ← hg r, h]

/-- The selection of an action with a reservation is never written to again. -/
theorem Step.selectionOf_eq (h : Inv s) (hstep : s.Step s') {r : MutationReservation}
    (hr : r ∈ s.reservations) : s'.selectionOf r.actionKey = s.selectionOf r.actionKey := by
  obtain ⟨x, row, hrow, -, hsel, hres, hbind⟩ := h.reservations_bound r hr
  have hat : s.selectionOf r.actionKey = some row :=
    h.selectionOf_eq_some_iff.mpr ⟨hrow, hsel.key.trans hbind.actionKey.symm⟩
  cases hstep with
  | @create intent _ _ _ _ _ _ hreservations =>
      exact Table.lookup_append_of_ne (hreservations r hr).symm
  | reuse => rfl
  | @supersede existing intent selection _ _ _ _ _ hmem hkey hfree =>
      have hne : row.key ≠ intent.actionKey := by
        intro hk
        obtain rfl := h.selections_unique.eq_of_key hrow hmem (hk.trans hkey.symm)
        rw [hfree] at hres
        cases hres
      have hl := @Table.lookup_update _ _ ActionSelection.key s.actionSelections
        (fun row => decide (row.key = intent.actionKey))
        (selectRevision intent (selection.selectionVersion + 1)) _ (fun _ _ => rfl) r.actionKey
      refine hl.trans ?_
      rw [show Table.lookup _ _ r.actionKey = some row from hat, hat]
      simp [hne]
  | @reserve intent =>
      have hl := @Table.lookup_update _ _ ActionSelection.key s.actionSelections
        (fun row => decide (row.key = intent.actionKey))
        (fun row => { row with mutationReserved := true }) _ (fun _ _ => rfl) r.actionKey
      have hsame : ({ row with mutationReserved := true } : ActionSelection) = row := by
        rw [← hres]
      refine hl.trans ?_
      rw [show Table.lookup _ _ r.actionKey = some row from hat, hat]
      simp [hsame]
  | transition => rfl

end State

end MuStrategy.Execution
