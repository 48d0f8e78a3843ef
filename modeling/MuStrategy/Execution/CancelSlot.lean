import MuStrategy.Execution.AuditLog
import MuStrategy.Execution.Dispatch

/-!
# The cancel slot of an order lineage

* `State.OneLiveCancel` — an order lineage of an environment has at most one cancellation that is
  not rejected; `Step.oneLiveCancel` — every step keeps it: a rejected cancellation never moves
  again, and a new one needs all the others rejected.
* `validate_reservedEvent` — the audit event of a bound cancellation passes its validation.
* `State.ValidCancel`, `Inv.reserveCancel_eq` — a cancellation with valid arguments and a fresh
  mutation action is reserved when every earlier one of its lineage is rejected.
* `cancel_slot` — both, in every reachable state.
-/

namespace MuStrategy.Execution

open Lib

/-- The reservation cancels an order of the lineage. -/
structure MutationReservation.Cancels (r : MutationReservation) (environment : ExecutionEnvironment)
    (orderLineageId : String) : Prop where
  operation : r.operation = .cancelOrder
  environment_eq : r.environment = environment
  orderLineageId_eq : r.orderLineageId = orderLineageId

/-- A lineage has at most one cancellation that is not rejected. -/
def State.OneLiveCancel (s : State) : Prop :=
  ∀ environment orderLineageId, ∀ r ∈ s.reservations, ∀ r' ∈ s.reservations,
    r.Cancels environment orderLineageId → r'.Cancels environment orderLineageId →
      r.state ≠ .rejected → r'.state ≠ .rejected → r = r'

section slot

variable [Sha256]

namespace State

variable {s s' : State}

/-! ## At most one live cancellation -/

/-- A step keeps the slot. -/
theorem Step.oneLiveCancel (h : Inv s) (hlive : s.OneLiveCancel) (hstep : s.Step s') :
    s'.OneLiveCancel := by
  cases hstep with
  | create => exact hlive
  | reuse => exact hlive
  | supersede => exact hlive
  | @reserve intent selection r sourceScanId metadata event hstores hmem hselects hbinds hstate
      hkey hidem hclient hslot hevent =>
      -- the others of the new cancellation's lineage are rejected
      have hnew : ∀ environment orderLineageId, r.Cancels environment orderLineageId →
          ∀ r' ∈ s.reservations, r'.Cancels environment orderLineageId → r'.state = .rejected := by
        intro environment orderLineageId hr r' hr' hc
        exact hslot hr.operation r' hr' (hc.environment_eq.trans hr.environment_eq.symm)
          hc.operation (hc.orderLineageId_eq.trans hr.orderLineageId_eq.symm)
      intro environment orderLineageId r₁ hr₁ r₂ hr₂ hc₁ hc₂ hs₁ hs₂
      rcases List.mem_append.mp hr₁ with hold₁ | hnew₁ <;>
        rcases List.mem_append.mp hr₂ with hold₂ | hnew₂
      · exact hlive environment orderLineageId r₁ hold₁ r₂ hold₂ hc₁ hc₂ hs₁ hs₂
      · obtain rfl := List.mem_singleton.mp hnew₂
        exact absurd (hnew environment orderLineageId hc₂ r₁ hold₁ hc₁) hs₁
      · obtain rfl := List.mem_singleton.mp hnew₁
        exact absurd (hnew environment orderLineageId hc₁ r₂ hold₂ hc₂) hs₂
      · rw [List.mem_singleton.mp hnew₁, List.mem_singleton.mp hnew₂]
  | @transition intent r q sourceScanId event hmem hkey hstate hallowed =>
      -- a live reservation was live before the transition: a rejected one does not move
      have hbefore : ∀ row ∈ Table.update (fun row => decide (row.key = q.key))
          (fun row : MutationReservation => { row with state := q.newState }) s.reservations,
          row.state ≠ .rejected → ∃ row₀ ∈ s.reservations, row₀.state ≠ .rejected ∧
            row = if row₀.key = q.key then { row₀ with state := q.newState } else row₀ := by
        intro row hrow hlive
        obtain ⟨hold, hne⟩ | ⟨row₀, hold, hk, rfl⟩ := Table.mem_update_key.mp hrow
        · exact ⟨row, hold, hlive, by rw [if_neg hne]⟩
        · refine ⟨row₀, hold, fun hrejected => ?_, by rw [if_pos hk]⟩
          obtain rfl := h.reservations_unique.eq_of_key hold hmem (hk.trans hkey.symm)
          rw [← hstate, not_allowed_of_settled (hrejected ▸ by decide)] at hallowed
          cases hallowed
      intro environment orderLineageId r₁ hr₁ r₂ hr₂ hc₁ hc₂ hs₁ hs₂
      obtain ⟨row₁, hrow₁, hlive₁, heq₁⟩ := hbefore r₁ hr₁ hs₁
      obtain ⟨row₂, hrow₂, hlive₂, heq₂⟩ := hbefore r₂ hr₂ hs₂
      have hcancels : ∀ row row₀ : MutationReservation,
          row = (if row₀.key = q.key then { row₀ with state := q.newState } else row₀) →
            row.Cancels environment orderLineageId → row₀.Cancels environment orderLineageId := by
        rintro row row₀ rfl hc
        split_ifs at hc
        · exact ⟨hc.operation, hc.environment_eq, hc.orderLineageId_eq⟩
        · exact hc
      have hsame : row₁ = row₂ := hlive environment orderLineageId row₁ hrow₁ row₂ hrow₂
        (hcancels r₁ row₁ heq₁ hc₁) (hcancels r₂ row₂ heq₂ hc₂) hlive₁ hlive₂
      rw [heq₁, heq₂, hsame]

/-- The slot holds in every reachable state. -/
theorem oneLiveCancel_of_reachable (hs : system.Reachable s) : s.OneLiveCancel := by
  have hboth : s.Inv ∧ s.OneLiveCancel := by
    refine System.Reachable.invariant (I := fun s => s.Inv ∧ s.OneLiveCancel) ?_ ?_ hs
    · rintro _ rfl
      exact ⟨inv_empty, by intro _ _ r hr; cases hr⟩
    · rintro s call s' ⟨h, hlive⟩ hst
      refine ⟨inv_step s call s' h hst, ?_⟩
      obtain rfl | hstep := h.system_step_cases hst
      · exact hlive
      · exact hstep.oneLiveCancel h hlive
  exact hboth.2

/-! ## A free slot is given -/

omit [Sha256] in
/-- A running maximum is above its start and every element. -/
lemma le_foldl_max (xs : List Int) (a : Int) :
    a ≤ xs.foldl max a ∧ ∀ x ∈ xs, x ≤ xs.foldl max a := by
  induction xs generalizing a with
  | nil => exact ⟨le_refl a, by simp⟩
  | cons y ys ih =>
      obtain ⟨hstart, hall⟩ := ih (max a y)
      refine ⟨le_trans (le_max_left a y) hstart, List.forall_mem_cons.mpr ⟨?_, hall⟩⟩
      exact le_trans (le_max_right a y) hstart

omit [Sha256] in
lemma nextSequence_pos (auditCorrelationId : String) : 0 < s.nextSequence auditCorrelationId :=
  Int.lt_add_one_of_le (le_foldl_max _ 0).1

omit [Sha256] in
/-- Every number already in the log of an action is below the next one. -/
lemma lt_nextSequence {row : AuditEventRow} (hrow : row ∈ s.auditEvents) :
    row.sequence < s.nextSequence row.auditCorrelationId := by
  refine Int.lt_add_one_of_le ((le_foldl_max _ 0).2 row.sequence ?_)
  exact List.mem_map.mpr ⟨row, List.mem_filter.mpr ⟨hrow, by simp⟩, rfl⟩

omit [Sha256] in
/-- The checks on the metadata of a call pass. -/
lemma requireEventMetadata_eq_ok {sourceScanId : String} {metadata : EventMetadata} {u : Unit} :
    requireEventMetadata sourceScanId metadata = .ok u ↔
      isToken sourceScanId = true ∧ isToken metadata.actorId = true ∧ 0 ≤ metadata.occurredAtMs ∧
        isToken metadata.eventId = true := by
  simp only [requireEventMetadata, storeToken, requireToken, bind_eq_ok, raiseAs_eq_ok,
    require_eq_ok, exists_const, decide_eq_true_eq]

/-- What a canonical cancellation is made of. -/
lemma cancel_action_parts {intent : OrderIntent} {orderLineageId mutationActionId : String}
    {reason policy : Option String}
    (h : expectedMutationAction intent .cancelOrder orderLineageId reason policy =
      .ok mutationActionId) :
    ∃ reasonCode policyVersion, reason = some reasonCode ∧ policy = some policyVersion ∧
      isToken reasonCode = true ∧ isToken policyVersion = true ∧
      hasPrefixHex "ca1_" 64 mutationActionId = true := by
  cases reason with
  | none => cases h
  | some reasonCode =>
      cases policy with
      | none => cases h
      | some policyVersion =>
          simp only [expectedMutationAction, cancelMutationActionId, storeToken, requireToken,
            bind_eq_ok, raiseAs_eq_ok, require_eq_ok, exists_const, pure_eq_ok_iff] at h
          obtain ⟨-, -, -, hreason, hpolicy, rfl⟩ := h
          exact ⟨reasonCode, policyVersion, rfl, rfl, hreason, hpolicy,
            hasPrefixHex_append (HexDigest.isHex _)⟩

/-- The mutation identity in the event of a bound cancellation is the canonical one. -/
lemma validateMutationIdentity_reserved {intent : OrderIntent} {r : MutationReservation}
    {e : ExecutionAuditEventFields} (hbinds : r.Binds intent) (hop : r.operation = .cancelOrder)
    (hpayload : e.payload = reservedPayload r) (henv : e.environment = intent.environment) :
    e.validateMutationIdentity = .ok (.cancelOrder, r.idempotencyKey) := by
  have haction := (validateMutationAction_eq_ok.mp hbinds.action).1
  rw [hop] at haction
  obtain ⟨_, _, -, -, -, -, hhex⟩ := cancel_action_parts haction
  have hkey : idempotencyKeyFor e.environment .cancelOrder r.mutationActionId =
      .ok r.idempotencyKey := by
    refine idempotencyKeyFor_eq_ok.mpr ⟨hbinds.mutationActionId, ?_⟩
    rw [hbinds.idempotencyKey, hop, henv, hbinds.environment]
  have htoken : isToken r.idempotencyKey = true := by
    rw [hbinds.idempotencyKey]
    exact isToken_of_isLowerHex (by decide) (HexDigest.isHex _)
  have hoptoken : isToken (PyEnum.value MutationOperation.cancelOrder) = true := by decide
  unfold ExecutionAuditEventFields.validateMutationIdentity
  rw [hpayload]
  simp [reservedPayload, requireTokenJson, requireToken, hop, hbinds.mutationActionId, htoken,
    hoptoken, hhex, hkey, pure, Except.pure]

/-- The payload of a bound cancellation passes its validation. -/
lemma validateReserved_cancel {intent : OrderIntent} {r : MutationReservation}
    {e : ExecutionAuditEventFields} (hbinds : r.Binds intent) (hop : r.operation = .cancelOrder)
    (hpayload : e.payload = reservedPayload r) (henv : e.environment = intent.environment)
    (hfingerprint : e.intentFingerprint = intent.intentFingerprint) :
    e.validateReserved = .ok () := by
  have haction := (validateMutationAction_eq_ok.mp hbinds.action).1
  rw [hop] at haction
  obtain ⟨reasonCode, policyVersion, hreason, hpolicy, hreasonToken, hpolicyToken, -⟩ :=
    cancel_action_parts haction
  have hclient : r.clientOrderId = none := by
    rw [hbinds.clientOrderId, clientOrderIdOf, hop, if_neg (by decide)]
  unfold ExecutionAuditEventFields.validateReserved
  rw [validateMutationIdentity_reserved hbinds hop hpayload henv, hpayload]
  simp [reservedPayload, requireTokenJson, requireToken, hbinds.orderLineageId, hclient, hreason,
    hpolicy, hreasonToken, hpolicyToken, optionalText, Json.optStr, hfingerprint,
    hbinds.selectedIntentFingerprint, pure, Except.pure]

/-- **The event of a bound cancellation passes its validation.** -/
theorem validate_reservedEvent {intent : OrderIntent} {r : MutationReservation}
    {sourceScanId : String} {metadata : EventMetadata} (hbinds : r.Binds intent)
    (hop : r.operation = .cancelOrder)
    (hmetadata : requireEventMetadata sourceScanId metadata = .ok ()) :
    (s.eventFields intent sourceScanId metadata .idempotencyReserved (reservedPayload r)).validate =
      .ok () := by
  obtain ⟨hscan, hactor, htime, hevent⟩ := requireEventMetadata_eq_ok.mp hmetadata
  have hid := intent.identityChecked
  have hpayload := validateReserved_cancel hbinds hop
    (e := s.eventFields intent sourceScanId metadata .idempotencyReserved (reservedPayload r))
    rfl rfl rfl
  have hcorrelation : isToken intent.auditCorrelationId = true := by
    rw [hid.auditCorrelationId_eq]
    exact intent.businessActionId_isToken
  have hlineage : isToken intent.signalLineageId = true :=
    isToken_of_hasPrefixHex (by decide) (by decide) hid.signalLineageId_hex
  simp only [ExecutionAuditEventFields.validate, requireToken, bind_eq_ok, require_eq_ok,
    exists_const]
  exact ⟨decide_eq_true rfl, hevent, decide_eq_true (nextSequence_pos _), decide_eq_true htime, hcorrelation,
    hactor, hscan, hlineage, intent.businessActionId_isToken,
    decide_eq_true hid.auditCorrelationId_eq, hid.intentId_hex, intent.intentFingerprint_hex, rfl,
    rfl, hpayload⟩

/-- A valid event with a fresh identifier is appended. -/
lemma appendEvent_eq {intent : OrderIntent} {sourceScanId : String} {metadata : EventMetadata}
    {eventType : AuditEventType} {payload : JsonValue}
    (hvalid : (s.eventFields intent sourceScanId metadata eventType payload).validate = .ok ())
    (hfresh : ∀ row ∈ s.auditEvents, row.eventId ≠ metadata.eventId)
    (hfits : fitsInteger (s.nextSequence intent.auditCorrelationId) = true) :
    s.appendEvent intent sourceScanId metadata eventType payload =
      .ok (s.withEvent ⟨s.eventFields intent sourceScanId metadata eventType payload, hvalid⟩) := by
  have hposition : ∀ row ∈ s.auditEvents, row.position ≠
      (intent.auditCorrelationId, s.nextSequence intent.auditCorrelationId) := by
    intro row hrow heq
    obtain ⟨hcorrelation, hsequence⟩ := Prod.mk.inj heq
    have hlt := lt_nextSequence hrow
    rw [hcorrelation, hsequence] at hlt
    exact lt_irrefl _ hlt
  have hevent := ExecutionAuditEvent.ofFields_toFields
    ⟨s.eventFields intent sourceScanId metadata eventType payload, hvalid⟩
  simp only [appendEvent, insertAuditEvent, hevent, raiseAs_ok, ok_bind, bind_eq_ok, require_eq_ok,
    exists_const, orThrow_eq_ok, pure_eq_ok_iff, Table.insertUnique_eq_some_iff]
  refine ⟨hfits, decide_eq_true (nextSequence_pos _), ?_, _, ⟨hfresh, rfl⟩, rfl⟩
  simpa [eventRow, AuditEventRow.position, eventFields] using hposition

/-- The arguments of a cancellation are valid, and its mutation action is fresh. -/
structure ValidCancel (s : State) (q : ReserveRequest) : Prop where
  operation : q.operation = .cancelOrder
  /-- The argument checks before the transaction pass. -/
  checked : ∃ r, requestedReservation q.intent q = .ok r
  /-- The intent is stored and is the one its business action selects. -/
  stored : s.Stores q.intent
  selected : ∃ selection ∈ s.actionSelections, selection.Selects q.intent
  /-- The mutation action has no reservation, and its key is not the key of another one. -/
  action_fresh : ∀ r ∈ s.reservations,
    r.key ≠ (q.intent.environment, q.operation, q.mutationActionId)
  key_fresh : ∀ r ∈ s.reservations, r.idempotencyKey =
    (idempotencyDigest q.intent.environment q.operation q.mutationActionId).text →
      r.key = (q.intent.environment, q.operation, q.mutationActionId)
  /-- The event identifier is fresh, and the next sequence number fits its column. -/
  event_fresh : ∀ row ∈ s.auditEvents, row.eventId ≠ q.metadata.eventId
  sequence_fits : fitsInteger (s.nextSequence q.intent.auditCorrelationId) = true

/-- A fresh cancellation of a free lineage is inserted and logged. -/
lemma Inv.insertFreshReservation_eq (h : Inv s) {q : ReserveRequest} {r : MutationReservation}
    {selection : ActionSelection} {sourceScanId : String} (hq : s.ValidCancel q)
    (hr : requestedReservation q.intent q = .ok r) (hselection : selection ∈ s.actionSelections)
    (hselects : selection.Selects q.intent) (hscan : isToken sourceScanId = true)
    (hrejected : ∀ r' ∈ s.reservations, r'.Cancels q.intent.environment q.orderLineageId →
      r'.state = .rejected) :
    ∃ s', s.insertFreshReservation q.intent selection r sourceScanId q.metadata = .ok s' ∧
      r ∈ s'.reservations := by
  obtain ⟨hbinds, -, hkey⟩ := requestedReservation_binds hr
  obtain ⟨henv, hop, hmid⟩ : r.environment = q.intent.environment ∧ r.operation = .cancelOrder ∧
      r.mutationActionId = q.mutationActionId := by
    obtain ⟨henv, hop, hmid⟩ := by simpa only [MutationReservation.key, Prod.mk.injEq] using hkey
    exact ⟨henv, hop.trans hq.operation, hmid⟩
  obtain ⟨hlineage, hmetadata⟩ : r.orderLineageId = q.orderLineageId ∧
      requireEventMetadata q.intent.sourceObservationId q.metadata = .ok () := by
    simp only [requestedReservation, bind_eq_ok, pure_eq_ok_iff] at hr
    obtain ⟨-, -, -, -, ⟨⟩, hmetadata, -, -, -, -, -, -, rfl⟩ := hr
    exact ⟨rfl, hmetadata⟩
  have hclient : r.clientOrderId = none := by
    rw [hbinds.clientOrderId, clientOrderIdOf, hop, if_neg (by decide)]
  have hfresh : ∀ r' ∈ s.reservations, r'.idempotencyKey ≠ r.idempotencyKey := by
    intro r' hr' heq
    refine hq.action_fresh r' hr' (hq.key_fresh r' hr' (heq.trans ?_))
    rw [hbinds.idempotencyKey, henv, hq.operation, hop, hmid]
  have hslot : s.requireSlot r = .ok () := by
    rw [requireSlot, if_pos hop, requireCancelSlot, forEach_eq_ok]
    intro r' hr'
    obtain ⟨hmem, hcancel⟩ := List.mem_filter.mp hr'
    simp only [Bool.and_eq_true, decide_eq_true_eq] at hcancel
    obtain ⟨⟨henv', hop'⟩, hlineage'⟩ := hcancel
    obtain ⟨intent, -, -, -, -, -, hbinds'⟩ := h.reservations_bound r' hmem
    rw [hbinds'.reservationFromRow_eq, ok_bind, h.validateReservationBinding_eq hmem, ok_bind,
      require_eq_ok, decide_eq_true_eq]
    exact hrejected r' hmem ⟨hop', henv'.trans henv, hlineage'.trans hlineage⟩
  have hinsert : s.insertReservation r = .ok { s with reservations := s.reservations ++ [r] } := by
    obtain ⟨_, -, hrow⟩ := hq.stored
    simp only [insertReservation, bind_eq_ok, require_eq_ok, exists_const, orThrow_eq_ok,
      pure_eq_ok_iff, Table.insertUnique_eq_some_iff]
    refine ⟨by simpa using hfresh, by simp [hclient], ?_, ?_, _, ⟨?_, rfl⟩, rfl⟩
    · exact List.any_eq_true.mpr ⟨_, hrow, decide_eq_true hbinds.selectedIntentId.symm⟩
    · refine List.any_eq_true.mpr ⟨selection, hselection, decide_eq_true ?_⟩
      exact hselects.key.trans hbinds.actionKey.symm
    · exact fun r' hr' => hkey ▸ hq.action_fresh r' hr'
  have hrowcount : Table.rowcount (fun row : ActionSelection =>
      row.key = (q.intent.environment, q.intent.businessActionId) &&
        row.selectionVersion = selection.selectionVersion &&
        row.selectedIntentId = q.intent.intentId &&
        row.selectedIntentFingerprint = q.intent.intentFingerprint) s.actionSelections = 1 := by
    refine Table.rowcount_fence h.selections_unique hselection hselects.key ?_ ?_
    · simp [show selection.key = (q.intent.environment, q.intent.businessActionId) from
        hselects.key, hselects.selectedIntentId, hselects.selectedIntentFingerprint]
    · intro row hrow
      simp only [Bool.and_eq_true, decide_eq_true_eq] at hrow
      exact hrow.1.1.1
  have hvalid := fun s : State => validate_reservedEvent (s := s) hbinds hop
    (requireEventMetadata_eq_ok.mpr
      ⟨hscan, (requireEventMetadata_eq_ok.mp hmetadata).2⟩)
  have hevent := fun (s' : State) (hs' : s'.auditEvents = s.auditEvents) =>
    appendEvent_eq (hvalid s') (hs' ▸ hq.event_fresh) (by
      unfold nextSequence
      rw [hs']
      exact hq.sequence_fits)
  unfold insertFreshReservation
  rw [(require_eq_ok (u := ())).mpr (by simpa using hfresh), ok_bind,
    (require_eq_ok (u := ())).mpr (by simp [hclient]), ok_bind, hslot, ok_bind, hinsert, ok_bind,
    updateSelection, hrowcount, decide_eq_true rfl, require_true]
  exact ⟨_, hevent _ rfl, List.mem_append_right s.reservations (List.mem_singleton_self r)⟩

/-- **A free slot is given**: a valid cancellation of a lineage whose every earlier cancellation is
rejected, under a fresh mutation action, is reserved. -/
theorem Inv.run_reserveCancel (h : Inv s) {q : ReserveRequest} (hq : s.ValidCancel q)
    (hrejected : ∀ r ∈ s.reservations, r.Cancels q.intent.environment q.orderLineageId →
      r.state = .rejected) :
    ∃ r, (s.run (.reserveMutation q)).1 = .ok (.reservation r) ∧
      r ∈ (s.run (.reserveMutation q)).2.reservations ∧
      r.Cancels q.intent.environment q.orderLineageId ∧ r.state = .reserved := by
  obtain ⟨r, hr⟩ := hq.checked
  obtain ⟨hbinds, hstate, hkey⟩ := requestedReservation_binds hr
  obtain ⟨selection, hselection, hselects⟩ := hq.selected
  have hcancels : r.Cancels q.intent.environment q.orderLineageId := by
    obtain ⟨henv, hop, -⟩ := by simpa only [MutationReservation.key, Prod.mk.injEq] using hkey
    refine ⟨hop.trans hq.operation, henv, ?_⟩
    simp only [requestedReservation, bind_eq_ok, pure_eq_ok_iff] at hr
    obtain ⟨-, -, -, -, -, -, -, -, -, -, -, -, rfl⟩ := hr
    rfl
  have hl : Table.lookup ActionSelection.key s.actionSelections
      (q.intent.environment, q.intent.businessActionId) = some selection :=
    (Table.lookup_eq_some_iff h.selections_unique).mpr ⟨hselection, hselects.key⟩
  have hnone : Table.lookup MutationReservation.key s.reservations
      (q.intent.environment, q.operation, q.mutationActionId) = none :=
    Table.lookup_eq_none_iff.mpr hq.action_fresh
  obtain ⟨sourceScanId, hscan⟩ := h.loadIntentSourceScanId_of_stores hq.stored
  have htoken : isToken sourceScanId = true := by
    simp only [loadIntentSourceScanId, bind_eq_ok, require_eq_ok, exists_const,
      pure_eq_ok_iff] at hscan
    obtain ⟨row, -, htoken, rfl⟩ := hscan
    exact htoken
  obtain ⟨s', hinsert, hmem⟩ := h.insertFreshReservation_eq hq hr hselection hselects htoken hrejected
  have hreserve : s.reserveMutation q = .ok (r, s') := by
    unfold reserveMutation
    simp only [canonicalIntent_eq, ok_bind, hr, h.loadActionSelection_eq, hl, orThrow_some,
      hselects.selectedIntentId, hselects.selectedIntentFingerprint, decide_true, Bool.and_self,
      require_true, h.loadIntent_of_stores hq.stored, hscan, h.loadReservation_eq, hnone, hinsert]
    rfl
  have hrun : s.run (.reserveMutation q) = (.ok (.reservation r), s') := by
    rw [run, transaction, hreserve]
    rfl
  exact ⟨r, by rw [hrun], by rw [hrun]; exact hmem, hcancels, hstate⟩

/-- What the cancel slot guarantees in a state of the store. -/
structure CancelSlot (s : State) : Prop where
  /-- A lineage of an environment has at most one cancellation that is not rejected. -/
  at_most_one : s.OneLiveCancel
  /-- A valid, fresh cancellation of a lineage whose every cancellation is rejected is reserved. -/
  free_given : ∀ q, s.ValidCancel q →
    (∀ r ∈ s.reservations, r.Cancels q.intent.environment q.orderLineageId → r.state = .rejected) →
      ∃ r, (s.run (.reserveMutation q)).1 = .ok (.reservation r) ∧
        r ∈ (s.run (.reserveMutation q)).2.reservations ∧
        r.Cancels q.intent.environment q.orderLineageId ∧ r.state = .reserved

end State

/-- **The cancel slot**, in every reachable state of the store.
Source: `execution/store.py` `_require_cancel_slot`, `reserve_mutation`;
`execution/audit.py` `_ALLOWED_RESERVATION_TRANSITIONS`. -/
theorem cancel_slot {s : State} (hs : system.Reachable s) : s.CancelSlot :=
  ⟨State.oneLiveCancel_of_reachable hs,
    fun _ hq hrejected => (State.inv_of_reachable hs).run_reserveCancel hq hrejected⟩

end slot

/-! ## A concrete run -/

section concrete

attribute [local instance] zeroSha256

/-- Cancel an order of the demo intent. -/
def demoCancel : State.ReserveRequest where
  intent := demoIntent
  operation := .cancelOrder
  mutationActionId := "ca1_" ++ zeroDigits
  orderLineageId := "order-1"
  metadata := demoMetadata "event-2"
  cancelReasonCode := some "expired"
  cancelPolicyVersion := some "v1"

/-- The store that has only recorded the demo intent. -/
def recordedStore : State := (demoCalls.take 1).foldl (fun s call => (s.run call).2) .empty

/-- What the tables of that store are. -/
lemma recordedStore_tables :
    recordedStore.intents = [.ofIntent demoIntent "scan-1"] ∧
      recordedStore.actionSelections = [State.firstSelection demoIntent] ∧
      recordedStore.reservations = [] ∧
      recordedStore.auditEvents.map AuditEventRow.eventId = ["event-1"] ∧
      recordedStore.nextSequence demoIntent.auditCorrelationId = 2 := by
  decide +kernel

/-- There the cancellation is valid. -/
lemma validCancel_demo : recordedStore.ValidCancel demoCancel := by
  obtain ⟨hintents, hselections, hreservations, hevents, hsequence⟩ := recordedStore_tables
  have haction : expectedMutationAction demoIntent .cancelOrder "order-1" (some "expired")
      (some "v1") = .ok ("ca1_" ++ zeroDigits) := by
    simp only [expectedMutationAction, cancelMutationActionId, requireIntent,
      OrderIntent.fromDict_toDict, raiseAs_ok, ok_bind, storeToken, requireToken]
    rfl
  refine ⟨rfl, ?_, ⟨"scan-1", by decide, by rw [hintents]; exact List.mem_singleton_self _⟩,
    ⟨State.firstSelection demoIntent, by rw [hselections]; exact List.mem_singleton_self _, rfl,
      rfl, rfl, Int.one_pos⟩, ?_, ?_, fun row hrow => ?_, ?_⟩
  · simp only [State.requestedReservation, demoCancel, validateMutationAction, haction, ok_bind]
    exact ⟨_, rfl⟩
  · rw [hreservations]
    intro r hr
    cases hr
  · rw [hreservations]
    intro r hr
    cases hr
  · have hid := List.mem_map_of_mem (f := AuditEventRow.eventId) hrow
    rw [hevents, List.mem_singleton] at hid
    rw [hid]
    decide
  · rw [show demoCancel.intent = demoIntent from rfl, hsequence]
    decide

/-- The store that has only recorded the demo intent gives the slot of its order. -/
theorem cancel_slot_demo : ∃ r,
    (recordedStore.run (.reserveMutation demoCancel)).1 = .ok (.reservation r) ∧
      r ∈ (recordedStore.run (.reserveMutation demoCancel)).2.reservations ∧
      r.Cancels .demo "order-1" ∧ r.state = .reserved :=
  (cancel_slot ⟨_, _, rfl, System.run_traceFn _ _ _ (demoCalls.take 1)⟩).free_given demoCancel
    validCancel_demo fun r hr _ => by
      have hr' : r ∈ recordedStore.reservations := hr
      rw [recordedStore_tables.2.2.1] at hr'
      cases hr'

end concrete

end MuStrategy.Execution
