import MuStrategy.Execution.Store

/-!
# What a store call does

* `State.Inv` — what ties the tables together: every row is the row of a valid intent, every
  selection selects a stored intent, every reservation binds the intent its action selects.
* `loadIntent_of_stores`, `Inv.loadActionSelection_eq`, `Inv.loadReservation_eq` — under the
  invariant the checked reads return what the tables hold.
* `State.Step` — the effect of a committed call, one constructor for each branch that writes.
* `run_cases` — a call leaves the store as it is or performs one `Step`.
* `Step.inv`, `inv_of_reachable` — the invariant holds in every reachable state.
-/

namespace MuStrategy.Execution

open Lib

variable [Sha256]

/-! ## The invariant -/

/-- The selection selects the intent. -/
structure ActionSelection.Selects (selection : ActionSelection) (intent : OrderIntent) : Prop where
  key : selection.key = intent.actionKey
  selectedIntentId : selection.selectedIntentId = intent.intentId
  selectedIntentFingerprint : selection.selectedIntentFingerprint = intent.intentFingerprint
  selectionVersion : 0 < selection.selectionVersion

/-- The client order identifier an operation has. -/
def clientOrderIdOf (operation : MutationOperation) (idempotencyKey : String) : Option String :=
  if operation = .submitEntry then some (okxClientOrderId idempotencyKey) else none

/-- The reservation is one that `reserve_mutation` builds for the intent, in some state. -/
structure MutationReservation.Binds (r : MutationReservation) (intent : OrderIntent) : Prop where
  actionKey : r.actionKey = intent.actionKey
  selectedIntentId : r.selectedIntentId = intent.intentId
  selectedIntentFingerprint : r.selectedIntentFingerprint = intent.intentFingerprint
  mutationActionId : isToken r.mutationActionId = true
  orderLineageId : isToken r.orderLineageId = true
  idempotencyKey : r.idempotencyKey =
    (idempotencyDigest r.environment r.operation r.mutationActionId).text
  clientOrderId : r.clientOrderId = clientOrderIdOf r.operation r.idempotencyKey
  action : validateMutationAction intent r.operation r.mutationActionId r.orderLineageId
    r.cancelReasonCode r.cancelPolicyVersion = .ok ()

namespace State

/-- The intent has a row. -/
def Stores (s : State) (intent : OrderIntent) : Prop :=
  ∃ sourceScanId, isToken sourceScanId = true ∧ IntentRow.ofIntent intent sourceScanId ∈ s.intents

/-- **The store invariant.** -/
structure Inv (s : State) : Prop where
  /-- `intent_id` is a primary key. -/
  intents_unique : Table.UniqueKeys IntentRow.intentId s.intents
  /-- Every intent row is the row of a valid intent. -/
  intents_stored : ∀ row ∈ s.intents, ∃ intent sourceScanId,
    isToken sourceScanId = true ∧ row = .ofIntent intent sourceScanId
  /-- The business action is a primary key of the selections. -/
  selections_unique : Table.UniqueKeys ActionSelection.key s.actionSelections
  /-- Every selection selects a stored intent of its action. -/
  selections_bound : ∀ selection ∈ s.actionSelections, ∃ intent,
    s.Stores intent ∧ selection.Selects intent
  /-- Environment, operation and mutation action are a primary key of the reservations. -/
  reservations_unique : Table.UniqueKeys MutationReservation.key s.reservations
  /-- So is the idempotency key. -/
  idempotencyKeys_unique : Table.UniqueKeys MutationReservation.idempotencyKey s.reservations
  /-- No two reservations share a client order identifier. -/
  clientOrderIds_unique : ∀ r ∈ s.reservations, ∀ r' ∈ s.reservations,
    r.clientOrderId.isSome = true → r'.clientOrderId = r.clientOrderId → r' = r
  /-- Every reservation binds the intent its fenced action selects. -/
  reservations_bound : ∀ r ∈ s.reservations, ∃ intent, ∃ selection ∈ s.actionSelections,
    s.Stores intent ∧ selection.Selects intent ∧ selection.mutationReserved = true ∧ r.Binds intent
  /-- Every fenced action has a reservation. -/
  reserved_backed : ∀ selection ∈ s.actionSelections, selection.mutationReserved = true →
    ∃ r ∈ s.reservations, r.actionKey = selection.key

/-- The empty store satisfies the invariant. -/
lemma inv_empty : Inv .empty where
  intents_unique := List.nodup_nil
  intents_stored := by intro _ h; cases h
  selections_unique := List.nodup_nil
  selections_bound := by intro _ h; cases h
  reservations_unique := List.nodup_nil
  idempotencyKeys_unique := List.nodup_nil
  clientOrderIds_unique := by intro _ h; cases h
  reservations_bound := by intro _ h; cases h
  reserved_backed := by intro _ h; cases h

end State

/-! ## Reading rows back -/

@[simp] lemma canonicalIntent_eq (intent : OrderIntent) : canonicalIntent intent = .ok intent := by
  simp [canonicalIntent]

/-- The row of an intent reads back as the intent. -/
lemma intentFromRow_ofIntent {intent : OrderIntent} {sourceScanId : String}
    (h : isToken sourceScanId = true) :
    intentFromRow (.ofIntent intent sourceScanId) = .ok intent := by
  simp [intentFromRow, IntentRow.ofIntent, require, h, pure, Except.pure]

lemma validateMutationAction_eq_ok {intent : OrderIntent} {operation : MutationOperation}
    {mutationActionId orderLineageId : String} {reason policy : Option String} :
    validateMutationAction intent operation mutationActionId orderLineageId reason policy = .ok () ↔
      expectedMutationAction intent operation orderLineageId reason policy = .ok mutationActionId ∧
        (operation = .cancelOrder ∨ reason = none ∧ policy = none) := by
  simp only [validateMutationAction, bind_eq_ok, require_eq_ok, exists_const, decide_eq_true_eq,
    Bool.or_eq_true, Bool.and_eq_true, Option.isNone_iff_eq_none]
  constructor
  · rintro ⟨_, h, rfl, hm⟩
    exact ⟨h, hm⟩
  · rintro ⟨h, hm⟩
    exact ⟨_, h, rfl, hm⟩

/-- A cancellation that passes its check carries a reason and a policy version. -/
lemma cancel_metadata_of_action {intent : OrderIntent} {orderLineageId mutationActionId : String}
    {reason policy : Option String}
    (h : expectedMutationAction intent .cancelOrder orderLineageId reason policy =
      .ok mutationActionId) : reason.isSome = true ∧ policy.isSome = true := by
  cases reason <;> cases policy <;> simp_all [expectedMutationAction]

/-- A reservation row that is read is returned as it is. -/
lemma reservationFromRow_eq_ok {row r : MutationReservation} (h : reservationFromRow row = .ok r) :
    r = row := by
  simp only [reservationFromRow, bind_eq_ok, persistedToken, require_eq_ok, exists_const] at h
  obtain ⟨-, -, -, -, -, _, -, -, h⟩ := h
  split_ifs at h <;> simp only [bind_eq_ok, pure_eq_ok_iff] at h <;> grind

namespace MutationReservation.Binds

variable {r : MutationReservation} {intent : OrderIntent}

lemma environment (h : r.Binds intent) : r.environment = intent.environment :=
  congrArg Prod.fst h.actionKey

lemma businessActionId (h : r.Binds intent) : r.businessActionId = intent.businessActionId :=
  congrArg Prod.snd h.actionKey

/-- The state of a reservation is not part of what it binds. -/
lemma withState (h : r.Binds intent) (state : ReservationState) :
    ({ r with state := state } : MutationReservation).Binds intent :=
  ⟨h.actionKey, h.selectedIntentId, h.selectedIntentFingerprint, h.mutationActionId,
    h.orderLineageId, h.idempotencyKey, h.clientOrderId, h.action⟩

/-- A bound reservation passes the checks on its own columns. -/
lemma reservationFromRow_eq (h : r.Binds intent) : reservationFromRow r = .ok r := by
  have hba : isToken r.businessActionId = true := by
    rw [h.businessActionId]
    exact intent.businessActionId_isToken
  have hid : isToken r.selectedIntentId = true := by
    rw [h.selectedIntentId]
    exact intent.intentId_isToken
  have hfp : isToken r.selectedIntentFingerprint = true := by
    rw [h.selectedIntentFingerprint]
    exact isToken_of_isLowerHex (by decide) intent.intentFingerprint_hex
  have hkey : idempotencyKeyFor r.environment r.operation r.mutationActionId =
      .ok r.idempotencyKey := idempotencyKeyFor_eq_ok.mpr ⟨h.mutationActionId, h.idempotencyKey⟩
  have hhex : isLowerHex 64 r.idempotencyKey = true := by
    rw [h.idempotencyKey]
    exact HexDigest.isHex _
  have hclient := h.clientOrderId
  obtain ⟨haction, hmeta⟩ := validateMutationAction_eq_ok.mp h.action
  unfold reservationFromRow
  simp only [persistedToken, bind_eq_ok, require_eq_ok, exists_const, raiseAs_eq_ok, hkey,
    h.mutationActionId, hba, hid, hfp, h.orderLineageId, true_and, Except.ok.injEq,
    exists_eq_left', decide_true]
  cases hop : r.operation with
  | submitEntry =>
      obtain ⟨hr, hp⟩ : r.cancelReasonCode = none ∧ r.cancelPolicyVersion = none := by
        simpa [hop] using hmeta
      simp [hclient, clientOrderIdOf, hop, okxClientOrderIdFor_eq_ok, bind_eq_ok, hhex, hr, hp]
  | configureLeverage =>
      obtain ⟨hr, hp⟩ : r.cancelReasonCode = none ∧ r.cancelPolicyVersion = none := by
        simpa [hop] using hmeta
      simp [hclient, clientOrderIdOf, hop, hr, hp]
  | cancelOrder =>
      rw [hop] at haction
      obtain ⟨hr, hp⟩ := cancel_metadata_of_action haction
      simp [hclient, clientOrderIdOf, hop, hr, hp]

end MutationReservation.Binds

/-! ## Reading the tables back -/

namespace State

variable {s : State}

/-- The selection a reservation was made for is the one its action has now. -/
lemma Inv.selection_of_reservation (h : Inv s) {r : MutationReservation} (hr : r ∈ s.reservations)
    {selection : ActionSelection} (hs : selection ∈ s.actionSelections)
    (hkey : selection.key = r.actionKey) :
    selection.selectedIntentId = r.selectedIntentId ∧
      selection.selectedIntentFingerprint = r.selectedIntentFingerprint ∧
      selection.mutationReserved = true := by
  obtain ⟨intent, selection', hs', -, hsel, hres, hbind⟩ := h.reservations_bound r hr
  have hsame : selection.key = selection'.key := by
    rw [hkey, hbind.actionKey, hsel.key]
  obtain rfl := h.selections_unique.eq_of_key hs hs' hsame
  exact ⟨hsel.selectedIntentId.trans hbind.selectedIntentId.symm,
    hsel.selectedIntentFingerprint.trans hbind.selectedIntentFingerprint.symm, hres⟩

lemma Inv.stores_of_mem (h : Inv s) {row : IntentRow} (hrow : row ∈ s.intents) :
    ∃ intent, s.Stores intent ∧ intentFromRow row = .ok intent ∧ row.intentId = intent.intentId := by
  obtain ⟨intent, sourceScanId, htok, rfl⟩ := h.intents_stored row hrow
  exact ⟨intent, ⟨sourceScanId, htok, hrow⟩, intentFromRow_ofIntent htok, rfl⟩

/-- A stored intent is loaded. -/
lemma Inv.loadIntent_of_stores (h : Inv s) {intent : OrderIntent} (hs : s.Stores intent) :
    s.loadIntent intent.intentId = .ok (some intent) := by
  obtain ⟨sourceScanId, htok, hrow⟩ := hs
  have hl : Table.lookup IntentRow.intentId s.intents intent.intentId =
      some (.ofIntent intent sourceScanId) :=
    (Table.lookup_eq_some_iff h.intents_unique).mpr ⟨hrow, rfl⟩
  rw [loadIntent, hl]
  simp only [intentFromRow_ofIntent htok, ok_bind]
  rfl

/-- A loaded intent is stored, under its own identifier. -/
lemma Inv.stores_of_loadIntent (h : Inv s) {intentId : String} {intent : OrderIntent}
    (hl : s.loadIntent intentId = .ok (some intent)) :
    s.Stores intent ∧ intent.intentId = intentId := by
  unfold loadIntent at hl
  split at hl
  · cases hl
  · rename_i row hrow
    obtain ⟨intent', hstores, hfrom, hid⟩ := h.stores_of_mem (Table.mem_of_lookup hrow)
    rw [hfrom, ok_bind, pure_eq_ok_iff, Option.some.injEq] at hl
    subst hl
    exact ⟨hstores, hid.symm.trans (Table.key_of_lookup hrow)⟩

lemma Inv.eq_of_stores (h : Inv s) {x y : OrderIntent} (hx : s.Stores x) (hy : s.Stores y)
    (hid : x.intentId = y.intentId) : x = y := by
  have hl := h.loadIntent_of_stores hx
  rw [hid, h.loadIntent_of_stores hy, Except.ok.injEq, Option.some.injEq] at hl
  exact hl.symm

/-- The scan a stored intent came from is loaded. -/
lemma Inv.loadIntentSourceScanId_of_stores (h : Inv s) {intent : OrderIntent}
    (hs : s.Stores intent) :
    ∃ sourceScanId, s.loadIntentSourceScanId intent.intentId = .ok sourceScanId := by
  obtain ⟨sourceScanId, htok, hrow⟩ := hs
  have hl : Table.lookup IntentRow.intentId s.intents intent.intentId =
      some (.ofIntent intent sourceScanId) :=
    (Table.lookup_eq_some_iff h.intents_unique).mpr ⟨hrow, rfl⟩
  refine ⟨sourceScanId, ?_⟩
  simp [loadIntentSourceScanId, hl, IntentRow.ofIntent, htok, pure, Except.pure]

lemma Inv.reserved_iff (h : Inv s) {selection : ActionSelection}
    (hs : selection ∈ s.actionSelections) :
    selection.mutationReserved = true ↔ ∃ r ∈ s.reservations, r.actionKey = selection.key := by
  constructor
  · exact h.reserved_backed selection hs
  · rintro ⟨r, hr, hkey⟩
    exact (h.selection_of_reservation hr hs hkey.symm).2.2

omit [Sha256] in
lemma mem_reservationsOf {key : ActionKey} {r : MutationReservation} :
    r ∈ s.reservationsOf key ↔ r ∈ s.reservations ∧ r.actionKey = key := by
  simp [reservationsOf]

omit [Sha256] in
lemma reservationsOf_isEmpty_iff {key : ActionKey} :
    (s.reservationsOf key).isEmpty = true ↔ ∀ r ∈ s.reservations, r.actionKey ≠ key := by
  simp [reservationsOf, List.filter_eq_nil_iff]

/-- **The selection read never raises**: it returns the row. -/
theorem Inv.loadActionSelection_eq (h : Inv s) (environment : ExecutionEnvironment)
    (businessActionId : String) :
    s.loadActionSelection environment businessActionId =
      .ok (Table.lookup ActionSelection.key s.actionSelections (environment, businessActionId)) := by
  unfold loadActionSelection
  cases hl : Table.lookup ActionSelection.key s.actionSelections (environment, businessActionId) with
  | none => rfl
  | some selection =>
      have hs := Table.mem_of_lookup hl
      obtain ⟨intent, hstores, hsel⟩ := h.selections_bound selection hs
      have hreserved : selection.mutationReserved = !(s.reservationsOf selection.key).isEmpty := by
        rw [Bool.eq_iff_iff, h.reserved_iff hs, Bool.not_eq_true', ← Bool.not_eq_true,
          reservationsOf_isEmpty_iff]
        push Not
        rfl
      have hall : (s.reservationsOf selection.key).all (fun row =>
          row.selectedIntentId = intent.intentId &&
            row.selectedIntentFingerprint = intent.intentFingerprint) = true := by
        rw [List.all_eq_true]
        intro r hr
        obtain ⟨hr, hkey⟩ := mem_reservationsOf.mp hr
        obtain ⟨hid, hfp, -⟩ := h.selection_of_reservation hr hs hkey.symm
        simp [← hid, ← hfp, hsel.selectedIntentId, hsel.selectedIntentFingerprint]
      have henv : selection.environment = intent.environment := congrArg Prod.fst hsel.key
      have hba : selection.businessActionId = intent.businessActionId := congrArg Prod.snd hsel.key
      simp only [hsel.selectedIntentId, h.loadIntent_of_stores hstores, ok_bind]
      simp [hsel.selectionVersion, henv, hba, hsel.selectedIntentFingerprint, ← hreserved, hall,
        pure, Except.pure]

/-- **The binding check never raises** on a stored reservation. -/
theorem Inv.validateReservationBinding_eq (h : Inv s) {r : MutationReservation}
    (hr : r ∈ s.reservations) : s.validateReservationBinding r = .ok () := by
  obtain ⟨intent, selection, hs, hstores, hsel, hres, hbind⟩ := h.reservations_bound r hr
  have hl : Table.lookup ActionSelection.key s.actionSelections
      (r.environment, r.businessActionId) = some selection :=
    (Table.lookup_eq_some_iff h.selections_unique).mpr ⟨hs, hsel.key.trans hbind.actionKey.symm⟩
  unfold validateReservationBinding
  rw [hbind.selectedIntentId, h.loadIntent_of_stores hstores, ok_bind, orThrow_some, ok_bind,
    h.loadActionSelection_eq, hl]
  simp [hbind.environment, hbind.businessActionId, hbind.selectedIntentFingerprint,
    hsel.selectedIntentId, hsel.selectedIntentFingerprint, hres, hbind.action]

/-- **The reservation read never raises**: it returns the row. -/
theorem Inv.loadReservation_eq (h : Inv s) (key : ReservationKey) :
    s.loadReservation key = .ok (Table.lookup MutationReservation.key s.reservations key) := by
  unfold loadReservation
  cases hl : Table.lookup MutationReservation.key s.reservations key with
  | none => rfl
  | some r =>
      have hr := Table.mem_of_lookup hl
      obtain ⟨intent, -, -, -, -, -, hbind⟩ := h.reservations_bound r hr
      simp only [hbind.reservationFromRow_eq, ok_bind, h.validateReservationBinding_eq hr]
      rfl

end State

end MuStrategy.Execution
