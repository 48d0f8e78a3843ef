import MuStrategy.Execution.StoreStep

/-!
# The execution fence

Once a mutation is reserved for a business action, the intent it was reserved for stays selected.

* `selectionOf_eq_of_run` — along a run, the selection of a reserved action does not change.
* `execution_fence` — the fence in every reachable state: the flag says whether a reservation
  exists, reservations carry the selected intent, the selection is frozen, and the binding checks
  never find an inconsistency.
-/

namespace MuStrategy.Execution

open Lib

section fence

variable [Sha256]

namespace State

variable {s s' : State}

/-- A call leaves a reserved action reserved and its selection as it is. -/
lemma step_frozen (h : Inv s) {call : Call} (hst : system.step s call s') {key : ActionKey}
    (hr : ∃ r ∈ s.reservations, r.actionKey = key) :
    (∃ r ∈ s'.reservations, r.actionKey = key) ∧ s'.selectionOf key = s.selectionOf key := by
  obtain rfl | hstep := h.system_step_cases hst
  · exact ⟨hr, rfl⟩
  · obtain ⟨r, hr, rfl⟩ := hr
    obtain ⟨r', hr', hfacts⟩ := hstep.facts_kept h hr
    exact ⟨⟨r', hr', eq_of_facts hfacts fun _ => rfl⟩, hstep.selectionOf_eq h hr⟩

/-- **The selection of a reserved action is frozen**: no later call changes it. -/
theorem selectionOf_eq_of_run (h : Inv s) {tr : List (Call × State)} (hrun : system.Run s tr s')
    {key : ActionKey} (hr : ∃ r ∈ s.reservations, r.actionKey = key) :
    s'.selectionOf key = s.selectionOf key := by
  induction hrun with
  | nil => rfl
  | @cons s t u call tr hst _ ih =>
      obtain ⟨hr', hsel⟩ := step_frozen h hst hr
      exact (ih (inv_step s call t h hst) hr').trans hsel

/-- What the fence guarantees for a business action of an environment. -/
structure Fenced (s : State) (environment : ExecutionEnvironment) (businessActionId : String) :
    Prop where
  /-- The selection is marked reserved exactly when a mutation is reserved. -/
  reserved_iff :
    (∃ selection, s.selectionOf (environment, businessActionId) = some selection ∧
        selection.mutationReserved = true) ↔
      ∃ r ∈ s.reservations, r.actionKey = (environment, businessActionId)
  /-- Every reservation carries the selected intent identifier and fingerprint. -/
  reservations_selected : ∀ r ∈ s.reservations, r.actionKey = (environment, businessActionId) →
    ∃ selection, s.selectionOf (environment, businessActionId) = some selection ∧
      r.selectedIntentId = selection.selectedIntentId ∧
      r.selectedIntentFingerprint = selection.selectedIntentFingerprint
  /-- Once a reservation exists, no later run changes what is selected. -/
  selection_frozen : (∃ r ∈ s.reservations, r.actionKey = (environment, businessActionId)) →
    ∀ tr s', system.Run s tr s' → ∃ selection selection',
      s.selectionOf (environment, businessActionId) = some selection ∧
      s'.selectionOf (environment, businessActionId) = some selection' ∧
      selection'.selectedIntentId = selection.selectedIntentId ∧
      selection'.selectedIntentFingerprint = selection.selectedIntentFingerprint ∧
      selection'.selectionVersion = selection.selectionVersion
  /-- The binding check of the selection does not raise. -/
  selection_binds : ∀ text,
    s.loadActionSelection environment businessActionId ≠ .error (.invariant text)
  /-- The binding checks of its reservations do not raise. -/
  reservations_bind : ∀ r ∈ s.reservations, r.actionKey = (environment, businessActionId) →
    ∀ text, s.validateReservationBinding r ≠ .error (.invariant text)

end State

open State in
/-- **The execution fence.** In every reachable state of the store, every business action of every
environment is fenced.
Source: `execution/store.py` `record_intent`, `reserve_mutation`,
`_load_action_selection_connection`, `_validate_reservation_binding`. -/
theorem execution_fence {s : State} (hs : system.Reachable s) (environment : ExecutionEnvironment)
    (businessActionId : String) : s.Fenced environment businessActionId := by
  have h := inv_of_reachable hs
  have hbound : ∀ r ∈ s.reservations, r.actionKey = (environment, businessActionId) →
      ∃ selection, s.selectionOf (environment, businessActionId) = some selection ∧
        r.selectedIntentId = selection.selectedIntentId ∧
        r.selectedIntentFingerprint = selection.selectedIntentFingerprint := by
    intro r hr hkey
    obtain ⟨x, row, hrow, -, hsel, -, hbind⟩ := h.reservations_bound r hr
    have hrowkey : row.key = r.actionKey := hsel.key.trans hbind.actionKey.symm
    obtain ⟨hid, hfp, -⟩ := h.selection_of_reservation hr hrow hrowkey
    exact ⟨row, h.selectionOf_eq_some_iff.mpr ⟨hrow, hrowkey.trans hkey⟩, hid.symm, hfp.symm⟩
  refine ⟨⟨?_, ?_⟩, hbound, ?_, ?_, ?_⟩
  · rintro ⟨selection, hl, hres⟩
    obtain ⟨hmem, hkey⟩ := h.selectionOf_eq_some_iff.mp hl
    obtain ⟨r, hr, hrkey⟩ := h.reserved_backed selection hmem hres
    exact ⟨r, hr, hrkey.trans hkey⟩
  · rintro ⟨r, hr, hkey⟩
    obtain ⟨selection, hl, -⟩ := hbound r hr hkey
    obtain ⟨hmem, hselkey⟩ := h.selectionOf_eq_some_iff.mp hl
    exact ⟨selection, hl, (h.selection_of_reservation hr hmem (hselkey.trans hkey.symm)).2.2⟩
  · rintro ⟨r, hr, hkey⟩ tr s' hrun
    obtain ⟨selection, hl, -⟩ := hbound r hr hkey
    refine ⟨selection, selection, hl, ?_, rfl, rfl, rfl⟩
    rw [selectionOf_eq_of_run h hrun ⟨r, hr, hkey⟩, hl]
  · intro text herror
    rw [h.loadActionSelection_eq] at herror
    cases herror
  · intro r hr _ text herror
    rw [h.validateReservationBinding_eq hr] at herror
    cases herror

end fence

/-! ## A concrete run -/

section concrete

attribute [local instance] zeroSha256

/-- The fields of a demo intent. -/
def demoFields : OrderIntentFields where
  schemaVersion := 1
  signalLineageId := "sig1_" ++ zeroDigits
  businessActionId := "ba1_" ++ zeroDigits
  intentId := "oi1_" ++ zeroDigits
  auditCorrelationId := "ba1_" ++ zeroDigits
  environment := .demo
  symbol := "MU-USDT-SWAP"
  side := "buy"
  orderType := "limit"
  size := "12.5"
  limitPrice := "101.25"
  tdMode := "isolated"
  posSide := "long"
  leverage := 5
  initialStop := "99"
  sourceObservationId := "obs-1"
  signalTimeMs := 1000
  decisionCode := .signalConfirmed
  trustedRunId := "00000000000000000000000000000000"
  observedAtMs := 2000
  dataContentSha256 := [("15m", zeroDigits), ("1h", zeroDigits), ("5m", zeroDigits)]
  strategyReleaseId := "sr1_" ++ zeroDigits
  strategyName := "mu"
  strategyConfigSha256 := zeroDigits
  secondPullbackWaitBars := 4
  createdAtMs := 3000
  expiresAtMs := 3601000

/-- A demo intent. -/
def demoIntent : OrderIntent := ⟨demoFields, by decide +kernel⟩

/-- The metadata of a call. -/
def demoMetadata (eventId : String) : EventMetadata := ⟨.system, "executor", 4000, eventId⟩

/-- Record an intent, reserve its entry order, dispatch it. -/
def demoCalls : List Call :=
  [.recordIntent demoIntent "scan-1" (demoMetadata "event-1"),
    .reserveMutation
      { intent := demoIntent
        operation := .submitEntry
        mutationActionId := demoIntent.businessActionId
        orderLineageId := "order-1"
        metadata := demoMetadata "event-2"
        cancelReasonCode := none
        cancelPolicyVersion := none },
    .transitionReservation
      { environment := .demo
        operation := .submitEntry
        mutationActionId := demoIntent.businessActionId
        expectedState := .reserved
        newState := .dispatching
        metadata := demoMetadata "event-3" }]

/-- The store after those calls. -/
def demoStore : State := demoCalls.foldl (fun s call => (s.run call).2) .empty

/-- The run that leads there. -/
lemma demoRun : system.Run State.empty
    (System.traceFn (fun s call => (s.run call).2) State.empty demoCalls) demoStore :=
  System.run_traceFn _ _ _ _

/-- The fence holds of the demo action once its entry order is dispatched. -/
theorem execution_fence_demo : demoStore.Fenced .demo demoIntent.businessActionId :=
  execution_fence ⟨_, _, rfl, demoRun⟩ .demo demoIntent.businessActionId

end concrete

end MuStrategy.Execution
