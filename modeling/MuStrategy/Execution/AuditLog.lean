import MuStrategy.Execution.Dispatch

/-!
# The audit log is complete

The audit events of a business action describe everything the tables say about it.

* `replay` — the abstract reading of a log: fold its events into a selection and reservations.
* `Step.describes` — every committed call appends one event, numbered next in its action, and
  applying that event to a view of the old tables gives the view of the new ones.
* `Logged` — the log of every action is numbered from 1 and replays to the tables.
* `audit_log_complete` — reading and replaying the log of an action in a reachable state.
-/

namespace MuStrategy.Execution

open Lib

section replay

variable [Sha256]

/-! ## Replaying events -/

/-- What a log says about its business action. -/
structure Replay where
  /-- The selection, once an intent was created. -/
  selection : Option ActionSelection
  /-- The reservations, in the order they were made. -/
  reservations : List MutationReservation

namespace Replay

/-- The replay of an empty log. -/
def empty : Replay := ⟨none, []⟩

omit [Sha256] in
/-- A text field of a payload. -/
def text (payload : JsonValue) (key : String) : String :=
  ((payload.get? key).bind Json.str?).getD ""

omit [Sha256] in
/-- An optional text field of a payload. -/
def optionalText (payload : JsonValue) (key : String) : Option String :=
  (payload.get? key).bind Json.str?

omit [Sha256] in
/-- An enumeration field of a payload. -/
def enum? {α : Type} [PyEnum α] (payload : JsonValue) (key : String) : Option α :=
  (optionalText payload key).bind PyEnum.ofValue?

omit [Sha256] in
/-- `intent.created`: the intent is selected at version 1. -/
def created (e : ExecutionAuditEventFields) : ActionSelection where
  environment := e.environment
  businessActionId := e.businessActionId
  selectedIntentId := e.intentId
  selectedIntentFingerprint := e.intentFingerprint
  selectionVersion := 1
  mutationReserved := false

omit [Sha256] in
/-- `intent.superseded`: the new intent is selected, at the recorded version. -/
def superseded (e : ExecutionAuditEventFields) (selection : ActionSelection) : ActionSelection :=
  { selection with
    selectedIntentId := e.intentId
    selectedIntentFingerprint := e.intentFingerprint
    selectionVersion := ((e.payload.get? "selection_version").bind Json.int?).getD 0 }

omit [Sha256] in
/-- `idempotency.reserved`: the recorded reservation, in `RESERVED`. -/
def reserved (e : ExecutionAuditEventFields) : Option MutationReservation :=
  (enum? e.payload "operation").map fun operation =>
    { environment := e.environment
      operation := operation
      mutationActionId := text e.payload "mutation_action_id"
      idempotencyKey := text e.payload "idempotency_key"
      businessActionId := e.businessActionId
      selectedIntentId := e.intentId
      selectedIntentFingerprint := text e.payload "selected_intent_fingerprint"
      orderLineageId := text e.payload "order_lineage_id"
      clientOrderId := optionalText e.payload "client_order_id"
      cancelReasonCode := optionalText e.payload "cancel_reason_code"
      cancelPolicyVersion := optionalText e.payload "cancel_policy_version"
      state := .reserved }

omit [Sha256] in
/-- `idempotency.reservation_state_changed`: the recorded reservation moves from the old state to
the new one. -/
def stateChanged (e : ExecutionAuditEventFields) (reservations : List MutationReservation) :
    List MutationReservation :=
  match enum? e.payload "operation", enum? e.payload "old_state", enum? e.payload "new_state" with
  | some operation, some oldState, some newState =>
      Table.update
        (fun r => decide (r.key =
            (e.environment, operation, text e.payload "mutation_action_id")) &&
          decide (r.state = oldState))
        (fun r => { r with state := newState }) reservations
  | _, _, _ => reservations

omit [Sha256] in
/-- What one event changes. -/
def apply (acc : Replay) (e : ExecutionAuditEventFields) : Replay :=
  match e.eventType with
  | .intentCreated => { acc with selection := some (created e) }
  | .intentReused => acc
  | .intentSuperseded => { acc with selection := acc.selection.map (superseded e) }
  | .idempotencyReserved =>
      { selection := acc.selection.map fun selection => { selection with mutationReserved := true }
        reservations := acc.reservations ++ (reserved e).toList }
  | .reservationStateChanged => { acc with reservations := stateChanged e acc.reservations }

end Replay

/-- The events of a log, folded in order. -/
def replay (events : List ExecutionAuditEvent) : Replay :=
  events.foldl (fun acc e => acc.apply e.toExecutionAuditEventFields) Replay.empty

/-- Replaying one more event. -/
lemma replay_append (events : List ExecutionAuditEvent) (e : ExecutionAuditEvent) :
    replay (events ++ [e]) = (replay events).apply e.toExecutionAuditEventFields := by
  simp [replay]

omit [Sha256] in
/-- The replay says about the business action exactly what the tables say. -/
structure Replay.Views (acc : Replay) (s : State) (businessActionId : String) : Prop where
  selection : s.actionSelections.filter (fun row => decide (row.businessActionId = businessActionId))
    = acc.selection.toList
  reservations : s.reservations.filter (fun row => decide (row.businessActionId = businessActionId))
    = acc.reservations

/-! ## Events describe steps -/

namespace Replay

omit [Sha256] in
lemma bind_str?_optStr (value : Option String) :
    (some (Json.optStr value : JsonValue)).bind Json.str? = value := by
  cases value <;> rfl

omit [Sha256] in
/-- The recorded reservation is the one that was inserted. -/
lemma reserved_eq {e : ExecutionAuditEventFields} {r : MutationReservation}
    (hpayload : e.payload = State.reservedPayload r) (henv : e.environment = r.environment)
    (hba : e.businessActionId = r.businessActionId) (hid : e.intentId = r.selectedIntentId)
    (hstate : r.state = .reserved) : reserved e = some r := by
  have hop : enum? e.payload "operation" = some r.operation := by
    rw [hpayload]
    exact PyEnum.ofValue?_value r.operation
  have hclient : optionalText e.payload "client_order_id" = r.clientOrderId := by
    rw [hpayload]
    exact bind_str?_optStr r.clientOrderId
  have hreason : optionalText e.payload "cancel_reason_code" = r.cancelReasonCode := by
    rw [hpayload]
    exact bind_str?_optStr r.cancelReasonCode
  have hpolicy : optionalText e.payload "cancel_policy_version" = r.cancelPolicyVersion := by
    rw [hpayload]
    exact bind_str?_optStr r.cancelPolicyVersion
  unfold reserved
  rw [hop, hclient, hreason, hpolicy, hpayload, henv, hba, hid, ← hstate]
  rfl

omit [Sha256] in
/-- The recorded transition is the update that was made. -/
lemma stateChanged_eq {e : ExecutionAuditEventFields} {q : State.TransitionRequest} (key : String)
    (hpayload : e.payload = State.stateChangedPayload q key)
    (henv : e.environment = q.environment) (reservations : List MutationReservation) :
    stateChanged e reservations =
      Table.update (fun r => decide (r.key = q.key) && decide (r.state = q.expectedState))
        (fun r => { r with state := q.newState }) reservations := by
  have hop : enum? e.payload "operation" = some q.operation := by
    rw [hpayload]
    exact PyEnum.ofValue?_value q.operation
  have hold : enum? e.payload "old_state" = some q.expectedState := by
    rw [hpayload]
    exact PyEnum.ofValue?_value q.expectedState
  have hnew : enum? e.payload "new_state" = some q.newState := by
    rw [hpayload]
    exact PyEnum.ofValue?_value q.newState
  unfold stateChanged
  rw [hop, hold, hnew, hpayload, henv]
  rfl

end Replay

namespace State

variable {s s' : State}

/-- Only the demo environment has intents, so a business action has one selection. -/
lemma Inv.selection_key (h : Inv s) {intent : OrderIntent} {row : ActionSelection}
    (hrow : row ∈ s.actionSelections) (hba : row.businessActionId = intent.businessActionId) :
    row.key = intent.actionKey := by
  obtain ⟨x, -, hsel⟩ := h.selections_bound row hrow
  have henv : row.environment = x.environment := congrArg Prod.fst hsel.key
  rw [ActionSelection.key, OrderIntent.actionKey, henv, hba, x.identityChecked.environment_eq,
    intent.identityChecked.environment_eq]

/-- One update of a selection, seen from any business action. -/
lemma Inv.filter_update_selection (h : Inv s) (intent : OrderIntent)
    {f : ActionSelection → ActionSelection}
    (hf : ∀ row, (f row).businessActionId = row.businessActionId) (businessActionId : String)
    {selection : Option ActionSelection}
    (hview : s.actionSelections.filter (fun row => decide (row.businessActionId = businessActionId))
      = selection.toList) :
    (Table.update (fun row => decide (row.key = intent.actionKey)) f s.actionSelections).filter
        (fun row => decide (row.businessActionId = businessActionId)) =
      if intent.businessActionId = businessActionId then (selection.map f).toList
        else selection.toList := by
  split
  · rename_i hba
    subst hba
    rw [Table.filter_update (by simp [hf]), hview]
    refine Table.update_toList fun row hrow => ?_
    have hmem : row ∈ s.actionSelections.filter
        (fun row => decide (row.businessActionId = intent.businessActionId)) := by
      rw [hview, hrow]
      exact List.mem_singleton_self row
    obtain ⟨hmem, hba⟩ := List.mem_filter.mp hmem
    simpa using h.selection_key hmem (by simpa using hba)
  · rename_i hba
    rw [Table.filter_update_of_not (by simp [hf]), hview]
    intro row _ hq
    have hrow : row.businessActionId = businessActionId := by simpa using hq
    have hne : row.key ≠ intent.actionKey := by
      intro hk
      have hsnd : row.businessActionId = intent.businessActionId := congrArg Prod.snd hk
      exact hba (hsnd.symm.trans hrow)
    simpa using hne

/-- The event of a call describes its step when it updates every view accordingly. -/
lemma describes_of_views {intent : OrderIntent} {sourceScanId : String} {metadata : EventMetadata}
    {eventType : AuditEventType} {payload : JsonValue} {event : ExecutionAuditEvent}
    (hevent : event.toExecutionAuditEventFields =
      s.eventFields intent sourceScanId metadata eventType payload)
    (haudit : s'.auditEvents = s.auditEvents ++ [eventRow event])
    (hviews : ∀ businessActionId acc, Replay.Views acc s businessActionId →
      Replay.Views (if intent.businessActionId = businessActionId
        then acc.apply (s.eventFields intent sourceScanId metadata eventType payload) else acc)
        s' businessActionId) :
    ∃ event : ExecutionAuditEvent,
      s'.auditEvents = s.auditEvents ++ [eventRow event] ∧
      event.sequence = s.nextSequence event.auditCorrelationId ∧
      ∀ businessActionId acc, Replay.Views acc s businessActionId →
        Replay.Views (if event.auditCorrelationId = businessActionId
          then acc.apply event.toExecutionAuditEventFields else acc) s' businessActionId := by
  have hcorr : event.auditCorrelationId = intent.businessActionId := by
    rw [hevent]
    exact intent.identityChecked.auditCorrelationId_eq
  refine ⟨event, haudit, by rw [hevent]; rfl, fun businessActionId acc hview => ?_⟩
  rw [hcorr, hevent]
  exact hviews businessActionId acc hview

/-- **Every committed call appends one event that describes it**: the event is numbered next in its
business action, and applying it to a view of the old tables gives the view of the new ones. -/
theorem Step.describes (h : Inv s) (hstep : s.Step s') :
    ∃ event : ExecutionAuditEvent,
      s'.auditEvents = s.auditEvents ++ [eventRow event] ∧
      event.sequence = s.nextSequence event.auditCorrelationId ∧
      ∀ businessActionId acc, Replay.Views acc s businessActionId →
        Replay.Views (if event.auditCorrelationId = businessActionId
          then acc.apply event.toExecutionAuditEventFields else acc) s' businessActionId := by
  cases hstep with
  | @create intent sourceScanId metadata event intents hintents hnone hreservations hevents hevent =>
      refine describes_of_views hevent rfl fun businessActionId acc hview => ?_
      split
      · rename_i hba
        subst hba
        have hold : s.actionSelections.filter
            (fun row => decide (row.businessActionId = intent.businessActionId)) = [] := by
          rw [List.filter_eq_nil_iff]
          intro row hrow hba
          have hkey := h.selection_key hrow (by simpa using hba)
          exact Table.lookup_eq_none_iff.mp hnone row hrow hkey
        refine ⟨?_, hview.reservations⟩
        show List.filter _ (s.actionSelections ++ [firstSelection intent]) = [firstSelection intent]
        rw [List.filter_append, hold]
        simp [firstSelection]
      · rename_i hba
        refine ⟨?_, hview.reservations⟩
        show List.filter _ (s.actionSelections ++ [firstSelection intent]) = _
        rw [List.filter_append, hview.selection]
        simp [firstSelection, hba]
  | reuse _ _ _ hevent =>
      refine describes_of_views hevent rfl fun businessActionId acc hview => ?_
      split <;> exact ⟨hview.selection, hview.reservations⟩
  | @supersede existing intent selection sourceScanId metadata event intents hintents hmem hkey
      hfree hevent =>
      refine describes_of_views hevent rfl fun businessActionId acc hview => ?_
      have hsel := h.filter_update_selection intent
        (f := selectRevision intent (selection.selectionVersion + 1)) (fun _ => rfl)
        businessActionId hview.selection
      split
      · rename_i hba
        rw [if_pos hba] at hsel
        exact ⟨hsel, hview.reservations⟩
      · rename_i hba
        rw [if_neg hba] at hsel
        exact ⟨hsel, hview.reservations⟩
  | @reserve intent selection r sourceScanId metadata event hstores hmem hselects hbinds hstate
      hkey hidem hclient hslot hevent =>
      refine describes_of_views hevent rfl fun businessActionId acc hview => ?_
      have hsel := h.filter_update_selection intent
        (f := fun row => { row with mutationReserved := true }) (fun _ => rfl)
        businessActionId hview.selection
      have hrba : r.businessActionId = intent.businessActionId := hbinds.businessActionId
      split
      · rename_i hba
        rw [if_pos hba] at hsel
        refine ⟨hsel, ?_⟩
        have hreserved := Replay.reserved_eq (e := s.eventFields intent sourceScanId metadata
          .idempotencyReserved (reservedPayload r)) rfl hbinds.environment.symm hrba.symm
          hbinds.selectedIntentId.symm hstate
        show List.filter _ (s.reservations ++ [r]) = acc.reservations ++ (Replay.reserved _).toList
        rw [List.filter_append, hview.reservations, hreserved]
        simp [hrba, hba]
      · rename_i hba
        rw [if_neg hba] at hsel
        refine ⟨hsel, ?_⟩
        show List.filter _ (s.reservations ++ [r]) = _
        rw [List.filter_append, hview.reservations]
        simp [hrba, hba]
  | @transition intent r q sourceScanId event hmem hkey hstate hallowed hstores hbinds hevent =>
      refine describes_of_views hevent rfl fun businessActionId acc hview => ?_
      have hrba : r.businessActionId = intent.businessActionId := hbinds.businessActionId
      have henv : intent.environment = q.environment :=
        hbinds.environment.symm.trans (congrArg Prod.fst hkey)
      have hfence := Table.update_fence (f := fun row => { row with state := q.newState })
        h.reservations_unique hmem hkey
        (p := fun row => decide (row.key = q.key) && decide (row.state = q.expectedState))
        (by simp [hkey, hstate]) (by intro r hr; simp at hr; exact hr.1)
      split
      · refine ⟨hview.selection, ?_⟩
        show List.filter _ (Table.update _ _ s.reservations) = Replay.stateChanged _ acc.reservations
        rw [Replay.stateChanged_eq r.idempotencyKey rfl henv, ← hfence,
          Table.filter_update (by simp), hview.reservations]
      · rename_i hba
        refine ⟨hview.selection, ?_⟩
        show List.filter _ (Table.update _ _ s.reservations) = _
        rw [Table.filter_update_of_not (by simp), hview.reservations]
        intro r' hr' hq
        have hne : r'.key ≠ q.key := by
          intro hk
          obtain rfl := h.reservations_unique.eq_of_key hr' hmem (hk.trans hkey.symm)
          have hr'ba : r'.businessActionId = businessActionId := by simpa using hq
          exact hba (hrba.symm.trans hr'ba)
        simpa using hne

end State

/-! ## The log of an action -/

/-- The sequence numbers of a log of `n` events. -/
def sequenceNumbers (n : ℕ) : List Int := (List.range n).map fun (i : ℕ) => (i : Int) + 1

/-- The audit log says what the tables say, action by action. -/
structure Logged (s : State) (log : List ExecutionAuditEvent) : Prop where
  /-- The rows are the stored forms of the events. -/
  rows : s.auditEvents = log.map State.eventRow
  /-- The events of an action are numbered from 1. -/
  sequences : ∀ businessActionId,
    ((log.filter fun e => e.auditCorrelationId = businessActionId).map fun e => e.sequence) =
      sequenceNumbers (log.filter fun e => e.auditCorrelationId = businessActionId).length
  /-- They replay to what the tables say. -/
  views : ∀ businessActionId,
    (replay (log.filter fun e => e.auditCorrelationId = businessActionId)).Views s businessActionId

omit [Sha256] in
lemma sequenceNumbers_succ (n : ℕ) :
    sequenceNumbers (n + 1) = sequenceNumbers n ++ [(n : Int) + 1] := by
  simp [sequenceNumbers, List.range_succ]

omit [Sha256] in
/-- The largest of `1 … n`, from 0. -/
lemma foldl_max_sequenceNumbers (n : ℕ) : (sequenceNumbers n).foldl max 0 = n := by
  induction n with
  | zero => rfl
  | succ n ih =>
      rw [sequenceNumbers_succ, List.foldl_append, ih]
      simp only [List.foldl_cons, List.foldl_nil]
      push_cast
      omega

omit [Sha256] in
lemma sequenceNumbers_pairwise (n : ℕ) : (sequenceNumbers n).Pairwise (· ≤ ·) := by
  unfold sequenceNumbers
  rw [List.pairwise_map]
  refine List.pairwise_lt_range.imp fun h => ?_
  omega

namespace Logged

variable {s s' : State} {log : List ExecutionAuditEvent}

/-- The rows of an action are the stored forms of its events. -/
lemma filter_rows (h : Logged s log) (businessActionId : String) :
    s.auditEvents.filter (fun row => decide (row.auditCorrelationId = businessActionId)) =
      (log.filter fun e => e.auditCorrelationId = businessActionId).map State.eventRow := by
  rw [h.rows, List.filter_map]
  rfl

lemma empty : Logged State.empty [] where
  rows := rfl
  sequences := fun _ => rfl
  views := fun _ => ⟨rfl, rfl⟩

/-- The next number of an action is one more than the length of its log. -/
lemma nextSequence_eq (h : Logged s log) (businessActionId : String) :
    s.nextSequence businessActionId =
      ((log.filter fun e => e.auditCorrelationId = businessActionId).length : Int) + 1 := by
  have hseq : ((s.auditEvents.filter fun row => row.auditCorrelationId = businessActionId).map
      AuditEventRow.sequence) =
      sequenceNumbers (log.filter fun e => e.auditCorrelationId = businessActionId).length := by
    rw [h.filter_rows, List.map_map]
    exact h.sequences businessActionId
  rw [State.nextSequence, hseq, foldl_max_sequenceNumbers]

/-- A described step keeps the log complete. -/
lemma append (h : Logged s log) {event : ExecutionAuditEvent}
    (haudit : s'.auditEvents = s.auditEvents ++ [State.eventRow event])
    (hseq : event.sequence = s.nextSequence event.auditCorrelationId)
    (hviews : ∀ businessActionId acc, Replay.Views acc s businessActionId →
      Replay.Views (if event.auditCorrelationId = businessActionId
        then acc.apply event.toExecutionAuditEventFields else acc) s' businessActionId) :
    Logged s' (log ++ [event]) where
  rows := by rw [haudit, h.rows, List.map_append, List.map_singleton]
  sequences := fun businessActionId => by
    rw [List.filter_append]
    by_cases hba : event.auditCorrelationId = businessActionId
    · subst hba
      simp only [List.filter_singleton, decide_true, cond_true, List.map_append,
        List.map_singleton, List.length_append, List.length_singleton, h.sequences,
        sequenceNumbers_succ, hseq, h.nextSequence_eq]
    · simpa [hba] using h.sequences businessActionId
  views := fun businessActionId => by
    have hview := hviews businessActionId _ (h.views businessActionId)
    rw [List.filter_append]
    by_cases hba : event.auditCorrelationId = businessActionId
    · rw [if_pos hba] at hview
      simp only [List.filter_singleton, hba, decide_true, cond_true, replay_append]
      exact hview
    · rw [if_neg hba] at hview
      simpa [hba] using hview

/-- **Reading the log of an action** returns its events. -/
theorem readEvents_eq (h : Logged s log) {businessActionId : String}
    (htok : isToken businessActionId = true) :
    s.readEvents businessActionId =
      .ok (log.filter fun e => e.auditCorrelationId = businessActionId) := by
  have hsorted : ((log.filter fun e => e.auditCorrelationId = businessActionId).map
      State.eventRow).Pairwise fun a b => decide (a.sequence ≤ b.sequence) = true := by
    have hnum := sequenceNumbers_pairwise
      (log.filter fun e => e.auditCorrelationId = businessActionId).length
    rw [← h.sequences businessActionId, List.pairwise_map] at hnum
    rw [List.pairwise_map]
    exact hnum.imp fun hle => decide_eq_true hle
  unfold State.readEvents
  simp only [storeToken, requireToken, htok, require_true, raiseAs_ok, ok_bind, h.filter_rows,
    List.mergeSort_of_pairwise hsorted, List.mapM_map]
  refine (mapM_eq_ok (g := id) fun e he => ?_).trans (by rw [List.map_id])
  have hcorr : e.auditCorrelationId = businessActionId := by
    simpa using (List.mem_filter.mp he).2
  simp [State.eventRow, ExecutionAuditEvent.fromJson_toDict, hcorr, pure, Except.pure]

end Logged

/-- The log of every reachable state is complete. -/
theorem logged_of_reachable {s : State} (hs : system.Reachable s) : ∃ log, Logged s log := by
  have hboth : s.Inv ∧ ∃ log, Logged s log := by
    refine System.Reachable.invariant (I := fun s => s.Inv ∧ ∃ log, Logged s log) ?_ ?_ hs
    · rintro _ rfl
      exact ⟨State.inv_empty, [], .empty⟩
    · rintro s call s' ⟨h, log, hlog⟩ hst
      refine ⟨State.inv_step s call s' h hst, ?_⟩
      obtain rfl | hstep := h.system_step_cases hst
      · exact ⟨log, hlog⟩
      · obtain ⟨event, haudit, hseq, hviews⟩ := hstep.describes h
        exact ⟨_, hlog.append haudit hseq hviews⟩
  exact hboth.2

/-- What completeness of the audit log means in one state. -/
structure AuditComplete (s : State) : Prop where
  /-- The log of a business action is read, its events are numbered `1 … n`, and folding them gives
  the stored selection and the stored reservations with their states. -/
  reads : ∀ businessActionId, isToken businessActionId = true →
    ∃ events, s.readEvents businessActionId = .ok events ∧
      (events.map fun e => e.sequence) = sequenceNumbers events.length ∧
      s.actionSelections.filter (fun row => decide (row.businessActionId = businessActionId)) =
        (replay events).selection.toList ∧
      s.reservations.filter (fun row => decide (row.businessActionId = businessActionId)) =
        (replay events).reservations
  /-- A failed call appends nothing. -/
  failed : ∀ call error, (s.run call).1 = .error error →
    (s.run call).2.auditEvents = s.auditEvents
  /-- A repeated reservation appends nothing. -/
  repeated : ∀ q : State.ReserveRequest,
    (s.reservationAt (q.intent.environment, q.operation, q.mutationActionId)).isSome = true →
      (s.run (.reserveMutation q)).2.auditEvents = s.auditEvents

/-- **The audit log is complete** in every reachable state.
Source: `execution/store.py` `_append_event`, `read_events`, `record_intent`, `reserve_mutation`,
`transition_reservation`; `execution/audit.py` `ExecutionAuditEvent`. -/
theorem audit_log_complete {s : State} (hs : system.Reachable s) : AuditComplete s := by
  have h := State.inv_of_reachable hs
  obtain ⟨log, hlog⟩ := logged_of_reachable hs
  refine ⟨?_, ?_, ?_⟩
  · intro businessActionId htok
    have hview := hlog.views businessActionId
    exact ⟨_, hlog.readEvents_eq htok, hlog.sequences businessActionId, hview.selection,
      hview.reservations⟩
  · intro call error herror
    rw [State.run_of_error herror]
  · intro q hsome
    have hsame := h.run_repeated_reserve hsome
    rw [hsame]

end replay

/-! ## A concrete run -/

section concrete

attribute [local instance] zeroSha256

/-- The log of the demo action is complete once its entry order is dispatched. -/
theorem audit_log_complete_demo : AuditComplete demoStore :=
  audit_log_complete ⟨_, _, rfl, demoRun⟩

end concrete

end MuStrategy.Execution
