import MuStrategy.Execution.Dispatch

/-!
# Transactions statement by statement

`State.transaction` composes the checks and writes of a call into one result. The code runs them
one by one on an open connection: a write changes the tables the later statements of the
transaction see, and an error leaves the earlier writes where they are until `ROLLBACK`.

* `Body` — the statements of a transaction, on working tables that survive an error; `Body.query`
  and `Body.execute` — a statement that reads and one that writes.
* `Connection.transaction` — `BEGIN IMMEDIATE`, the body, then `COMMIT` or `ROLLBACK`.
* `recordIntentBody`, `reserveMutationBody`, `transitionReservationBody` — the three bodies;
  `Body.Refines` — a body returns what a transaction function returns, with the same tables.
* `State.runStatements_eq` — the calls, statement by statement, are the calls of the store.
* `store_atomic` — a call that raises changes no table, however many writes its transaction had
  made; a reservation call that succeeded can be repeated for ever.
-/

namespace MuStrategy.Execution

open Lib

/-! ## Statements and connections -/

/-- The statements of a transaction on the working tables, which survive an error. -/
abbrev Body (α : Type) := ExceptT StoreError (StateM State) α

namespace Body

variable {α β : Type}

/-- A statement that reads the working tables. -/
def query (f : State → Except StoreError α) : Body α := ExceptT.mk fun s => (f s, s)

/-- A statement that writes the working tables, or raises and leaves them as they are. -/
def execute (f : State → Except StoreError State) : Body Unit := ExceptT.mk fun s =>
  match f s with
  | .ok s' => (.ok (), s')
  | .error error => (.error error, s)

/-- A check of the code between two statements. -/
def check (x : Except StoreError α) : Body α := query fun _ => x

end Body

/-- A connection: the committed tables, and the working tables of an open transaction. -/
structure Connection where
  committed : State
  working : Option State

namespace Connection

variable {α : Type}

/-- A new connection to the database. -/
def connect (s : State) : Connection := ⟨s, none⟩

/-- `BEGIN IMMEDIATE`. -/
def beginImmediate (c : Connection) : Connection := { c with working := some c.committed }

/-- `COMMIT`. -/
def commit (c : Connection) : Connection := ⟨c.working.getD c.committed, none⟩

/-- `ROLLBACK`. -/
def rollback (c : Connection) : Connection := { c with working := none }

/-- The statements of a body, on the working tables. -/
def runBody (c : Connection) (body : Body α) : Except StoreError α × Connection :=
  let (result, working) := body.run.run (c.working.getD c.committed)
  (result, { c with working := some working })

/-- Source: `execution/store.py` `SQLiteExecutionStore._transaction`. -/
def transaction (c : Connection) (body : Body α) : Except StoreError α × Connection :=
  match c.beginImmediate.runBody body with
  | (.ok result, c) => (.ok result, c.commit)
  | (.error error, c) => (.error error, c.rollback)

end Connection

section bodies

variable [Sha256]

open State

/-! ## The three bodies -/

/-- The statements that create a selection.
Source: `execution/store.py` `SQLiteExecutionStore.record_intent`. -/
def createSelectionBody (intent : OrderIntent) (sourceScanId : String) (metadata : EventMetadata) :
    Body IntentRevisionPlan := do
  Body.query fun s => s.requireNoOrphanedActionEvidence intent.environment intent.businessActionId
  Body.execute fun s => s.insertOrVerifyIntent intent sourceScanId
  Body.execute fun s => s.insertSelection (firstSelection intent)
  Body.execute fun s =>
    s.appendEvent intent sourceScanId metadata .intentCreated (.obj [("intent", intent.toDict)])
  pure { action := .create, intent := intent }

/-- The statements that supersede a selection.
Source: `execution/store.py` `SQLiteExecutionStore.record_intent`. -/
def supersedeSelectionBody (selection : ActionSelection) (existing intent : OrderIntent)
    (sourceScanId : String) (metadata : EventMetadata) : Body Unit := do
  Body.execute fun s => s.insertOrVerifyIntent intent sourceScanId
  let newVersion := selection.selectionVersion + 1
  Body.check (require (fitsInteger newVersion) .overflow)
  Body.query fun s => require (s.hasIntent intent.intentId) uniquenessConflict
  Body.execute fun s => s.updateSelection
    (fun row => row.key = (intent.environment, intent.businessActionId) &&
      row.selectionVersion = selection.selectionVersion && !row.mutationReserved)
    (selectRevision intent newVersion)
    (.conflict "intent supersession lost the action-selection fence")
  Body.execute fun s => s.appendEvent intent sourceScanId metadata .intentSuperseded
    (supersededPayload existing intent newVersion)

/-- The transaction of `record_intent`, after the argument checks.
Source: `execution/store.py` `SQLiteExecutionStore.record_intent`. -/
def recordIntentBody (intent : OrderIntent) (sourceScanId : String) (metadata : EventMetadata) :
    Body IntentRevisionPlan := do
  let selection ← Body.query fun s =>
    s.loadActionSelection intent.environment intent.businessActionId
  match selection with
  | none => createSelectionBody intent sourceScanId metadata
  | some selection => do
      let found ← Body.query fun s => s.loadIntent selection.selectedIntentId
      let existing ← Body.check (orThrow found (.invariant "selected intent is missing"))
      let plan ← Body.check (raiseAs (fun e => .conflict e.text)
        (classifyIntentRevision (some existing) intent selection.mutationReserved))
      match plan.action with
      | .conflict =>
          Body.check (.error (.conflict "business action already has a mutation reservation"))
      | .reuse => do
          Body.execute fun s => s.reuseSelection existing sourceScanId metadata
          pure plan
      | .supersede => do
          supersedeSelectionBody selection existing intent sourceScanId metadata
          pure plan
      | .create => Body.check (.error (.invariant "unsupported intent revision action"))

/-- The statements that insert a reservation.
Source: `execution/store.py` `SQLiteExecutionStore.reserve_mutation`. -/
def insertFreshReservationBody (intent : OrderIntent) (selection : ActionSelection)
    (reservation : MutationReservation) (sourceScanId : String) (metadata : EventMetadata) :
    Body Unit := do
  Body.query fun s => require
    (!s.reservations.any fun row => row.idempotencyKey = reservation.idempotencyKey)
    (.conflict "idempotency key already maps to different reservation facts")
  Body.query fun s => require (!s.reservations.any fun row => reservation.clientOrderId.isSome &&
      row.clientOrderId = reservation.clientOrderId &&
      row.idempotencyKey ≠ reservation.idempotencyKey)
    (.conflict "client order ID collision maps to a different full idempotency key")
  Body.query fun s => s.requireSlot reservation
  Body.execute fun s => s.insertReservation reservation
  Body.execute fun s => s.updateSelection
    (fun row => row.key = (intent.environment, intent.businessActionId) &&
      row.selectionVersion = selection.selectionVersion &&
      row.selectedIntentId = intent.intentId &&
      row.selectedIntentFingerprint = intent.intentFingerprint)
    (fun row => { row with mutationReserved := true })
    (.conflict "mutation reservation lost the action-selection fence")
  Body.execute fun s => s.appendEvent intent sourceScanId metadata .idempotencyReserved
    (reservedPayload reservation)

/-- The transaction of `reserve_mutation`, after the argument checks.
Source: `execution/store.py` `SQLiteExecutionStore.reserve_mutation`. -/
def reserveMutationBody (intent : OrderIntent) (reservation : MutationReservation)
    (q : ReserveRequest) : Body MutationReservation := do
  let found ← Body.query fun s =>
    s.loadActionSelection intent.environment intent.businessActionId
  let selection ← Body.check (orThrow found
    (.conflict "mutation reservation requires a persisted action selection"))
  Body.check (require (selection.selectedIntentId = intent.intentId &&
      selection.selectedIntentFingerprint = intent.intentFingerprint)
    (.conflict "mutation reservation does not target the selected intent revision"))
  let storedIntent ← Body.query fun s => s.loadIntent intent.intentId
  Body.check (require (storedIntent = some intent)
    (.invariant "selected intent bytes do not match reservation input"))
  let selectedSourceScanId ← Body.query fun s => s.loadIntentSourceScanId intent.intentId
  let existing ← Body.query fun s =>
    s.loadReservation (intent.environment, q.operation, q.mutationActionId)
  match existing with
  | some existing => do
      Body.check (require (existing.facts = reservation.facts)
        (.conflict "mutation action reservation maps to different facts"))
      pure existing
  | none => do
      insertFreshReservationBody intent selection reservation selectedSourceScanId q.metadata
      pure reservation

/-- The transaction of `transition_reservation`, after the argument checks.
Source: `execution/store.py` `SQLiteExecutionStore.transition_reservation`. -/
def transitionReservationBody (q : TransitionRequest) : Body MutationReservation := do
  let found ← Body.query fun s => s.loadReservation q.key
  let reservation ← Body.check (orThrow found (.conflict "reservation does not exist"))
  Body.check (require (reservation.state = q.expectedState)
    (.conflict "reservation state changed before the expected transition"))
  let foundIntent ← Body.query fun s => s.loadIntent reservation.selectedIntentId
  let intent ← Body.check (orThrow foundIntent (.invariant "reservation intent is missing"))
  let selectedSourceScanId ← Body.query fun s =>
    s.loadIntentSourceScanId reservation.selectedIntentId
  Body.execute fun s => s.updateReservation
    (fun row => row.key = q.key && row.state = q.expectedState)
    (fun row => { row with state := q.newState })
    (.conflict "reservation state transition lost its compare-and-swap")
  Body.execute fun s => s.appendEvent intent selectedSourceScanId q.metadata
    .reservationStateChanged (stateChangedPayload q reservation.idempotencyKey)
  pure { reservation with state := q.newState }

/-! ## Calls on a connection -/

namespace Connection

/-- Argument checks that raise before the transaction begins. -/
def checked {α β : Type} (c : Connection) (arguments : Except StoreError α)
    (k : α → Except StoreError β × Connection) : Except StoreError β × Connection :=
  match arguments with
  | .ok a => k a
  | .error error => (.error error, c)

/-- A client call on its own connection.
Source: `execution/store.py` `record_intent`, `reserve_mutation`, `transition_reservation`. -/
def call (c : Connection) : Call → Except StoreError Outcome × Connection
  | .recordIntent intent sourceScanId metadata =>
      c.checked (do
        let intent ← canonicalIntent intent
        requireEventMetadata sourceScanId metadata
        pure intent) fun intent =>
      c.transaction do
        let plan ← recordIntentBody intent sourceScanId metadata
        pure (.plan plan)
  | .reserveMutation q =>
      c.checked (do
        let intent ← canonicalIntent q.intent
        let reservation ← requestedReservation intent q
        pure (intent, reservation)) fun (intent, reservation) =>
      c.transaction do
        let reservation ← reserveMutationBody intent reservation q
        pure (.reservation reservation)
  | .transitionReservation q =>
      c.checked (do
        storeToken q.mutationActionId "mutation_action_id"
        requireEventMetadata "persisted-reservation" q.metadata
        require (isReservationTransitionAllowed q.expectedState q.newState)
          (.conflict ("illegal reservation transition: " ++ PyEnum.value q.expectedState ++
            " -> " ++ PyEnum.value q.newState))) fun _ =>
      c.transaction do
        let reservation ← transitionReservationBody q
        pure (.reservation reservation)

end Connection

/-- A call, statement by statement: its outcome and the tables it leaves. -/
def State.runStatements (s : State) (call : Call) : Except StoreError Outcome × State :=
  let (outcome, c) := (Connection.connect s).call call
  (outcome, c.committed)

/-! ## A body refines its transaction function -/

namespace Body

omit [Sha256]

variable {α β γ : Type} {out : α → State → γ}

/-- The body raises what the function raises, and otherwise returns with the tables the function
returns. -/
def Refines (body : Body α) (f : State → Except StoreError γ) (out : α → State → γ) : Prop :=
  ∀ s, match body.run.run s with
    | (.ok a, s') => f s = .ok (out a s')
    | (.error error, _) => f s = .error error

lemma refines_pure (a : α) : (pure a : Body α).Refines (fun s => .ok (out a s)) out := fun _ => rfl

lemma refines_query {f : State → Except StoreError β} {k : β → Body α}
    {g : β → State → Except StoreError γ} (h : ∀ b, (k b).Refines (g b) out) :
    (query f >>= k).Refines (fun s => f s >>= fun b => g b s) out := by
  intro s
  have hrun : (query f >>= k).run.run s =
      match f s with
      | .ok b => (k b).run.run s
      | .error error => (.error error, s) := by
    change (ExceptT.bindCont k (f s)).run s = _
    cases f s <;> rfl
  rw [hrun]
  cases hf : f s with
  | ok b =>
      simp only [hf, ok_bind]
      exact h b s
  | error error => simp only [hf, error_bind]

lemma refines_check {x : Except StoreError β} {k : β → Body α}
    {g : β → State → Except StoreError γ} (h : ∀ b, (k b).Refines (g b) out) :
    (check x >>= k).Refines (fun s => x >>= fun b => g b s) out :=
  refines_query h

/-- A part of a body, followed by the rest. -/
lemma Refines.bind {δ : Type} {body : Body β} {f : State → Except StoreError δ}
    {out' : β → State → δ} {k : β → Body α} {g : δ → Except StoreError γ}
    (h : body.Refines f out') (hk : ∀ b, (k b).Refines (fun s => g (out' b s)) out) :
    (body >>= k).Refines (fun s => f s >>= g) out := by
  intro s
  have hs := h s
  have hrun : (body >>= k).run.run s =
      match body.run.run s with
      | (.ok b, s') => (k b).run.run s'
      | (.error error, s') => (.error error, s') := by
    change (ExceptT.bindCont k (body.run.run s).1).run (body.run.run s).2 = _
    rcases body.run.run s with ⟨b | b, s'⟩ <;> rfl
  rw [hrun]
  rcases hb : body.run.run s with ⟨error | b, s'⟩
  · rw [hb] at hs
    simp only [hs, error_bind]
  · rw [hb] at hs
    simp only [hs, ok_bind]
    exact hk b s'

/-- Only the result of a body is changed. -/
lemma Refines.returning {body : Body α} {f : State → Except StoreError (α × State)}
    (h : body.Refines f Prod.mk) (r : α → β) :
    (do let a ← body; pure (r a) : Body β).Refines
      (fun s => do
        let (a, s) ← f s
        pure (r a, s)) Prod.mk :=
  h.bind (g := fun p => .ok (r p.1, p.2)) fun a => refines_pure (r a)

lemma refines_execute (f : State → Except StoreError State) :
    (execute f).Refines f fun _ s => s := by
  intro s
  have hrun : (execute f).run.run s =
      match f s with
      | .ok s' => (.ok (), s')
      | .error error => (.error error, s) := rfl
  rw [hrun]
  cases f s <;> rfl

end Body

lemma createSelectionBody_refines (intent : OrderIntent) (sourceScanId : String)
    (metadata : EventMetadata) :
    (createSelectionBody intent sourceScanId metadata).Refines
      (fun s => s.createSelection intent sourceScanId metadata) Prod.mk :=
  Body.refines_query fun _ => (Body.refines_execute _).bind fun _ =>
    (Body.refines_execute _).bind fun _ => (Body.refines_execute _).bind fun _ => Body.refines_pure _

lemma supersedeSelectionBody_refines (selection : ActionSelection) (existing intent : OrderIntent)
    (sourceScanId : String) (metadata : EventMetadata) :
    (supersedeSelectionBody selection existing intent sourceScanId metadata).Refines
      (fun s => s.supersedeSelection selection existing intent sourceScanId metadata)
      fun _ s => s :=
  (Body.refines_execute _).bind fun _ => Body.refines_check fun _ => Body.refines_query fun _ =>
    (Body.refines_execute _).bind fun _ => Body.refines_execute _

/-- The body of `record_intent`, after the argument checks. -/
lemma recordIntentBody_refines {intent : OrderIntent} {sourceScanId : String}
    {metadata : EventMetadata} (hmetadata : requireEventMetadata sourceScanId metadata = .ok ()) :
    (recordIntentBody intent sourceScanId metadata).Refines
      (fun s => s.recordIntent intent sourceScanId metadata) Prod.mk := by
  simp only [recordIntent, canonicalIntent_eq, hmetadata, ok_bind]
  refine Body.refines_query fun selection => ?_
  cases selection with
  | none => exact createSelectionBody_refines intent sourceScanId metadata
  | some selection =>
      refine Body.refines_query fun found => Body.refines_check fun existing =>
        Body.refines_check fun plan => ?_
      cases haction : plan.action with
      | conflict => exact fun _ => rfl
      | create => exact fun _ => rfl
      | reuse => exact (Body.refines_execute _).bind fun _ => Body.refines_pure _
      | supersede =>
          exact (supersedeSelectionBody_refines selection existing intent sourceScanId
            metadata).bind fun _ => Body.refines_pure _

lemma insertFreshReservationBody_refines (intent : OrderIntent) (selection : ActionSelection)
    (reservation : MutationReservation) (sourceScanId : String) (metadata : EventMetadata) :
    (insertFreshReservationBody intent selection reservation sourceScanId metadata).Refines
      (fun s => s.insertFreshReservation intent selection reservation sourceScanId metadata)
      fun _ s => s :=
  Body.refines_query fun _ => Body.refines_query fun _ => Body.refines_query fun _ =>
    (Body.refines_execute _).bind fun _ => (Body.refines_execute _).bind fun _ =>
      Body.refines_execute _

/-- The body of `reserve_mutation`, after the argument checks. -/
lemma reserveMutationBody_refines {q : ReserveRequest} {reservation : MutationReservation}
    (harguments : requestedReservation q.intent q = .ok reservation) :
    (reserveMutationBody q.intent reservation q).Refines (fun s => s.reserveMutation q) Prod.mk := by
  simp only [reserveMutation, canonicalIntent_eq, harguments, ok_bind]
  refine Body.refines_query fun found => Body.refines_check fun selection =>
    Body.refines_check fun _ => Body.refines_query fun stored => Body.refines_check fun _ =>
      Body.refines_query fun sourceScanId => Body.refines_query fun existing => ?_
  cases existing with
  | some existing => exact Body.refines_check fun _ => Body.refines_pure _
  | none =>
      exact (insertFreshReservationBody_refines q.intent selection reservation sourceScanId
        q.metadata).bind fun _ => Body.refines_pure _

/-- The body of `transition_reservation`, after the argument checks. -/
lemma transitionReservationBody_refines {q : TransitionRequest}
    (htoken : storeToken q.mutationActionId "mutation_action_id" = .ok ())
    (hmetadata : requireEventMetadata "persisted-reservation" q.metadata = .ok ())
    (hallowed : isReservationTransitionAllowed q.expectedState q.newState = true) :
    (transitionReservationBody q).Refines (fun s => s.transitionReservation q) Prod.mk := by
  simp only [transitionReservation, htoken, hmetadata, hallowed, require_true, ok_bind]
  exact Body.refines_query fun _ => Body.refines_check fun _ => Body.refines_check fun _ =>
    Body.refines_query fun _ => Body.refines_check fun _ => Body.refines_query fun _ =>
      (Body.refines_execute _).bind fun _ => (Body.refines_execute _).bind fun _ =>
        Body.refines_pure _

/-! ## The calls, statement by statement -/

omit [Sha256] in
/-- A transaction commits what its body returns, and restores the tables when it raises. -/
theorem Connection.transaction_eq {α : Type} {body : Body α}
    {f : State → Except StoreError (α × State)} (h : body.Refines f Prod.mk) (s : State) :
    (((connect s).transaction body).1, ((connect s).transaction body).2.committed) =
      match f s with
      | .ok (a, s') => (.ok a, s')
      | .error error => (.error error, s) := by
  have hs := h s
  have hrun : (connect s).beginImmediate.runBody body =
      ((body.run.run s).1, ⟨s, some (body.run.run s).2⟩) := rfl
  unfold Connection.transaction
  rw [hrun]
  rcases hb : body.run.run s with ⟨error | a, s'⟩
  · rw [hb] at hs
    rw [hs]
    rfl
  · rw [hb] at hs
    rw [hs]
    rfl

/-- **The calls, statement by statement, are the calls of the store.** -/
theorem State.runStatements_eq (s : State) (call : Call) : s.runStatements call = s.run call := by
  cases call with
  | recordIntent intent sourceScanId metadata =>
      cases hmetadata : requireEventMetadata sourceScanId metadata with
      | error error =>
          simp [runStatements, Connection.call, Connection.checked, Connection.connect, run,
            State.transaction, recordIntent, hmetadata]
      | ok u =>
          simp only [runStatements, Connection.call, Connection.checked, canonicalIntent_eq,
            hmetadata, ok_bind]
          refine (Connection.transaction_eq
            ((recordIntentBody_refines hmetadata).returning Outcome.plan) s).trans ?_
          simp only [run, State.transaction]
          cases s.recordIntent intent sourceScanId metadata <;> rfl
  | reserveMutation q =>
      cases harguments : requestedReservation q.intent q with
      | error error =>
          simp [runStatements, Connection.call, Connection.checked, Connection.connect, run,
            State.transaction, reserveMutation, harguments]
      | ok reservation =>
          simp only [runStatements, Connection.call, Connection.checked, canonicalIntent_eq,
            harguments, ok_bind]
          refine (Connection.transaction_eq
            ((reserveMutationBody_refines harguments).returning Outcome.reservation) s).trans ?_
          simp only [run, State.transaction]
          cases s.reserveMutation q <;> rfl
  | transitionReservation q =>
      cases htoken : storeToken q.mutationActionId "mutation_action_id" with
      | error error =>
          simp [runStatements, Connection.call, Connection.checked, Connection.connect, run,
            State.transaction, transitionReservation, htoken]
      | ok u =>
          cases hmetadata : requireEventMetadata "persisted-reservation" q.metadata with
          | error error =>
              simp [runStatements, Connection.call, Connection.checked, Connection.connect, run,
                State.transaction, transitionReservation, htoken, hmetadata]
          | ok u =>
              by_cases hallowed : isReservationTransitionAllowed q.expectedState q.newState = true
              · simp only [runStatements, Connection.call, Connection.checked, htoken, hmetadata,
                  hallowed, require_true, ok_bind]
                refine (Connection.transaction_eq
                  ((transitionReservationBody_refines htoken hmetadata hallowed).returning
                    Outcome.reservation) s).trans ?_
                simp only [run, State.transaction]
                cases s.transitionReservation q <;> rfl
              · simp [runStatements, Connection.call, Connection.checked, Connection.connect, run,
                  State.transaction, transitionReservation, htoken, hmetadata, hallowed, require]

/-! ## Repeating a reservation -/

namespace State

variable {s s' : State}

/-- A step keeps the stored intents. -/
lemma Step.stores (hstep : s.Step s') {intent : OrderIntent} (hs : s.Stores intent) :
    s'.Stores intent := by
  cases hstep with
  | create hintents => exact hs.mono hintents.subset
  | reuse => exact hs
  | supersede hintents => exact hs.mono hintents.subset
  | reserve => exact hs
  | transition => exact hs

/-- What a reservation call that returned has found or made. -/
theorem Inv.reserveMutation_reserved (h : Inv s) {q : ReserveRequest} {r : MutationReservation}
    (hs : s.reserveMutation q = .ok (r, s')) :
    s'.Stores q.intent ∧ r ∈ s'.reservations ∧
      ∃ r₀, requestedReservation q.intent q = .ok r₀ ∧ r.facts = r₀.facts := by
  simp only [reserveMutation, canonicalIntent_eq, ok_bind, h.loadReservation_eq, bind_eq_ok,
    require_eq_ok, exists_const, decide_eq_true_eq] at hs
  obtain ⟨r₀, hr₀, _, -, selection, -, -, stored, hload, rfl, sourceScanId, -, hs⟩ := hs
  obtain ⟨hstores, -⟩ := h.stores_of_loadIntent hload
  split at hs
  · rename_i existing hexisting
    simp only [bind_eq_ok, require_eq_ok, exists_const, pure_eq_ok_iff, Prod.mk.injEq,
      decide_eq_true_eq] at hs
    obtain ⟨hfacts, rfl, rfl⟩ := hs
    exact ⟨hstores, Table.mem_of_lookup hexisting, r₀, hr₀, hfacts⟩
  · simp only [insertFreshReservation, insertReservation, updateSelection, bind_eq_ok,
      require_eq_ok, exists_const, orThrow_eq_ok, pure_eq_ok_iff, Table.insertUnique_eq_some_iff,
      Prod.mk.injEq] at hs
    obtain ⟨_, ⟨-, -, _, -, _, ⟨-, -, -, -, _, ⟨-, rfl⟩, rfl⟩, _, ⟨-, rfl⟩, happ⟩, rfl, rfl⟩ := hs
    obtain ⟨event, -, rfl⟩ := appendEvent_eq_ok happ
    exact ⟨hstores, List.mem_append_right s.reservations (List.mem_singleton_self _), _, hr₀, rfl⟩

/-- Later states keep what a reservation call has found or made. -/
lemma reserved_of_run (h : Inv s) {tr : List (Call × State)} (hrun : system.Run s tr s')
    {intent : OrderIntent} (hstores : s.Stores intent) : s'.Stores intent := by
  refine (hrun.invariant (I := fun t => Inv t ∧ t.Stores intent) ?_ ⟨h, hstores⟩).2
  rintro t call u ⟨ht, hstores⟩ hst
  refine ⟨inv_step t call u ht hst, ?_⟩
  obtain rfl | hstep := ht.system_step_cases hst
  · exact hstores
  · exact hstep.stores hstores

/-- A reservation call finds its reservation. -/
theorem Inv.reserveMutation_again (h : Inv s) {q : ReserveRequest} {r r₀ : MutationReservation}
    (hstores : s.Stores q.intent) (hr : r ∈ s.reservations)
    (hr₀ : requestedReservation q.intent q = .ok r₀) (hfacts : r.facts = r₀.facts) :
    s.reserveMutation q = .ok (r, s) := by
  obtain ⟨hbinds₀, -, hkey₀⟩ := requestedReservation_binds hr₀
  obtain ⟨intent, selection, hselection, hstores', hselects, -, hbinds⟩ := h.reservations_bound r hr
  -- the reservation's intent is the requested one
  have hid : r.selectedIntentId = r₀.selectedIntentId := eq_of_facts hfacts fun _ => rfl
  obtain rfl : intent = q.intent := h.eq_of_stores hstores' hstores
    (hbinds.selectedIntentId.symm.trans (hid.trans hbinds₀.selectedIntentId))
  have hl : Table.lookup ActionSelection.key s.actionSelections
      (q.intent.environment, q.intent.businessActionId) = some selection :=
    (Table.lookup_eq_some_iff h.selections_unique).mpr ⟨hselection, hselects.key⟩
  have hkey : r.key = r₀.key := eq_of_facts hfacts fun _ => rfl
  have hfound : Table.lookup MutationReservation.key s.reservations
      (q.intent.environment, q.operation, q.mutationActionId) = some r :=
    (Table.lookup_eq_some_iff h.reservations_unique).mpr ⟨hr, hkey.trans hkey₀⟩
  obtain ⟨sourceScanId, hscan⟩ := h.loadIntentSourceScanId_of_stores hstores
  unfold reserveMutation
  simp only [canonicalIntent_eq, ok_bind, hr₀, h.loadActionSelection_eq, hl, orThrow_some,
    hselects.selectedIntentId, hselects.selectedIntentFingerprint, decide_true, Bool.and_self,
    require_true, h.loadIntent_of_stores hstores, hscan, h.loadReservation_eq, hfound, hfacts]
  rfl

/-- The metadata of a call does not change what it asks for. -/
lemma requestedReservation_metadata {intent : OrderIntent} {q : ReserveRequest}
    {r : MutationReservation} (h : requestedReservation intent q = .ok r)
    {metadata : EventMetadata}
    (hmetadata : requireEventMetadata intent.sourceObservationId metadata = .ok ()) :
    requestedReservation intent { q with metadata := metadata } = .ok r := by
  simp only [requestedReservation, bind_eq_ok] at h ⊢
  obtain ⟨u, htoken, v, hlineage, _, -, hrest⟩ := h
  exact ⟨u, htoken, v, hlineage, (), hmetadata, hrest⟩

/-- What atomicity of the store means in one of its states. -/
structure Atomic (s : State) : Prop where
  /-- A call that raises leaves the four tables as they were. -/
  raising_keeps : ∀ call error, (s.runStatements call).1 = .error error →
    (s.runStatements call).2 = s
  /-- A reservation call that succeeded, made again with other metadata in any later state,
  returns the stored reservation in its current state and changes no table. -/
  reserving_again : ∀ q r, (s.runStatements (.reserveMutation q)).1 = .ok (.reservation r) →
    ∀ tr t, system.Run (s.runStatements (.reserveMutation q)).2 tr t →
      ∀ metadata, requireEventMetadata q.intent.sourceObservationId metadata = .ok () →
        ∃ r' ∈ t.reservations, r'.facts = r.facts ∧
          t.runStatements (.reserveMutation { q with metadata := metadata }) =
            (.ok (.reservation r'), t)

end State

open State in
/-- **Atomicity and idempotent reservation**, in every reachable state of the store.
Source: `execution/store.py` `_transaction`, `record_intent`, `reserve_mutation`,
`transition_reservation`. -/
theorem store_atomic {s : State} (hs : system.Reachable s) : s.Atomic := by
  have h := inv_of_reachable hs
  refine ⟨fun call error herror => ?_, fun q r hr tr t hrun metadata hmetadata => ?_⟩
  · rw [runStatements_eq] at herror ⊢
    exact run_of_error herror
  · rw [runStatements_eq] at hr hrun
    have hinv : Inv (s.run (.reserveMutation q)).2 := inv_of_reachable (hs.step (a := .reserveMutation q) rfl)
    cases hreserve : s.reserveMutation q with
    | error error => simp [run, State.transaction, hreserve] at hr
    | ok result =>
        obtain ⟨r₁, s₁⟩ := result
        have hrun₁ : s.run (.reserveMutation q) = (.ok (.reservation r₁), s₁) := by
          simp only [run, State.transaction, hreserve]
          rfl
        rw [hrun₁] at hr hrun hinv
        obtain rfl : r₁ = r := by simpa using hr
        obtain ⟨hstores, hmem, r₀, hr₀, hfacts⟩ := h.reserveMutation_reserved hreserve
        have ht : Inv t := hrun.invariant inv_step hinv
        obtain ⟨r', hr', hfacts', -⟩ := hrun.rel Keeps.refl Keeps.trans inv_step keeps_step hinv r₁ hmem
        refine ⟨r', hr', hfacts', ?_⟩
        have hagain := ht.reserveMutation_again (q := { q with metadata := metadata })
          (reserved_of_run hinv hrun hstores) hr' (requestedReservation_metadata hr₀ hmetadata)
          (hfacts'.trans hfacts)
        rw [runStatements_eq]
        simp only [run, State.transaction, hagain]
        rfl

end bodies

/-! ## A concrete run -/

section concrete

attribute [local instance] zeroSha256

/-- The store after the demo run is atomic. -/
theorem store_atomic_demo : demoStore.Atomic := store_atomic ⟨_, _, rfl, demoRun⟩

end concrete

end MuStrategy.Execution
