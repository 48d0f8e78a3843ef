import MuStrategy.ManualPositions.Validity

/-!
# Clients of the ledger

A request is served in two parts: checks that look at the file as it is, and a transaction some time
later. Between them other clients can commit.

* `Store.start`, `Prepared.run` — the two parts; `handle_eq` — together they are the request.
* `clients` — any number of clients, in any order.
* `Store.Appends`, `run_appends` — what was recorded stays.
* `Store.recorded` — what a request identity stands for; `retry_idempotent` — a request that was
  committed is answered the same for ever, and its identity accepts no other form.
-/

namespace MuStrategy.ManualPositions

open Lib

section clients

variable [DecimalDigits] [LedgerLibrary]

/-! ## The two parts of a request -/

/-- A request that passed the checks made before its transaction. -/
inductive Prepared where
  | fill (payload : Payload) (submission : Submission) (nowMs : ℤ)
  | state (payload : Payload) (request : RequestIdentity) (record : ℕ → StateRecord)
  | management (payload : Payload) (request : RequestIdentity) (values : Parameters) (nowMs : ℤ)

/-- How a request starts. -/
inductive Start where
  /-- It ends before its transaction. -/
  | answered (result : Except LedgerError String)
  | transaction (p : Prepared)

/-- The part of `save` before its transaction. -/
def startFill (s : Store) (payload : Payload) (nowMs : ℤ) (entries : EntryLookup) : Start :=
  match requestIdentity payload with
  | .error e => .answered (.error e)
  | .ok request =>
      match savedFill s request with
      | .error e => .answered (.error e)
      | .ok (some previous) => .answered (.ok previous)
      | .ok none =>
          match checkFill s request payload nowMs entries with
          | .error e => .answered (.error e)
          | .ok submission => .transaction (.fill payload submission nowMs)

/-- The checks of `save_state` before its transaction. -/
def prepareState (s : Store) (payload : Payload) (nowMs : ℤ) : Except LedgerError Prepared := do
  let request ← requestIdentity payload
  require s.exists? (.value "持仓记录不存在。")
  let record ← stateOf payload nowMs
  require (payload.get "confirmed" = some "yes")
    (.value "请确认这些信息对应当前已记录的持仓；不知道的字段请留空。")
  pure (.state payload request record)

/-- The checks of `save_management` before its transaction. -/
def prepareManagement (s : Store) (payload : Payload) (nowMs : ℤ) : Except LedgerError Prepared := do
  let request ← requestIdentity payload
  require s.exists? (.value "持仓记录不存在。")
  require (payload.get "confirmed" = some "yes")
    (.value "请确认本次选择的规则配置、已知参数与成交阶段归属。")
  let values ← parameters payload
  pure (.management payload request values nowMs)

/-- A request whose checks raise is answered. -/
def Start.ofChecks : Except LedgerError Prepared → Start
  | .error e => .answered (.error e)
  | .ok p => .transaction p

/-- The part of a request before its transaction. -/
def Store.start (s : Store) (r : Request) : Start :=
  match r.method with
  | .save => startFill s r.payload r.nowMs r.entries
  | .saveState => .ofChecks (prepareState s r.payload r.nowMs)
  | .saveManagement => .ofChecks (prepareManagement s r.payload r.nowMs)

/-- The transaction of a request. -/
def Prepared.run (s : Store) : Prepared → Store × Except LedgerError String
  | .fill payload submission nowMs => s.connected.after (commitFill s.tables payload submission nowMs)
  | .state payload request record => s.after (do
      let t ← orThrow s.tables .operational
      commitState t request payload record)
  | .management payload request values nowMs => s.after (do
      let t ← orThrow s.tables .operational
      commitManagement t request payload values nowMs)

/-- A request that starts on the store `s` and whose transaction finds the store `s'`. -/
def Store.serve (s s' : Store) (r : Request) : Store × Except LedgerError String :=
  match s.start r with
  | .answered result => (s', result)
  | .transaction p => p.run s'

/-- **The two parts are the request**, when nothing happens between them. -/
theorem handle_eq (s : Store) (r : Request) : s.handle r = s.serve s r := by
  unfold Store.handle Store.serve Store.start
  cases r.method with
  | save =>
      simp only [save, startFill]
      cases requestIdentity r.payload with
      | error e => rfl
      | ok request =>
          simp only [saveIdentified]
          cases savedFill s request with
          | error e => rfl
          | ok previous =>
              cases previous with
              | some previous => rfl
              | none => cases checkFill s request r.payload r.nowMs r.entries <;> rfl
  | saveState =>
      simp only [saveState, confirmState, prepareState]
      cases requestIdentity r.payload with
      | error e => rfl
      | ok request =>
          simp only [ok_bind]
          cases require s.exists? (.value "持仓记录不存在。" : LedgerError) with
          | error e => rfl
          | ok u =>
              simp only [ok_bind]
              cases stateOf r.payload r.nowMs with
              | error e => rfl
              | ok record =>
                  simp only [ok_bind]
                  cases require (r.payload.get "confirmed" = some "yes")
                    (.value "请确认这些信息对应当前已记录的持仓；不知道的字段请留空。" : LedgerError) <;> rfl
  | saveManagement =>
      simp only [saveManagement, confirmManagement, prepareManagement]
      cases requestIdentity r.payload with
      | error e => rfl
      | ok request =>
          simp only [ok_bind]
          cases require s.exists? (.value "持仓记录不存在。" : LedgerError) with
          | error e => rfl
          | ok u =>
              simp only [ok_bind]
              cases require (r.payload.get "confirmed" = some "yes")
                (.value "请确认本次选择的规则配置、已知参数与成交阶段归属。" : LedgerError) with
              | error e => rfl
              | ok u =>
                  simp only [ok_bind]
                  cases parameters r.payload <;> rfl

/-! ## The clients -/

/-- The file of the ledger and the requests whose transaction is still to come, by client. -/
structure World (C : Type) where
  store : Store
  pending : C → Option (Request × Prepared)

/-- What can happen next. -/
inductive Act (C : Type) where
  /-- A client that waits for nothing sends a request. -/
  | start (c : C) (r : Request)
  /-- The transaction of a client takes place. -/
  | commit (c : C)
  /-- A client ends before its transaction. -/
  | abandon (c : C)

variable {C : Type} [DecidableEq C]

namespace World

/-- Before the first request. -/
def initial : World C := ⟨.absent, fun _ => none⟩

/-- A client sends a request. -/
def send (w : World C) (c : C) (r : Request) : World C :=
  match w.pending c, w.store.start r with
  | none, .transaction p => ⟨w.store, Function.update w.pending c (some (r, p))⟩
  | _, _ => w

/-- The transaction of a client. -/
def commit (w : World C) (c : C) : World C :=
  match w.pending c with
  | some (_, p) => ⟨(p.run w.store).1, Function.update w.pending c none⟩
  | none => w

/-- One thing that happens. -/
def step (w : World C) : Act C → World C
  | .start c r => w.send c r
  | .commit c => w.commit c
  | .abandon c => ⟨w.store, Function.update w.pending c none⟩

end World

/-- The clients of one ledger, in any order. -/
def clients (C : Type) [DecidableEq C] : System (World C) (Act C) := System.ofFn World.initial World.step

/-- Every transaction to come belongs to a request that passed its checks. -/
def World.Checked (w : World C) : Prop :=
  ∀ c r p, w.pending c = some (r, p) → ∃ s : Store, s.start r = .transaction p

lemma World.Checked.step {w : World C} (h : w.Checked) (act : Act C) : (w.step act).Checked := by
  have hclear : ∀ c' c r p, Function.update w.pending c' none c = some (r, p) → w.pending c = some (r, p) := by
    intro c' c r p hc
    by_cases hsame : c = c'
    · rw [hsame, Function.update_self] at hc
      cases hc
    · rwa [Function.update_of_ne hsame] at hc
  cases act with
  | start c' r' =>
      change (w.send c' r').Checked
      unfold World.send
      split
      · rename_i hnone hstart
        intro c r p hc
        by_cases hsame : c = c'
        · simp only [hsame, Function.update_self] at hc
          cases hc
          exact ⟨w.store, hstart⟩
        · simp only [Function.update_of_ne hsame] at hc
          exact h c r p hc
      · exact h
  | commit c' =>
      change (w.commit c').Checked
      unfold World.commit
      split
      · exact fun c r p hc => h c r p (hclear c' c r p hc)
      · exact h
  | abandon c' => exact fun c r p hc => h c r p (hclear c' c r p hc)

lemma reachable_checked {w : World C} (h : (clients C).Reachable w) : w.Checked := by
  refine h.invariant (fun s hs => ?_) fun s act t hs hstep => ?_
  · obtain rfl : s = World.initial := hs
    rintro c r p hc
    cases hc
  · obtain rfl : t = s.step act := hstep
    exact hs.step act

/-- What the store went through in one step: nothing, or the transaction of a client. -/
lemma World.store_step (w : World C) (act : Act C) : (w.step act).store = w.store ∨
    ∃ c r p, act = .commit c ∧ w.pending c = some (r, p) ∧ (w.step act).store = (p.run w.store).1 := by
  cases act with
  | start c r =>
      refine .inl ?_
      change (w.send c r).store = w.store
      unfold World.send
      split <;> rfl
  | abandon c => exact .inl rfl
  | commit c =>
      cases hpending : w.pending c with
      | none =>
          refine .inl ?_
          change (w.commit c).store = _
          rw [World.commit, hpending]
      | some entry =>
          obtain ⟨r, p⟩ := entry
          refine .inr ⟨c, r, p, rfl, hpending, ?_⟩
          change (w.commit c).store = _
          rw [World.commit, hpending]

/-! ## What a transaction does -/

/-- What was committed; nothing at first. -/
def Store.content (s : Store) : Tables := s.tables.getD .empty

/-- The requests a method recorded. -/
def Tables.requests (t : Tables) : Method → List (String × HexDigest × String)
  | .save => t.fillRevisions.map FillRevision.request
  | .saveState => t.states.map Revision.request
  | .saveManagement => t.managements.map Revision.request

namespace Prepared

/-- The method of a transaction. -/
def method : Prepared → Method
  | .fill .. => .save
  | .state .. => .saveState
  | .management .. => .saveManagement

/-- The identity of a transaction. -/
def request : Prepared → RequestIdentity
  | .fill _ submission _ => submission.request
  | .state _ request _ => request
  | .management _ request _ _ => request

/-- The transaction adds a record. -/
def Adds (p : Prepared) (t t' : Tables) : Prop :=
  match p with
  | .fill payload submission nowMs => addFill t payload submission nowMs = .ok t'
  | .state payload request record => addState t request payload record = .ok t'
  | .management payload request values nowMs => addManagement t request payload values nowMs = .ok t'

/-- What a transaction does to the store, and its answer. -/
inductive Effect (p : Prepared) (s : Store) : Store × Except LedgerError String → Prop
  /-- It raises and records nothing. -/
  | rejected (e : LedgerError) (s' : Store) : s'.content = s.content → (s.exists? = true → s' = s) →
      Effect p s (s', .error e)
  /-- It was recorded before. -/
  | repeated (id : String) : savedRequest (s.content.requests p.method) p.request = .ok (some id) →
      Effect p s (s, .ok id)
  | added (t : Tables) : savedRequest (s.content.requests p.method) p.request = .ok none → p.Adds s.content t →
      Effect p s (.file (some t), .ok p.request.positionId)

end Prepared

omit [DecimalDigits] [LedgerLibrary] in
lemma savedRequest_eq_ok {rows : List (String × HexDigest × String)} {request : RequestIdentity} {found : Option String} :
    savedRequest rows request = .ok found ↔
      rows.lookup request.requestId = found.map fun positionId => (request.digest, positionId) := by
  unfold savedRequest
  cases hlookup : rows.lookup request.requestId with
  | none => cases found <;> simp
  | some entry =>
      obtain ⟨hash, positionId⟩ := entry
      simp only [bind_eq_ok, require_eq_ok, decide_eq_true_eq, exists_const, pure_eq_ok_iff]
      cases found with
      | none => simp
      | some id => simp

omit [DecimalDigits] [LedgerLibrary] in
/-- A request is found in committed tables only. -/
lemma stored_of_saved {s : Store} {method : Method} {request : RequestIdentity} {id : String}
    (h : savedRequest (s.content.requests method) request = .ok (some id)) : Store.file (some s.content) = s := by
  cases s with
  | absent => cases method <;> cases h
  | file tables =>
      cases tables with
      | none => cases method <;> cases h
      | some t => rfl

/-- A transaction that looks its request up, and then adds a record. -/
lemma after_effect {p : Prepared} {s opened : Store} (hcontent : opened.content = s.content)
    (hopened : s.exists? = true → opened = s) {add : Except LedgerError Tables}
    (hadd : ∀ t, add = .ok t → p.Adds s.content t) :
    p.Effect s (opened.after (savedRequest (s.content.requests p.method) p.request >>= fun previous =>
      match previous with
      | some positionId => pure (positionId, s.content)
      | none => do
          let t ← add
          pure (p.request.positionId, t))) := by
  cases hsaved : savedRequest (s.content.requests p.method) p.request with
  | error e => exact .rejected e opened hcontent hopened
  | ok previous =>
      rw [ok_bind]
      cases previous with
      | some id =>
          change p.Effect s (.file (some s.content), .ok id)
          rw [stored_of_saved hsaved]
          exact .repeated id hsaved
      | none =>
          cases hadded : add with
          | error e => exact .rejected e opened hcontent hopened
          | ok t => exact .added t hsaved (hadd t hadded)

/-- **A transaction is rejected, repeated, or adds its record.** -/
theorem run_effect (p : Prepared) (s : Store) : p.Effect s (p.run s) := by
  cases p with
  | fill payload submission nowMs =>
      have hcontent : s.connected.content = s.content := by cases s <;> rfl
      refine after_effect hcontent (fun hexists => ?_) fun t h => h
      · cases s with
        | absent => cases hexists
        | file tables => rfl
  | state payload request record =>
      cases htables : s.tables with
      | none =>
          rw [Prepared.run, htables]
          exact .rejected _ s rfl fun _ => rfl
      | some t =>
          have hcontent : s.content = t := by rw [Store.content, htables]; rfl
          rw [Prepared.run, htables, orThrow_some, ok_bind, ← hcontent]
          exact after_effect rfl (fun _ => rfl) fun t h => h
  | management payload request values nowMs =>
      cases htables : s.tables with
      | none =>
          rw [Prepared.run, htables]
          exact .rejected _ s rfl fun _ => rfl
      | some t =>
          have hcontent : s.content = t := by rw [Store.content, htables]; rfl
          rw [Prepared.run, htables, orThrow_some, ok_bind, ← hcontent]
          exact after_effect rfl (fun _ => rfl) fun t h => h

/-! ## What was recorded stays -/

/-- Every table of `t` is a beginning of that of `t'`. -/
structure Tables.Appends (t t' : Tables) : Prop where
  fills : t.fillRevisions <+: t'.fillRevisions
  states : t.states <+: t'.states
  managements : t.managements <+: t'.managements

omit [DecimalDigits] [LedgerLibrary] in
lemma Tables.Appends.refl (t : Tables) : t.Appends t := ⟨List.prefix_rfl, List.prefix_rfl, List.prefix_rfl⟩

omit [DecimalDigits] [LedgerLibrary] in
lemma Tables.Appends.trans {t u v : Tables} (h : t.Appends u) (h' : u.Appends v) : t.Appends v :=
  ⟨h.fills.trans h'.fills, h.states.trans h'.states, h.managements.trans h'.managements⟩

omit [DecimalDigits] [LedgerLibrary] in
lemma Tables.Appends.requests {t t' : Tables} (h : t.Appends t') (method : Method) :
    t.requests method <+: t'.requests method := by
  cases method with
  | save => exact h.fills.map _
  | saveState => exact h.states.map _
  | saveManagement => exact h.managements.map _

/-- The record a transaction adds carries its identity, and nothing else changes. -/
lemma Prepared.Adds.appends {p : Prepared} {t t' : Tables} (h : p.Adds t t') : t.Appends t' ∧
    t'.requests p.method = t.requests p.method ++ [(p.request.requestId, p.request.digest, p.request.positionId)] := by
  cases p with
  | fill payload submission nowMs =>
      simp only [Prepared.Adds, addFill, bind_eq_ok, pure_eq_ok_iff] at h
      obtain ⟨views, -, dest, -, ⟨fillId, revision⟩, -, projection, -, rows, hinsert, rfl⟩ := h
      simp only [Tables.insertFill, bind_eq_ok, require_eq_ok, exists_const, pure_eq_ok_iff] at hinsert
      obtain ⟨-, -, -, rfl⟩ := hinsert
      refine ⟨⟨List.prefix_append _ _, List.prefix_rfl, List.prefix_rfl⟩, ?_⟩
      exact List.map_append
  | state payload request record =>
      simp only [Prepared.Adds, addState, bind_eq_ok, require_eq_ok, exists_const, pure_eq_ok_iff] at h
      obtain ⟨views, -, v, -, -, rows, hinsert, rfl⟩ := h
      obtain rfl := insertRevision_eq_ok hinsert
      refine ⟨⟨List.prefix_rfl, List.prefix_append _ _, List.prefix_rfl⟩, ?_⟩
      exact List.map_append
  | management payload request values nowMs =>
      simp only [Prepared.Adds, addManagement, bind_eq_ok, pure_eq_ok_iff] at h
      obtain ⟨views, -, v, -, record, -, -, -, -, -, rows, hinsert, rfl⟩ := h
      obtain rfl := insertRevision_eq_ok hinsert
      refine ⟨⟨List.prefix_rfl, List.prefix_rfl, List.prefix_append _ _⟩, ?_⟩
      exact List.map_append

lemma run_appends (p : Prepared) (s : Store) : s.content.Appends (p.run s).1.content := by
  have heffect := run_effect p s
  generalize p.run s = out at heffect
  cases heffect with
  | rejected e s' hcontent _ =>
      rw [hcontent]
      exact .refl _
  | repeated id _ => exact .refl _
  | added t _ hadds => exact hadds.appends.1

/-- **The clients only add records.** -/
theorem clients_append {w w' : World C} {tr : List (Act C × World C)} (h : (clients C).Run w tr w') :
    w.store.content.Appends w'.store.content := by
  refine h.rel (I := fun _ => True) (R := fun w w' => w.store.content.Appends w'.store.content)
    (fun _ => .refl _) (fun _ _ _ h h' => h.trans h') (fun _ _ _ _ _ => trivial) (fun s act t _ hstep => ?_) trivial
  obtain rfl : t = s.step act := hstep
  rcases s.store_step act with hsame | ⟨c, r, p, -, -, hcommit⟩
  · rw [hsame]
    exact .refl _
  · rw [hcommit]
    exact run_appends p s.store

/-! ## Retries -/

/-- What a request identity stands for: the digest of its form, and the position. -/
def Store.recorded (s : Store) (method : Method) (requestId : String) : Option (HexDigest × String) :=
  (s.content.requests method).lookup requestId

omit [DecimalDigits] [LedgerLibrary] in
/-- A recorded identity keeps its meaning. -/
lemma recorded_of_appends {s s' : Store} (h : s.content.Appends s'.content) {method : Method} {requestId : String}
    {entry : HexDigest × String} (hrecorded : s.recorded method requestId = some entry) :
    s'.recorded method requestId = some entry := by
  obtain ⟨more, hmore⟩ := h.requests method
  rw [Store.recorded, ← hmore, List.lookup_append]
  rw [Store.recorded] at hrecorded
  rw [hrecorded, Option.some_or]

/-- An answered transaction left its identity on record. -/
lemma recorded_of_run {p : Prepared} {s : Store} {id : String} (h : (p.run s).2 = .ok id) :
    (p.run s).1.recorded p.method p.request.requestId = some (p.request.digest, id) := by
  have heffect := run_effect p s
  generalize p.run s = out at h heffect
  cases heffect with
  | rejected e s' _ _ => cases h
  | repeated found hsaved =>
      cases h
      exact savedRequest_eq_ok.mp hsaved
  | added t hsaved hadds =>
      cases h
      have hfresh := savedRequest_eq_ok.mp hsaved
      change (t.requests p.method).lookup _ = _
      rw [hadds.appends.2, List.lookup_append, hfresh, Option.map_none, Option.none_or, List.lookup_cons_self]

/-- What the checks of a request established. -/
lemma start_spec {s : Store} {r : Request} {p : Prepared} (h : s.start r = .transaction p) :
    p.method = r.method ∧ requestIdentity r.payload = .ok p.request := by
  unfold Store.start at h
  cases hmethod : r.method with
  | save =>
      simp only [hmethod, startFill] at h
      split at h
      · cases h
      · rename_i request hrequest
        split at h
        · cases h
        · cases h
        · split at h
          · cases h
          · rename_i submission hcheck
            cases h
            refine ⟨rfl, ?_⟩
            simp only [checkFill, bind_eq_ok, require_eq_ok, exists_const, pure_eq_ok_iff] at hcheck
            obtain ⟨command, -, entered, -, -, -, -, -, o, -, rfl⟩ := hcheck
            exact hrequest
  | saveState =>
      simp only [hmethod, Start.ofChecks] at h
      split at h
      · cases h
      · rename_i p' hchecks
        cases h
        simp only [prepareState, bind_eq_ok, require_eq_ok, exists_const, pure_eq_ok_iff] at hchecks
        obtain ⟨request, hrequest, -, record, -, -, rfl⟩ := hchecks
        exact ⟨rfl, hrequest⟩
  | saveManagement =>
      simp only [hmethod, Start.ofChecks] at h
      split at h
      · cases h
      · rename_i p' hchecks
        cases h
        simp only [prepareManagement, bind_eq_ok, require_eq_ok, exists_const, pure_eq_ok_iff] at hchecks
        obtain ⟨request, hrequest, -, -, values, -, rfl⟩ := hchecks
        exact ⟨rfl, hrequest⟩

omit [LedgerLibrary] in
/-- The clock is no part of what a state form is checked for. -/
lemma stateOf_clock {payload : Payload} {nowMs : ℤ} {record : ℕ → StateRecord}
    (h : stateOf payload nowMs = .ok record) (nowMs' : ℤ) : ∃ record', stateOf payload nowMs' = .ok record' := by
  simp only [stateOf, bind_eq_ok, pure_eq_ok_iff] at h ⊢
  obtain ⟨stageNumber, hstage, stopPrice, hstop, noteText, hnote, -⟩ := h
  exact ⟨_, stageNumber, hstage, stopPrice, hstop, noteText, hnote, rfl⟩

omit [DecimalDigits] [LedgerLibrary] in
/-- A store with a record is a committed one. -/
lemma tables_of_recorded {s : Store} {method : Method} {requestId : String} {entry : HexDigest × String}
    (h : s.recorded method requestId = some entry) : ∃ t, s = .file (some t) := by
  cases s with
  | absent => cases method <;> cases h
  | file tables =>
      cases tables with
      | none => cases method <;> cases h
      | some t => exact ⟨t, rfl⟩

/-- A transaction whose identity is on record with its digest is repeated. -/
lemma run_of_recorded {p : Prepared} {s : Store} {id : String}
    (h : s.recorded p.method p.request.requestId = some (p.request.digest, id)) : p.run s = (s, .ok id) := by
  obtain ⟨t, rfl⟩ := tables_of_recorded h
  have hsaved : savedRequest (t.requests p.method) p.request = .ok (some id) := savedRequest_eq_ok.mpr h
  cases p with
  | fill payload submission nowMs =>
      change Store.after _ (commitFill (some t) payload submission nowMs) = _
      change savedRequest (t.fillRevisions.map FillRevision.request) submission.request = _ at hsaved
      rw [commitFill, Option.getD_some, hsaved]
      rfl
  | state payload request record =>
      change Store.after _ (commitState t request payload record) = _
      change savedRequest (t.states.map Revision.request) request = _ at hsaved
      rw [commitState, hsaved]
      rfl
  | management payload request values nowMs =>
      change Store.after _ (commitManagement t request payload values nowMs) = _
      change savedRequest (t.managements.map Revision.request) request = _ at hsaved
      rw [commitManagement, hsaved]
      rfl

/-- Two forms with the same fields and the same digest. The digest sorts the fields, so their order is no
part of it. -/
structure Payload.Same (payload payload' : Payload) : Prop where
  get : ∀ name, payload.get name = payload'.get name
  digest : digest payload = digest payload'

omit [DecimalDigits] in
lemma Payload.Same.getD {payload payload' : Payload} (h : payload.Same payload') (name : String) :
    payload.getD name = payload'.getD name := by rw [Payload.getD, h.get, Payload.getD]

/-- A form that was committed passes the checks again, whatever the clock says, or is recognised. -/
lemma serve_of_recorded {s₀ s s' : Store} {r r' : Request} {p : Prepared} {id : String}
    (hstart : s₀.start r = .transaction p) (hmethod : r'.method = r.method) (hsame : r'.payload.Same r.payload)
    (hs : s.recorded p.method p.request.requestId = some (p.request.digest, id))
    (hs' : s'.recorded p.method p.request.requestId = some (p.request.digest, id)) : s.serve s' r' = (s', .ok id) := by
  obtain ⟨hp, hrequest⟩ := start_spec hstart
  have hidentity : requestIdentity r'.payload = .ok p.request := by
    rw [← hrequest, requestIdentity, hsame.get, hsame.get, hsame.digest, requestIdentity]
  obtain ⟨t, rfl⟩ := tables_of_recorded hs
  have hagain : ∀ p' : Prepared, p'.method = p.method → p'.request = p.request → p'.run s' = (s', .ok id) := by
    intro p' hm hr
    rw [← hm, ← hr] at hs'
    exact run_of_recorded hs'
  unfold Store.serve Store.start
  unfold Store.start at hstart
  rw [hmethod]
  cases hkind : r.method with
  | save =>
      have hsaved : savedFill (.file (some t)) p.request = .ok (some id) := by
        rw [hp, hkind] at hs
        exact savedRequest_eq_ok.mpr hs
      simp only [startFill, hidentity, hsaved]
  | saveState =>
      simp only [hkind, Start.ofChecks] at hstart
      split at hstart
      · cases hstart
      · rename_i p' hchecks
        cases hstart
        simp only [prepareState, bind_eq_ok, require_eq_ok, exists_const, pure_eq_ok_iff] at hchecks
        obtain ⟨request, -, -, record, hrecord, hconfirmed, rfl⟩ := hchecks
        obtain ⟨record', hrecord'⟩ := stateOf_clock hrecord r'.nowMs
        have hstate : stateOf r'.payload r'.nowMs = .ok record' := by
          rw [← hrecord', stateOf, hsame.getD, hsame.getD, hsame.getD, stateOf]
        have hagain' := hagain (.state r'.payload request record') rfl rfl
        simp only [prepareState, hidentity, ok_bind, Store.exists?, require_true, hstate, hsame.get, hconfirmed,
          Start.ofChecks]
        exact hagain'
  | saveManagement =>
      simp only [hkind, Start.ofChecks] at hstart
      split at hstart
      · cases hstart
      · rename_i p' hchecks
        cases hstart
        simp only [prepareManagement, bind_eq_ok, require_eq_ok, exists_const, pure_eq_ok_iff] at hchecks
        obtain ⟨request, -, -, hconfirmed, values, hvalues, rfl⟩ := hchecks
        have hparameters : parameters r'.payload = .ok values := by
          rw [← hvalues, parameters, hsame.getD, hsame.getD, hsame.getD, hsame.getD, parameters]
        have hagain' := hagain (.management r'.payload request values r'.nowMs) rfl rfl
        simp only [prepareManagement, hidentity, ok_bind, Store.exists?, require_true, hparameters, hsame.get,
          hconfirmed, Start.ofChecks]
        exact hagain'

/-- An identity on record with another digest is rejected. -/
lemma serve_of_conflict {s s' : Store} {r : Request} {requestId : String} {hash : HexDigest} {id : String}
    (hid : r.payload.get "request_id" = some requestId) (hdigest : digest r.payload ≠ hash)
    (hs : s.recorded r.method requestId = some (hash, id)) (hs' : s'.recorded r.method requestId = some (hash, id)) :
    ∃ e, s.serve s' r = (s', .error e) := by
  have hidentity : ∀ request, requestIdentity r.payload = .ok request →
      request.requestId = requestId ∧ request.digest = digest r.payload := by
    intro request h
    simp only [requestIdentity, identifier, bind_eq_ok, orThrow_eq_ok, require_eq_ok, exists_const, pure_eq_ok_iff] at h
    obtain ⟨i, ⟨value, hvalue, -, rfl⟩, j, -, rfl⟩ := h
    rw [hid] at hvalue
    exact ⟨(Option.some.inj hvalue).symm, rfl⟩
  -- a look-up cannot return under the digest of this form
  have hunsaved : ∀ (u : Store) (request : RequestIdentity) (found : Option String),
      u.recorded r.method requestId = some (hash, id) → requestIdentity r.payload = .ok request →
      savedRequest (u.content.requests r.method) request ≠ .ok found := by
    intro u request found hu hrequest hsaved
    obtain ⟨hrid, hd⟩ := hidentity request hrequest
    have hlookup := savedRequest_eq_ok.mp hsaved
    rw [hrid, ← Store.recorded, hu] at hlookup
    cases found with
    | none => cases hlookup
    | some found =>
        obtain ⟨hhash, -⟩ := Prod.mk.inj (Option.some.inj hlookup)
        exact hdigest (by rw [← hd, hhash])
  unfold Store.serve
  cases hstart : s.start r with
  | answered result =>
      cases result with
      | error e => exact ⟨e, rfl⟩
      | ok answer =>
          exfalso
          unfold Store.start at hstart
          cases hkind : r.method with
          | save =>
              rw [hkind] at hunsaved hs
              simp only [hkind, startFill] at hstart
              split at hstart
              · cases hstart
              · rename_i request hrequest
                obtain ⟨t, rfl⟩ := tables_of_recorded hs
                split at hstart
                · cases hstart
                · rename_i previous hsaved
                  exact hunsaved _ request _ hs hrequest hsaved
                · rename_i hsaved
                  exact hunsaved _ request _ hs hrequest hsaved
          | saveState =>
              simp only [hkind, Start.ofChecks] at hstart
              split at hstart <;> cases hstart
          | saveManagement =>
              simp only [hkind, Start.ofChecks] at hstart
              split at hstart <;> cases hstart
  | transaction p =>
      obtain ⟨hmethod, hrequest⟩ := start_spec hstart
      have heffect := run_effect p s'
      obtain ⟨t, rfl⟩ := tables_of_recorded hs'
      rw [← hmethod] at hunsaved hs'
      change ∃ e, p.run _ = _
      generalize p.run (.file (some t)) = out at heffect
      cases heffect with
      | rejected e s'' _ hsame => exact ⟨e, by rw [hsame rfl]⟩
      | repeated found hsaved => exact absurd hsaved (hunsaved _ _ _ hs' hrequest)
      | added t' hsaved _ => exact absurd hsaved (hunsaved _ _ _ hs' hrequest)

/-- **A committed request can be repeated for ever, and its identity accepts no other form.** A client's
transaction was answered; any number of steps later a request is started, and after any number of further
steps its own transaction takes place, if it needs one. Another form is one with another digest: SHA-256 is
taken to have no collision between the two. -/
theorem retry_idempotent {w w₁ w₂ : World C} {c : C} {r : Request} {p : Prepared} {id : String}
    {tr₁ tr₂ : List (Act C × World C)} (hreachable : (clients C).Reachable w) (hpending : w.pending c = some (r, p))
    (hcommitted : (p.run w.store).2 = .ok id) (hlater : (clients C).Run (w.step (.commit c)) tr₁ w₁)
    (hserved : (clients C).Run w₁ tr₂ w₂) :
    (∀ r' : Request, r'.method = r.method → r'.payload.Same r.payload →
      w₁.store.serve w₂.store r' = (w₂.store, .ok id)) ∧
    ∀ r' : Request, r'.method = r.method → r'.payload.get "request_id" = r.payload.get "request_id" →
      digest r'.payload ≠ digest r.payload → ∃ e, w₁.store.serve w₂.store r' = (w₂.store, .error e) := by
  obtain ⟨s₀, hstart⟩ := reachable_checked hreachable c r p hpending
  obtain ⟨hmethod, hrequest⟩ := start_spec hstart
  have hstep : (w.step (.commit c)).store = (p.run w.store).1 := by
    change (w.commit c).store = _
    rw [World.commit, hpending]
  have hrecorded : (w.step (.commit c)).store.recorded p.method p.request.requestId = some (p.request.digest, id) := by
    rw [hstep]
    exact recorded_of_run hcommitted
  have h₁ := recorded_of_appends (clients_append hlater) hrecorded
  have h₂ := recorded_of_appends (clients_append hserved) h₁
  refine ⟨fun r' hm hsame => serve_of_recorded hstart hm hsame h₁ h₂, fun r' hm hid hdigest => ?_⟩
  simp only [requestIdentity, identifier, bind_eq_ok, orThrow_eq_ok, require_eq_ok, exists_const,
    pure_eq_ok_iff] at hrequest
  obtain ⟨requestId, ⟨value, hvalue, -, rfl⟩, positionId, -, hidentity⟩ := hrequest
  rw [← hidentity, hmethod, ← hm] at h₁ h₂
  exact serve_of_conflict (hid.trans hvalue) hdigest h₁ h₂

end clients

/-! ## A retry -/

section concrete

/-- No configurations; the digest tells only whether there is a note. -/
@[reducible] def noteDigests : LedgerLibrary where
  digest payload :=
    if (payload.get "note").isSome then ⟨String.ofList (List.replicate 64 '1'), by decide +kernel⟩
    else ⟨zeroDigits, zeroDigits_isHex⟩
  parseStrategyConfigPayload _ := throw .key
  baselineConfiguration _ := throw .key

attribute [local instance] asciiDigits noteDigests

/-- A buy that opens a position. -/
def demoOpening : Request := demoFill "1" [("command", "create"), ("action", "buy"), ("quantity", "2"),
  ("symbol", "MU-USDT-SWAP"), ("executed_at", "2026-01-01T09:00")]

/-- The same form a day later. -/
def demoRetry : Request := { demoOpening with nowMs := demoOpening.nowMs + 86400000, now_pos := by decide }

/-- Another form under its identity. -/
def demoConflict : Request := { demoOpening with payload := demoOpening.payload ++ [("note", "typing error")] }

/-- The opening is committed; its retry is answered alike, and the other form is rejected. -/
theorem retry_idempotent_demo : ∃ (p : Prepared) (w : World Unit),
    w.pending () = some (demoOpening, p) ∧ (p.run w.store).2 = .ok (demoIdentity "0") ∧
      let after := (w.step (.commit ())).store
      after.serve after demoRetry = (after, .ok (demoIdentity "0")) ∧
        ∃ e, after.serve after demoConflict = (after, .error e) := by
  have hserved : (Store.absent.serve .absent demoOpening).2 = .ok (demoIdentity "0") := by decide +kernel
  obtain ⟨p, hstart⟩ : ∃ p, Store.absent.start demoOpening = .transaction p := by
    cases hstart : Store.absent.start demoOpening with
    | transaction p => exact ⟨p, rfl⟩
    | answered result =>
        have hpending : (match Store.absent.start demoOpening with
          | .answered _ => false
          | .transaction _ => true) = true := by decide +kernel
        rw [hstart] at hpending
        cases hpending
  have hcommitted : (p.run Store.absent).2 = .ok (demoIdentity "0") := by
    rw [Store.serve, hstart] at hserved
    exact hserved
  let w : World Unit := ⟨.absent, Function.update (fun _ => none) () (some (demoOpening, p))⟩
  have hworld : World.initial.step (.start () demoOpening) = w := by
    change World.send World.initial () demoOpening = w
    simp only [World.send, World.initial, hstart, w]
  have hstep : (clients Unit).step World.initial (.start () demoOpening) w := hworld.symm
  have hreachable : (clients Unit).Reachable w := ⟨World.initial, _, rfl, .single hstep⟩
  have hpending : w.pending () = some (demoOpening, p) := by simp only [w, Function.update_self]
  have hretry := retry_idempotent hreachable hpending hcommitted (.nil _) (.nil _)
  exact ⟨p, w, hpending, hcommitted, hretry.1 demoRetry rfl ⟨fun _ => rfl, rfl⟩,
    hretry.2 demoConflict rfl (by decide +kernel) (by decide +kernel)⟩

end concrete

end MuStrategy.ManualPositions
