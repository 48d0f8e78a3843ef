import MuStrategy.ManualPositions.Ledger

/-!
# The ledger stays valid

* `Tables.Valid` — the invariant of the committed tables: everything a reader checks passes.
* `Tables.Valid.read` — from it, reading succeeds, and `view_spec` says what a position reports.
* `FillAdded`, `Tables.Valid.addState`, `Tables.Valid.addManagement` — what each request commits.
* `ledger_valid` — over every sequence of requests.
-/

namespace MuStrategy.ManualPositions

open Lib

section validity

variable [DecimalDigits] [LedgerLibrary]

/-! ## The invariant -/

/-- The tables of a ledger that its readers accept. -/
structure Tables.Valid (t : Tables) : Prop where
  positions : Table.UniqueKeys Position.positionId t.positions
  /-- Fill revisions are numbered `1, 2, …`. -/
  sequences : t.fillRevisions.map (fun r => r.row.sequence) = List.range' 1 t.fillRevisions.length
  bound : t.fillRevisions.length < columnBound
  fills : ∀ r ∈ t.fillRevisions, r.positionId ∈ t.positions.map Position.positionId
  /-- Every history can be projected. -/
  projects : ∀ p ∈ t.positions, ∃ projection, project (t.history p.positionId) = .ok projection
  states : ∀ r ∈ t.states, t.checkState r = .ok ()
  managements : ∀ r ∈ t.managements, t.checkManagement r = .ok ()
  /-- The management inputs of a position are numbered `1, 2, …`. -/
  managementSequences : ∀ id, ∃ n,
    (t.managements.filter fun r => r.positionId = id).map Revision.revision = List.range' 1 n

lemma valid_empty : Tables.empty.Valid where
  positions := List.nodup_nil
  sequences := rfl
  bound := by decide
  fills _ h := absurd h List.not_mem_nil
  projects _ h := absurd h List.not_mem_nil
  states _ h := absurd h List.not_mem_nil
  managements _ h := absurd h List.not_mem_nil
  managementSequences _ := ⟨0, rfl⟩

variable {t t' : Tables} {views : List PositionView} {v : PositionView} {p : Position}

omit [DecimalDigits] [LedgerLibrary] in
lemma position?_isSome {id : String} :
    (t.position? id).isSome = true ↔ id ∈ t.positions.map Position.positionId := by
  simp [Tables.position?, Table.lookup, List.find?_isSome]

omit [DecimalDigits] [LedgerLibrary] in
lemma position?_of_mem (hunique : Table.UniqueKeys Position.positionId t.positions) (hp : p ∈ t.positions) :
    t.position? p.positionId = some p := (Table.lookup_eq_some_iff hunique).mpr ⟨hp, rfl⟩

/-! ## Reading -/

omit [LedgerLibrary] in
lemma view_eq_ok : t.view p = .ok v ↔ ∃ projection, project (t.history p.positionId) = .ok projection ∧
    v = ⟨p, projection, revisionsOf t.states p.positionId, revisionsOf t.managements p.positionId⟩ := by
  simp only [Tables.view, bind_eq_ok, pure_eq_ok_iff, @eq_comm _ v]

/-- The revisions of a position are in order, so sorting does not move them. -/
lemma Tables.Valid.revisionsOf_managements (h : t.Valid) (id : String) :
    revisionsOf t.managements id = t.managements.filter fun r => r.positionId = id := by
  obtain ⟨n, hn⟩ := h.managementSequences id
  refine List.Pairwise.insertionSort_eq ?_
  have hsorted : ((t.managements.filter fun r => r.positionId = id).map Revision.revision).Pairwise (· ≤ ·) := by
    rw [hn]
    exact List.pairwise_le_range'
  rw [List.pairwise_map] at hsorted
  exact hsorted

/-- The number of the latest management inputs is how many there are. -/
lemma Tables.Valid.managementRevisions (h : t.Valid) (id : String) :
    (revisionsOf t.managements id).map Revision.revision =
      List.range' 1 (revisionsOf t.managements id).length := by
  rw [h.revisionsOf_managements]
  obtain ⟨n, hn⟩ := h.managementSequences id
  have hlen := congrArg List.length hn
  rw [List.length_map, List.length_range'] at hlen
  rw [hn, hlen]

/-- **Valid tables can be read.** -/
theorem Tables.Valid.read (h : t.Valid) : ∃ views, t.read = .ok views := by
  obtain ⟨views, hviews⟩ : ∃ views, t.positions.reverse.mapM t.view = .ok views := by
    refine exists_mapM_eq_ok fun p hp => ?_
    obtain ⟨projection, hproject⟩ := h.projects p (List.mem_reverse.mp hp)
    exact ⟨_, view_eq_ok.mpr ⟨projection, hproject, rfl⟩⟩
  have hfills : forEach (fun r => require (t.position? r.positionId).isSome LedgerError.key)
      t.fillRevisions = .ok () :=
    forEach_eq_ok.mpr fun r hr => require_eq_ok.mpr (position?_isSome.mpr (h.fills r hr))
  have hsequences : forEach t.checkManagementSequence t.positions = .ok () :=
    forEach_eq_ok.mpr fun p _ => require_eq_ok.mpr (by simpa using h.managementRevisions p.positionId)
  refine ⟨views, ?_⟩
  simp only [Tables.read, bind_eq_ok]
  exact ⟨(), hfills, (), forEach_eq_ok.mpr h.states, (), forEach_eq_ok.mpr h.managements, (), hsequences, hviews⟩

/-- What is read is a view of each position. -/
lemma read_views (h : t.read = .ok views) : List.Forall₂ (fun p v => t.view p = .ok v) t.positions.reverse views := by
  simp only [Tables.read, bind_eq_ok] at h
  obtain ⟨-, -, -, -, -, -, -, -, h⟩ := h
  exact forall₂_of_mapM_eq_ok h

/-- A view belongs to a position of the table. -/
lemma view_of_mem (h : t.read = .ok views) (hv : v ∈ views) :
    v.position ∈ t.positions ∧ t.view v.position = .ok v := by
  have hviews := read_views h
  clear h
  generalize hps : t.positions.reverse = ps at hviews
  have hmem : ∃ p ∈ ps, t.view p = .ok v := by
    clear hps
    induction hviews with
    | nil => cases hv
    | cons hview _ ih =>
        rcases List.mem_cons.mp hv with rfl | hv
        · exact ⟨_, List.mem_cons_self, hview⟩
        · obtain ⟨p, hp, hpv⟩ := ih hv
          exact ⟨p, List.mem_cons_of_mem _ hp, hpv⟩
  obtain ⟨p, hp, hview⟩ := hmem
  obtain ⟨projection, -, rfl⟩ := view_eq_ok.mp hview
  exact ⟨by rw [← hps] at hp; exact List.mem_reverse.mp hp, hview⟩

/-! ### What a position reports -/

/-- What is reported of a position whose fill revisions are `history`. -/
structure PositionView.Reports (v : PositionView) (history : List FillRow) : Prop where
  /-- The projection of the history succeeds. -/
  projected : project history = .ok v.projection
  /-- The fills that count, in ledger order, never make the quantity negative, and nothing is bought
  after it was zero again. -/
  valid : ValidReplay (active history)
  /-- The reported quantity is exactly the bought minus the sold quantity. -/
  quantity : (Decimal.ofText? v.projection.recordedQuantity.toList).map Decimal.toRat =
    some (net (active history))

omit [DecimalDigits] [LedgerLibrary] in
lemma length_history_le (t : Tables) (id : String) : (t.history id).length ≤ t.fillRevisions.length := by
  rw [Tables.history, List.length_map]
  exact List.length_filter_le _ _

lemma Tables.Valid.reports (h : t.Valid) (hread : t.read = .ok views) (hv : v ∈ views) :
    v.Reports (t.history v.position.positionId) := by
  obtain ⟨-, hview⟩ := view_of_mem hread hv
  obtain ⟨projection, hproject, hv'⟩ := view_eq_ok.mp hview
  have hprojected : project (t.history v.position.positionId) = .ok v.projection := by
    rw [hproject, hv']
  obtain ⟨-, hvalid, hquantity⟩ := project_spec ((length_history_le t _).trans_lt h.bound) hprojected
  exact ⟨hprojected, hvalid, hquantity⟩

/-- Every position is reported, the last one first. -/
lemma positions_of_read (h : t.read = .ok views) : views.map PositionView.position = t.positions.reverse := by
  have hviews := read_views h
  generalize t.positions.reverse = ps at hviews
  clear h
  induction hviews with
  | nil => rfl
  | cons hview _ ih =>
      obtain ⟨projection, -, rfl⟩ := view_eq_ok.mp hview
      rw [List.map_cons, ih]

/-! ## A fill -/

/-- What an accepted fill commits. -/
structure FillAdded (t t' : Tables) (r : FillRevision) : Prop where
  fills : t'.fillRevisions = t.fillRevisions ++ [r]
  sequence : r.row.sequence = t.fillRevisions.length + 1
  bound : t.fillRevisions.length + 1 < columnBound
  /-- The fill was checked as the last one of its position. -/
  projects : ∃ projection, project (t.history r.positionId ++ [r.row]) = .ok projection
  /-- It belongs to a position of the table, or to a new one. -/
  positions : (t'.positions = t.positions ∧ r.positionId ∈ t.positions.map Position.positionId) ∨
    ∃ p, t'.positions = t.positions ++ [p] ∧ p.positionId = r.positionId ∧
      r.positionId ∉ t.positions.map Position.positionId
  states : t'.stateRevisions = t.stateRevisions
  managements : t'.managementRevisions = t.managementRevisions

omit [DecimalDigits] [LedgerLibrary] in
lemma history_append {r : FillRevision} (h : t'.fillRevisions = t.fillRevisions ++ [r]) (id : String) :
    t'.history id = if r.positionId = id then t.history id ++ [r.row] else t.history id := by
  rw [Tables.history, h, List.filter_append, List.map_append]
  split
  · rename_i hid
    rw [List.filter_cons_of_pos (by simpa using hid)]
    rfl
  · rename_i hid
    rw [List.filter_cons_of_neg (by simpa using hid), List.filter_nil, List.map_nil, List.append_nil]
    rfl

omit [DecimalDigits] [LedgerLibrary] in
/-- A new position does not hide another one. -/
lemma position?_append {id : String} {q : Position} (h : t.position? id = some q)
    (hpositions : ∃ ps, t'.positions = t.positions ++ ps) : t'.position? id = some q := by
  obtain ⟨ps, hps⟩ := hpositions
  rw [Tables.position?, Table.lookup] at h ⊢
  rw [hps, List.find?_append, h]
  rfl

omit [LedgerLibrary] in
lemma checkState_append {r : Revision StateRecord} (h : t.checkState r = .ok ())
    (hpositions : ∃ ps, t'.positions = t.positions ++ ps) : t'.checkState r = .ok () := by
  simp only [Tables.checkState, bind_eq_ok, orThrow_eq_ok] at h ⊢
  obtain ⟨u, hrecord, q, hq, h⟩ := h
  exact ⟨u, hrecord, q, position?_append hq hpositions, h⟩

lemma checkManagement_append {r : Revision ManagementRecord} (h : t.checkManagement r = .ok ())
    (hpositions : ∃ ps, t'.positions = t.positions ++ ps) : t'.checkManagement r = .ok () := by
  simp only [Tables.checkManagement, bind_eq_ok, orThrow_eq_ok] at h ⊢
  obtain ⟨q, hq, h⟩ := h
  exact ⟨q, position?_append hq hpositions, h⟩

/-- **A fill keeps the tables valid.** -/
lemma FillAdded.valid {r : FillRevision} (h : t.Valid) (ha : FillAdded t t' r) : t'.Valid := by
  have hpositions : ∃ ps, t'.positions = t.positions ++ ps := by
    rcases ha.positions with ⟨hps, -⟩ | ⟨p, hps, -⟩
    · exact ⟨[], by rw [hps, List.append_nil]⟩
    · exact ⟨[p], hps⟩
  have hids : r.positionId ∈ t'.positions.map Position.positionId := by
    rcases ha.positions with ⟨hps, hmem⟩ | ⟨p, hps, hid, -⟩
    · rwa [hps]
    · rw [hps, List.map_append, List.mem_append, ← hid]
      exact .inr (by simp)
  have hstates : t'.states = t.states := by rw [Tables.states, ha.states]; rfl
  have hmanagements : t'.managements = t.managements := by rw [Tables.managements, ha.managements]; rfl
  refine ⟨?_, ?_, ?_, ?_, ?_, ?_, ?_, ?_⟩
  · rcases ha.positions with ⟨hps, -⟩ | ⟨p, hps, hid, hfresh⟩
    · rw [hps]
      exact h.positions
    · rw [hps]
      refine h.positions.append fun q hq heq => hfresh ?_
      rw [← hid, ← heq]
      exact List.mem_map_of_mem hq
  · rw [ha.fills, List.map_append, h.sequences, List.length_append, List.length_singleton, List.range'_1_concat,
      List.map_singleton, ha.sequence, Nat.add_comm 1]
  · rw [ha.fills, List.length_append, List.length_singleton]
    exact ha.bound
  · intro r' hr'
    rw [ha.fills, List.mem_append, List.mem_singleton] at hr'
    rcases hr' with hr' | rfl
    · obtain ⟨ps, hps⟩ := hpositions
      rw [hps, List.map_append]
      exact List.mem_append_left _ (h.fills r' hr')
    · exact hids
  · intro q hq
    rw [history_append ha.fills]
    split
    · rename_i hid
      rw [← hid]
      exact ha.projects
    · rename_i hid
      rcases ha.positions with ⟨hps, -⟩ | ⟨p, hps, hpid, -⟩
      · exact h.projects q (by rwa [hps] at hq)
      · rw [hps, List.mem_append, List.mem_singleton] at hq
        rcases hq with hq | rfl
        · exact h.projects q hq
        · exact absurd hpid.symm hid
  · intro r' hr'
    rw [hstates] at hr'
    exact checkState_append (h.states r' hr') hpositions
  · intro r' hr'
    rw [hmanagements] at hr'
    exact checkManagement_append (h.managements r' hr') hpositions
  · rw [hmanagements]
    exact h.managementSequences

omit [DecimalDigits] [LedgerLibrary] in
/-- A position without a row has no fills. -/
lemma Tables.history_of_fresh (hfills : ∀ r ∈ t.fillRevisions, r.positionId ∈ t.positions.map Position.positionId)
    {id : String} (hfresh : id ∉ t.positions.map Position.positionId) : t.history id = [] := by
  rw [Tables.history, List.map_eq_nil_iff, List.filter_eq_nil_iff]
  intro r hr hid
  rw [decide_eq_true_eq] at hid
  exact hfresh (hid ▸ hfills r hr)

lemma Tables.Valid.sequence_mem (h : t.Valid) {id : String} {x : FillRow} (hx : x ∈ t.history id) :
    1 ≤ x.sequence ∧ x.sequence ≤ t.fillRevisions.length := by
  obtain ⟨r, hr, rfl⟩ := List.mem_map.mp hx
  have hmem : r.row.sequence ∈ t.fillRevisions.map fun r => r.row.sequence :=
    List.mem_map_of_mem (List.mem_of_mem_filter hr)
  rw [h.sequences, List.mem_range'_1] at hmem
  omega

/-- The position of a submission: one that is read, with its history, or a new one. -/
lemma target_spec (hread : t.read = .ok views) {payload : Payload} {submission : Submission} {nowMs : ℤ}
    {dest : Target} (h : target views payload submission nowMs = .ok dest) :
    (dest.isNew = false ∧ submission.request.positionId ∈ t.positions.map Position.positionId ∧
        dest.history = t.history submission.request.positionId) ∨
      (dest.isNew = true ∧ dest.position.positionId = submission.request.positionId ∧
        submission.request.positionId ∉ t.positions.map Position.positionId ∧ dest.history = []) := by
  unfold target at h
  split at h
  · simp only [bind_eq_ok, require_eq_ok, exists_const, pure_eq_ok_iff] at h
    obtain ⟨hfresh, rfl⟩ := h
    refine .inr ⟨rfl, rfl, fun hmem => ?_, rfl⟩
    obtain ⟨p, hp, hid⟩ := List.mem_map.mp hmem
    rw [← List.mem_reverse, ← positions_of_read hread] at hp
    obtain ⟨v, hv, rfl⟩ := List.mem_map.mp hp
    have := List.all_eq_true.mp hfresh v hv
    simp [hid] at this
  · simp only [bind_eq_ok, orThrow_eq_ok, require_eq_ok, exists_const, pure_eq_ok_iff] at h
    obtain ⟨v, hfind, -, rfl⟩ := h
    have hid : v.position.positionId = submission.request.positionId := by simpa using List.find?_some hfind
    obtain ⟨hmem, hview⟩ := view_of_mem hread (List.mem_of_find?_eq_some hfind)
    obtain ⟨projection, hproject, hv⟩ := view_eq_ok.mp hview
    refine .inl ⟨rfl, ?_, ?_⟩
    · rw [← hid]
      exact List.mem_map_of_mem hmem
    · have hprojection : v.projection = projection := by rw [hv]
      rw [← hid, hprojection]
      exact project_history hproject

/-- What the transaction of a new fill commits. -/
lemma addFill_added (h : t.Valid) {payload : Payload} {submission : Submission} {nowMs : ℤ}
    (hadd : addFill t payload submission nowMs = .ok t') : ∃ r, FillAdded t t' r := by
  simp only [addFill, bind_eq_ok, pure_eq_ok_iff] at hadd
  obtain ⟨views, hread, dest, hdest, ⟨fillId, revision⟩, -, projection, hproject, rows, hinsert, rfl⟩ := hadd
  simp only [Tables.insertFill, bind_eq_ok, require_eq_ok, exists_const, pure_eq_ok_iff, decide_eq_true_eq] at hinsert
  obtain ⟨-, -, hbound, rfl⟩ := hinsert
  have hhistory : dest.history = t.history submission.request.positionId := by
    rcases target_spec hread hdest with ⟨-, -, hhistory⟩ | ⟨-, -, hfresh, hhistory⟩
    · exact hhistory
    · rw [hhistory, Tables.history_of_fresh h.fills hfresh]
  refine ⟨_, rfl, rfl, hbound, ?_, ?_, rfl, rfl⟩
  · rw [hhistory] at hproject
    exact project_stored rfl (fun x hx => (h.sequence_mem hx).2) hproject
  · rcases target_spec hread hdest with ⟨hnew, hmem, -⟩ | ⟨hnew, hid, hfresh, -⟩
    · exact .inl ⟨by rw [hnew]; rfl, hmem⟩
    · exact .inr ⟨dest.position, by rw [hnew]; rfl, hid, hfresh⟩

/-! ## Confirmations -/

omit [DecimalDigits] [LedgerLibrary] in
/-- The open position of a confirmation. -/
lemma openView_eq_ok {id text : String} (h : openView views id text = .ok v) :
    v ∈ views ∧ v.position.positionId = id ∧ v.projection.status = .open := by
  simp only [openView, bind_eq_ok, orThrow_eq_ok, require_eq_ok, exists_const, pure_eq_ok_iff,
    decide_eq_true_eq] at h
  obtain ⟨v', hfind, hopen, rfl⟩ := h
  exact ⟨List.mem_of_find?_eq_some hfind, by simpa using List.find?_some hfind, hopen⟩

omit [DecimalDigits] [LedgerLibrary] in
lemma insertRevision_eq_ok {α : Type} {rows rows' : List (Revision α)} {row : Revision α}
    (h : insertRevision rows row = .ok rows') : rows' = rows ++ [row] := by
  simp only [insertRevision, bind_eq_ok, require_eq_ok, exists_const, pure_eq_ok_iff] at h
  exact h.2.2.symm

omit [LedgerLibrary] in
lemma optionalDecimal_eq_ok {value : Option String} {label : String}
    (h : ∀ text, value = some text → ∃ d, decimal (some text) label = .ok d) :
    optionalDecimal value label = .ok () := by
  cases value with
  | none => rfl
  | some text =>
      obtain ⟨d, hd⟩ := h text rfl
      rw [optionalDecimal, hd, ok_bind]
      rfl

omit [LedgerLibrary] in
/-- A confirmed state passes the checks of a reader. -/
lemma stateRecord_stateOf {payload : Payload} {nowMs : ℤ} (hnow : 0 < nowMs) {record : ℕ → StateRecord}
    (h : stateOf payload nowMs = .ok record) {n : ℕ} (hn : 0 < n) : stateRecord (record n) = .ok () := by
  simp only [stateOf, bind_eq_ok, pure_eq_ok_iff] at h
  obtain ⟨stageNumber, hstage, stopPrice, hstop, noteText, hnote, rfl⟩ := h
  have hstages : optionalStage stageNumber (.value "invalid position stage") = .ok () := by
    cases stageNumber with
    | none => rfl
    | some k =>
        obtain ⟨hlower, hupper⟩ := stage_range hstage
        rw [optionalStage, require_eq_ok, Bool.and_eq_true, decide_eq_true_eq, decide_eq_true_eq]
        exact ⟨hlower, hupper⟩
  have hsequence : (decide (0 < n) && decide (0 < nowMs)) = true := by
    rw [decide_eq_true hn, decide_eq_true hnow]
    rfl
  rw [stateRecord, hsequence, require_true, ok_bind, hstages, ok_bind,
    optionalDecimal_eq_ok (optionalNumber_eq_ok hstop _), ok_bind, note_of_note hnote, ok_bind]
  rfl

/-- **A state confirmation keeps the tables valid.** -/
lemma Tables.Valid.addState (h : t.Valid) {request : RequestIdentity} {payload : Payload}
    {nowMs : ℤ} (hnow : 0 < nowMs) {record : ℕ → StateRecord} (hrecord : stateOf payload nowMs = .ok record)
    (hadd : ManualPositions.addState t request payload record = .ok t') : t'.Valid := by
  simp only [ManualPositions.addState, bind_eq_ok, require_eq_ok, exists_const, pure_eq_ok_iff] at hadd
  obtain ⟨views, hread, v, hopen, -, rows, hinsert, rfl⟩ := hadd
  obtain ⟨hv, hid, hstatus⟩ := openView_eq_ok hopen
  obtain rfl := insertRevision_eq_ok hinsert
  obtain ⟨hmem, -⟩ := view_of_mem hread hv
  refine ⟨h.positions, h.sequences, h.bound, h.fills, h.projects, ?_, h.managements, h.managementSequences⟩
  intro r hr
  change r ∈ t.states ++ [_] at hr
  rw [List.mem_append, List.mem_singleton] at hr
  rcases hr with hr | rfl
  · exact h.states r hr
  · have hsequence := fillSequence_pos (h.reports hread hv).projected hstatus
      fun x hx => (h.sequence_mem hx).1
    have hposition : t.position? request.positionId = some v.position := by
      rw [← hid]
      exact position?_of_mem h.positions hmem
    change Tables.checkState t _ = _
    rw [Tables.checkState, stateRecord_stateOf hnow hrecord hsequence, ok_bind, hposition, orThrow_some, ok_bind]
    rfl

omit [DecimalDigits] [LedgerLibrary] in
lemma latestRevision_eq {α : Type} {history : List (Revision α)}
    (h : history.map Revision.revision = List.range' 1 history.length) :
    latestRevision history = history.length := by
  rw [latestRevision, ← List.getLast?_map, h, List.getLast?_range']
  split
  · rename_i hzero
    rw [hzero]
    rfl
  · rw [Option.getD_some]
    omega

/-- New inputs are numbered after those there are. -/
lemma managementSequences_append (h : t.Valid) {row : Revision ManagementRecord}
    (hrow : row.revision = (revisionsOf t.managements row.positionId).length + 1) (id : String) :
    ∃ n, ((t.managements ++ [row]).filter fun r => r.positionId = id).map Revision.revision = List.range' 1 n := by
  rw [List.filter_append, List.map_append]
  by_cases hsame : row.positionId = id
  · subst hsame
    refine ⟨(revisionsOf t.managements row.positionId).length + 1, ?_⟩
    rw [← h.revisionsOf_managements, h.managementRevisions, List.filter_cons_of_pos (by simp), List.range'_1_concat,
      List.filter_nil, List.map_singleton, hrow, Nat.add_comm 1]
  · obtain ⟨n, hn⟩ := h.managementSequences id
    refine ⟨n, ?_⟩
    rw [List.filter_cons_of_neg (by simpa using hsame), List.filter_nil, List.map_nil, List.append_nil, hn]

/-- **Management inputs keep the tables valid.** -/
lemma Tables.Valid.addManagement (h : t.Valid) {request : RequestIdentity} {payload : Payload}
    {values : Parameters} {nowMs : ℤ}
    (hadd : ManualPositions.addManagement t request payload values nowMs = .ok t') : t'.Valid := by
  simp only [ManualPositions.addManagement, bind_eq_ok, pure_eq_ok_iff] at hadd
  obtain ⟨views, hread, v, hopen, record, -, u, hrecord, -, -, rows, hinsert, rfl⟩ := hadd
  obtain ⟨hv, hid, -⟩ := openView_eq_ok hopen
  obtain rfl := insertRevision_eq_ok hinsert
  obtain ⟨hmem, hview⟩ := view_of_mem hread hv
  refine ⟨h.positions, h.sequences, h.bound, h.fills, h.projects, h.states, ?_, ?_⟩
  · intro r hr
    change r ∈ t.managements ++ [_] at hr
    rw [List.mem_append, List.mem_singleton] at hr
    rcases hr with hr | rfl
    · exact h.managements r hr
    · have hposition : t.position? request.positionId = some v.position := by
        rw [← hid]
        exact position?_of_mem h.positions hmem
      change Tables.checkManagement t _ = _
      rw [Tables.checkManagement, hposition, orThrow_some, ok_bind]
      exact hrecord
  · refine managementSequences_append h ?_
    obtain ⟨projection, -, hv'⟩ := view_eq_ok.mp hview
    change v.managementRevision + 1 = _
    rw [PositionView.managementRevision, hv', ← hid, latestRevision_eq (h.managementRevisions _)]

/-! ## Requests -/

/-- The committed tables, if any, are valid. -/
def Store.Valid (s : Store) : Prop := ∀ t, s.tables = some t → t.Valid

/-- What a request can do to the ledger. -/
inductive Outcome (s : Store) (r : Request) : Store × Except LedgerError String → Prop where
  /-- It raises and changes nothing. -/
  | rejected (e : LedgerError) : Outcome s r (s, .error e)
  /-- The first request of all raises inside its transaction: the file stays, without tables. -/
  | emptied (e : LedgerError) : s = .absent → columnBound ≤ r.nowMs → Outcome s r (.file none, .error e)
  /-- It was recorded before. -/
  | repeated (id : String) : Outcome s r (s, .ok id)
  /-- It commits. -/
  | committed (t : Tables) (id : String) : t.Valid → Outcome s r (.file (some t), .ok id)

variable {s s' : Store} {r : Request}

omit [DecimalDigits] [LedgerLibrary] in
/-- A transaction on the tables there are. -/
lemma after_outcome [DecimalDigits] [LedgerLibrary] {x : Except LedgerError (String × Tables)}
    (h : ∀ id t, x = .ok (id, t) → t.Valid) : Outcome s r (s.after x) := by
  cases x with
  | error e => exact .rejected e
  | ok result => exact .committed result.2 result.1 (h _ _ rfl)

lemma commitFill_valid {tables : Option Tables} (h : ∀ t, tables = some t → t.Valid) {payload : Payload}
    {submission : Submission} {nowMs : ℤ} {id : String}
    (hcommit : commitFill tables payload submission nowMs = .ok (id, t')) : t'.Valid := by
  have hvalid : (tables.getD .empty).Valid := by
    cases tables with
    | none => exact valid_empty
    | some t => exact h t rfl
  simp only [commitFill, bind_eq_ok] at hcommit
  obtain ⟨previous, -, hcommit⟩ := hcommit
  split at hcommit
  · rw [pure_eq_ok_iff] at hcommit
    cases hcommit
    exact hvalid
  · simp only [bind_eq_ok, pure_eq_ok_iff] at hcommit
    obtain ⟨t₁, hadd, hpair⟩ := hcommit
    cases hpair
    obtain ⟨r, hr⟩ := addFill_added hvalid hadd
    exact hr.valid hvalid

lemma confirmState_valid (h : s.Valid) {payload : Payload} {nowMs : ℤ} (hnow : 0 < nowMs) {id : String}
    (hconfirm : confirmState s payload nowMs = .ok (id, t')) : t'.Valid := by
  simp only [confirmState, bind_eq_ok, orThrow_eq_ok, require_eq_ok, exists_const] at hconfirm
  obtain ⟨request, -, -, record, hrecord, -, t, ht, hconfirm⟩ := hconfirm
  simp only [commitState, bind_eq_ok] at hconfirm
  obtain ⟨previous, -, hconfirm⟩ := hconfirm
  split at hconfirm
  · rw [pure_eq_ok_iff] at hconfirm
    cases hconfirm
    exact h _ ht
  · simp only [bind_eq_ok, pure_eq_ok_iff] at hconfirm
    obtain ⟨t₁, hadd, hpair⟩ := hconfirm
    cases hpair
    exact (h _ ht).addState hnow hrecord hadd

lemma confirmManagement_valid (h : s.Valid) {payload : Payload} {nowMs : ℤ} {id : String}
    (hconfirm : confirmManagement s payload nowMs = .ok (id, t')) : t'.Valid := by
  simp only [confirmManagement, bind_eq_ok, orThrow_eq_ok, require_eq_ok, exists_const] at hconfirm
  obtain ⟨request, -, -, -, values, -, t, ht, hconfirm⟩ := hconfirm
  simp only [commitManagement, bind_eq_ok] at hconfirm
  obtain ⟨previous, -, hconfirm⟩ := hconfirm
  split at hconfirm
  · rw [pure_eq_ok_iff] at hconfirm
    cases hconfirm
    exact h _ ht
  · simp only [bind_eq_ok, pure_eq_ok_iff] at hconfirm
    obtain ⟨t₁, hadd, hpair⟩ := hconfirm
    cases hpair
    exact (h _ ht).addManagement hadd

omit [LedgerLibrary] in
/-- The checks of a request that finds no file: it creates a position by a buy. -/
lemma checkFill_absent {request : RequestIdentity} {payload : Payload} {nowMs : ℤ} {entries : EntryLookup}
    {submission : Submission} (h : checkFill .absent request payload nowMs entries = .ok submission) :
    submission.command = .create ∧ (∃ o, submission.opening = some o) ∧
      fill payload nowMs = .ok submission.entered ∧ submission.entered.voided = false ∧
      submission.entered.action = .buy := by
  simp only [checkFill, bind_eq_ok, require_eq_ok, exists_const, pure_eq_ok_iff, Store.exists?, Bool.or_false,
    decide_eq_true_eq] at h
  obtain ⟨command, -, entered, hfill, -, hvoided, -, rfl, o, hopening, rfl⟩ := h
  simp only [openingOf, if_true, bind_eq_ok, pure_eq_ok_iff] at hopening
  obtain ⟨o', hopening, rfl⟩ := hopening
  simp only [opening, bind_eq_ok, require_eq_ok, exists_const, decide_eq_true_eq] at hopening
  exact ⟨rfl, ⟨o', rfl⟩, hfill, by simpa using hvoided, hopening.1⟩

/-- A first request that passes its checks commits, unless the clock reading does not fit its column. -/
lemma commitFill_absent {request : RequestIdentity} {payload : Payload} {nowMs : ℤ} {entries : EntryLookup}
    {submission : Submission} (h : checkFill .absent request payload nowMs entries = .ok submission)
    (hnow : nowMs < columnBound) : ∃ result, commitFill none payload submission nowMs = .ok result := by
  obtain ⟨hcommand, ⟨o, hopening⟩, hfill, hvoided, haction⟩ := checkFill_absent h
  obtain ⟨⟨d, hd⟩, price, hprice⟩ := amounts_of_fill hfill
  have hread : Tables.empty.read = .ok [] := rfl
  have htarget : target [] payload submission nowMs =
      .ok ⟨⟨submission.request.positionId, o.symbol, o.unit, strip o.label, o.source, nowMs⟩, true, [], []⟩ := by
    rw [target, hopening]
    rfl
  have hrevision : fillRevision payload submission [] = .ok (submission.request.requestId, 1) := by
    rw [fillRevision, hcommand]
    rfl
  let row : FillRow := ⟨submission.entered, submission.request.requestId, 1, 1, nowMs⟩
  have hbuy : row.fill.action = .buy := haction
  obtain ⟨projection, hproject⟩ := project_buy hbuy hvoided hd hprice
  have hfits : (decide (nowMs < columnBound) && decide (1 < columnBound)) = true := by
    rw [decide_eq_true hnow]
    rfl
  obtain ⟨rows, hinsert⟩ : ∃ rows, Tables.empty.insertFill submission.request submission.request.positionId
      row = .ok rows := by
    simp only [Tables.insertFill, bind_eq_ok, require_eq_ok, exists_const, pure_eq_ok_iff]
    exact ⟨_, hfits, rfl, rfl, rfl⟩
  have hadd : addFill .empty payload submission nowMs =
      .ok ⟨[⟨submission.request.positionId, o.symbol, o.unit, strip o.label, o.source, nowMs⟩], rows, none, none⟩ := by
    simp only [addFill, bind_eq_ok, pure_eq_ok_iff]
    exact ⟨[], hread, _, htarget, _, hrevision, projection, hproject, rows, hinsert, rfl⟩
  have hcommit : commitFill none payload submission nowMs =
      addFill .empty payload submission nowMs >>= fun t => pure (submission.request.positionId, t) := rfl
  rw [hcommit, hadd]
  exact ⟨_, rfl⟩

/-- **Every request has one of the outcomes.** -/
lemma handle_outcome (h : s.Valid) : Outcome s r (s.handle r) := by
  unfold Store.handle
  cases r.method with
  | saveState => exact after_outcome fun id t hconfirm => confirmState_valid h r.now_pos hconfirm
  | saveManagement => exact after_outcome fun id t hconfirm => confirmManagement_valid h hconfirm
  | save =>
      change Outcome s r (save s r.payload r.nowMs r.entries)
      unfold save
      split
      · exact .rejected _
      · rename_i request _
        unfold saveIdentified
        split
        · exact .rejected _
        · exact .repeated _
        · split
          · exact .rejected _
          · rename_i submission hcheck
            have hcommitted : ∀ id t, commitFill s.tables r.payload submission r.nowMs = .ok (id, t) → t.Valid :=
              fun id t => commitFill_valid h
            cases s with
            | file t => exact after_outcome hcommitted
            | absent =>
                cases hcommit : commitFill Store.absent.tables r.payload submission r.nowMs with
                | ok result => exact .committed result.2 result.1 (hcommitted _ _ hcommit)
                | error e =>
                    refine .emptied e rfl (le_of_not_gt fun hnow => ?_)
                    obtain ⟨result, hresult⟩ := commitFill_absent hcheck hnow
                    rw [Store.tables, hresult] at hcommit
                    cases hcommit

/-! ## Runs -/

/-- What the ledger guarantees in the state `s` after the requests of `tr`. -/
structure LedgerValid (tr : List (Request × Store)) (s : Store) : Prop where
  /-- Reading what was committed never raises; it reports every position, the last one first, each as its
  fills say. -/
  reads : ∀ t, s.tables = some t → ∃ views, s.read = .ok views ∧
    views.map PositionView.position = t.positions.reverse ∧
    ∀ v ∈ views, v.Reports (t.history v.position.positionId)
  /-- Reading raises only while nothing was committed at all, after a first request whose clock reading
  does not fit its column. -/
  raises : ∀ e, s.read = .error e → s = .file none ∧ ∃ x ∈ tr, columnBound ≤ x.1.nowMs
  /-- A request that raises leaves what was committed as it is, and the file too unless it was the first
  request and its clock reading does not fit. -/
  rejected : ∀ r e, (s.handle r).2 = .error e →
    (s.handle r).1.tables = s.tables ∧ (r.nowMs < columnBound → (s.handle r).1 = s)

lemma run_valid {tr : List (Request × Store)} (hr : system.Run s tr s') (h : s.Valid) :
    s'.Valid ∧ (s' = .file none → s = .file none ∨ ∃ x ∈ tr, columnBound ≤ x.1.nowMs) := by
  induction hr with
  | nil s => exact ⟨h, .inl⟩
  | @cons s u s' r tr hstep hrest ih =>
      have hu : u = (s.handle r).1 := hstep
      have hout := handle_outcome (r := r) h
      generalize s.handle r = out at hu hout
      have hvalid : u.Valid ∧ (u = .file none → s = .file none ∨ columnBound ≤ r.nowMs) := by
        subst hu
        cases hout with
        | rejected e => exact ⟨h, .inl⟩
        | emptied e habsent hbound =>
            refine ⟨fun t ht => ?_, fun _ => .inr hbound⟩
            cases ht
        | repeated id => exact ⟨h, .inl⟩
        | committed t id ht =>
            refine ⟨fun t' ht' => ?_, fun hnone => by cases hnone⟩
            obtain rfl := Option.some.inj ht'
            exact ht
      obtain ⟨hs', hempty⟩ := ih hvalid.1
      refine ⟨hs', fun hnone => ?_⟩
      rcases hempty hnone with hu' | ⟨x, hx, hbound⟩
      · exact (hvalid.2 hu').imp_right fun hbound => ⟨_, List.mem_cons_self, hbound⟩
      · exact .inr ⟨x, List.mem_cons_of_mem _ hx, hbound⟩

end validity

/-! ## A correction -/

section concrete

/-- The ASCII digits. -/
@[reducible] def asciiDigits : DecimalDigits where
  digit? c := if isAsciiDigit c then some (c.toNat - 48) else none
  ascii := by decide
  lt_ten c d h := by
    split at h
    · rename_i hc
      obtain rfl := Option.some.inj h
      simp only [isAsciiDigit, Bool.and_eq_true, decide_eq_true_eq, Char.le_def, UInt32.le_iff_toNat_le] at hc
      have : c.toNat ≤ 57 := hc.2
      omega
    · cases h

/-- No configurations. -/
@[reducible] def noConfigurations : LedgerLibrary where
  digest _ := ⟨zeroDigits, zeroDigits_isHex⟩
  parseStrategyConfigPayload _ := throw .key
  baselineConfiguration _ := throw .key

attribute [local instance] asciiDigits noConfigurations

/-- The identity of a request or of a position, by its last digit. -/
def demoIdentity (digit : String) : String := "0000000000000000000000000000000" ++ digit

/-- A moment after the demonstrations' fills. -/
lemma demoNow_pos : (0 : ℤ) < 1767258000000 := by decide

/-- A request to save a fill. -/
def demoFill (digit : String) (fields : Payload) : Request where
  method := .save
  payload := [("request_id", demoIdentity digit), ("position_id", demoIdentity "0"), ("confirmed", "yes"),
    ("unit", "base"), ("price", "100")] ++ fields
  nowMs := 1767258000000
  entries _ := pure none
  now_pos := demoNow_pos

/-- A buy opens a position, a sell follows, and a correction makes the buy smaller. -/
def demoRequests : List Request :=
  [demoFill "1" [("command", "create"), ("action", "buy"), ("quantity", "2"), ("symbol", "MU-USDT-SWAP"),
      ("executed_at", "2026-01-01T09:00")],
    demoFill "2" [("command", "append"), ("action", "sell"), ("quantity", "0.5"),
      ("executed_at", "2026-01-01T10:00")],
    demoFill "3" [("command", "revise"), ("action", "buy"), ("quantity", "1.25"),
      ("executed_at", "2026-01-01T09:30"), ("fill_id", demoIdentity "1"), ("expected_revision", "1"),
      ("note", "typing error")]]

/-- The ledger after these requests. -/
def demoStore : Store := demoRequests.foldl (fun s r => (s.handle r).1) .absent

end concrete

end MuStrategy.ManualPositions
