import MuStrategy.ManualPositions.Clients
import Std.Data.String.ToNat

/-!
# Revision numbers

Three counters guard the ledger: the number of a fill revision in its table, the revisions of one fill,
and the revisions of the state and of the management inputs of a position. A form names the values that
were read.

* `Tables.Numbered` — every counter is the number of records it counts.
* `PositionView.Reads` — what a position shows is a count of records; `read_counts`.
* `NewFill`, `NewState`, `NewManagement` — what each transaction compared, and what it adds.
* `adds_numbered`, `reachable_numbered` — the counters stay what they are.
-/

namespace MuStrategy.ManualPositions

open Lib

/-! ## Counters -/

namespace Tables

/-- The fill revisions of a position. -/
def fillsOf (positionId : String) (t : Tables) : List FillRevision :=
  t.fillRevisions.filter fun r => r.positionId = positionId

/-- The revisions of a fill. -/
def revisionsOfFill (fillId : String) (t : Tables) : List FillRevision :=
  t.fillRevisions.filter fun r => r.row.fillId = fillId

/-- The state revisions of a position. -/
def statesOf (positionId : String) (t : Tables) : List (Revision StateRecord) :=
  t.states.filter fun r => r.positionId = positionId

/-- The management revisions of a position. -/
def managementsOf (positionId : String) (t : Tables) : List (Revision ManagementRecord) :=
  t.managements.filter fun r => r.positionId = positionId

end Tables

/-- Records numbered `1, 2, …`. -/
def Counted {ρ : Type} (number : ρ → ℕ) (rows : List ρ) : Prop := rows.map number = List.range' 1 rows.length

namespace Counted

variable {ρ : Type} {number : ρ → ℕ} {rows : List ρ} {row : ρ}

lemma nil : Counted number ([] : List ρ) := rfl

lemma concat (h : Counted number rows) (hrow : number row = rows.length + 1) : Counted number (rows ++ [row]) := by
  rw [Counted, List.map_append, h, List.length_append, List.length_singleton, List.range'_1_concat,
    List.map_singleton, hrow, Nat.add_comm 1]

/-- The number of the last record is how many there are. -/
lemma getLast? (h : Counted number rows) (hrow : rows.getLast? = some row) : number row = rows.length := by
  have hlast : (rows.map number).getLast? = some (number row) := by rw [List.getLast?_map, hrow, Option.map_some]
  rw [h, List.getLast?_range'] at hlast
  split at hlast
  · cases hlast
  · have := Option.some.inj hlast
    omega

end Counted

section counters

variable [DecimalDigits] [LedgerLibrary]

/-- Every counter is the number of records it counts. -/
structure Tables.Numbered (t : Tables) : Prop where
  valid : t.Valid
  states : ∀ id, Counted Revision.revision (t.statesOf id)
  managements : ∀ id, Counted Revision.revision (t.managementsOf id)
  fills : ∀ fillId, Counted (fun r => r.row.revision) (t.revisionsOfFill fillId)
  /-- A fill is named after the request that recorded it. -/
  rooted : ∀ r ∈ t.fillRevisions, ∃ first ∈ t.fillRevisions, first.requestId = r.row.fillId
  /-- A fill belongs to one position. -/
  owner : ∀ r ∈ t.fillRevisions, ∀ r' ∈ t.fillRevisions, r.row.fillId = r'.row.fillId → r.positionId = r'.positionId

lemma numbered_empty : Tables.empty.Numbered where
  valid := valid_empty
  states _ := rfl
  managements _ := rfl
  fills _ := rfl
  rooted _ h := absurd h List.not_mem_nil
  owner _ h := absurd h List.not_mem_nil

variable {t t' : Tables} {views : List PositionView} {v : PositionView}

/-! ## What is read -/

omit [DecimalDigits] [LedgerLibrary] in
/-- The fills of a projection are the latest revisions of the history. -/
lemma latest_of_ledgerOrder {history : List FillRow} {row : FillRow} (h : row ∈ ledgerOrder history) :
    (history.filter fun r => r.fillId = row.fillId).getLast? = some row := by
  have hfold : ∀ (rows done : List FillRow) (fills : List LatestFill),
      (∀ f ∈ fills, (done.filter fun r => r.fillId = f.row.fillId).getLast? = some f.row) →
      ∀ f ∈ rows.foldl track fills, ((done ++ rows).filter fun r => r.fillId = f.row.fillId).getLast? = some f.row := by
    intro rows
    induction rows with
    | nil =>
        intro done fills hfills f hf
        rw [List.append_nil]
        exact hfills f hf
    | cons row rows ih =>
        intro done fills hfills
        have hlast : ((done ++ [row]).filter fun r => r.fillId = row.fillId).getLast? = some row := by
          rw [List.filter_append, List.filter_cons_of_pos (by simp), List.filter_nil, List.getLast?_concat]
        have hother : ∀ g ∈ fills, g.row.fillId ≠ row.fillId →
            ((done ++ [row]).filter fun r => r.fillId = g.row.fillId).getLast? = some g.row := by
          intro g hg hne
          rw [List.filter_append, List.filter_cons_of_neg (by simpa using Ne.symm hne), List.filter_nil,
            List.append_nil]
          exact hfills g hg
        have hstep : ∀ f ∈ track fills row,
            ((done ++ [row]).filter fun r => r.fillId = f.row.fillId).getLast? = some f.row := by
          intro f hf
          unfold track at hf
          split at hf
          · obtain ⟨g, hg, rfl⟩ := List.mem_map.mp hf
            by_cases hid : g.row.fillId = row.fillId
            · simp only [if_pos hid]
              exact hlast
            · simp only [if_neg hid]
              exact hother g hg hid
          · rename_i hnone
            rcases List.mem_append.mp hf with hg | hg
            · refine hother f hg fun hid => hnone ?_
              exact List.any_eq_true.mpr ⟨f, hg, by simpa using hid⟩
            · rw [List.mem_singleton] at hg
              subst hg
              exact hlast
        have hrest := ih (done ++ [row]) (track fills row) hstep
        rwa [List.append_assoc] at hrest
  rw [ledgerOrder, List.mem_map] at h
  obtain ⟨f, hf, rfl⟩ := h
  have hmem : f ∈ latestFills history := (List.mem_insertionSort _).mp hf
  exact hfold history [] [] (fun _ h => absurd h List.not_mem_nil) f hmem

/-- The revision of a fill that is shown is how many revisions it has. -/
lemma Tables.Numbered.revision_eq (h : t.Numbered) {id : String} {row : FillRow}
    (hrow : row ∈ ledgerOrder (t.history id)) : row.revision = (t.revisionsOfFill row.fillId).length := by
  have hlast := latest_of_ledgerOrder hrow
  obtain ⟨r, hr, hrow'⟩ : ∃ r ∈ t.fillsOf id, r.row = row := by
    have hmem := List.mem_of_mem_filter (List.mem_of_getLast? hlast)
    exact List.mem_map.mp hmem
  obtain ⟨hmem, hid⟩ := List.mem_filter.mp hr
  have hsame : t.revisionsOfFill row.fillId = (t.fillsOf id).filter fun r => r.row.fillId = row.fillId := by
    rw [Tables.fillsOf, List.filter_filter]
    refine List.filter_congr fun r' hr' => ?_
    by_cases hfill : r'.row.fillId = row.fillId
    · have howner := h.owner r hmem r' hr' (by rw [hrow', hfill])
      have hid' : r'.positionId = id := by rw [← howner]; simpa using hid
      simp [hfill, hid']
    · simp [hfill]
  have hlast' : ((t.revisionsOfFill row.fillId).map FillRevision.row).getLast? = some row := by
    rw [hsame, ← hlast, Tables.history, Tables.fillsOf, List.filter_map]
    rfl
  rw [List.getLast?_map, Option.map_eq_some_iff] at hlast'
  obtain ⟨r', hr', rfl⟩ := hlast'
  exact (h.fills _).getLast? hr'

omit [DecimalDigits] [LedgerLibrary] in
/-- Numbered records of a position are in order. -/
lemma revisionsOf_of_counted {α : Type} {rows : List (Revision α)} {id : String}
    (h : Counted Revision.revision (rows.filter fun r => r.positionId = id)) :
    revisionsOf rows id = rows.filter fun r => r.positionId = id := by
  refine List.Pairwise.insertionSort_eq ?_
  have hsorted : ((rows.filter fun r => r.positionId = id).map Revision.revision).Pairwise (· ≤ ·) := by
    rw [h]
    exact List.pairwise_le_range'
  rw [List.pairwise_map] at hsorted
  exact hsorted

omit [DecimalDigits] [LedgerLibrary] in
lemma latestRevision_of_counted {α : Type} {history : List (Revision α)} (h : Counted Revision.revision history) :
    latestRevision history = history.length := latestRevision_eq h

/-- What a position shows of the tables. -/
structure PositionView.Reads (v : PositionView) (t : Tables) : Prop where
  projected : project (t.history v.position.positionId) = .ok v.projection
  fills : v.projection.fills = ledgerOrder (t.history v.position.positionId)
  fillSequence : v.projection.fillSequence = maxSequence (t.history v.position.positionId)
  states : v.stateHistory = t.statesOf v.position.positionId
  managements : v.managementHistory = t.managementsOf v.position.positionId
  stateRevision : v.currentState.revision = (t.statesOf v.position.positionId).length
  managementRevision : v.managementRevision = (t.managementsOf v.position.positionId).length

/-- **What is read is a count of records.** -/
theorem read_counts (h : t.Numbered) (hread : t.read = .ok views) (hv : v ∈ views) : v.Reads t := by
  obtain ⟨-, hview⟩ := view_of_mem hread hv
  obtain ⟨projection, hproject, hv'⟩ := view_eq_ok.mp hview
  have hprojected : project (t.history v.position.positionId) = .ok v.projection := by rw [hproject, hv']
  have hstates : v.stateHistory = t.statesOf v.position.positionId := by
    rw [hv']
    exact revisionsOf_of_counted (h.states _)
  have hmanagements : v.managementHistory = t.managementsOf v.position.positionId := by
    rw [hv']
    exact revisionsOf_of_counted (h.managements _)
  have hreplay := hprojected
  simp only [project, bind_eq_ok, pure_eq_ok_iff] at hreplay
  obtain ⟨r, -, hprojection⟩ := hreplay
  refine ⟨hprojected, ?_, ?_, hstates, hmanagements, ?_, ?_⟩
  · rw [← hprojection]
    rfl
  · rw [← hprojection]
    rfl
  · change latestRevision v.stateHistory = _
    rw [hstates, latestRevision_of_counted (h.states _)]
  · change latestRevision v.managementHistory = _
    rw [hmanagements, latestRevision_of_counted (h.managements _)]

/-! ## What a transaction compares and adds -/

/-- A fill revision and what was compared for it. -/
structure NewFill (t t' : Tables) (payload : Payload) (submission : Submission) (r : FillRevision) : Prop
    extends FillAdded t t' r where
  position : r.positionId = submission.request.positionId
  fresh : ∀ r' ∈ t.fillRevisions, r'.requestId ≠ r.requestId
  /-- It opens a fill under its own name, or revises the latest revision of a fill of the position. -/
  kind : (submission.command ≠ .revise ∧ r.row.fillId = r.requestId ∧ r.row.revision = 1) ∨
    ∃ previous ∈ ledgerOrder (t.history r.positionId), payload.get "fill_id" = some previous.fillId ∧
      payload.get "expected_revision" = some (toString previous.revision) ∧
      r.row.fillId = previous.fillId ∧ r.row.revision = previous.revision + 1

/-- A state revision and what was compared for it. -/
structure NewState (t t' : Tables) (payload : Payload) (request : RequestIdentity) (r : Revision StateRecord) : Prop where
  fills : t'.fillRevisions = t.fillRevisions
  states : t'.states = t.states ++ [r]
  managements : t'.managements = t.managements
  position : r.positionId = request.positionId
  revision : r.revision = (t.statesOf r.positionId).length + 1
  fillSequence : r.payload.fillSequence = maxSequence (t.history r.positionId)
  expectedFill : payload.get "expected_fill_sequence" = some (toString (maxSequence (t.history r.positionId)))
  expectedState : payload.get "expected_state_revision" = some (toString (t.statesOf r.positionId).length)

/-- A management revision and what was compared for it. -/
structure NewManagement (t t' : Tables) (payload : Payload) (request : RequestIdentity)
    (r : Revision ManagementRecord) : Prop where
  fills : t'.fillRevisions = t.fillRevisions
  states : t'.states = t.states
  managements : t'.managements = t.managements ++ [r]
  position : r.positionId = request.positionId
  revision : r.revision = (t.managementsOf r.positionId).length + 1
  fillSequence : r.payload.fillSequence = maxSequence (t.history r.positionId)
  stateRevision : r.payload.stateRevision = (t.statesOf r.positionId).length
  expectedFill : payload.get "expected_fill_sequence" = some (toString (maxSequence (t.history r.positionId)))
  expectedState : payload.get "expected_state_revision" = some (toString (t.statesOf r.positionId).length)
  expectedManagement : payload.get "expected_management_revision" = some (toString (t.managementsOf r.positionId).length)

omit [DecimalDigits] [LedgerLibrary] in
lemma identifier_eq_ok {value : Option String} {id : String} (h : identifier value = .ok id) : value = some id := by
  simp only [identifier, bind_eq_ok, orThrow_eq_ok, require_eq_ok, exists_const, pure_eq_ok_iff] at h
  obtain ⟨text, hvalue, -, rfl⟩ := h
  exact hvalue

omit [DecimalDigits] [LedgerLibrary] in
/-- The fill and the revision that a submission records. -/
lemma fillRevision_eq_ok {payload : Payload} {submission : Submission} {fills : List FillRow} {fillId : String}
    {revision : ℕ} (h : fillRevision payload submission fills = .ok (fillId, revision)) :
    (submission.command ≠ .revise ∧ fillId = submission.request.requestId ∧ revision = 1) ∨
      ∃ previous ∈ fills, payload.get "fill_id" = some previous.fillId ∧
        payload.get "expected_revision" = some (toString previous.revision) ∧
        fillId = previous.fillId ∧ revision = previous.revision + 1 := by
  unfold fillRevision at h
  split at h
  · simp only [bind_eq_ok, orThrow_eq_ok, require_eq_ok, exists_const, pure_eq_ok_iff, decide_eq_true_eq] at h
    obtain ⟨id, hid, previous, hfind, hexpected, hpair⟩ := h
    obtain ⟨rfl, rfl⟩ := Prod.mk.inj hpair
    have hprevious : previous.fillId = id := by simpa using List.find?_some hfind
    refine .inr ⟨previous, List.mem_of_find?_eq_some hfind, ?_, hexpected, hprevious.symm, rfl⟩
    rw [hprevious]
    exact identifier_eq_ok hid
  · rename_i hcommand
    rw [pure_eq_ok_iff] at h
    obtain ⟨rfl, rfl⟩ := Prod.mk.inj h
    exact .inl ⟨hcommand, rfl, rfl⟩

/-- The fills a submission is checked against are those of its position. -/
lemma target_fills (h : t.Numbered) (hread : t.read = .ok views) {payload : Payload} {submission : Submission}
    {nowMs : ℤ} {dest : Target} (hdest : target views payload submission nowMs = .ok dest) :
    ∀ row ∈ dest.fills, row ∈ ledgerOrder (t.history submission.request.positionId) := by
  unfold target at hdest
  split at hdest
  · simp only [bind_eq_ok, require_eq_ok, exists_const, pure_eq_ok_iff] at hdest
    obtain ⟨-, rfl⟩ := hdest
    exact fun row hrow => absurd hrow List.not_mem_nil
  · simp only [bind_eq_ok, orThrow_eq_ok, require_eq_ok, exists_const, pure_eq_ok_iff] at hdest
    obtain ⟨v, hfind, -, rfl⟩ := hdest
    have hid : v.position.positionId = submission.request.positionId := by simpa using List.find?_some hfind
    intro row hrow
    rw [← hid, ← (read_counts h hread (List.mem_of_find?_eq_some hfind)).fills]
    exact hrow

lemma addFill_new (h : t.Numbered) {payload : Payload} {submission : Submission} {nowMs : ℤ}
    (hadd : addFill t payload submission nowMs = .ok t') : ∃ r, NewFill t t' payload submission r := by
  obtain ⟨r, hadded⟩ := addFill_added h.valid hadd
  simp only [addFill, bind_eq_ok, pure_eq_ok_iff] at hadd
  obtain ⟨views, hread, dest, hdest, ⟨fillId, revision⟩, hrevision, projection, -, rows, hinsert, rfl⟩ := hadd
  simp only [Tables.insertFill, bind_eq_ok, require_eq_ok, exists_const, pure_eq_ok_iff] at hinsert
  obtain ⟨-, hunique, -, rfl⟩ := hinsert
  obtain rfl := List.singleton_inj.mp (List.append_cancel_left hadded.fills)
  refine ⟨_, hadded, rfl, fun r' hr' => ?_, ?_⟩
  · have := List.all_eq_true.mp hunique r' hr'
    simp only [Bool.and_eq_true, decide_eq_true_eq] at this
    exact this.1
  · rcases fillRevision_eq_ok hrevision with hnew | ⟨previous, hmem, hrest⟩
    · exact .inl hnew
    · exact .inr ⟨previous, target_fills h hread hdest previous hmem, hrest⟩

lemma addState_new (h : t.Numbered) {payload : Payload} {request : RequestIdentity} {record : ℕ → StateRecord}
    (hrecord : ∀ n, (record n).fillSequence = n) (hadd : addState t request payload record = .ok t') :
    ∃ r, NewState t t' payload request r := by
  simp only [addState, bind_eq_ok, require_eq_ok, exists_const, pure_eq_ok_iff, Bool.and_eq_true,
    decide_eq_true_eq] at hadd
  obtain ⟨views, hread, v, hopen, ⟨hfill, hstate⟩, rows, hinsert, rfl⟩ := hadd
  obtain ⟨hv, hid, -⟩ := openView_eq_ok hopen
  obtain rfl := insertRevision_eq_ok hinsert
  have hreads := read_counts h hread hv
  have hsequence := hreads.fillSequence
  have hrevision := hreads.stateRevision
  rw [hid] at hsequence hrevision
  rw [hsequence] at hfill ⊢
  rw [hrevision] at hstate ⊢
  exact ⟨_, rfl, rfl, rfl, rfl, rfl, hrecord _, hfill, hstate⟩

lemma addManagement_new (h : t.Numbered) {payload : Payload} {request : RequestIdentity} {values : Parameters}
    {nowMs : ℤ} (hadd : addManagement t request payload values nowMs = .ok t') :
    ∃ r, NewManagement t t' payload request r := by
  simp only [addManagement, bind_eq_ok, pure_eq_ok_iff] at hadd
  obtain ⟨views, hread, v, hopen, record, hmanagement, -, -, -, -, rows, hinsert, rfl⟩ := hadd
  simp only [managementOf, bind_eq_ok, require_eq_ok, exists_const, pure_eq_ok_iff, Bool.and_eq_true,
    decide_eq_true_eq] at hmanagement
  obtain ⟨⟨⟨hfill, hstate⟩, hlatest⟩, template, -, -, -, supplied, -, -, rfl⟩ := hmanagement
  obtain ⟨hv, hid, -⟩ := openView_eq_ok hopen
  obtain rfl := insertRevision_eq_ok hinsert
  have hreads := read_counts h hread hv
  have hsequence := hreads.fillSequence
  have hrevision := hreads.stateRevision
  have hmanagements := hreads.managementRevision
  rw [hid] at hsequence hrevision hmanagements
  rw [hsequence] at hfill ⊢
  rw [hrevision] at hstate ⊢
  rw [hmanagements] at hlatest ⊢
  exact ⟨_, rfl, rfl, rfl, rfl, rfl, rfl, rfl, hfill, hstate, hlatest⟩

/-! ## The counters count -/

omit [DecimalDigits] [LedgerLibrary] in
/-- One more record, for the ones it belongs to. -/
lemma filter_concat {ρ : Type} {p : ρ → Bool} (rows : List ρ) (row : ρ) :
    (rows ++ [row]).filter p = if p row then rows.filter p ++ [row] else rows.filter p := by
  rw [List.filter_append]
  by_cases hp : p row = true
  · rw [List.filter_cons_of_pos hp, List.filter_nil, if_pos hp]
  · rw [List.filter_cons_of_neg hp, List.filter_nil, List.append_nil, if_neg hp]

omit [DecimalDigits] [LedgerLibrary] in
/-- The revisions of a position stay numbered when one is added. -/
lemma counted_revisions {α : Type} {rows : List (Revision α)} {row : Revision α}
    (h : ∀ id, Counted Revision.revision (rows.filter fun r => r.positionId = id))
    (hrow : row.revision = (rows.filter fun r => r.positionId = row.positionId).length + 1) (id : String) :
    Counted Revision.revision ((rows ++ [row]).filter fun r => r.positionId = id) := by
  rw [filter_concat]
  by_cases hid : row.positionId = id
  · subst hid
    rw [if_pos (by simp)]
    exact (h _).concat hrow
  · rw [if_neg (by simpa using hid)]
    exact h id

/-- **A fill keeps the counters.** -/
lemma NewFill.numbered {payload : Payload} {submission : Submission} {r : FillRevision} (h : t.Numbered)
    (hnew : NewFill t t' payload submission r) : t'.Numbered := by
  have hstates : t'.states = t.states := by rw [Tables.states, hnew.states]; rfl
  have hmanagements : t'.managements = t.managements := by rw [Tables.managements, hnew.managements]; rfl
  -- a fill of the table with the same name belongs to the same position, and carries the numbers before
  have hfill : r.row.revision = (t.revisionsOfFill r.row.fillId).length + 1 ∧
      (∀ r' ∈ t.fillRevisions, r'.row.fillId = r.row.fillId → r'.positionId = r.positionId) ∧
      ∃ first ∈ t'.fillRevisions, first.requestId = r.row.fillId := by
    rcases hnew.kind with ⟨-, hid, hone⟩ | ⟨previous, hprevious, -, -, hid, hrevision⟩
    · have hnone : ∀ r' ∈ t.fillRevisions, r'.row.fillId ≠ r.row.fillId := by
        intro r' hr' heq
        obtain ⟨first, hfirst, hrequest⟩ := h.rooted r' hr'
        exact hnew.fresh first hfirst (by rw [hrequest, heq, hid])
      have hempty : t.revisionsOfFill r.row.fillId = [] :=
        List.filter_eq_nil_iff.mpr fun r' hr' => by simpa using hnone r' hr'
      refine ⟨by rw [hone, hempty]; rfl, fun r' hr' heq => absurd heq (hnone r' hr'), r, ?_, hid.symm⟩
      rw [hnew.fills]
      exact List.mem_append_right _ (List.mem_singleton_self r)
    · have hcount := h.revision_eq hprevious
      have hmem := List.mem_of_mem_filter (List.mem_of_getLast? (latest_of_ledgerOrder hprevious))
      obtain ⟨r₀, hr₀, hrow⟩ := List.mem_map.mp hmem
      obtain ⟨hr₀, hposition⟩ := List.mem_filter.mp hr₀
      refine ⟨by rw [hrevision, hcount, hid], fun r' hr' heq => ?_, ?_⟩
      · rw [h.owner r' hr' r₀ hr₀ (by rw [heq, hid, hrow])]
        simpa using hposition
      · obtain ⟨first, hfirst, hrequest⟩ := h.rooted r₀ hr₀
        refine ⟨first, ?_, by rw [hrequest, hrow, hid]⟩
        rw [hnew.fills]
        exact List.mem_append_left _ hfirst
  obtain ⟨hrevision, howner, hroot⟩ := hfill
  refine ⟨hnew.toFillAdded.valid h.valid, fun id => ?_, fun id => ?_, fun fillId => ?_, ?_, ?_⟩
  · rw [Tables.statesOf, hstates]
    exact h.states id
  · rw [Tables.managementsOf, hmanagements]
    exact h.managements id
  · rw [Tables.revisionsOfFill, hnew.fills, filter_concat]
    by_cases hid : r.row.fillId = fillId
    · subst hid
      rw [if_pos (by simp)]
      exact (h.fills _).concat hrevision
    · rw [if_neg (by simpa using hid)]
      exact h.fills fillId
  · intro r' hr'
    rw [hnew.fills, List.mem_append, List.mem_singleton] at hr'
    rcases hr' with hr' | rfl
    · obtain ⟨first, hfirst, hrequest⟩ := h.rooted r' hr'
      refine ⟨first, ?_, hrequest⟩
      rw [hnew.fills]
      exact List.mem_append_left _ hfirst
    · exact hroot
  · intro a ha b hb heq
    rw [hnew.fills, List.mem_append, List.mem_singleton] at ha hb
    rcases ha with ha | rfl <;> rcases hb with hb | rfl
    · exact h.owner a ha b hb heq
    · exact howner a ha heq
    · exact (howner b hb heq.symm).symm
    · rfl

/-- **A confirmation keeps the counters.** -/
lemma NewState.numbered {payload : Payload} {request : RequestIdentity} {r : Revision StateRecord} (h : t.Numbered)
    (hvalid : t'.Valid) (hnew : NewState t t' payload request r) : t'.Numbered := by
  refine ⟨hvalid, fun id => ?_, fun id => ?_, fun fillId => ?_, ?_, ?_⟩
  · rw [Tables.statesOf, hnew.states]
    exact counted_revisions h.states hnew.revision id
  · rw [Tables.managementsOf, hnew.managements]
    exact h.managements id
  · rw [Tables.revisionsOfFill, hnew.fills]
    exact h.fills fillId
  · rw [hnew.fills]
    exact h.rooted
  · rw [hnew.fills]
    exact h.owner

/-- **Management inputs keep the counters.** -/
lemma NewManagement.numbered {payload : Payload} {request : RequestIdentity} {r : Revision ManagementRecord}
    (h : t.Numbered) (hvalid : t'.Valid) (hnew : NewManagement t t' payload request r) : t'.Numbered := by
  refine ⟨hvalid, fun id => ?_, fun id => ?_, fun fillId => ?_, ?_, ?_⟩
  · rw [Tables.statesOf, hnew.states]
    exact h.states id
  · rw [Tables.managementsOf, hnew.managements]
    exact counted_revisions h.managements hnew.revision id
  · rw [Tables.revisionsOfFill, hnew.fills]
    exact h.fills fillId
  · rw [hnew.fills]
    exact h.rooted
  · rw [hnew.fills]
    exact h.owner

/-- A transaction carries the form of its request and what was read from it. -/
def Prepared.ChecksOf (p : Prepared) (r : Request) : Prop :=
  match p with
  | .fill payload submission _ =>
      payload = r.payload ∧ r.payload.get "command" >>= PyEnum.ofValue? = some submission.command
  | .state payload _ record => payload = r.payload ∧ stateOf r.payload r.nowMs = .ok record
  | .management payload _ _ _ => payload = r.payload

lemma start_checks {s : Store} {r : Request} {p : Prepared} (h : s.start r = .transaction p) : p.ChecksOf r := by
  unfold Store.start at h
  cases hmethod : r.method with
  | save =>
      simp only [hmethod, startFill] at h
      split at h
      · cases h
      · split at h
        · cases h
        · cases h
        · split at h
          · cases h
          · rename_i submission hcheck
            cases h
            simp only [checkFill, bind_eq_ok, orThrow_eq_ok, require_eq_ok, exists_const, pure_eq_ok_iff] at hcheck
            obtain ⟨command, hcommand, entered, -, -, -, -, -, o, -, rfl⟩ := hcheck
            exact ⟨rfl, hcommand⟩
  | saveState =>
      simp only [hmethod, Start.ofChecks] at h
      split at h
      · cases h
      · rename_i p' hchecks
        cases h
        simp only [prepareState, bind_eq_ok, require_eq_ok, exists_const, pure_eq_ok_iff] at hchecks
        obtain ⟨request, -, -, record, hrecord, -, rfl⟩ := hchecks
        exact ⟨rfl, hrecord⟩
  | saveManagement =>
      simp only [hmethod, Start.ofChecks] at h
      split at h
      · cases h
      · rename_i p' hchecks
        cases h
        simp only [prepareManagement, bind_eq_ok, require_eq_ok, exists_const, pure_eq_ok_iff] at hchecks
        obtain ⟨request, -, -, -, values, -, rfl⟩ := hchecks
        rfl

/-- What a transaction adds. -/
def Prepared.New (p : Prepared) (t t' : Tables) : Prop :=
  match p with
  | .fill payload submission _ => ∃ r, NewFill t t' payload submission r
  | .state payload request _ => ∃ r, NewState t t' payload request r
  | .management payload request _ _ => ∃ r, NewManagement t t' payload request r

/-- **What a transaction adds keeps the counters.** -/
theorem adds_numbered {p : Prepared} {r : Request} (hchecks : p.ChecksOf r) (h : t.Numbered) (hadds : p.Adds t t') :
    p.New t t' ∧ t'.Numbered := by
  cases p with
  | fill payload submission nowMs =>
      obtain ⟨row, hnew⟩ := addFill_new h hadds
      exact ⟨⟨row, hnew⟩, hnew.numbered h⟩
  | state payload request record =>
      obtain ⟨rfl, hrecord⟩ := hchecks
      have hsequence : ∀ n, (record n).fillSequence = n := by
        simp only [stateOf, bind_eq_ok, pure_eq_ok_iff] at hrecord
        obtain ⟨stageNumber, -, stopPrice, -, noteText, -, rfl⟩ := hrecord
        exact fun n => rfl
      obtain ⟨row, hnew⟩ := addState_new h hsequence hadds
      exact ⟨⟨row, hnew⟩, hnew.numbered h (h.valid.addState r.now_pos hrecord hadds)⟩
  | management payload request values nowMs =>
      obtain ⟨row, hnew⟩ := addManagement_new h hadds
      exact ⟨⟨row, hnew⟩, hnew.numbered h (h.valid.addManagement hadds)⟩

/-! ## Runs -/

variable {C : Type} [DecidableEq C] {w : World C}

/-- What holds in every state of the clients. -/
structure World.Sound (w : World C) : Prop where
  numbered : w.store.content.Numbered
  checked : w.Checked

omit [DecidableEq C] in
/-- A transaction changes nothing, or adds its record. -/
lemma run_new (h : w.Sound) {c : C} {r : Request} {p : Prepared} (hpending : w.pending c = some (r, p)) :
    p.ChecksOf r ∧ p.method = r.method ∧ requestIdentity r.payload = .ok p.request ∧
      ((p.run w.store).1.content = w.store.content ∨
        p.New w.store.content (p.run w.store).1.content ∧ (p.run w.store).1.content.Numbered) := by
  obtain ⟨s₀, hstart⟩ := h.checked c r p hpending
  have hchecks := start_checks hstart
  refine ⟨hchecks, (start_spec hstart).1, (start_spec hstart).2, ?_⟩
  have heffect := run_effect p w.store
  generalize p.run w.store = out at heffect
  cases heffect with
  | rejected e s' hcontent _ => exact .inl hcontent
  | repeated id _ => exact .inl rfl
  | added t _ hadds => exact .inr (adds_numbered hchecks h.numbered hadds)

lemma World.Sound.step (h : w.Sound) (act : Act C) : (w.step act).Sound := by
  refine ⟨?_, h.checked.step act⟩
  rcases w.store_step act with hsame | ⟨c, r, p, -, hpending, hcommit⟩
  · rw [hsame]
    exact h.numbered
  · rw [hcommit]
    rcases (run_new h hpending).2.2.2 with hsame | ⟨-, hnumbered⟩
    · rw [hsame]
      exact h.numbered
    · exact hnumbered

/-- **The counters count, in every state of the clients.** -/
theorem run_sound {w' : World C} {tr : List (Act C × World C)} (hr : (clients C).Run w tr w') (h : w.Sound) :
    w'.Sound :=
  hr.invariant (fun s act t hs hstep => by obtain rfl : t = s.step act := hstep; exact hs.step act) h

omit [DecidableEq C] in
lemma initial_sound : (World.initial : World C).Sound := ⟨numbered_empty, fun _ _ _ h => by cases h⟩

end counters

end MuStrategy.ManualPositions
