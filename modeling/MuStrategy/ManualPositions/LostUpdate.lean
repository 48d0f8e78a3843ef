import MuStrategy.ManualPositions.Revisions

/-!
# No lost update

A client reads a position and later submits a form that names the revisions it read. What others
recorded in between is never overwritten, and what the ledger calls confirmed is.

* `Unchanged`, `LatestRecorded` — nothing was recorded since a state; the step that recorded the latest.
* `Revises`, `ConfirmsState`, `ConfirmsManagement` — the forms a client builds from what it read.
* `fillsOf_eq_of_maxSequence` — a fill sequence that did not change means that no fill was added.
* `no_lost_update` — in every run of the clients.
-/

namespace MuStrategy.ManualPositions

open Lib

section lostUpdate

variable [DecimalDigits] [LedgerLibrary] {C : Type} [DecidableEq C]

/-! ## Stretches of a run -/

section stretches

variable {ρ : Type} {f : Tables → List ρ} {w w' : World C} {tr : List (Act C × World C)}

omit [DecimalDigits] [LedgerLibrary] [DecidableEq C] in
/-- Nothing is recorded in a part of the tables on the way. -/
def Unchanged (f : Tables → List ρ) (w : World C) (tr : List (Act C × World C)) : Prop :=
  ∀ u ∈ System.states w tr, f u.store.content = f w.store.content

/-- The latest record of a part of the tables was made in the step to `u`, after which the run goes on by
`rest`. -/
def LatestRecorded (f : Tables → List ρ) (tr : List (Act C × World C)) (w u : World C)
    (rest : List (Act C × World C)) : Prop :=
  ∃ done before act, tr = done ++ (act, u) :: rest ∧ (clients C).Run World.initial done before ∧
    (clients C).step before act u ∧ (clients C).Run u rest w ∧ f u.store.content ≠ f before.store.content ∧
    Unchanged f u rest

/-- A part of the tables that grows with them. -/
def Growing (f : Tables → List ρ) : Prop := ∀ t t' : Tables, t.Appends t' → f t <+: f t'

omit [DecimalDigits] [LedgerLibrary] in
lemma growing_fillsOf (id : String) : Growing (Tables.fillsOf id) := fun _ _ h => h.fills.filter _

omit [DecimalDigits] [LedgerLibrary] in
lemma growing_revisionsOfFill (fillId : String) : Growing (Tables.revisionsOfFill fillId) :=
  fun _ _ h => h.fills.filter _

omit [DecimalDigits] [LedgerLibrary] in
lemma growing_statesOf (id : String) : Growing (Tables.statesOf id) := fun _ _ h => h.states.filter _

omit [DecimalDigits] [LedgerLibrary] in
lemma growing_managementsOf (id : String) : Growing (Tables.managementsOf id) := fun _ _ h => h.managements.filter _

/-- A part that is no longer at the end did not change on the way. -/
lemma unchanged_of_ends (hf : Growing f) (hr : (clients C).Run w tr w')
    (hlength : (f w'.store.content).length ≤ (f w.store.content).length) : Unchanged f w tr := by
  intro u hu
  obtain ⟨tr₁, tr₂, -, hr₁, hr₂⟩ := hr.through hu
  have hleft := hf _ _ (clients_append hr₁)
  have hright := hf _ _ (clients_append hr₂)
  refine (hleft.eq_of_length_le ?_).symm
  exact hright.length_le.trans hlength

/-- What is recorded was recorded in some step, the latest of it. -/
lemma exists_latest (hf : Growing f) (hempty : f Tables.empty = []) (hr : (clients C).Run World.initial tr w)
    (hne : f w.store.content ≠ []) : ∃ u rest, LatestRecorded f tr w u rest ∧ f u.store.content = f w.store.content := by
  have hchange : f (World.initial : World C).store.content ≠ f w.store.content := by
    change f Tables.empty ≠ _
    rw [hempty]
    exact hne.symm
  obtain ⟨done, before, act, u, rest, rfl, hdone, hstep, hrest, hbefore, hu⟩ :=
    hr.exists_change (g := fun x : World C => f x.store.content) hchange
  refine ⟨u, rest, ⟨done, before, act, rfl, hdone, hstep, hrest, ?_, unchanged_of_ends hf hrest (by rw [hu])⟩, hu⟩
  rw [hu]
  exact hbefore.symm

end stretches

/-! ## Fill sequences -/

section sequences

variable {t t' : Tables}

omit [DecimalDigits] [LedgerLibrary] in
lemma maxSequence_le {history : List FillRow} {n : ℕ} (h : ∀ row ∈ history, row.sequence ≤ n) :
    maxSequence history ≤ n := by
  have hfold : ∀ (xs : List ℕ) (m : ℕ), m ≤ n → (∀ x ∈ xs, x ≤ n) → xs.foldl max m ≤ n := by
    intro xs
    induction xs with
    | nil => exact fun m hm _ => hm
    | cons x xs ih =>
        intro m hm hxs
        exact ih _ (max_le hm (hxs x List.mem_cons_self)) fun y hy => hxs y (List.mem_cons_of_mem _ hy)
  refine hfold _ 0 (Nat.zero_le n) fun x hx => ?_
  obtain ⟨row, hrow, rfl⟩ := List.mem_map.mp hx
  exact h row hrow

/-- **A fill sequence that did not change means that no fill was added.** -/
theorem fillsOf_eq_of_maxSequence (h : t.Valid) (h' : t'.Valid) (hleading : t.fillRevisions <+: t'.fillRevisions)
    {id : String} (hmax : maxSequence (t'.history id) = maxSequence (t.history id)) : t'.fillsOf id = t.fillsOf id := by
  obtain ⟨more, hmore⟩ := hleading
  have hnone : more.filter (fun r => r.positionId = id) = [] := by
    refine List.filter_eq_nil_iff.mpr fun r hr hid => ?_
    -- a later row has a larger number than all rows before
    have hlater : t.fillRevisions.length + 1 ≤ r.row.sequence := by
      have hsequences := h'.sequences
      rw [← hmore, List.map_append, h.sequences, List.length_append, List.range'_append_1.symm] at hsequences
      have hmem : r.row.sequence ∈ more.map fun r => r.row.sequence := List.mem_map_of_mem hr
      rw [List.append_cancel_left hsequences, List.mem_range'_1] at hmem
      omega
    have hshown : r.row.sequence ≤ maxSequence (t'.history id) := by
      refine le_maxSequence (List.mem_map_of_mem (List.mem_filter.mpr ⟨?_, hid⟩))
      rw [← hmore]
      exact List.mem_append_right _ hr
    have hearlier : maxSequence (t.history id) ≤ t.fillRevisions.length :=
      maxSequence_le fun row hrow => (h.sequence_mem hrow).2
    omega
  rw [Tables.fillsOf, ← hmore, List.filter_append, hnone, List.append_nil]
  rfl

end sequences

/-! ## Steps that record -/

section steps

variable {w w' : World C} {act : Act C} {id : String}

/-- A step that changes the tables is the transaction of a client. -/
lemma step_new (h : w.Sound) (hne : (w.step act).store.content ≠ w.store.content) :
    ∃ p : Prepared, p.New w.store.content (w.step act).store.content := by
  rcases w.store_step act with hsame | ⟨c, r, p, -, hpending, hcommit⟩
  · exact absurd (by rw [hsame]) hne
  · rw [hcommit] at hne ⊢
    rcases (run_new h hpending).2.2.2 with hsame | ⟨hnew, -⟩
    · exact absurd hsame hne
    · exact ⟨p, hnew⟩

/-- A step that records a state of a position. -/
lemma step_state (h : w.Sound) (hne : (w.step act).store.content.statesOf id ≠ w.store.content.statesOf id) :
    ∃ r, (w.step act).store.content.statesOf id = w.store.content.statesOf id ++ [r] ∧
      r.payload.fillSequence = maxSequence (w.store.content.history id) ∧
      (w.step act).store.content.fillRevisions = w.store.content.fillRevisions := by
  have hchanged : (w.step act).store.content ≠ w.store.content := fun hsame => hne (by rw [hsame])
  obtain ⟨p, hnew⟩ := step_new h hchanged
  generalize (w.step act).store.content = t' at hne hnew
  cases p with
  | fill payload submission nowMs =>
      obtain ⟨r, hnew⟩ := hnew
      exact absurd (by rw [Tables.statesOf, Tables.states, hnew.states]; rfl) hne
  | management payload request values nowMs =>
      obtain ⟨r, hnew⟩ := hnew
      exact absurd (by rw [Tables.statesOf, hnew.states]; rfl) hne
  | state payload request record =>
      obtain ⟨r, hnew⟩ := hnew
      have hrows : t'.statesOf id =
          if decide (r.positionId = id) then w.store.content.statesOf id ++ [r] else w.store.content.statesOf id := by
        rw [Tables.statesOf, hnew.states, filter_concat]
        rfl
      by_cases hid : r.positionId = id
      · subst hid
        rw [decide_eq_true rfl, if_pos rfl] at hrows
        exact ⟨r, hrows, hnew.fillSequence, hnew.fills⟩
      · rw [decide_eq_false hid, if_neg Bool.false_ne_true] at hrows
        exact absurd hrows hne

/-- A step that records management inputs of a position. -/
lemma step_management (h : w.Sound)
    (hne : (w.step act).store.content.managementsOf id ≠ w.store.content.managementsOf id) :
    ∃ r, (w.step act).store.content.managementsOf id = w.store.content.managementsOf id ++ [r] ∧
      r.payload.fillSequence = maxSequence (w.store.content.history id) ∧
      r.payload.stateRevision = (w.store.content.statesOf id).length ∧
      (w.step act).store.content.fillRevisions = w.store.content.fillRevisions ∧
      (w.step act).store.content.states = w.store.content.states := by
  have hchanged : (w.step act).store.content ≠ w.store.content := fun hsame => hne (by rw [hsame])
  obtain ⟨p, hnew⟩ := step_new h hchanged
  generalize (w.step act).store.content = t' at hne hnew
  cases p with
  | fill payload submission nowMs =>
      obtain ⟨r, hnew⟩ := hnew
      exact absurd (by rw [Tables.managementsOf, Tables.managements, hnew.managements]; rfl) hne
  | state payload request record =>
      obtain ⟨r, hnew⟩ := hnew
      exact absurd (by rw [Tables.managementsOf, hnew.managements]; rfl) hne
  | management payload request values nowMs =>
      obtain ⟨r, hnew⟩ := hnew
      have hrows : t'.managementsOf id = if decide (r.positionId = id) then w.store.content.managementsOf id ++ [r]
          else w.store.content.managementsOf id := by
        rw [Tables.managementsOf, hnew.managements, filter_concat]
        rfl
      by_cases hid : r.positionId = id
      · subst hid
        rw [decide_eq_true rfl, if_pos rfl] at hrows
        exact ⟨r, hrows, hnew.fillSequence, hnew.stateRevision, hnew.fills, hnew.states⟩
      · rw [decide_eq_false hid, if_neg Bool.false_ne_true] at hrows
        exact absurd hrows hne

end steps

/-! ## Forms built from what was read -/

/-- A form that revises a fill of a position as it was shown. -/
structure Revises (v : PositionView) (row : FillRow) (payload : Payload) : Prop where
  shown : row ∈ v.projection.fills
  command : payload.get "command" = some "revise"
  position : payload.get "position_id" = some v.position.positionId
  fill : payload.get "fill_id" = some row.fillId
  revision : payload.get "expected_revision" = some (toString row.revision)

/-- A form that confirms the state of a position as it was shown. -/
structure ConfirmsState (v : PositionView) (payload : Payload) : Prop where
  position : payload.get "position_id" = some v.position.positionId
  fills : payload.get "expected_fill_sequence" = some (toString v.projection.fillSequence)
  states : payload.get "expected_state_revision" = some (toString v.currentState.revision)

/-- A form that confirms management inputs of a position as it was shown. -/
structure ConfirmsManagement (v : PositionView) (payload : Payload) : Prop extends ConfirmsState v payload where
  managements : payload.get "expected_management_revision" = some (toString v.managementRevision)

/-- The transaction is answered, and something new is on record. -/
def Accepted (p : Prepared) (s : Store) : Prop :=
  (∃ id, (p.run s).2 = .ok id) ∧ (p.run s).1.content ≠ s.content

/-- What a client recorded, and what it had read: the run `tr` reads `v` in the state `u`, goes on by `rest`
to `w`, and the transaction `p` of the request `r` is accepted there. -/
structure ReadThenAccepted (tr : List (Act C × World C)) (w u : World C) (rest : List (Act C × World C))
    (v : PositionView) (r : Request) : Prop where
  seam : ∃ done, tr = done ++ rest ∧ (clients C).Run World.initial done u ∧ (clients C).Run u rest w
  shown : ∃ views, u.store.read = .ok views ∧ v ∈ views
  accepted : ∃ c p, w.pending c = some (r, p) ∧ Accepted p w.store

/-- What the ledger guarantees to its clients after a run. -/
structure NoLostUpdate (tr : List (Act C × World C)) (w : World C) : Prop where
  /-- A fill is revised as it was shown. -/
  revise : ∀ u rest v r row, ReadThenAccepted tr w u rest v r → r.method = .save → Revises v row r.payload →
    Unchanged (Tables.revisionsOfFill row.fillId) u rest
  /-- A state is confirmed against the fills and the state that were shown. -/
  state : ∀ u rest v r, ReadThenAccepted tr w u rest v r → r.method = .saveState → ConfirmsState v r.payload →
    Unchanged (Tables.fillsOf v.position.positionId) u rest ∧ Unchanged (Tables.statesOf v.position.positionId) u rest
  /-- Management inputs are confirmed against the fills, the state and the inputs that were shown. -/
  management : ∀ u rest v r, ReadThenAccepted tr w u rest v r → r.method = .saveManagement →
    ConfirmsManagement v r.payload →
    Unchanged (Tables.fillsOf v.position.positionId) u rest ∧
      Unchanged (Tables.statesOf v.position.positionId) u rest ∧
      Unchanged (Tables.managementsOf v.position.positionId) u rest
  /-- A state is reported confirmed exactly while the position is open and no fill came after it. -/
  confirmed : ∀ views v, w.store.read = .ok views → v ∈ views → (v.currentState.status = .confirmed ↔
    v.projection.status = .open ∧ ∃ u rest, LatestRecorded (Tables.statesOf v.position.positionId) tr w u rest ∧
      Unchanged (Tables.fillsOf v.position.positionId) u rest)
  /-- Management inputs are reported confirmed exactly while the position is open and neither a fill nor a
  state came after them. -/
  managed : ∀ views v, w.store.read = .ok views → v ∈ views → (v.managementInputs.status = .confirmed ↔
    v.projection.status = .open ∧ ∃ u rest, LatestRecorded (Tables.managementsOf v.position.positionId) tr w u rest ∧
      Unchanged (Tables.fillsOf v.position.positionId) u rest ∧
      Unchanged (Tables.statesOf v.position.positionId) u rest)

section guarantees

variable {w u : World C} {tr rest : List (Act C × World C)} {views : List PositionView} {v : PositionView} {r : Request}

omit [DecidableEq C] in
/-- A store that can be read shows its tables. -/
lemma World.Sound.reads (h : w.Sound) (hread : w.store.read = .ok views) (hv : v ∈ views) :
    v.Reads w.store.content := by
  unfold Store.read at hread
  split at hread
  · cases hread
    exact absurd hv List.not_mem_nil
  · cases hread
  · rename_i t hstore
    have hcontent : w.store.content = t := by rw [hstore]; rfl
    rw [hcontent]
    refine read_counts ?_ hread hv
    rw [← hcontent]
    exact h.numbered

/-- The state a client read and the state its transaction finds. -/
lemma ReadThenAccepted.spec (h : ReadThenAccepted tr w u rest v r) : u.Sound ∧ w.Sound ∧ (clients C).Run u rest w ∧
    v.Reads u.store.content ∧ ∃ p : Prepared, p.ChecksOf r ∧ p.method = r.method ∧
      r.payload.get "position_id" = some p.request.positionId ∧ ∃ t, p.New w.store.content t := by
  obtain ⟨done, -, hdone, hrest⟩ := h.seam
  have hu := run_sound hdone initial_sound
  have hw := run_sound hrest hu
  obtain ⟨views, hread, hv⟩ := h.shown
  obtain ⟨c, p, hpending, -, hne⟩ := h.accepted
  obtain ⟨hchecks, hmethod, hrequest, hrun⟩ := run_new hw hpending
  simp only [requestIdentity, bind_eq_ok, pure_eq_ok_iff] at hrequest
  obtain ⟨requestId, -, positionId, hposition, hidentity⟩ := hrequest
  refine ⟨hu, hw, hrest, hu.reads hread hv, p, hchecks, hmethod, ?_, _, (hrun.resolve_left hne).1⟩
  rw [← hidentity]
  exact identifier_eq_ok hposition

omit [DecimalDigits] [LedgerLibrary] in
/-- Equal texts of counters are equal counters. -/
lemma counter_inj {m n : ℕ} {text : Option String} (h : text = some (toString m)) (h' : text = some (toString n)) :
    m = n := Nat.repr_injective (Option.some.inj (h.symm.trans h'))

/-- The fills of a position did not change while its fill sequence did not. -/
lemma unchanged_fills (hu : u.Sound) (hw : w.Sound) (hr : (clients C).Run u rest w) {id : String}
    (hmax : maxSequence (w.store.content.history id) = maxSequence (u.store.content.history id)) :
    Unchanged (Tables.fillsOf id) u rest := by
  refine unchanged_of_ends (growing_fillsOf id) hr ?_
  rw [fillsOf_eq_of_maxSequence hu.numbered.valid hw.numbered.valid (clients_append hr).fills hmax]

/-- **A fill is revised as it was shown.** -/
lemma revise_unchanged {row : FillRow} (h : ReadThenAccepted tr w u rest v r) (hmethod : r.method = .save)
    (hform : Revises v row r.payload) : Unchanged (Tables.revisionsOfFill row.fillId) u rest := by
  obtain ⟨hu, hw, hrest, hreads, p, hchecks, hkind, -, t, hnew⟩ := h.spec
  refine unchanged_of_ends (growing_revisionsOfFill _) hrest (le_of_eq ?_)
  have hshown := hform.shown
  rw [hreads.fills] at hshown
  rw [← hu.numbered.revision_eq hshown]
  cases p with
  | state payload request record => rw [hmethod] at hkind; cases hkind
  | management payload request values nowMs => rw [hmethod] at hkind; cases hkind
  | fill payload submission nowMs =>
      obtain ⟨rfl, hcommand⟩ := hchecks
      obtain ⟨added, hnew⟩ := hnew
      have hrevise : submission.command = .revise := by
        rw [hform.command] at hcommand
        exact (Option.some.inj hcommand).symm
      rcases hnew.kind with ⟨hcreate, -⟩ | ⟨previous, hprevious, hfill, hexpected, -⟩
      · exact absurd hrevise hcreate
      · have hsame : previous.fillId = row.fillId := Option.some.inj (hfill.symm.trans hform.fill)
        rw [← hsame, ← hw.numbered.revision_eq hprevious]
        exact counter_inj hexpected hform.revision

/-- **A state is confirmed against the fills and the state that were shown.** -/
lemma state_unchanged (h : ReadThenAccepted tr w u rest v r) (hmethod : r.method = .saveState)
    (hform : ConfirmsState v r.payload) :
    Unchanged (Tables.fillsOf v.position.positionId) u rest ∧
      Unchanged (Tables.statesOf v.position.positionId) u rest := by
  obtain ⟨hu, hw, hrest, hreads, p, hchecks, hkind, hposition, t, hnew⟩ := h.spec
  cases p with
  | fill payload submission nowMs => rw [hmethod] at hkind; cases hkind
  | management payload request values nowMs => rw [hmethod] at hkind; cases hkind
  | state payload request record =>
      obtain ⟨rfl, -⟩ := hchecks
      obtain ⟨added, hnew⟩ := hnew
      have hid : added.positionId = v.position.positionId := by
        rw [hnew.position]
        exact Option.some.inj (hposition.symm.trans hform.position)
      have hfills := hform.fills
      have hstates := hform.states
      rw [hreads.fillSequence, ← hid] at hfills
      rw [hreads.stateRevision, ← hid] at hstates
      rw [← hid]
      exact ⟨unchanged_fills hu hw hrest (counter_inj hnew.expectedFill hfills),
        unchanged_of_ends (growing_statesOf _) hrest (counter_inj hnew.expectedState hstates).le⟩

/-- **Management inputs are confirmed against all that was shown.** -/
lemma management_unchanged (h : ReadThenAccepted tr w u rest v r) (hmethod : r.method = .saveManagement)
    (hform : ConfirmsManagement v r.payload) :
    Unchanged (Tables.fillsOf v.position.positionId) u rest ∧
      Unchanged (Tables.statesOf v.position.positionId) u rest ∧
      Unchanged (Tables.managementsOf v.position.positionId) u rest := by
  obtain ⟨hu, hw, hrest, hreads, p, hchecks, hkind, hposition, t, hnew⟩ := h.spec
  cases p with
  | fill payload submission nowMs => rw [hmethod] at hkind; cases hkind
  | state payload request record => rw [hmethod] at hkind; cases hkind
  | management payload request values nowMs =>
      obtain rfl : payload = r.payload := hchecks
      obtain ⟨added, hnew⟩ := hnew
      have hid : added.positionId = v.position.positionId := by
        rw [hnew.position]
        exact Option.some.inj (hposition.symm.trans hform.position)
      have hfills := hform.fills
      have hstates := hform.states
      have hmanagements := hform.managements
      rw [hreads.fillSequence, ← hid] at hfills
      rw [hreads.stateRevision, ← hid] at hstates
      rw [hreads.managementRevision, ← hid] at hmanagements
      rw [← hid]
      exact ⟨unchanged_fills hu hw hrest (counter_inj hnew.expectedFill hfills),
        unchanged_of_ends (growing_statesOf _) hrest (counter_inj hnew.expectedState hstates).le,
        unchanged_of_ends (growing_managementsOf _) hrest (counter_inj hnew.expectedManagement hmanagements).le⟩

omit [DecimalDigits] [LedgerLibrary] [DecidableEq C] in
/-- Parts that agree have the same fill sequences. -/
lemma history_of_fillsOf {t t' : Tables} {id : String} (h : t'.fillsOf id = t.fillsOf id) :
    t'.history id = t.history id := congrArg (List.map FillRevision.row) h

/-- The latest state of a position names the fills there were. -/
lemma LatestRecorded.state {id : String} (h : LatestRecorded (Tables.statesOf id) tr w u rest) :
    u.Sound ∧ (clients C).Run u rest w ∧ ∃ r, (w.store.content.statesOf id).getLast? = some r ∧
      r.payload.fillSequence = maxSequence (u.store.content.history id) := by
  obtain ⟨done, before, act, -, hdone, hstep, hrest, hchange, hunchanged⟩ := h
  have hbefore := run_sound hdone initial_sound
  obtain rfl : u = before.step act := hstep
  obtain ⟨r, hrows, hsequence, hfills⟩ := step_state hbefore hchange
  refine ⟨hbefore.step act, hrest, r, ?_, ?_⟩
  · rw [hunchanged w hrest.end_mem, hrows, List.getLast?_concat]
  · rw [hsequence, Tables.history, Tables.history, hfills]

/-- The latest management inputs of a position name the fills and the states there were. -/
lemma LatestRecorded.management {id : String} (h : LatestRecorded (Tables.managementsOf id) tr w u rest) :
    u.Sound ∧ (clients C).Run u rest w ∧ ∃ r, (w.store.content.managementsOf id).getLast? = some r ∧
      r.payload.fillSequence = maxSequence (u.store.content.history id) ∧
      r.payload.stateRevision = (u.store.content.statesOf id).length := by
  obtain ⟨done, before, act, -, hdone, hstep, hrest, hchange, hunchanged⟩ := h
  have hbefore := run_sound hdone initial_sound
  obtain rfl : u = before.step act := hstep
  obtain ⟨r, hrows, hsequence, hrevision, hfills, hstates⟩ := step_management hbefore hchange
  refine ⟨hbefore.step act, hrest, r, ?_, ?_, ?_⟩
  · rw [hunchanged w hrest.end_mem, hrows, List.getLast?_concat]
  · rw [hsequence, Tables.history, Tables.history, hfills]
  · rw [hrevision, Tables.statesOf, Tables.statesOf, hstates]

omit [DecimalDigits] [LedgerLibrary] in
/-- A state is confirmed when the latest one names the fills that are shown. -/
lemma currentState_confirmed {p : Projection} {history : List (Revision StateRecord)} :
    (currentState p history).status = .confirmed ↔ p.status = .open ∧
      ∃ r, history.getLast? = some r ∧ r.payload.fillSequence = p.fillSequence := by
  unfold currentState
  by_cases hopen : p.status = .open
  · cases hlast : history.getLast? with
    | none => simp [hopen]
    | some r => by_cases hsequence : r.payload.fillSequence = p.fillSequence <;> simp [hopen, hsequence]
  · simp [hopen]

omit [DecimalDigits] [LedgerLibrary] in
/-- Management inputs are confirmed when the latest ones name the fills and the state that are shown. -/
lemma currentManagement_confirmed {p : Projection} {state : CurrentState} {history : List (Revision ManagementRecord)} :
    (currentManagement p state history).status = .confirmed ↔ p.status = .open ∧
      ∃ r, history.getLast? = some r ∧ r.payload.fillSequence = p.fillSequence ∧
        r.payload.stateRevision = state.revision := by
  unfold currentManagement
  by_cases hopen : p.status = .open
  · cases hlast : history.getLast? with
    | none => simp [hopen]
    | some r =>
        by_cases hsequence : r.payload.fillSequence = p.fillSequence <;>
          by_cases hrevision : r.payload.stateRevision = state.revision <;> simp [hopen, hsequence, hrevision]
  · simp [hopen]

/-- **A state is reported confirmed exactly while no fill came after it.** -/
lemma confirmed_iff (hr : (clients C).Run World.initial tr w) (hread : w.store.read = .ok views) (hv : v ∈ views) :
    v.currentState.status = .confirmed ↔ v.projection.status = .open ∧
      ∃ u rest, LatestRecorded (Tables.statesOf v.position.positionId) tr w u rest ∧
        Unchanged (Tables.fillsOf v.position.positionId) u rest := by
  have hw := run_sound hr initial_sound
  have hreads := hw.reads hread hv
  rw [PositionView.currentState, currentState_confirmed, hreads.states, hreads.fillSequence]
  refine and_congr_right fun _ => ⟨?_, ?_⟩
  · rintro ⟨r, hlast, hsequence⟩
    have hne : w.store.content.statesOf v.position.positionId ≠ [] := by
      intro hnil
      rw [hnil] at hlast
      cases hlast
    obtain ⟨u, rest, hlatest, -⟩ := exists_latest (growing_statesOf _) rfl hr hne
    obtain ⟨hu, hrest, r', hlast', hsequence'⟩ := hlatest.state
    obtain rfl := Option.some.inj (hlast.symm.trans hlast')
    exact ⟨u, rest, hlatest, unchanged_fills hu hw hrest (hsequence.symm.trans hsequence')⟩
  · rintro ⟨u, rest, hlatest, hfills⟩
    obtain ⟨-, hrest, r, hlast, hsequence⟩ := hlatest.state
    exact ⟨r, hlast, by rw [hsequence, history_of_fillsOf (hfills w hrest.end_mem)]⟩

/-- **Management inputs are reported confirmed exactly while neither a fill nor a state came after them.** -/
lemma managed_iff (hr : (clients C).Run World.initial tr w) (hread : w.store.read = .ok views) (hv : v ∈ views) :
    v.managementInputs.status = .confirmed ↔ v.projection.status = .open ∧
      ∃ u rest, LatestRecorded (Tables.managementsOf v.position.positionId) tr w u rest ∧
        Unchanged (Tables.fillsOf v.position.positionId) u rest ∧
        Unchanged (Tables.statesOf v.position.positionId) u rest := by
  have hw := run_sound hr initial_sound
  have hreads := hw.reads hread hv
  rw [PositionView.managementInputs, currentManagement_confirmed, hreads.managements, hreads.fillSequence,
    hreads.stateRevision]
  refine and_congr_right fun _ => ⟨?_, ?_⟩
  · rintro ⟨r, hlast, hsequence, hrevision⟩
    have hne : w.store.content.managementsOf v.position.positionId ≠ [] := by
      intro hnil
      rw [hnil] at hlast
      cases hlast
    obtain ⟨u, rest, hlatest, -⟩ := exists_latest (growing_managementsOf _) rfl hr hne
    obtain ⟨hu, hrest, r', hlast', hsequence', hrevision'⟩ := hlatest.management
    obtain rfl := Option.some.inj (hlast.symm.trans hlast')
    exact ⟨u, rest, hlatest, unchanged_fills hu hw hrest (hsequence.symm.trans hsequence'),
      unchanged_of_ends (growing_statesOf _) hrest (hrevision.symm.trans hrevision').le⟩
  · rintro ⟨u, rest, hlatest, hfills, hstates⟩
    obtain ⟨-, hrest, r, hlast, hsequence, hrevision⟩ := hlatest.management
    exact ⟨r, hlast, by rw [hsequence, history_of_fillsOf (hfills w hrest.end_mem)],
      by rw [hrevision, hstates w hrest.end_mem]⟩

end guarantees

/-- **No update is lost, and what is reported confirmed is**: over every interleaving of the clients. -/
theorem no_lost_update {w : World C} {tr : List (Act C × World C)} (hr : (clients C).Run World.initial tr w) :
    NoLostUpdate tr w where
  revise _ _ _ _ _ h hmethod hform := revise_unchanged h hmethod hform
  state _ _ _ _ h hmethod hform := state_unchanged h hmethod hform
  management _ _ _ _ h hmethod hform := management_unchanged h hmethod hform
  confirmed _ _ hread hv := confirmed_iff hr hread hv
  managed _ _ hread hv := managed_iff hr hread hv

end lostUpdate

/-! ## Two clients -/

section concrete

attribute [local instance] asciiDigits noConfigurations

/-- A form that confirms the state after the first fill. -/
def demoState : Request where
  method := .saveState
  payload := [("request_id", demoIdentity "2"), ("position_id", demoIdentity "0"), ("confirmed", "yes"),
    ("stage", "1"), ("expected_fill_sequence", "1"), ("expected_state_revision", "0")]
  nowMs := 1767258000000
  entries _ := pure none
  now_pos := demoNow_pos

/-- A buy, a confirmation of it, and a sell that another client prepared meanwhile. -/
def demoActs : List (Act Bool) :=
  [.start true (demoFill "1" [("command", "create"), ("action", "buy"), ("quantity", "2"),
      ("symbol", "MU-USDT-SWAP"), ("executed_at", "2026-01-01T09:00")]), .commit true, .start true demoState,
    .start false (demoFill "3" [("command", "append"), ("action", "sell"), ("quantity", "0.5"),
      ("executed_at", "2026-01-01T10:00")]), .commit true, .commit false]

/-- What the ledger reports of the state after some of them. -/
def demoReport (n : ℕ) : Except LedgerError (List StateStatus) :=
  ((demoActs.take n).foldl World.step World.initial).store.read.map fun views =>
    views.map fun v => v.currentState.status

/-- The confirmation holds until the sell, and the guarantees hold after all of it. -/
theorem no_lost_update_demo :
    demoReport 5 = .ok [.confirmed] ∧ demoReport 6 = .ok [.needsReview] ∧
      NoLostUpdate (System.traceFn World.step World.initial demoActs) (demoActs.foldl World.step World.initial) :=
  ⟨by decide +kernel, by decide +kernel, no_lost_update (System.run_traceFn _ _ _ _)⟩

end concrete

end MuStrategy.ManualPositions
