import MuStrategy.Lib.Levels
import MuStrategy.ManualPositions.Validity

/-!
# Buys by stage

The review of a position works on stages of its strategy: the buys that a person mapped to a stage are one entry.

* `projectRuleFillsByStage` — the entries, in exact arithmetic.
* `AcceptedMapping` — the mappings that can be projected.
* `StageProjection` — what is projected: an entry for each stage, each buy in one of them, no quantity or cost lost.
* `stage_projection` — exactly the accepted mappings are projected, and so are they.
-/

namespace MuStrategy.ManualPositions

open Lib

/-! ## Entries -/

section entries

variable [DecimalDigits]

/-- `Decimal(text)`, as an exact number. -/
def exactDecimal (text : String) : Except LedgerError ℚ := do
  let value ← orThrow (Decimal.ofText? text.toList) (.value "InvalidOperation")
  pure value.toRat

/-- The buys of a stage as one. Source: `position_management.py` `project_rule_fills`. -/
structure StageFill where
  stage : ℕ
  timeMs : ℤ
  price : ℚ
  units : ℚ
  sources : List (String × ℕ)

/-- The stage a mapping gives to a buy. -/
def stageOf (record : ManagementRecord) (row : FillRow) : Option ℕ := (record.fillStages.lookup row.fillId).join

/-- The product of quantity and price. -/
def costOf (row : FillRow) : Except LedgerError ℚ := do
  let quantity ← exactDecimal row.fill.quantity
  let price ← exactDecimal row.fill.price
  pure (quantity * price)

/-- The identity and revision of a fill. -/
def FillRow.source (row : FillRow) : String × ℕ := (row.fillId, row.revision)

/-- An entry. Without rows, it divides by zero. -/
def stageFill (stage : ℕ) (rows : List FillRow) : Except LedgerError StageFill := do
  let quantities ← rows.mapM fun row => exactDecimal row.fill.quantity
  let costs ← rows.mapM costOf
  require (quantities.sum ≠ 0) (.value "division by zero")
  let last ← orThrow rows.getLast? (.value "list index out of range")
  pure ⟨stage, last.fill.timeMs, costs.sum / quantities.sum, quantities.sum, rows.map FillRow.source⟩

/-- Source: `position_management.py` `project_rule_fills`, with its result. -/
def projectRuleFillsByStage (p : Projection) (currentStage : Option ℕ) (record : ManagementRecord) :
    Except LedgerError (List StageFill) := do
  projectRuleFills p currentStage record
  let buys := activeBuys p
  let highest := (buys.filterMap (stageOf record)).foldl max 0
  (List.range' 1 highest).mapM fun stage => stageFill stage (buys.filter fun row => stageOf record row = some stage)

end entries

/-! ## The buys of a position -/

lemma track_ids (fills : List LatestFill) (row : FillRow) : (track fills row).map (fun f => f.row.fillId) =
    if row.fillId ∈ fills.map (fun f => f.row.fillId) then fills.map fun f => f.row.fillId
    else fills.map (fun f => f.row.fillId) ++ [row.fillId] := by
  have hany : (fills.any fun f => f.row.fillId = row.fillId) = true ↔
      row.fillId ∈ fills.map fun f => f.row.fillId := by
    rw [List.any_eq_true, List.mem_map]
    exact exists_congr fun f => and_congr_right fun _ => decide_eq_true_iff
  unfold track
  by_cases hmem : row.fillId ∈ fills.map fun f => f.row.fillId
  · rw [if_pos (hany.mpr hmem), if_pos hmem, List.map_map]
    refine List.map_congr_left fun f _ => ?_
    by_cases hid : f.row.fillId = row.fillId <;> simp [hid]
  · rw [if_neg fun h => hmem (hany.mp h), if_neg hmem, List.map_append]
    rfl

/-- A fill has one latest revision. -/
lemma latestFills_nodup (history : List FillRow) : ((latestFills history).map fun f => f.row.fillId).Nodup := by
  have hfold : ∀ (history : List FillRow) (fills : List LatestFill), (fills.map fun f => f.row.fillId).Nodup →
      ((history.foldl track fills).map fun f => f.row.fillId).Nodup := by
    intro history
    induction history with
    | nil => exact fun fills h => h
    | cons row history ih =>
        intro fills h
        refine ih (track fills row) ?_
        rw [track_ids]
        split
        · exact h
        · rename_i hnew
          refine List.nodup_append.mpr ⟨h, List.nodup_singleton _, fun a ha b hb hab => ?_⟩
          rw [List.mem_singleton] at hb
          exact hnew (hb ▸ hab ▸ ha)
  exact hfold history [] List.nodup_nil

/-- The ledger order is that of the execution times. -/
lemma ledgerOrder_times (history : List FillRow) :
    (ledgerOrder history).Pairwise fun a b => a.fill.timeMs ≤ b.fill.timeMs := by
  have htotal : Std.Total fun a b : LatestFill => (LatestFill.before a b : Prop) := ⟨fun a b => by
    simp only [LatestFill.before, Bool.or_eq_true, Bool.and_eq_true, decide_eq_true_eq]
    omega⟩
  have htrans : IsTrans LatestFill fun a b => (LatestFill.before a b : Prop) := ⟨fun a b c => by
    simp only [LatestFill.before, Bool.or_eq_true, Bool.and_eq_true, decide_eq_true_eq]
    omega⟩
  rw [ledgerOrder, List.pairwise_map]
  refine (List.pairwise_insertionSort (fun a b => (LatestFill.before a b : Prop)) _).imp fun hbefore => ?_
  simp only [LatestFill.before, Bool.or_eq_true, Bool.and_eq_true, decide_eq_true_eq] at hbefore
  omega

section ledger

variable [DecimalDigits]

/-- The price of a fill. -/
def price (row : FillRow) : ℚ :=
  match decimal (some row.fill.price) "实际价格" with
  | .ok d => d.toRat
  | .error _ => 0

/-- The cost of a fill. -/
def cost (row : FillRow) : ℚ := units row * price row

/-- What the ledger guarantees of the buys of a position. -/
structure LedgerBuys (buys : List FillRow) : Prop where
  ids : (buys.map FillRow.fillId).Nodup
  times : buys.Pairwise fun a b => a.fill.timeMs ≤ b.fill.timeMs
  quantity : ∀ row ∈ buys, exactDecimal row.fill.quantity = .ok (units row)
  price : ∀ row ∈ buys, exactDecimal row.fill.price = .ok (price row)
  pos : ∀ row ∈ buys, 0 < units row

/-- A number that the ledger accepts. -/
lemma exactDecimal_of_decimal {text label : String} {d : Decimal} (h : decimal (some text) label = .ok d) :
    exactDecimal text = .ok d.toRat := by
  obtain ⟨text', htext, -, hof, -⟩ := decimal_eq_ok.mp h
  obtain rfl := Option.some.inj htext
  rw [exactDecimal, hof, orThrow_some, ok_bind]
  rfl

/-- The replay accepts the numbers of all fills that count. -/
lemma decimals_of_replay {rows : List FillRow} {r r' : Replay} (h : replayFrom r rows = .ok r') :
    ∀ row ∈ rows, row.fill.voided = false → ∃ quantity price,
      decimal (some row.fill.quantity) "实际数量" = .ok quantity ∧ decimal (some row.fill.price) "实际价格" = .ok price := by
  induction rows generalizing r with
  | nil => exact fun row hrow => by cases hrow
  | cons first rows ih =>
      obtain ⟨next, hfirst, hrest⟩ := bind_eq_ok.mp h
      intro row hrow hcounts
      rcases List.mem_cons.mp hrow with rfl | hrow
      · rw [Replay.apply, hcounts, if_neg Bool.false_ne_true] at hfirst
        obtain ⟨quantity, price, hquantity, hprice, -⟩ := Replay.applyActive_eq_ok.mp hfirst
        exact ⟨quantity, price, hquantity, hprice⟩
      · exact ih hrest row hrow hcounts

/-- The buys of a position that is read. -/
lemma ledgerBuys_of_project {history : List FillRow} {p : Projection} (h : project history = .ok p) :
    LedgerBuys (activeBuys p) := by
  obtain ⟨r, hreplay, hp⟩ := bind_eq_ok.mp h
  rw [pure_eq_ok_iff] at hp
  subst hp
  have hdecimals : ∀ row ∈ activeBuys (.ofReplay history r), ∃ quantity price,
      decimal (some row.fill.quantity) "实际数量" = .ok quantity ∧
        decimal (some row.fill.price) "实际价格" = .ok price := by
    intro row hrow
    obtain ⟨hrow, hcounts⟩ := List.mem_filter.mp hrow
    rw [Bool.and_eq_true, Bool.not_eq_true'] at hcounts
    exact decimals_of_replay hreplay row hrow hcounts.1
  refine ⟨?_, (ledgerOrder_times history).filter _, fun row hrow => ?_, fun row hrow => ?_, fun row hrow => ?_⟩
  · have hids : ((ledgerOrder history).map FillRow.fillId).Nodup := by
      rw [ledgerOrder, List.map_map]
      exact ((List.perm_insertionSort _ _).map _).nodup_iff.mpr (latestFills_nodup history)
    exact hids.sublist (List.filter_sublist.map FillRow.fillId)
  · obtain ⟨quantity, price, hquantity, -⟩ := hdecimals row hrow
    rw [units, hquantity]
    exact exactDecimal_of_decimal hquantity
  · obtain ⟨quantity, price, -, hprice⟩ := hdecimals row hrow
    rw [ManualPositions.price, hprice]
    exact exactDecimal_of_decimal hprice
  · obtain ⟨quantity, price, hquantity, -⟩ := hdecimals row hrow
    rw [units, hquantity]
    exact (amount_of_decimal hquantity).toRat_pos

end ledger

/-! ## AcceptedMapping mappings -/

/-- The mapping covers exactly the buys, in their current revisions, and their stages climb from one to the
confirmed stage. -/
structure AcceptedMapping (record : ManagementRecord) (buys : List FillRow) (currentStage : Option ℕ) : Prop where
  stages : ∀ id, (record.fillStages.lookup id).isSome ↔ ∃ row ∈ buys, row.fillId = id
  revisions : ∀ id revision, record.fillRevisions.lookup id = some revision ↔
    ∃ row ∈ buys, row.fillId = id ∧ row.revision = revision
  climbs : ∃ levels, buys.map (stageOf record) = levels.map some ∧ Climbs levels currentStage

lemma sameNames_iff {a b : List String} : sameNames a b = true ↔ ∀ name, name ∈ a ↔ name ∈ b := by
  rw [sameNames, Bool.and_eq_true, List.all_eq_true, List.all_eq_true]
  constructor
  · rintro ⟨hab, hba⟩ name
    exact ⟨fun ha => of_decide_eq_true (hab name ha), fun hb => of_decide_eq_true (hba name hb)⟩
  · intro h
    exact ⟨fun name ha => decide_eq_true ((h name).mp ha), fun name hb => decide_eq_true ((h name).mpr hb)⟩

lemma lookup_isSome {α : Type} (entries : List (String × α)) (id : String) :
    (entries.lookup id).isSome ↔ id ∈ entries.map Prod.fst := by
  rw [List.lookup_isSome_iff, List.mem_map]
  refine exists_congr fun entry => and_congr_right fun _ => ?_
  rw [beq_iff_eq]
  exact eq_comm

lemma mapM_eq_some {α β : Type} {f : α → Option β} {xs : List α} {ys : List β} :
    xs.mapM f = some ys ↔ xs.map f = ys.map some := by
  induction xs generalizing ys with
  | nil => cases ys <;> simp
  | cons x xs ih =>
      rw [List.mapM_cons, List.map_cons]
      constructor
      · intro h
        obtain ⟨y, hy, h⟩ := Option.bind_eq_some_iff.mp h
        obtain ⟨rest, hrest, h⟩ := Option.bind_eq_some_iff.mp h
        obtain rfl := Option.some.inj h
        rw [hy, ih.mp hrest]
        rfl
      · intro h
        cases ys with
        | nil => cases h
        | cons y ys =>
            obtain ⟨hy, hrest⟩ := List.cons.inj h
            rw [hy, ih.mpr hrest]
            rfl

/-- The mapping has exactly the current revisions. -/
lemma revisions_iff {record : ManagementRecord} {buys : List FillRow} :
    (sameNames (record.fillRevisions.map Prod.fst) (buys.map FillRow.fillId) &&
        buys.all fun row => record.fillRevisions.lookup row.fillId = some row.revision) = true ↔
      ∀ id revision, record.fillRevisions.lookup id = some revision ↔
        ∃ row ∈ buys, row.fillId = id ∧ row.revision = revision := by
  rw [Bool.and_eq_true, sameNames_iff, List.all_eq_true]
  constructor
  · rintro ⟨hnames, hcurrent⟩ id revision
    constructor
    · intro hlookup
      have hid := (lookup_isSome _ id).mp (Option.isSome_of_eq_some hlookup)
      obtain ⟨row, hrow, rfl⟩ := List.mem_map.mp ((hnames id).mp hid)
      exact ⟨row, hrow, rfl, Option.some.inj ((of_decide_eq_true (hcurrent row hrow)).symm.trans hlookup)⟩
    · rintro ⟨row, hrow, rfl, rfl⟩
      exact of_decide_eq_true (hcurrent row hrow)
  · intro h
    refine ⟨fun id => ?_, fun row hrow => decide_eq_true ((h _ _).mpr ⟨row, hrow, rfl, rfl⟩)⟩
    rw [← lookup_isSome, Option.isSome_iff_exists, List.mem_map]
    constructor
    · rintro ⟨revision, hlookup⟩
      obtain ⟨row, hrow, hid, -⟩ := (h id revision).mp hlookup
      exact ⟨row, hrow, hid⟩
    · rintro ⟨row, hrow, hid⟩
      exact ⟨row.revision, (h id row.revision).mpr ⟨row, hrow, hid, rfl⟩⟩

/-- The stages pass the checks if they climb to the confirmed one. -/
lemma stages_iff {levels : List ℕ} {currentStage : Option ℕ} :
    ((!levels.isEmpty) = true ∧
      (levels = levels.insertionSort (· ≤ ·) && levels.all (fun stage => 1 ≤ stage && stage ≤ levels.foldl max 0) &&
        (List.range' 1 (levels.foldl max 0)).all (· ∈ levels)) = true ∧
      decide (currentStage = some (levels.foldl max 0)) = true) ↔ Climbs levels currentStage := by
  rw [climbs_iff, Bool.and_eq_true, Bool.and_eq_true, List.all_eq_true, List.all_eq_true, decide_eq_true_eq,
    decide_eq_true_eq, Bool.not_eq_true', List.isEmpty_eq_false_iff]
  have hsorted : levels = levels.insertionSort (· ≤ ·) ↔ levels.Pairwise (· ≤ ·) :=
    ⟨fun h => h ▸ List.pairwise_insertionSort (· ≤ ·) levels, fun h => h.insertionSort_eq.symm⟩
  refine and_congr_right fun _ => ?_
  rw [hsorted, and_assoc, and_assoc]
  refine and_congr_right fun _ => ?_
  rw [← and_assoc]
  refine and_congr_left fun _ => ?_
  constructor
  · rintro ⟨hbounds, hall⟩ k
    refine ⟨fun hk => ?_, fun hk => ?_⟩
    · have := hbounds k hk
      rwa [Bool.and_eq_true, decide_eq_true_eq, decide_eq_true_eq] at this
    · exact of_decide_eq_true (hall k (List.mem_range'_1.mpr ⟨hk.1, by omega⟩))
  · intro h
    refine ⟨fun k hk => ?_, fun k hk => decide_eq_true ((h k).mpr ?_)⟩
    · rw [Bool.and_eq_true, decide_eq_true_eq, decide_eq_true_eq]
      exact (h k).mp hk
    · obtain ⟨hlower, hupper⟩ := List.mem_range'_1.mp hk
      exact ⟨hlower, by omega⟩

/-- **The accept check.** -/
lemma projectRuleFills_eq_ok {p : Projection} {currentStage : Option ℕ} {record : ManagementRecord} :
    projectRuleFills p currentStage record = .ok () ↔ AcceptedMapping record (activeBuys p) currentStage := by
  have hstages : sameNames (record.fillStages.map Prod.fst) ((activeBuys p).map FillRow.fillId) = true ↔
      ∀ id, (record.fillStages.lookup id).isSome ↔ ∃ row ∈ activeBuys p, row.fillId = id := by
    rw [sameNames_iff]
    refine forall_congr' fun id => ?_
    rw [lookup_isSome, List.mem_map (l := activeBuys p)]
  simp only [projectRuleFills, bind_eq_ok, require_eq_ok, orThrow_eq_ok, exists_const]
  rw [hstages, revisions_iff]
  constructor
  · rintro ⟨hall, hrevisions, levels, hlevels, hchecks⟩
    exact ⟨hall, hrevisions, levels, mapM_eq_some.mp hlevels, stages_iff.mp hchecks⟩
  · rintro ⟨hall, hrevisions, levels, hlevels, hclimbs⟩
    exact ⟨hall, hrevisions, levels, mapM_eq_some.mpr hlevels, stages_iff.mpr hclimbs⟩

/-! ## What is projected -/

section projected

variable [DecimalDigits]

/-- The buys of an entry. -/
def StageFill.rows (entry : StageFill) (buys : List FillRow) : List FillRow :=
  buys.filter fun row => row.source ∈ entry.sources

/-- One entry for each stage up to the confirmed one, each buy in exactly one entry, and no quantity or cost lost. -/
structure StageProjection (buys : List FillRow) (currentStage : Option ℕ) (entries : List StageFill) : Prop where
  stages : ∃ top, currentStage = some top ∧ entries.map StageFill.stage = List.range' 1 top
  sources : entries.flatMap StageFill.sources = buys.map FillRow.source
  once : ∀ row ∈ buys, ∃! entry, entry ∈ entries ∧ row.source ∈ entry.sources
  units : ∀ entry ∈ entries, entry.units = ((entry.rows buys).map units).sum
  cost : ∀ entry ∈ entries, entry.units * entry.price = ((entry.rows buys).map cost).sum
  totalUnits : (entries.map StageFill.units).sum = (buys.map ManualPositions.units).sum
  totalCost : (entries.map fun entry => entry.units * entry.price).sum = (buys.map ManualPositions.cost).sum
  times : entries.Pairwise fun a b => a.timeMs ≤ b.timeMs

/-- The entry of a stage, if there are rows. -/
def stageEntry (rows : List FillRow) (stage : ℕ) : StageFill where
  stage := stage
  timeMs := (rows.getLast?.map fun row => row.fill.timeMs).getD 0
  price := (rows.map cost).sum / (rows.map units).sum
  units := (rows.map units).sum
  sources := rows.map FillRow.source

variable {buys rows : List FillRow}

lemma sum_units_pos (h : ∀ row ∈ rows, 0 < units row) (hne : rows ≠ []) : 0 < (rows.map units).sum := by
  refine List.sum_pos _ (fun x hx => ?_) (by simpa using hne)
  obtain ⟨row, hrow, rfl⟩ := List.mem_map.mp hx
  exact h row hrow

/-- A stage with rows has its entry. -/
lemma stageFill_eq (h : LedgerBuys buys) (hrows : ∀ row ∈ rows, row ∈ buys) (hne : rows ≠ []) (stage : ℕ) :
    stageFill stage rows = .ok (stageEntry rows stage) := by
  have hquantities : rows.mapM (fun row => exactDecimal row.fill.quantity) = .ok (rows.map units) :=
    mapM_eq_ok fun row hrow => h.quantity row (hrows row hrow)
  have hcosts : rows.mapM costOf = .ok (rows.map cost) := by
    refine mapM_eq_ok fun row hrow => ?_
    rw [costOf, h.quantity row (hrows row hrow), h.price row (hrows row hrow)]
    rfl
  have hpos := sum_units_pos (fun row hrow => h.pos row (hrows row hrow)) hne
  obtain ⟨last, hlast⟩ := Option.ne_none_iff_exists'.mp fun hnone => hne (List.getLast?_eq_none_iff.mp hnone)
  rw [stageFill, hquantities, hcosts, ok_bind, ok_bind, decide_eq_true hpos.ne', require_true, ok_bind, hlast,
    orThrow_some, ok_bind, stageEntry, hlast]
  rfl

/-- The level of a buy. -/
def levelOf (record : ManagementRecord) (row : FillRow) : ℕ := (stageOf record row).getD 0

variable {record : ManagementRecord} {currentStage : Option ℕ}

/-- The levels of an accepted mapping. -/
structure Mapped (record : ManagementRecord) (buys : List FillRow) (top : ℕ) : Prop where
  stage : ∀ row ∈ buys, stageOf record row = some (levelOf record row)
  highest : (buys.filterMap (stageOf record)).foldl max 0 = top
  rises : buys.Pairwise fun a b => levelOf record a ≤ levelOf record b
  all : ∀ k, k ∈ List.range' 1 top ↔ ∃ row ∈ buys, levelOf record row = k

omit [DecimalDigits] in
lemma AcceptedMapping.mapped (h : AcceptedMapping record buys currentStage) :
    ∃ top, currentStage = some top ∧ Mapped record buys top := by
  obtain ⟨levels, hlevels, hclimbs⟩ := h.climbs
  obtain ⟨-, hrises, hmem, htop⟩ := climbs_iff.mp hclimbs
  have hstage : ∀ row ∈ buys, stageOf record row = some (levelOf record row) := by
    intro row hrow
    have hsome := List.mem_map_of_mem (f := stageOf record) hrow
    rw [hlevels] at hsome
    obtain ⟨level, -, hlevel⟩ := List.mem_map.mp hsome
    rw [levelOf, ← hlevel]
    rfl
  have heq : levels = buys.map (levelOf record) := by
    have hmap : buys.map (stageOf record) = (buys.map (levelOf record)).map some := by
      rw [List.map_map]
      exact List.map_congr_left hstage
    exact (List.map_injective_iff.mpr (Option.some_injective ℕ)) (hlevels.symm.trans hmap)
  refine ⟨levels.foldl max 0, htop, hstage, ?_, ?_, fun k => ?_⟩
  · have hfilter : buys.filterMap (stageOf record) = levels := by
      have hid := congrArg (List.filterMap id) hlevels
      rwa [List.filterMap_map, List.filterMap_map, Function.id_comp, Function.id_comp, List.filterMap_some] at hid
    rw [hfilter]
  · rw [heq, List.pairwise_map] at hrises
    exact hrises
  · have hk := hmem k
    rw [List.mem_range'_1]
    rw [heq, List.mem_map] at hk
    rw [hk, ← heq]
    omega

/-- The entries of an accepted mapping. -/
def stageEntries (record : ManagementRecord) (buys : List FillRow) (top : ℕ) : List StageFill :=
  (List.range' 1 top).map fun k => stageEntry (level (levelOf record) k buys) k

variable {top : ℕ}

lemma Mapped.entries (h : LedgerBuys buys) (hmapped : Mapped record buys top) :
    ((List.range' 1 top).mapM fun stage => stageFill stage (buys.filter fun row => stageOf record row = some stage)) =
      .ok (stageEntries record buys top) := by
  refine mapM_eq_ok fun k hk => ?_
  have hlevel : (buys.filter fun row => stageOf record row = some k) = level (levelOf record) k buys := by
    refine List.filter_congr fun row hrow => ?_
    rw [hmapped.stage row hrow]
    exact decide_eq_decide.mpr Option.some_inj
  obtain ⟨row, hrow, hk'⟩ := (hmapped.all k).mp hk
  rw [hlevel]
  exact stageFill_eq h (fun row hrow => (mem_level.mp hrow).1) (List.ne_nil_of_mem (mem_level.mpr ⟨hrow, hk'⟩)) k

omit [DecimalDigits] in
/-- The buys, stage by stage. -/
lemma Mapped.flatMap (hmapped : Mapped record buys top) :
    ((List.range' 1 top).flatMap fun k => level (levelOf record) k buys) = buys :=
  flatMap_level List.pairwise_lt_range' hmapped.rises fun row hrow => (hmapped.all _).mpr ⟨row, hrow, rfl⟩

omit [DecimalDigits] in
/-- No number is lost from one stage to the next. -/
lemma Mapped.sum (hmapped : Mapped record buys top) (f : FillRow → ℚ) :
    ((List.range' 1 top).map fun k => ((level (levelOf record) k buys).map f).sum).sum = (buys.map f).sum := by
  conv_rhs => rw [← hmapped.flatMap]
  rw [List.map_flatMap, List.flatMap_def, List.sum_flatten, List.map_map]
  rfl

/-- The sources of an entry are the buys of its stage. -/
lemma source_mem (h : LedgerBuys buys) {row : FillRow} (hrow : row ∈ buys) (k : ℕ) :
    row.source ∈ (stageEntry (level (levelOf record) k buys) k).sources ↔ levelOf record row = k := by
  rw [stageEntry, List.mem_map]
  constructor
  · rintro ⟨other, hother, hsource⟩
    obtain ⟨hother, hk⟩ := mem_level.mp hother
    rwa [← List.inj_on_of_nodup_map h.ids hother hrow (Prod.mk.inj hsource).1]
  · exact fun hk => ⟨row, mem_level.mpr ⟨hrow, hk⟩, rfl⟩

lemma rows_stageEntry (h : LedgerBuys buys) (k : ℕ) :
    (stageEntry (level (levelOf record) k buys) k).rows buys = level (levelOf record) k buys :=
  List.filter_congr fun _ hrow => decide_eq_decide.mpr (source_mem h hrow k)

/-- **The entries of an accepted mapping.** -/
lemma Mapped.projection (h : LedgerBuys buys) (hmapped : Mapped record buys top) :
    StageProjection buys (some top) (stageEntries record buys top) := by
  have hne : ∀ k ∈ List.range' 1 top, level (levelOf record) k buys ≠ [] := by
    intro k hk
    obtain ⟨row, hrow, hk⟩ := (hmapped.all k).mp hk
    exact List.ne_nil_of_mem (mem_level.mpr ⟨hrow, hk⟩)
  have hpos : ∀ k ∈ List.range' 1 top, 0 < ((level (levelOf record) k buys).map units).sum := fun k hk =>
    sum_units_pos (fun row hrow => h.pos row (mem_level.mp hrow).1) (hne k hk)
  have hcost : ∀ k ∈ List.range' 1 top, (stageEntry (level (levelOf record) k buys) k).units *
      (stageEntry (level (levelOf record) k buys) k).price = ((level (levelOf record) k buys).map cost).sum :=
    fun k hk => mul_div_cancel₀ _ (hpos k hk).ne'
  refine ⟨⟨top, rfl, ?_⟩, ?_, fun row hrow => ?_, fun entry hentry => ?_, fun entry hentry => ?_, ?_, ?_, ?_⟩
  · rw [stageEntries, List.map_map]
    exact List.map_id _
  · rw [stageEntries, List.flatMap_map]
    conv_rhs => rw [← hmapped.flatMap, List.map_flatMap]
    rfl
  · refine ⟨stageEntry (level (levelOf record) (levelOf record row) buys) (levelOf record row),
      ⟨List.mem_map_of_mem ((hmapped.all _).mpr ⟨row, hrow, rfl⟩), (source_mem h hrow _).mpr rfl⟩, ?_⟩
    rintro entry ⟨hentry, hsource⟩
    obtain ⟨k, -, rfl⟩ := List.mem_map.mp hentry
    rw [(source_mem h hrow k).mp hsource]
  · obtain ⟨k, -, rfl⟩ := List.mem_map.mp hentry
    rw [rows_stageEntry h]
    rfl
  · obtain ⟨k, hk, rfl⟩ := List.mem_map.mp hentry
    rw [rows_stageEntry h]
    exact hcost k hk
  · rw [stageEntries, List.map_map]
    exact hmapped.sum units
  · rw [stageEntries, List.map_map, ← hmapped.sum cost]
    exact congrArg List.sum (List.map_congr_left hcost)
  · have htimes := h.times
    rw [← hmapped.flatMap] at htimes
    rw [stageEntries, List.pairwise_map]
    refine (List.pairwise_flatMap.mp htimes).2.imp_of_mem fun hk hk' hle => ?_
    -- the time of an entry is that of its last buy
    obtain ⟨last, hlast⟩ := Option.ne_none_iff_exists'.mp fun hnone => hne _ hk (List.getLast?_eq_none_iff.mp hnone)
    obtain ⟨last', hlast'⟩ :=
      Option.ne_none_iff_exists'.mp fun hnone => hne _ hk' (List.getLast?_eq_none_iff.mp hnone)
    rw [stageEntry, stageEntry, hlast, hlast']
    exact hle last (List.mem_of_getLast? hlast) last' (List.mem_of_getLast? hlast')

/-- What an accepted mapping is projected to. -/
lemma projectRuleFillsByStage_eq {p : Projection} (h : LedgerBuys (activeBuys p))
    (haccepted : AcceptedMapping record (activeBuys p) currentStage) :
    ∃ entries, projectRuleFillsByStage p currentStage record = .ok entries ∧
      StageProjection (activeBuys p) currentStage entries := by
  obtain ⟨top, rfl, hmapped⟩ := haccepted.mapped
  refine ⟨stageEntries record (activeBuys p) top, ?_, hmapped.projection h⟩
  rw [projectRuleFillsByStage, projectRuleFills_eq_ok.mpr haccepted, ok_bind]
  dsimp only
  rw [hmapped.highest]
  exact hmapped.entries h

/-- **The stage projection of a position**: the mappings that cover exactly the current revisions of its buys, with
stages that climb from one to the confirmed stage, are the ones that are projected, and each is projected to one entry
for each stage, with each buy in one of them and no quantity or cost lost. -/
theorem stage_projection {history : List FillRow} {p : Projection} (h : project history = .ok p)
    (currentStage : Option ℕ) (record : ManagementRecord) :
    ((∃ entries, projectRuleFillsByStage p currentStage record = .ok entries) ↔
        AcceptedMapping record (activeBuys p) currentStage) ∧
      ∀ entries, projectRuleFillsByStage p currentStage record = .ok entries →
        StageProjection (activeBuys p) currentStage entries := by
  have hbuys := ledgerBuys_of_project h
  have haccepted : ∀ entries, projectRuleFillsByStage p currentStage record = .ok entries →
      AcceptedMapping record (activeBuys p) currentStage := by
    intro entries hentries
    obtain ⟨_, hcheck, -⟩ := bind_eq_ok.mp hentries
    exact projectRuleFills_eq_ok.mp hcheck
  refine ⟨⟨fun ⟨entries, hentries⟩ => haccepted entries hentries, fun hok => ?_⟩, fun entries hentries => ?_⟩
  · obtain ⟨entries, hentries, -⟩ := projectRuleFillsByStage_eq hbuys hok
    exact ⟨entries, hentries⟩
  · obtain ⟨entries', hentries', hprojection⟩ := projectRuleFillsByStage_eq hbuys (haccepted entries hentries)
    rw [hentries] at hentries'
    rwa [Except.ok.inj hentries']

end projected

/-! ## Three buys in two stages -/

section concrete

attribute [local instance] asciiDigits

/-- A buy of a position. -/
def demoBuy (sequence : ℕ) (quantity price : String) (timeMs : ℤ) : FillRow :=
  ⟨⟨.buy, quantity, price, timeMs, none, none, "", false⟩, toString sequence, 1, sequence, timeMs⟩

/-- Three buys. The second was entered last. -/
def demoHistory : List FillRow := [demoBuy 1 "2" "100" 1000, demoBuy 2 "1" "120" 3000, demoBuy 3 "2" "105" 2000]

/-- The first two are of the first stage. -/
def demoMapping : ManagementRecord where
  template := ⟨"baseline", "", .null, ""⟩
  configurationSource := "manual_baseline_selection"
  entryAnchor := none
  initialStopPrice := none
  actualLeverage := none
  leverageSource := none
  fillStages := [("1", some 1), ("2", some 2), ("3", some 1)]
  fillRevisions := [("1", 1), ("2", 1), ("3", 1)]
  fillSequence := 3
  stateRevision := 1
  confirmedAtMs := 4000
  note := ""

/-- The entries of the three buys. -/
def demoEntries (p : Projection) : Except LedgerError (List (ℕ × ℤ × ℚ × ℚ)) :=
  (projectRuleFillsByStage p (some 2) demoMapping).map fun entries =>
    entries.map fun entry => (entry.stage, entry.timeMs, entry.units, entry.price)

theorem stage_projection_demo : ∃ p, project demoHistory = .ok p ∧
    demoEntries p = .ok [(1, 2000, 4, 205 / 2), (2, 3000, 1, 120)] ∧
      AcceptedMapping demoMapping (activeBuys p) (some 2) := by
  have hrun : (project demoHistory >>= demoEntries) = .ok [(1, 2000, 4, 205 / 2), (2, 3000, 1, 120)] := by
    decide +kernel
  obtain ⟨p, hp, hentries⟩ := bind_eq_ok.mp hrun
  refine ⟨p, hp, hentries, (stage_projection hp (some 2) demoMapping).1.mp ?_⟩
  cases hfills : projectRuleFillsByStage p (some 2) demoMapping with
  | ok entries => exact ⟨entries, rfl⟩
  | error e =>
      rw [demoEntries, hfills] at hentries
      cases hentries

end concrete

end MuStrategy.ManualPositions
