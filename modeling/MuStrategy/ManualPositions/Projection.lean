import Mathlib.Algebra.BigOperators.Group.List.Basic
import Mathlib.Algebra.Order.BigOperators.Group.List
import Mathlib.Data.List.Sort
import MuStrategy.ManualPositions.Inputs

/-!
# The projection of a position

The quantity, average price and status of a position are computed by replaying the latest revision of
each of its fills in ledger order: by execution time, and in order of first submission at one time.

* `ledgerOrder` — the latest revisions in ledger order; `active` — those that are not voided.
* `project` — the replay, in decimal arithmetic with 60 digits.
* `ValidReplay` — what a replay guarantees, stated on exact numbers: the quantity is never negative,
  and nothing follows once it is zero again.
* `project_spec` — a projection that succeeds reports the exact difference of buys and sells of a
  valid replay: no rounding takes place.
-/

namespace MuStrategy.ManualPositions

open Lib

/-! ## Ledger order -/

/-- A fill revision in the history of a position. Source: `manual_positions.py` `ManualPositionLedger._read`. -/
structure FillRow where
  fill : Fill
  fillId : String
  revision : ℕ
  sequence : ℕ
  recordedAtMs : ℤ
  deriving DecidableEq

/-- A fill in its latest revision, with the sequence of its first one. -/
structure LatestFill where
  firstSequence : ℕ
  row : FillRow

/-- Take the next revision of a history into account. -/
def track (fills : List LatestFill) (row : FillRow) : List LatestFill :=
  if fills.any fun f => f.row.fillId = row.fillId then
    fills.map fun f => if f.row.fillId = row.fillId then { f with row } else f
  else fills ++ [⟨row.sequence, row⟩]

/-- The latest revision of every fill of a history. -/
def latestFills (history : List FillRow) : List LatestFill := history.foldl track []

/-- By execution time, and in order of first submission at one time. -/
def LatestFill.before (a b : LatestFill) : Bool :=
  a.row.fill.timeMs < b.row.fill.timeMs ||
    (a.row.fill.timeMs = b.row.fill.timeMs && a.firstSequence ≤ b.firstSequence)

/-- The latest revisions in ledger order. -/
def ledgerOrder (history : List FillRow) : List FillRow :=
  ((latestFills history).insertionSort fun a b => LatestFill.before a b).map LatestFill.row

/-- The fills that count, in ledger order. -/
def active (history : List FillRow) : List FillRow :=
  (ledgerOrder history).filter fun row => !row.fill.voided

/-! ## Replay -/

section replay

variable [DecimalDigits]

/-- The digits the projection computes with. -/
def projectionPrecision : ℕ := 60

/-- A replay so far. -/
structure Replay where
  quantity : Decimal
  average : Decimal
  last : Option FillRow

/-- Before the first fill. -/
def Replay.start : Replay := ⟨.zero, .zero, none⟩

/-- The average price after a buy. -/
def Replay.averageAfter (r : Replay) (price units : Decimal) : Decimal :=
  let cost := Decimal.add projectionPrecision
    (Decimal.mul projectionPrecision r.average r.quantity)
    (Decimal.mul projectionPrecision price units)
  Decimal.div projectionPrecision cost (Decimal.add projectionPrecision r.quantity units)

/-- A buy: not after the position was sold out. -/
def Replay.buy (r : Replay) (row : FillRow) (price units : Decimal) : Except LedgerError Replay := do
  require (!(r.last.isSome && r.quantity.coefficient = 0))
    (.value "该笔持仓已按记录全部卖出；再次开仓请建立新持仓。")
  pure ⟨Decimal.add projectionPrecision r.quantity units, r.averageAfter price units, some row⟩

/-- A sell: not more than there is. -/
def Replay.sell (r : Replay) (row : FillRow) (units : Decimal) : Except LedgerError Replay := do
  require (units.toRat ≤ r.quantity.toRat)
    (.value "卖出数量超过当时已记录持仓；请先补录或更正此前成交。")
  pure ⟨Decimal.sub projectionPrecision r.quantity units, r.average, some row⟩

/-- One fill that counts. -/
def Replay.applyActive (r : Replay) (row : FillRow) : Except LedgerError Replay := do
  let units ← decimal (some row.fill.quantity) "实际数量"
  let price ← decimal (some row.fill.price) "实际价格"
  match row.fill.action with
  | .buy => r.buy row price units
  | .sell => r.sell row units

/-- One fill. -/
def Replay.apply (r : Replay) (row : FillRow) : Except LedgerError Replay :=
  if row.fill.voided then pure r else r.applyActive row

/-- The replay of fills in ledger order. -/
def replayFrom : Replay → List FillRow → Except LedgerError Replay
  | r, [] => pure r
  | r, row :: rows => do
      let r ← r.apply row
      replayFrom r rows

/-- `open`, `closed` or `empty`. -/
inductive PositionStatus where
  | open
  | closed
  | empty
  deriving DecidableEq

/-- The computed part of a position. Source: `manual_positions.py` `_project`. -/
structure Projection where
  fills : List FillRow
  history : List FillRow
  recordedQuantity : String
  fillSequence : ℕ
  averageEntryPrice : Option String
  status : PositionStatus
  lastFillAtMs : Option ℤ
  recordedStage : Option ℕ
  recordedStopPrice : Option String

/-- `max(sequences, default=0)`. -/
def maxSequence (history : List FillRow) : ℕ := (history.map FillRow.sequence).foldl max 0

/-- The result of a replay. -/
def Projection.ofReplay (history : List FillRow) (r : Replay) : Projection where
  fills := ledgerOrder history
  history := history
  recordedQuantity := number r.quantity
  fillSequence := maxSequence history
  averageEntryPrice := if r.quantity.coefficient = 0 then none else some (number r.average)
  status := if r.quantity.coefficient ≠ 0 then .open else if r.last.isSome then .closed else .empty
  lastFillAtMs := r.last.map fun row => row.fill.timeMs
  recordedStage := r.last.bind fun row => row.fill.stage
  recordedStopPrice := r.last.bind fun row => row.fill.stopPrice

/-- Source: `manual_positions.py` `_project`. -/
def project (history : List FillRow) : Except LedgerError Projection := do
  let r ← replayFrom .start (ledgerOrder history)
  pure (.ofReplay history r)

/-! ## The replay on exact numbers -/

/-- The number a fill records. -/
def units (row : FillRow) : ℚ :=
  match decimal (some row.fill.quantity) "实际数量" with
  | .ok d => d.toRat
  | .error _ => 0

/-- What a fill adds to the quantity. -/
def signedUnits (row : FillRow) : ℚ :=
  match row.fill.action with
  | .buy => units row
  | .sell => -units row

/-- The bought minus the sold quantity. -/
def net (rows : List FillRow) : ℚ := (rows.map signedUnits).sum

/-- A sequence of fills that a long position can have. -/
structure ValidReplay (rows : List FillRow) : Prop where
  /-- The quantity is never negative. -/
  nonneg : ∀ before after, rows = before ++ after → 0 ≤ net before
  /-- Nothing is bought, or sold, after the quantity was zero again. -/
  closed : ∀ before after, rows = before ++ after → before ≠ [] → net before = 0 → after = []

lemma net_append (rows rows' : List FillRow) : net (rows ++ rows') = net rows + net rows' := by
  rw [net, List.map_append, List.sum_append]
  rfl

lemma net_concat (rows : List FillRow) (row : FillRow) : net (rows ++ [row]) = net rows + signedUnits row := by
  rw [net_append]
  simp [net]

/-- One more fill. -/
lemma ValidReplay.concat {rows : List FillRow} (h : ValidReplay rows) {row : FillRow}
    (hnet : 0 ≤ net (rows ++ [row])) (hclosed : rows ≠ [] → net rows ≠ 0) :
    ValidReplay (rows ++ [row]) where
  nonneg before after heq := by
    rcases List.eq_nil_or_concat after with rfl | ⟨after, last, rfl⟩
    · rw [List.append_nil] at heq
      rw [← heq]
      exact hnet
    · rw [List.concat_eq_append, ← List.append_assoc] at heq
      exact h.nonneg before after (List.append_inj_left' heq rfl)
  closed before after heq hne hzero := by
    rcases List.eq_nil_or_concat after with rfl | ⟨after, last, rfl⟩
    · rfl
    · rw [List.concat_eq_append, ← List.append_assoc] at heq
      have hrows := List.append_inj_left' heq rfl
      obtain rfl := h.closed before after hrows hne hzero
      rw [List.append_nil] at hrows
      subst hrows
      exact absurd hzero (hclosed hne)

/-- What a replay has computed after the fills `done`. -/
structure Replay.Computes (r : Replay) (done : List FillRow) : Prop where
  scale : Decimal.HasScale 12 r.quantity
  /-- The quantity is exact. -/
  exact : r.quantity.toRat = net done
  last : r.last.isSome = true ↔ done ≠ []
  /-- A fill adds less than `10 ^ 18`. -/
  bound : net done ≤ done.length * 10 ^ 18
  valid : ValidReplay done

lemma Replay.computes_start : Replay.start.Computes [] where
  scale := ⟨by simp [start, Decimal.zero], by simp [start, Decimal.zero]⟩
  exact := by simp [start, Decimal.zero, Decimal.toRat, net]
  last := by simp [start]
  bound := by simp [net]
  valid := {
    nonneg := fun before after h => by
      obtain rfl := (List.append_eq_nil_iff.mp h.symm).1
      exact le_rfl
    closed := fun before after h hne _ => absurd (List.append_eq_nil_iff.mp h.symm).1 hne }

variable {r r' : Replay} {done : List FillRow} {row : FillRow}

omit [DecimalDigits] in
/-- As many fills as a table holds stay within 60 digits. -/
lemma within_precision {n : ℕ} (hn : n < 2 ^ 63) {q : ℚ} (hq : q ≤ n * 10 ^ 18) :
    q * 10 ^ 12 < 10 ^ projectionPrecision := by
  have hle : (n : ℚ) ≤ 2 ^ 63 := by exact_mod_cast hn.le
  unfold projectionPrecision
  calc q * 10 ^ 12 ≤ (2 ^ 63 * 10 ^ 18) * 10 ^ 12 := by
        refine mul_le_mul_of_nonneg_right (hq.trans ?_) (by positivity)
        exact mul_le_mul_of_nonneg_right hle (by positivity)
    _ < 10 ^ 60 := by norm_num

/-- What a fill that counts does to a replay. -/
lemma Replay.applyActive_eq_ok : r.applyActive row = .ok r' ↔ ∃ d price,
    decimal (some row.fill.quantity) "实际数量" = .ok d ∧
    decimal (some row.fill.price) "实际价格" = .ok price ∧
    ((row.fill.action = .buy ∧ ¬(r.last.isSome = true ∧ r.quantity.coefficient = 0) ∧
        r' = ⟨Decimal.add projectionPrecision r.quantity d, r.averageAfter price d, some row⟩) ∨
      (row.fill.action = .sell ∧ d.toRat ≤ r.quantity.toRat ∧
        r' = ⟨Decimal.sub projectionPrecision r.quantity d, r.average, some row⟩)) := by
  simp only [applyActive, bind_eq_ok]
  refine exists_congr fun d => ?_
  rw [← exists_and_left]
  refine exists_congr fun price => and_congr_right fun _ => and_congr_right fun _ => ?_
  cases row.fill.action with
  | buy =>
      simp only [buy, bind_eq_ok, require_eq_ok, exists_const, pure_eq_ok_iff]
      cases r.last <;> simp [@eq_comm _ r']
  | sell =>
      simp only [sell, bind_eq_ok, require_eq_ok, exists_const, pure_eq_ok_iff]
      simp [@eq_comm _ r']

/-- **Step lemma**: a fill that counts is added or subtracted exactly, and keeps the replay valid. -/
lemma Replay.applyActive_computes (h : r.Computes done) (hlen : done.length + 1 < 2 ^ 63)
    (hr : r.applyActive row = .ok r') : r'.Computes (done ++ [row]) := by
  obtain ⟨d, price, hd, -, hr⟩ := applyActive_eq_ok.mp hr
  have hamount := amount_of_decimal hd
  have hunits : units row = d.toRat := by rw [units, hd]
  have hpos := hamount.toRat_pos
  have hlt := hamount.toRat_lt
  have hlast : (some row : Option FillRow).isSome = true ↔ done ++ [row] ≠ [] := by simp
  have hlength : ((done ++ [row]).length : ℚ) = done.length + 1 := by simp
  rcases hr with ⟨haction, hopen, rfl⟩ | ⟨haction, hle, rfl⟩
  · have hnet : net (done ++ [row]) = r.quantity.toRat + d.toRat := by
      rw [net_concat, signedUnits, haction, hunits, h.exact]
    have hbound : r.quantity.toRat + d.toRat ≤ (done.length + 1 : ℕ) * 10 ^ 18 := by
      have := h.bound
      rw [← h.exact] at this
      push_cast
      linarith
    obtain ⟨hexact, hscale⟩ := Decimal.toRat_add
      (by decide : 0 < projectionPrecision) h.scale hamount.scale (within_precision hlen hbound)
    refine ⟨hscale, hexact.trans hnet.symm, hlast, ?_, ?_⟩
    · rw [hnet, hlength]
      exact_mod_cast hbound
    · refine h.valid.concat ?_ fun hne hzero => ?_
      · rw [hnet]
        exact add_nonneg (Decimal.toRat_nonneg _) hpos.le
      · -- A buy after the quantity was zero again is rejected.
        rw [← h.exact, Decimal.toRat_eq_zero] at hzero
        exact hopen ⟨h.last.mpr hne, hzero⟩
  · have hnet : net (done ++ [row]) = r.quantity.toRat - d.toRat := by
      rw [net_concat, signedUnits, haction, hunits, h.exact, sub_eq_add_neg]
    have hbound : r.quantity.toRat ≤ (done.length : ℕ) * 10 ^ 18 := by
      rw [h.exact]
      exact h.bound
    obtain ⟨hexact, hscale⟩ := Decimal.toRat_sub
      (by decide : 0 < projectionPrecision) h.scale hamount.scale hle (within_precision (by omega) hbound)
    refine ⟨hscale, hexact.trans hnet.symm, hlast, ?_, ?_⟩
    · rw [hnet, hlength]
      have : (0 : ℚ) ≤ 10 ^ 18 := by positivity
      linarith
    · refine h.valid.concat ?_ fun hne hzero => ?_
      · rw [hnet]
        linarith
      · -- A sell after the quantity was zero again is more than there is.
        rw [← h.exact] at hzero
        rw [hzero] at hle
        exact absurd hle (not_le.mpr hpos)

/-- **Run lemma**: a replay that succeeds computes the fills that count. -/
lemma replayFrom_computes {rows : List FillRow} (h : r.Computes done)
    (hlen : done.length + rows.length < 2 ^ 63) (hr : replayFrom r rows = .ok r') :
    r'.Computes (done ++ rows.filter fun row => !row.fill.voided) := by
  induction rows generalizing r done with
  | nil =>
      rw [replayFrom, pure_eq_ok_iff] at hr
      subst hr
      simpa using h
  | cons row rows ih =>
      simp only [replayFrom, bind_eq_ok] at hr
      obtain ⟨r₁, hr₁, hr⟩ := hr
      rw [List.length_cons] at hlen
      unfold Replay.apply at hr₁
      split at hr₁
      · rename_i hvoided
        rw [pure_eq_ok_iff] at hr₁
        subst hr₁
        rw [List.filter_cons_of_neg (by simpa using hvoided)]
        exact ih h (by omega) hr
      · rename_i hactive
        have h₁ := Replay.applyActive_computes h (by omega) hr₁
        rw [List.filter_cons_of_pos (by simpa using hactive)]
        have := ih h₁ (by rw [List.length_append, List.length_singleton]; omega) hr
        rwa [List.append_assoc] at this

omit [DecimalDigits] in
lemma length_latestFills_le (history : List FillRow) : (latestFills history).length ≤ history.length := by
  have hstep : ∀ fills row, (track fills row).length ≤ fills.length + 1 := by
    intro fills row
    unfold track
    split
    · rw [List.length_map]
      omega
    · rw [List.length_append]
      rfl
  have hfold : ∀ (history : List FillRow) (fills : List LatestFill), (history.foldl track fills).length ≤
      fills.length + history.length := by
    intro history
    induction history with
    | nil => simp
    | cons row history ih =>
        intro fills
        rw [List.foldl_cons, List.length_cons]
        have := ih (track fills row)
        have := hstep fills row
        omega
  have h := hfold history []
  rwa [List.length_nil, Nat.zero_add] at h

omit [DecimalDigits] in
lemma length_ledgerOrder_le (history : List FillRow) : (ledgerOrder history).length ≤ history.length := by
  rw [ledgerOrder, List.length_map, List.length_insertionSort]
  exact length_latestFills_le history

/-- A single buy can be projected. -/
lemma project_buy (haction : row.fill.action = .buy) (hvoided : row.fill.voided = false) {d price : Decimal}
    (hd : decimal (some row.fill.quantity) "实际数量" = .ok d)
    (hprice : decimal (some row.fill.price) "实际价格" = .ok price) : ∃ p, project [row] = .ok p := by
  have horder : ledgerOrder [row] = [row] := by simp [ledgerOrder, latestFills, track]
  have happly : Replay.start.apply row = Replay.start.applyActive row :=
    if_neg (by rw [hvoided]; exact Bool.false_ne_true)
  have hopen : ¬(Replay.start.last.isSome = true ∧ Replay.start.quantity.coefficient = 0) := by
    simp [Replay.start]
  have hbuy := Replay.applyActive_eq_ok.mpr ⟨d, price, hd, hprice, .inl ⟨haction, hopen, rfl⟩⟩
  simp only [project, horder, replayFrom, happly, bind_eq_ok, pure_eq_ok_iff]
  exact ⟨_, _, ⟨_, hbuy, rfl⟩, rfl⟩

/-- A projection contains the history it was computed from. -/
lemma project_history {history : List FillRow} {p : Projection} (h : project history = .ok p) :
    p.history = history := by
  simp only [project, bind_eq_ok, pure_eq_ok_iff] at h
  obtain ⟨r, -, rfl⟩ := h
  rfl

omit [DecimalDigits] in
lemma le_maxSequence {history : List FillRow} (hrow : row ∈ history) : row.sequence ≤ maxSequence history := by
  have hfold : ∀ (xs : List ℕ) (n : ℕ), n ≤ xs.foldl max n ∧ ∀ x ∈ xs, x ≤ xs.foldl max n := by
    intro xs
    induction xs with
    | nil => simp
    | cons x xs ih =>
        intro n
        obtain ⟨hle, hmem⟩ := ih (max n x)
        rw [List.foldl_cons, List.forall_mem_cons]
        exact ⟨(le_max_left n x).trans hle, (le_max_right n x).trans hle, hmem⟩
  exact (hfold _ 0).2 _ (List.mem_map_of_mem hrow)

/-- An open position has a fill. -/
lemma fillSequence_pos {history : List FillRow} {p : Projection} (h : project history = .ok p)
    (hopen : p.status = .open) (hseq : ∀ row ∈ history, 1 ≤ row.sequence) : 0 < p.fillSequence := by
  simp only [project, bind_eq_ok, pure_eq_ok_iff] at h
  obtain ⟨r, hr, rfl⟩ := h
  cases history with
  | nil =>
      have hnil : ledgerOrder [] = [] := by simp [ledgerOrder, latestFills]
      rw [hnil, replayFrom, pure_eq_ok_iff] at hr
      subst hr
      simp [Projection.ofReplay, Replay.start, Decimal.zero] at hopen
  | cons row history =>
      have hle := le_maxSequence (List.mem_cons_self : row ∈ row :: history)
      have hone := hseq row List.mem_cons_self
      change 0 < maxSequence (row :: history)
      omega

/-- **A projection that succeeds is right**: the fills that count are a valid replay, and the reported
quantity reads as exactly the bought minus the sold quantity. -/
theorem project_spec {history : List FillRow} {p : Projection} (hlen : history.length < 2 ^ 63)
    (h : project history = .ok p) :
    p.history = history ∧ ValidReplay (active history) ∧
      (Decimal.ofText? p.recordedQuantity.toList).map Decimal.toRat = some (net (active history)) := by
  simp only [project, bind_eq_ok, pure_eq_ok_iff] at h
  obtain ⟨r, hr, rfl⟩ := h
  have hle := length_ledgerOrder_le history
  have hcomputes := replayFrom_computes Replay.computes_start (by simpa using hle.trans_lt hlen) hr
  rw [List.nil_append] at hcomputes
  refine ⟨rfl, hcomputes.valid, ?_⟩
  change (Decimal.ofText? (number r.quantity).toList).map _ = _
  rw [number, String.toList_ofList, Decimal.toRat_ofText_number hcomputes.scale, hcomputes.exact]
  rfl

end replay

/-! ## Renumbering

The projection depends on sequence numbers through their order only: a fill can be checked under a
provisional number before the table gives it its own. -/

section renumber

variable (σ : ℕ → ℕ)

/-- A revision under another sequence number. -/
def FillRow.renumber (row : FillRow) : FillRow := { row with sequence := σ row.sequence }

/-- A latest revision under other sequence numbers. -/
def LatestFill.renumber (f : LatestFill) : LatestFill := ⟨σ f.firstSequence, f.row.renumber σ⟩

lemma track_renumber (fills : List LatestFill) (row : FillRow) :
    track (fills.map (LatestFill.renumber σ)) (row.renumber σ) =
      (track fills row).map (LatestFill.renumber σ) := by
  have hany : (fills.map (LatestFill.renumber σ)).any
      (fun f => f.row.fillId = (row.renumber σ).fillId) = fills.any fun f => f.row.fillId = row.fillId := by
    rw [List.any_map]
    rfl
  unfold track
  rw [hany]
  split
  · rw [List.map_map, List.map_map]
    refine List.map_congr_left fun f _ => ?_
    by_cases hid : f.row.fillId = row.fillId <;>
      simp [LatestFill.renumber, FillRow.renumber, hid]
  · rw [List.map_append]
    rfl

lemma latestFills_renumber (history : List FillRow) :
    latestFills (history.map (FillRow.renumber σ)) =
      (latestFills history).map (LatestFill.renumber σ) := by
  have hfold : ∀ (history : List FillRow) (fills : List LatestFill),
      (history.map (FillRow.renumber σ)).foldl track (fills.map (LatestFill.renumber σ)) =
        (history.foldl track fills).map (LatestFill.renumber σ) := by
    intro history
    induction history with
    | nil => simp
    | cons row history ih =>
        intro fills
        rw [List.map_cons, List.foldl_cons, List.foldl_cons, track_renumber, ih]
  exact hfold history []

variable {σ}

/-- The first sequence of a fill is the sequence of one of its revisions. -/
lemma firstSequence_mem {history : List FillRow} {f : LatestFill} (h : f ∈ latestFills history) :
    f.firstSequence ∈ history.map FillRow.sequence := by
  have hfold : ∀ (history : List FillRow) (fills : List LatestFill), ∀ f ∈ history.foldl track fills,
      f.firstSequence ∈ fills.map LatestFill.firstSequence ++ history.map FillRow.sequence := by
    intro history
    induction history with
    | nil =>
        intro fills f hf
        simpa using ⟨f, hf, rfl⟩
    | cons row history ih =>
        intro fills f hf
        have hmem := ih (track fills row) f hf
        rw [List.mem_append] at hmem ⊢
        rw [List.map_cons, List.mem_cons]
        rcases hmem with hmem | hmem
        · obtain ⟨g, hg, hgf⟩ := List.mem_map.mp hmem
          unfold track at hg
          split at hg
          · obtain ⟨g', hg', rfl⟩ := List.mem_map.mp hg
            refine .inl (List.mem_map.mpr ⟨g', hg', ?_⟩)
            rw [← hgf]
            split <;> rfl
          · rcases List.mem_append.mp hg with hg | hg
            · exact .inl (List.mem_map.mpr ⟨g, hg, hgf⟩)
            · rw [List.mem_singleton] at hg
              subst hg
              exact .inr (.inl hgf.symm)
        · exact .inr (.inr hmem)
  simpa using hfold history [] f h

/-- The numbering keeps the order of the sequences of a history. -/
def KeepsOrder (σ : ℕ → ℕ) (history : List FillRow) : Prop :=
  ∀ a ∈ history.map FillRow.sequence, ∀ b ∈ history.map FillRow.sequence, (σ a ≤ σ b ↔ a ≤ b)

lemma ledgerOrder_renumber {history : List FillRow} (h : KeepsOrder σ history) :
    ledgerOrder (history.map (FillRow.renumber σ)) =
      (ledgerOrder history).map (FillRow.renumber σ) := by
  have hbefore : ∀ a ∈ latestFills history, ∀ b ∈ latestFills history,
      (LatestFill.before a b = true ↔ LatestFill.before (a.renumber σ) (b.renumber σ) = true) := by
    intro a ha b hb
    have hab := h _ (firstSequence_mem ha) _ (firstSequence_mem hb)
    have hdecide : decide (σ a.firstSequence ≤ σ b.firstSequence) = decide (a.firstSequence ≤ b.firstSequence) :=
      decide_eq_decide.mpr hab
    unfold LatestFill.before
    change _ ↔ (_ || (_ && decide (σ a.firstSequence ≤ σ b.firstSequence))) = true
    rw [hdecide]
    rfl
  rw [ledgerOrder, latestFills_renumber, ← List.map_insertionSort _ _ _ _ hbefore, ledgerOrder, List.map_map,
    List.map_map]
  rfl

variable [DecimalDigits]

/-- Replays that agree on everything but the numbers of their last fill. -/
structure Replay.Agrees (r r' : Replay) : Prop where
  quantity : r'.quantity = r.quantity
  average : r'.average = r.average
  last : r'.last.isSome = r.last.isSome

lemma Replay.apply_renumber {r r' r₁ : Replay} {row : FillRow} (h : r.Agrees r')
    (hr : r.apply row = .ok r₁) : ∃ r₁', r'.apply (row.renumber σ) = .ok r₁' ∧ r₁.Agrees r₁' := by
  have hfill : (row.renumber σ).fill = row.fill := rfl
  unfold Replay.apply at hr ⊢
  rw [hfill]
  split at hr
  · rename_i hvoided
    rw [pure_eq_ok_iff] at hr
    subst hr
    exact ⟨r', by rw [if_pos hvoided]; rfl, h⟩
  · rename_i hactive
    rw [if_neg hactive]
    obtain ⟨d, price, hd, hprice, hr⟩ := applyActive_eq_ok.mp hr
    rcases hr with ⟨haction, hopen, rfl⟩ | ⟨haction, hle, rfl⟩
    · rw [← h.last, ← h.quantity] at hopen
      refine ⟨_, applyActive_eq_ok.mpr ⟨d, price, hd, hprice, .inl ⟨haction, hopen, rfl⟩⟩, ?_, ?_, rfl⟩
      · rw [h.quantity]
      · rw [averageAfter, averageAfter, h.average, h.quantity]
    · rw [← h.quantity] at hle
      refine ⟨_, applyActive_eq_ok.mpr ⟨d, price, hd, hprice, .inr ⟨haction, hle, rfl⟩⟩, ?_, h.average, rfl⟩
      rw [h.quantity]

lemma replayFrom_renumber {rows : List FillRow} {r r' r₁ : Replay} (h : r.Agrees r')
    (hr : replayFrom r rows = .ok r₁) :
    ∃ r₁', replayFrom r' (rows.map (FillRow.renumber σ)) = .ok r₁' := by
  induction rows generalizing r r' with
  | nil => exact ⟨r', rfl⟩
  | cons row rows ih =>
      simp only [replayFrom, bind_eq_ok] at hr
      obtain ⟨r₂, hr₂, hr⟩ := hr
      obtain ⟨r₂', hr₂', h₂⟩ := Replay.apply_renumber (σ := σ) h hr₂
      obtain ⟨r₁', hr₁'⟩ := ih h₂ hr
      refine ⟨r₁', ?_⟩
      rw [List.map_cons, replayFrom, hr₂', ok_bind]
      exact hr₁'

/-- **The projection succeeds under any numbering that keeps the order.** -/
theorem project_renumber {history : List FillRow} {p : Projection} (hσ : KeepsOrder σ history)
    (h : project history = .ok p) : ∃ p', project (history.map (FillRow.renumber σ)) = .ok p' := by
  simp only [project, bind_eq_ok, pure_eq_ok_iff] at h
  obtain ⟨r, hr, rfl⟩ := h
  obtain ⟨r', hr'⟩ := replayFrom_renumber (σ := σ) ⟨rfl, rfl, rfl⟩ hr
  exact ⟨_, by rw [project, ledgerOrder_renumber hσ, hr', ok_bind]; rfl⟩

/-- A fill checked under the next number of its position can be stored under the next number of the
table. -/
lemma project_stored {history : List FillRow} {row : FillRow} {p : Projection} {n : ℕ}
    (hrow : row.sequence = maxSequence history + 1) (hle : ∀ x ∈ history, x.sequence ≤ n)
    (h : project (history ++ [row]) = .ok p) :
    ∃ p', project (history ++ [⟨row.fill, row.fillId, row.revision, n + 1, row.recordedAtMs⟩]) = .ok p' := by
  let σ : ℕ → ℕ := fun k => if k = maxSequence history + 1 then n + 1 else k
  have hnew : σ row.sequence = n + 1 := if_pos hrow
  have hold : ∀ x ∈ history, σ x.sequence = x.sequence := by
    intro x hx
    have := le_maxSequence hx
    exact if_neg (by omega)
  have hmap : (history ++ [row]).map (FillRow.renumber σ) =
      history ++ [⟨row.fill, row.fillId, row.revision, n + 1, row.recordedAtMs⟩] := by
    have hid : history.map (FillRow.renumber σ) = history := by
      conv_rhs => rw [← List.map_id history]
      refine List.map_congr_left fun x hx => ?_
      rw [FillRow.renumber, hold x hx]
      rfl
    rw [List.map_append, hid, List.map_singleton, FillRow.renumber, hnew]
  rw [← hmap]
  refine project_renumber ?_ h
  intro a ha b hb
  rw [List.map_append, List.mem_append, List.map_singleton, List.mem_singleton, List.mem_map] at ha hb
  rcases ha with ⟨x, hx, rfl⟩ | rfl <;> rcases hb with ⟨y, hy, rfl⟩ | rfl
  · rw [hold x hx, hold y hy]
  · have := hle x hx
    have := le_maxSequence hx
    rw [hold x hx, hnew]
    omega
  · have := hle y hy
    have := le_maxSequence hy
    rw [hold y hy, hnew]
    omega
  · simp

end renumber

end MuStrategy.ManualPositions
