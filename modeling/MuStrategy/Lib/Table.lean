import Mathlib.Data.List.Basic
import Mathlib.Data.List.Nodup

/-!
# Keyed tables

A database table is the list of its rows in insertion order; a `PRIMARY KEY` or `UNIQUE`
constraint is a key function on which no two rows agree.

* `Table.UniqueKeys key rows` — no two rows share a key.
* `Table.lookup` — `SELECT … WHERE key = ?`, with `lookup_eq_some_iff` under unique keys.
* `Table.insertUnique` — `INSERT` under a uniqueness constraint; `none` is an integrity error.
* `Table.update` — `UPDATE … WHERE p`; `Table.rowcount` — the number of rows it touches.
* `Table.upsert` — `INSERT … ON CONFLICT DO UPDATE`.
-/

namespace MuStrategy.Lib.Table

variable {ρ κ : Type*}

/-- No two rows of the table share a key. -/
def UniqueKeys (key : ρ → κ) (rows : List ρ) : Prop := (rows.map key).Nodup

/-- The row of a key. -/
def lookup [DecidableEq κ] (key : ρ → κ) (rows : List ρ) (k : κ) : Option ρ := rows.find? fun r => key r = k

/-- Insert a row; `none` when its key is taken. -/
def insertUnique [DecidableEq κ] (key : ρ → κ) (rows : List ρ) (row : ρ) : Option (List ρ) :=
  if rows.any fun r => key r = key row then none else some (rows ++ [row])

/-- Rewrite every row that satisfies `p`. -/
def update (p : ρ → Bool) (f : ρ → ρ) (rows : List ρ) : List ρ :=
  rows.map fun r => if p r then f r else r

/-- Replace the row with the key of `row`, or insert it. -/
def upsert [DecidableEq κ] (key : ρ → κ) (rows : List ρ) (row : ρ) : List ρ :=
  if rows.any fun r => key r = key row then update (fun r => key r = key row) (fun _ => row) rows else rows ++ [row]

/-- The number of rows an update touches. -/
def rowcount (p : ρ → Bool) (rows : List ρ) : ℕ := rows.countP p

/-! ## Lookup -/

section lookup

variable {key : ρ → κ} {rows : List ρ}

lemma UniqueKeys.eq_of_key (h : UniqueKeys key rows) {r r' : ρ} (hr : r ∈ rows) (hr' : r' ∈ rows)
    (hk : key r = key r') : r = r' := List.inj_on_of_nodup_map h hr hr' hk

variable [DecidableEq κ] {r : ρ} {k : κ}

lemma mem_of_lookup (h : lookup key rows k = some r) : r ∈ rows := List.mem_of_find?_eq_some h

lemma key_of_lookup (h : lookup key rows k = some r) : key r = k := by
  simpa using List.find?_some h

lemma lookup_eq_none_iff : lookup key rows k = none ↔ ∀ r ∈ rows, key r ≠ k := by
  simp [lookup, List.find?_eq_none]

/-- Under unique keys, lookup finds exactly the row with that key. -/
lemma lookup_eq_some_iff (h : UniqueKeys key rows) :
    lookup key rows k = some r ↔ r ∈ rows ∧ key r = k := by
  constructor
  · intro hl
    exact ⟨mem_of_lookup hl, key_of_lookup hl⟩
  · rintro ⟨hr, rfl⟩
    cases hl : lookup key rows (key r) with
    | none => exact absurd rfl (lookup_eq_none_iff.mp hl r hr)
    | some r' => rw [h.eq_of_key (mem_of_lookup hl) hr (key_of_lookup hl)]

end lookup

/-! ## Insert -/

section insert

variable {key : ρ → κ} {rows rows' : List ρ} {row : ρ}

lemma insertUnique_eq_some_iff [DecidableEq κ] :
    insertUnique key rows row = some rows' ↔
      (∀ r ∈ rows, key r ≠ key row) ∧ rows' = rows ++ [row] := by
  unfold insertUnique
  split
  · rename_i h
    obtain ⟨r, hr, hk⟩ := List.any_eq_true.mp h
    constructor
    · intro hn
      cases hn
    · rintro ⟨hfresh, -⟩
      exact absurd (of_decide_eq_true hk) (hfresh r hr)
  · rename_i h
    have hfresh : ∀ r ∈ rows, key r ≠ key row := by simpa using h
    rw [Option.some.injEq, eq_comm, and_iff_right hfresh]

lemma UniqueKeys.append (h : UniqueKeys key rows) (hfresh : ∀ r ∈ rows, key r ≠ key row) :
    UniqueKeys key (rows ++ [row]) := by
  unfold UniqueKeys
  rw [List.map_append, List.nodup_append]
  refine ⟨h, by simp, ?_⟩
  intro a ha b hb
  obtain ⟨r, hr, rfl⟩ := List.mem_map.mp ha
  obtain rfl : b = key row := by simpa using hb
  exact hfresh r hr

lemma lookup_append_self [DecidableEq κ] (hfresh : ∀ r ∈ rows, key r ≠ key row) :
    lookup key (rows ++ [row]) (key row) = some row := by
  rw [lookup, List.find?_append, List.find?_eq_none.mpr]
  · simp
  · intro r hr
    simpa using hfresh r hr

lemma lookup_append_of_ne [DecidableEq κ] {k : κ} (h : key row ≠ k) :
    lookup key (rows ++ [row]) k = lookup key rows k := by
  simp [lookup, List.find?_append, h]

end insert

/-! ## Update -/

section update

variable {key : ρ → κ} {rows : List ρ} {p : ρ → Bool} {f : ρ → ρ}

lemma mem_update {r : ρ} :
    r ∈ update p f rows ↔ ∃ r₀ ∈ rows, (if p r₀ then f r₀ else r₀) = r := List.mem_map

/-- An update that keeps the key of each row it touches keeps the key list. -/
lemma map_key_update (hf : ∀ r ∈ rows, p r = true → key (f r) = key r) :
    (update p f rows).map key = rows.map key := by
  rw [update, List.map_map]
  refine List.map_congr_left fun r hr => ?_
  by_cases h : p r = true
  · simp [h, hf r hr h]
  · simp [h]

lemma UniqueKeys.update (h : UniqueKeys key rows)
    (hf : ∀ r ∈ rows, p r = true → key (f r) = key r) : UniqueKeys key (update p f rows) := by
  unfold UniqueKeys
  rw [map_key_update hf]
  exact h

/-- Rows selected by a predicate the update does not change are updated in place. -/
lemma filter_update {q : ρ → Bool} (hq : ∀ r ∈ rows, p r = true → q (f r) = q r) :
    (Table.update p f rows).filter q = Table.update p f (rows.filter q) := by
  induction rows with
  | nil => rfl
  | cons r rows ih =>
      have ih' := ih fun r' hr' => hq r' (List.mem_cons_of_mem _ hr')
      have hr := hq r List.mem_cons_self
      simp only [Table.update, List.map_cons, List.filter_cons] at ih' ⊢
      by_cases hp : p r = true
      · simp only [hp, if_true, hr hp, ih']
        by_cases hqr : q r = true <;> simp [hqr, hp]
      · simp only [hp, ih']
        by_cases hqr : q r = true <;> simp [hqr, hp]

lemma exists_mem_of_rowcount_ne_zero (h : rowcount p rows ≠ 0) : ∃ r ∈ rows, p r = true := by
  simpa [rowcount, List.countP_eq_zero] using h

/-- The rows of an update by key: the other rows, and the new version of the row with that key. -/
lemma mem_update_key [DecidableEq κ] {k : κ} {r : ρ} :
    r ∈ Table.update (fun r => decide (key r = k)) f rows ↔
      (r ∈ rows ∧ key r ≠ k) ∨ ∃ r₀ ∈ rows, key r₀ = k ∧ r = f r₀ := by
  rw [mem_update]
  constructor
  · rintro ⟨r₀, hr₀, rfl⟩
    by_cases hk : key r₀ = k
    · exact .inr ⟨r₀, hr₀, hk, by simp [hk]⟩
    · exact .inl ⟨by simpa [hk] using hr₀, by simp [hk]⟩
  · rintro (⟨hr, hk⟩ | ⟨r₀, hr₀, hk, rfl⟩)
    · exact ⟨r, hr, by simp [hk]⟩
    · exact ⟨r₀, hr₀, by simp [hk]⟩

/-- A fenced update: when the row with the key passes the whole `WHERE` clause, only the key
matters. -/
lemma update_fence [DecidableEq κ] (hu : UniqueKeys key rows) {row : ρ} {k : κ} (hrow : row ∈ rows)
    (hk : key row = k) (hp : p row = true) (hkey : ∀ r, p r = true → key r = k) :
    Table.update p f rows = Table.update (fun r => decide (key r = k)) f rows := by
  refine List.map_congr_left fun r hr => ?_
  by_cases h : key r = k
  · obtain rfl := hu.eq_of_key hr hrow (h.trans hk.symm)
    simp [hp, h]
  · have hpr : p r = false := by
      rw [← Bool.not_eq_true]
      exact fun hp => h (hkey r hp)
    simp [hpr, h]

/-- A fenced update touches exactly the row with the key. -/
lemma rowcount_fence (hu : UniqueKeys key rows) {row : ρ} {k : κ} (hrow : row ∈ rows)
    (hk : key row = k) (hp : p row = true) (hkey : ∀ r, p r = true → key r = k) :
    rowcount p rows = 1 := by
  have hnodup : rows.Nodup := List.Nodup.of_map _ hu
  have hfilter : rows.filter p = [row] := by
    refine (List.perm_singleton.mp ?_)
    refine (List.perm_ext_iff_of_nodup (hnodup.filter p) (List.nodup_singleton row)).mpr fun r => ?_
    rw [List.mem_filter, List.mem_singleton]
    constructor
    · rintro ⟨hr, hpr⟩
      exact hu.eq_of_key hr hrow ((hkey r hpr).trans hk.symm)
    · rintro rfl
      exact ⟨hrow, hp⟩
  rw [rowcount, List.countP_eq_length_filter, hfilter, List.length_singleton]

/-- Reading a key after an update that keeps keys. -/
lemma lookup_update [DecidableEq κ] (hf : ∀ r, p r = true → key (f r) = key r) (k : κ) :
    lookup key (Table.update p f rows) k =
      (lookup key rows k).map fun r => if p r then f r else r := by
  induction rows with
  | nil => rfl
  | cons r rows ih =>
      have hkey : key (if p r then f r else r) = key r := by
        by_cases hp : p r = true
        · simp [hp, hf r hp]
        · simp [hp]
      simp only [lookup, Table.update, List.map_cons, List.find?_cons, hkey] at ih ⊢
      by_cases hk : key r = k <;> simp [hk, ih]

/-- An update that touches no row changes nothing. -/
lemma update_of_forall_not (h : ∀ r ∈ rows, p r = false) : Table.update p f rows = rows := by
  conv_rhs => rw [← List.map_id rows]
  exact List.map_congr_left fun r hr => by simp [h r hr]

/-- An update that touches the row that is there, if any. -/
lemma update_toList {row : Option ρ} (h : ∀ r, row = some r → p r = true) :
    Table.update p f row.toList = (row.map f).toList := by
  cases row with
  | none => rfl
  | some r => simp [Table.update, h r rfl]

/-- Rows that an update does not touch are selected unchanged. -/
lemma filter_update_of_not {q : ρ → Bool} (hq : ∀ r ∈ rows, p r = true → q (f r) = q r)
    (hnot : ∀ r ∈ rows, q r = true → p r = false) :
    (Table.update p f rows).filter q = rows.filter q := by
  rw [filter_update hq, update_of_forall_not]
  intro r hr
  obtain ⟨hr, hqr⟩ := List.mem_filter.mp hr
  exact hnot r hr hqr

/-- Reading a key after a row was replaced or inserted. -/
lemma lookup_upsert [DecidableEq κ] (row : ρ) (k : κ) :
    lookup key (upsert key rows row) k = if k = key row then some row else lookup key rows k := by
  unfold upsert
  by_cases hany : (rows.any fun r => key r = key row) = true
  · obtain ⟨r, hr, hkr⟩ := List.any_eq_true.mp hany
    rw [if_pos hany, lookup_update (fun r hr => (of_decide_eq_true hr).symm)]
    cases hl : lookup key rows k with
    | none =>
        have hk : k ≠ key row := fun hk => lookup_eq_none_iff.mp hl r hr ((of_decide_eq_true hkr).trans hk.symm)
        rw [if_neg hk, Option.map_none]
    | some r' =>
        have hk := key_of_lookup hl
        by_cases hrow : k = key row <;> simp [hk, hrow]
  · have hfresh : ∀ r ∈ rows, key r ≠ key row := by simpa using hany
    rw [if_neg hany]
    by_cases hk : k = key row
    · rw [if_pos hk, hk, lookup_append_self hfresh]
    · rw [if_neg hk, lookup_append_of_ne (Ne.symm hk)]

end update

end MuStrategy.Lib.Table
