import Mathlib.Data.List.Basic
import Mathlib.Data.List.Infix

/-!
# Files that are only appended to

* `Files κ ρ` — files with rows `ρ`, by path `κ`; `get?` and `put` read and replace one.
* `Grows` — every file of one state is a prefix of the same file in the other. It is a preorder, and
  replacing a file by an extension of it is a step of it.
* `Grows.slice` — a slice of a file stays where it is.
-/

namespace MuStrategy.Lib

variable {κ ρ : Type*}

/-- Files by path. -/
abbrev Files (κ ρ : Type*) := List (κ × List ρ)

namespace Files

variable [DecidableEq κ] {fs fs' fs'' : Files κ ρ} {path path' : κ} {rows rows' : List ρ}

/-- The rows of a file. -/
def get? (fs : Files κ ρ) (path : κ) : Option (List ρ) := (fs.find? fun f => f.1 = path).map Prod.snd

/-- Replace a file, or create it. -/
def put (fs : Files κ ρ) (path : κ) (rows : List ρ) : Files κ ρ :=
  if fs.any fun f => f.1 = path then fs.map fun f => if f.1 = path then (path, rows) else f
  else fs ++ [(path, rows)]

lemma get?_cons (f : κ × List ρ) : get? (f :: fs) path = if f.1 = path then some f.2 else get? fs path := by
  by_cases h : f.1 = path <;> simp [get?, h]

lemma get?_append : get? (fs ++ fs') path = (get? fs path).or (get? fs' path) := by
  simp [get?, List.find?_append]
  cases fs.find? fun f => f.1 = path <;> rfl

lemma get?_map : get? (fs.map fun f => if f.1 = path then (path, rows) else f) path' =
    if path = path' then (get? fs path).map fun _ => rows else get? fs path' := by
  induction fs with
  | nil =>
      split <;> rfl
  | cons f fs ih =>
      rw [List.map_cons, get?_cons, ih, get?_cons, get?_cons]
      by_cases hf : f.1 = path
      · by_cases hp : path = path'
        · simp [hf, hp]
        · simp [hf, hp]
      · by_cases hp : path = path'
        · subst hp
          simp [hf]
        · simp [hf, hp]

lemma get?_isSome : (get? fs path).isSome = fs.any fun f => f.1 = path := by
  rw [get?, Option.isSome_map, List.isSome_find?]

@[simp] lemma get?_put_self : get? (put fs path rows) path = some rows := by
  unfold put
  split
  · rename_i h
    rw [get?_map, if_pos rfl]
    rw [← get?_isSome, Option.isSome_iff_exists] at h
    obtain ⟨rows', h⟩ := h
    rw [h]
    rfl
  · rename_i h
    rw [← get?_isSome, Option.not_isSome_iff_eq_none] at h
    rw [get?_append, h, get?_cons, if_pos rfl]
    rfl

@[simp] lemma get?_put_of_ne (h : path ≠ path') : get? (put fs path rows) path' = get? fs path' := by
  unfold put
  split
  · rw [get?_map, if_neg h]
  · rw [get?_append, get?_cons, if_neg h]
    exact Option.or_none

/-- A file that is there is listed. -/
lemma mem_paths_of_get? (h : get? fs path = some rows) : path ∈ fs.map Prod.fst := by
  obtain ⟨f, hf, rfl⟩ := Option.map_eq_some_iff.mp h
  obtain rfl : f.1 = path := by simpa using List.find?_some hf
  exact List.mem_map_of_mem (List.mem_of_find?_eq_some hf)

/-- A file that is listed is there. -/
lemma exists_get?_of_mem_paths (h : path ∈ fs.map Prod.fst) : ∃ rows, get? fs path = some rows := by
  obtain ⟨f, hf, rfl⟩ := List.mem_map.mp h
  rw [← Option.isSome_iff_exists, get?_isSome]
  exact List.any_eq_true.mpr ⟨f, hf, by simp⟩

/-- Files are only appended to, and only created. -/
def Grows (fs fs' : Files κ ρ) : Prop :=
  ∀ path rows, get? fs path = some rows → ∃ rows', get? fs' path = some rows' ∧ rows <+: rows'

lemma Grows.refl (fs : Files κ ρ) : Grows fs fs := fun _ rows h => ⟨rows, h, List.prefix_refl rows⟩

lemma Grows.trans (h : Grows fs fs') (h' : Grows fs' fs'') : Grows fs fs'' := by
  intro path rows hrows
  obtain ⟨rows', hrows', hinitial⟩ := h path rows hrows
  obtain ⟨rows'', hrows'', hinitial'⟩ := h' path rows' hrows'
  exact ⟨rows'', hrows'', hinitial.trans hinitial'⟩

/-- Replacing a file by an extension of it, or creating it, only appends. -/
lemma grows_put (h : ∀ rows', get? fs path = some rows' → rows' <+: rows) : Grows fs (put fs path rows) := by
  intro path' rows' hrows'
  by_cases hp : path = path'
  · subst hp
    exact ⟨rows, get?_put_self, h rows' hrows'⟩
  · exact ⟨rows', by rw [get?_put_of_ne hp]; exact hrows', List.prefix_refl rows'⟩

lemma Grows.isSome (h : Grows fs fs') (hsome : (get? fs path).isSome) : (get? fs' path).isSome := by
  obtain ⟨rows, hrows⟩ := Option.isSome_iff_exists.mp hsome
  obtain ⟨rows', hrows', -⟩ := h path rows hrows
  rw [hrows']
  rfl

end Files

/-- The rows `start, …, start + n - 1`. -/
def slice (rows : List ρ) (start n : ℕ) : List ρ := (rows.drop start).take n

/-- **A slice of a file stays where it is.** -/
lemma slice_of_prefix {rows rows' : List ρ} {start n : ℕ} (h : rows <+: rows') (hle : start + n ≤ rows.length) :
    slice rows' start n = slice rows start n := by
  obtain ⟨suffix, rfl⟩ := h
  rw [slice, slice, List.drop_append_of_le_length (by omega),
    List.take_append_of_le_length (by rw [List.length_drop]; omega)]

lemma length_slice {rows : List ρ} {start n : ℕ} (hle : start + n ≤ rows.length) :
    (slice rows start n).length = n := by
  rw [slice, List.length_take, List.length_drop]
  omega

end MuStrategy.Lib
