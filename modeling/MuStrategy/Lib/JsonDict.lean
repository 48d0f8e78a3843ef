import MuStrategy.Lib.JsonText

/-!
# Dictionaries whose order does not matter

A program that reads a dictionary by its keys reads the same, whatever the order of the keys.

* `Json.field` — the value of a key.
* `Reordering` — a way to write dictionaries in another order: `Reordering.same`, and `Reordering.sorted` of `dumps`.
* `Reordering.get?_apply`, `Reordering.hasFields_apply` — what is read of a reordered dictionary.
-/

namespace MuStrategy.Lib

variable {F : Type}

/-- `payload[key]` of a dictionary that has the key. -/
def Json.field (payload : Json F) (key : String) : Json F := (payload.get? key).getD .null

/-- A dictionary that has its keys once. -/
def Json.IsDict (payload : Json F) : Prop := ∃ fields, payload = .obj fields ∧ (fields.map Prod.fst).Nodup

/-- A way to write dictionaries in another order. -/
structure Reordering (F : Type) where
  apply : Json F → Json F
  apply_null : apply .null = .null
  apply_bool : ∀ b, apply (.bool b) = .bool b
  apply_int : ∀ n, apply (.int n) = .int n
  apply_str : ∀ s, apply (.str s) = .str s
  apply_arr : ∀ xs, apply (.arr xs) = .arr (xs.map apply)
  /-- A dictionary that has its keys once is one of the same entries. -/
  apply_obj : ∀ fields : List (String × Json F), (fields.map Prod.fst).Nodup →
    ∃ fields', apply (.obj fields) = .obj fields' ∧ fields'.Perm (fields.map fun field => (field.1, apply field.2))

namespace Reordering

variable (r : Reordering F)

attribute [simp] apply_null apply_bool apply_int apply_str apply_arr

lemma null_self : (Json.null : Json F) = .null := rfl

lemma arr_map_self (xs : List (Json F)) : Json.arr xs = .arr (xs.map fun v => v) := by rw [List.map_id']

lemma exists_obj_self (fields : List (String × Json F)) (_ : (fields.map Prod.fst).Nodup) :
    ∃ fields', Json.obj fields = .obj fields' ∧ fields'.Perm (fields.map fun field => (field.1, field.2)) :=
  ⟨fields, rfl, by rw [List.map_id']⟩

/-- The order in which the dictionaries are. -/
def same : Reordering F where
  apply v := v
  apply_null := null_self
  apply_bool _ := rfl
  apply_int _ := rfl
  apply_str _ := rfl
  apply_arr := arr_map_self
  apply_obj := exists_obj_self

/-- The order of their text. -/
def sorted : Reordering F where
  apply := Json.sortKeys
  apply_null := rfl
  apply_bool _ := rfl
  apply_int _ := rfl
  apply_str _ := rfl
  apply_arr xs := by rw [Json.sortKeys, sortItems_eq_map]
  apply_obj fields _ := ⟨_, rfl, sortKeys_perm fields⟩

@[simp] lemma apply_optStr (text : Option String) : r.apply (Json.optStr text) = Json.optStr text := by
  cases text with
  | none => exact r.apply_null
  | some s => exact r.apply_str s

/-- A reordered dictionary has the values of the dictionary, reordered. -/
lemma get?_apply {v : Json F} (h : v.IsDict) (key : String) : (r.apply v).get? key = (v.get? key).map r.apply := by
  obtain ⟨fields, rfl, hnodup⟩ := h
  obtain ⟨fields', heq, hperm⟩ := r.apply_obj fields hnodup
  have hkeys := hperm.map Prod.fst
  rw [List.map_map] at hkeys
  have hnodup' : (fields'.map Prod.fst).Nodup := hkeys.nodup_iff.mpr hnodup
  rw [heq]
  ext w
  rw [get?_eq_some hnodup', hperm.mem_iff, List.mem_map, Option.map_eq_some_iff]
  constructor
  · rintro ⟨field, hmem, hpair⟩
    obtain ⟨rfl, rfl⟩ := Prod.mk.inj hpair
    exact ⟨field.2, (get?_eq_some hnodup).mpr hmem, rfl⟩
  · rintro ⟨u, hu, rfl⟩
    exact ⟨(key, u), (get?_eq_some hnodup).mp hu, rfl⟩

lemma field_apply {v : Json F} (h : v.IsDict) (key : String) : (r.apply v).field key = r.apply (v.field key) := by
  rw [Json.field, Json.field, r.get?_apply h]
  cases v.get? key with
  | none => exact r.apply_null.symm
  | some w => rfl

/-- A reordered dictionary has the same keys. -/
lemma hasFields_apply {v : Json F} (h : v.IsDict) (expected : List String) :
    (r.apply v).hasFields expected = v.hasFields expected := by
  obtain ⟨fields, rfl, hnodup⟩ := h
  obtain ⟨fields', heq, hperm⟩ := r.apply_obj fields hnodup
  have hkeys := hperm.map Prod.fst
  rw [List.map_map] at hkeys
  have hmem : ∀ key, key ∈ fields'.map Prod.fst ↔ key ∈ fields.map Prod.fst := fun key => hkeys.mem_iff
  rw [heq, Bool.eq_iff_iff]
  unfold Json.hasFields Json.keys
  simp only [Bool.and_eq_true, List.all_eq_true, decide_eq_true_eq, hmem]

end Reordering

end MuStrategy.Lib
