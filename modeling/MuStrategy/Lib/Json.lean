import Mathlib.Data.List.Basic

/-!
# JSON values

* `Json F` — the JSON values a Python program reads and writes, over a type `F` of
  floating-point numbers. `true`/`false` are kept apart from the integers, as `type(x) is int`
  and `isinstance(x, bool)` do.
* `Json.get?` — `payload.get(key)` on an object; `Json.keys` — the key list of an object;
  `Json.hasFields` — `set(payload) == expected`.

A persisted text column is modelled by the value it encodes: the encoder sorts keys and is
injective on values, and `json.loads` reads the value back, so nothing that compares two texts
or decodes one can tell them apart.
-/

namespace MuStrategy.Lib

/-- A JSON value over the floating-point type `F`. -/
inductive Json (F : Type) where
  | null
  | bool (b : Bool)
  | int (n : Int)
  | float (x : F)
  | str (s : String)
  | arr (xs : List (Json F))
  | obj (fields : List (String × Json F))

namespace Json

variable {F : Type}

section decEq

variable [DecidableEq F]

mutual

/-- Structural decidable equality of JSON values. -/
def decEq : (a b : Json F) → Decidable (a = b)
  | .null, .null => isTrue rfl
  | .bool a, .bool b => decidable_of_iff (a = b) (by simp)
  | .int a, .int b => decidable_of_iff (a = b) (by simp)
  | .float a, .float b => decidable_of_iff (a = b) (by simp)
  | .str a, .str b => decidable_of_iff (a = b) (by simp)
  | .arr a, .arr b =>
      match decEqList a b with
      | isTrue h => isTrue (by rw [h])
      | isFalse h => isFalse (by intro e; cases e; exact h rfl)
  | .obj a, .obj b =>
      match decEqFields a b with
      | isTrue h => isTrue (by rw [h])
      | isFalse h => isFalse (by intro e; cases e; exact h rfl)
  | .null, .bool _ | .null, .int _ | .null, .float _ | .null, .str _ | .null, .arr _
  | .null, .obj _ | .bool _, .null | .bool _, .int _ | .bool _, .float _ | .bool _, .str _
  | .bool _, .arr _ | .bool _, .obj _ | .int _, .null | .int _, .bool _ | .int _, .float _
  | .int _, .str _ | .int _, .arr _ | .int _, .obj _ | .float _, .null | .float _, .bool _
  | .float _, .int _ | .float _, .str _ | .float _, .arr _ | .float _, .obj _ | .str _, .null
  | .str _, .bool _ | .str _, .int _ | .str _, .float _ | .str _, .arr _ | .str _, .obj _
  | .arr _, .null | .arr _, .bool _ | .arr _, .int _ | .arr _, .float _ | .arr _, .str _
  | .arr _, .obj _ | .obj _, .null | .obj _, .bool _ | .obj _, .int _ | .obj _, .float _
  | .obj _, .str _ | .obj _, .arr _ => isFalse (by intro e; cases e)

/-- Decidable equality of the elements of two arrays. -/
def decEqList : (a b : List (Json F)) → Decidable (a = b)
  | [], [] => isTrue rfl
  | [], _ :: _ | _ :: _, [] => isFalse (by intro e; cases e)
  | x :: xs, y :: ys =>
      match decEq x y, decEqList xs ys with
      | isTrue h₁, isTrue h₂ => isTrue (by rw [h₁, h₂])
      | isFalse h, _ => isFalse (by intro e; cases e; exact h rfl)
      | _, isFalse h => isFalse (by intro e; cases e; exact h rfl)

/-- Decidable equality of the fields of two objects. -/
def decEqFields : (a b : List (String × Json F)) → Decidable (a = b)
  | [], [] => isTrue rfl
  | [], _ :: _ | _ :: _, [] => isFalse (by intro e; cases e)
  | (k, x) :: xs, (l, y) :: ys =>
      match decidable_of_iff (k = l) Iff.rfl, decEq x y, decEqFields xs ys with
      | isTrue h₀, isTrue h₁, isTrue h₂ => isTrue (by rw [h₀, h₁, h₂])
      | isFalse h, _, _ => isFalse (by intro e; cases e; exact h rfl)
      | _, isFalse h, _ => isFalse (by intro e; cases e; exact h rfl)
      | _, _, isFalse h => isFalse (by intro e; cases e; exact h rfl)

end

instance : DecidableEq (Json F) := decEq

end decEq

/-- `payload.get(key)` on an object; any other value has no keys. -/
def get? : Json F → String → Option (Json F)
  | .obj fields, key => (fields.find? fun f => f.1 = key).map Prod.snd
  | _, _ => none

/-- The keys of an object, in insertion order. -/
def keys : Json F → List String
  | .obj fields => fields.map Prod.fst
  | _ => []

/-- `isinstance(payload, dict) and set(payload) == expected`. -/
def hasFields (payload : Json F) (expected : List String) : Bool :=
  match payload with
  | .obj _ => payload.keys.all (· ∈ expected) && expected.all (· ∈ payload.keys)
  | _ => false

/-- The value of a text, if it is one. -/
def str? : Json F → Option String
  | .str s => some s
  | _ => none

/-- The value of an integer that is not a boolean. -/
def int? : Json F → Option Int
  | .int n => some n
  | _ => none

/-- An optional text: `None` or a string. -/
def optStr : Option String → Json F
  | none => .null
  | some s => .str s

@[simp] theorem get?_obj (fields : List (String × Json F)) (key : String) :
    (Json.obj fields).get? key = (fields.find? fun f => f.1 = key).map Prod.snd := rfl

@[simp] theorem str?_str (s : String) : (Json.str s : Json F).str? = some s := rfl

@[simp] theorem int?_int (n : Int) : (Json.int n : Json F).int? = some n := rfl

end Json

end MuStrategy.Lib
