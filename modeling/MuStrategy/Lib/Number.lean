import Mathlib.Algebra.Order.Round
import Mathlib.Data.Rat.Floor

/-!
# The arithmetic of prices

Price arithmetic is written over any type with the operations of Python floats. No law is assumed,
so a result that holds for every `Number` holds for floats with their rounding and their NaN; a
result about exact arithmetic is one about `ℚ`.

* `Number` — the operations; `pyMax`, `pyMin`, `pyAbs`, `isZero` — the built-ins, as Python
  evaluates them.
* `minimum?`, `maximum?`, `minBy?` — `min` and `max` of a sequence: the first extremal element.
* `Comparable` — what comparisons obey, for results about bounds of prices.
-/

namespace MuStrategy.Lib

/-! ## Literals

The numbers that a price literal stands for, named, so that a literal means the same term in every module. -/

instance atLeastTwo_2 : Nat.AtLeastTwo 2 := ⟨by decide⟩

instance atLeastTwo_3 : Nat.AtLeastTwo 3 := ⟨by decide⟩

instance atLeastTwo_45 : Nat.AtLeastTwo 45 := ⟨by decide⟩

instance atLeastTwo_50 : Nat.AtLeastTwo 50 := ⟨by decide⟩

instance atLeastTwo_100 : Nat.AtLeastTwo 100 := ⟨by decide⟩

instance atLeastTwo_10000 : Nat.AtLeastTwo 10000 := ⟨by decide⟩

/-! ## Floats -/

/-- The operations of Python floats. -/
class Number (F : Type) extends Zero F, One F, NatCast F, OfScientific F, Add F, Sub F, Mul F, Div F,
    Neg F, LE F, LT F where
  [decLE : DecidableLE F]
  [decLT : DecidableLT F]
  /-- `round(x, 8)`. -/
  round8 : F → F
  /-- `f"{x:.6f}"`. -/
  fixed6 : F → String
  /-- `sum(xs)`. -/
  sum : List F → F

variable {F α : Type} [Number F]

instance decidableLE : DecidableLE F := Number.decLE

instance decidableLT : DecidableLT F := Number.decLT

/-- `max(a, b)`: `b` only if it is greater. -/
def pyMax (a b : F) : F := if a < b then b else a

/-- `min(a, b)`: `b` only if it is less. -/
def pyMin (a b : F) : F := if b < a then b else a

/-- `abs(x)`. -/
def pyAbs (x : F) : F := if x < 0 then -x else x

/-- `x == 0`, the test of `not x`. -/
def isZero (x : F) : Bool := x ≤ 0 && 0 ≤ x

/-- `x or y` of two numbers. -/
def orElse (x y : F) : F := if isZero x then y else x

/-- `min(xs)`. -/
def minimum? : List F → Option F
  | [] => none
  | x :: xs => some (xs.foldl pyMin x)

/-- `max(xs)`. -/
def maximum? : List F → Option F
  | [] => none
  | x :: xs => some (xs.foldl pyMax x)

/-- `min(xs, key=key)`: the first element with the least key. -/
def minBy? (key : α → F) : List α → Option α
  | [] => none
  | x :: xs => some (xs.foldl (fun best y => if key y < key best then y else best) x)

/-- `max(xs, key=key)`: the first element with the greatest key. -/
def maxBy? (key : α → F) : List α → Option α
  | [] => none
  | x :: xs => some (xs.foldl (fun best y => if key best < key y then y else best) x)

lemma minBy?_mem {key : α → F} {xs : List α} {a : α} (h : minBy? key xs = some a) : a ∈ xs := by
  cases xs with
  | nil => cases h
  | cons x xs =>
      cases h
      have hfold : ∀ (ys : List α) (best : α),
          ys.foldl (fun best y => if key y < key best then y else best) best ∈ best :: ys := by
        intro ys
        induction ys with
        | nil => exact fun best => List.mem_cons_self
        | cons y ys ih =>
            intro best
            rw [List.foldl_cons]
            split
            · exact List.mem_cons_of_mem best (ih y)
            · rcases List.mem_cons.mp (ih best) with hbest | hrest
              · rw [hbest]
                exact List.mem_cons_self
              · exact List.mem_cons_of_mem best (List.mem_cons_of_mem y hrest)
      exact hfold xs x

lemma minimum?_mem {xs : List F} {x : F} (h : minimum? xs = some x) : x ∈ xs := by
  cases xs with
  | nil => cases h
  | cons y ys =>
      cases h
      induction ys generalizing y with
      | nil => exact List.mem_cons_self
      | cons z zs ih =>
          rw [List.foldl_cons]
          rcases List.mem_cons.mp (ih (pyMin y z)) with hleast | hrest
          · rw [hleast, pyMin]
            split
            · exact List.mem_cons_of_mem y List.mem_cons_self
            · exact List.mem_cons_self
          · exact List.mem_cons_of_mem y (List.mem_cons_of_mem z hrest)

/-- What comparisons obey. Floats do, NaN included: what is compared as less or equal is no NaN. -/
class Comparable (F : Type) [Number F] : Prop where
  le_of_lt : ∀ {x y : F}, x < y → x ≤ y
  le_trans : ∀ {x y z : F}, x ≤ y → y ≤ z → x ≤ z
  not_lt_of_le : ∀ {x y : F}, x ≤ y → ¬y < x
  le_of_not_lt : ∀ {x y : F}, x ≤ x → y ≤ y → ¬x < y → y ≤ x
  total : ∀ {x y : F}, x ≤ x → y ≤ y → x ≤ y ∨ y ≤ x
  self_left : ∀ {x y : F}, x ≤ y → x ≤ x
  self_right : ∀ {x y : F}, x ≤ y → y ≤ y

/-- Round to the nearest integer, and to the even one of two nearest. -/
def roundHalfEven (x : ℚ) : ℤ :=
  if x - ⌊x⌋ < 1 / 2 then ⌊x⌋
  else if 1 / 2 < x - ⌊x⌋ then ⌊x⌋ + 1
  else if ⌊x⌋ % 2 = 0 then ⌊x⌋ else ⌊x⌋ + 1

/-- Six decimals. -/
def ratFixed6 (x : ℚ) : String :=
  let n := (roundHalfEven (x * 10 ^ 6)).natAbs
  let decimals := Nat.toDigits 10 (n % 10 ^ 6)
  String.ofList ((if x < 0 then ['-'] else []) ++ Nat.toDigits 10 (n / 10 ^ 6) ++
    '.' :: List.replicate (6 - decimals.length) '0' ++ decimals)

/-- Exact arithmetic. -/
instance : Number ℚ where
  round8 x := roundHalfEven (x * 10 ^ 8) / 10 ^ 8
  fixed6 := ratFixed6
  sum := List.sum

instance : Comparable ℚ where
  le_of_lt h := h.le
  le_trans h h' := h.trans h'
  not_lt_of_le h := not_lt_of_ge h
  le_of_not_lt _ _ h := not_lt.mp h
  total _ _ := le_total _ _
  self_left _ := le_refl _
  self_right _ := le_refl _

/-! ## Exact comparisons -/

lemma pyMax_eq_max (x y : ℚ) : pyMax x y = max x y := by
  unfold pyMax
  split
  · rename_i hlt
    exact (max_eq_right hlt.le).symm
  · rename_i hge
    exact (max_eq_left (not_lt.mp hge)).symm

lemma pyMin_eq_min (x y : ℚ) : pyMin x y = min x y := by
  unfold pyMin
  split
  · rename_i hlt
    exact (min_eq_right hlt.le).symm
  · rename_i hge
    exact (min_eq_left (not_lt.mp hge)).symm

lemma isZero_eq_true {x : ℚ} : isZero x = true ↔ x = 0 := by
  rw [isZero, Bool.and_eq_true, decide_eq_true_eq, decide_eq_true_eq, le_antisymm_iff]

lemma orElse_of_ne {x : ℚ} (h : x ≠ 0) (y : ℚ) : orElse x y = x := by
  rw [orElse, if_neg fun hzero => h (isZero_eq_true.mp hzero)]

/-- `x or y` of two numbers that are not above a third. -/
lemma orElse_le {x y z : ℚ} (hx : x ≤ z) (hy : y ≤ z) : orElse x y ≤ z := by
  unfold orElse
  split
  · exact hy
  · exact hx

end MuStrategy.Lib
