import Mathlib.Data.List.Forall2

/-!
# Checked computations

Validation code is a sequence of checks that each raise or pass. In `Except ε` a check is
`require`, a lookup that must succeed is `orThrow`, and a computation that returned is taken
apart with `bind_eq_ok`, `require_eq_ok` and `orThrow_eq_ok`: no proof needs to unfold the monad.

* `PyEnum` — a closed enumeration: its members, their values, and `Enum(value)`.
-/

namespace MuStrategy.Lib

variable {ε α β : Type}

/-- `if not condition: raise error`. -/
def require (condition : Bool) (error : ε) : Except ε Unit :=
  if condition then .ok ⟨⟩ else .error error

/-- A value that has to be there. -/
def orThrow (value : Option α) (error : ε) : Except ε α :=
  match value with
  | some a => .ok a
  | none => .error error

@[simp] lemma require_eq_ok {c : Bool} {e : ε} {u : Unit} : require c e = .ok u ↔ c = true := by
  unfold require
  split <;> simp_all

@[simp] lemma require_true {e : ε} : require true e = .ok () := rfl

@[simp] lemma orThrow_eq_ok {value : Option α} {e : ε} {a : α} :
    orThrow value e = .ok a ↔ value = some a := by
  cases value <;> simp [orThrow]

@[simp] lemma orThrow_some {a : α} {e : ε} : orThrow (some a) e = .ok a := rfl

/-- A sequence returned: its first part returned, and so did the rest on that result. -/
lemma bind_eq_ok {x : Except ε α} {f : α → Except ε β} {b : β} :
    (x >>= f) = .ok b ↔ ∃ a, x = .ok a ∧ f a = .ok b := by
  cases x <;> simp [bind, Except.bind]

@[simp] lemma ok_bind {a : α} {f : α → Except ε β} : ((Except.ok a : Except ε α) >>= f) = f a := rfl

@[simp] lemma map_ok {a : α} {f : α → β} : f <$> (Except.ok a : Except ε α) = .ok (f a) := rfl

@[simp] lemma error_bind {e : ε} {f : α → Except ε β} :
    ((Except.error e : Except ε α) >>= f) = .error e := rfl

@[simp] lemma pure_eq_ok_iff {a b : α} : (pure a : Except ε α) = .ok b ↔ a = b := by
  simp [pure, Except.pure]

@[simp] lemma throw_ne_ok {e : ε} {b : α} : (throw e : Except ε α) = .ok b ↔ False := by
  simp [throw, throwThe, MonadExceptOf.throw]

/-- Raise the error of a lower layer as one of this layer. -/
def raiseAs {ε' : Type} (f : ε → ε') : Except ε α → Except ε' α
  | .ok a => .ok a
  | .error e => .error (f e)

@[simp] lemma raiseAs_eq_ok {ε' : Type} {f : ε → ε'} {x : Except ε α} {a : α} :
    raiseAs f x = .ok a ↔ x = .ok a := by
  cases x <;> simp [raiseAs]

@[simp] lemma raiseAs_ok {ε' : Type} {f : ε → ε'} {a : α} :
    raiseAs f (.ok a : Except ε α) = .ok a := rfl

/-- The computation succeeds, and its result passes the test. -/
def okWith (test : α → Bool) : Except ε α → Bool
  | .ok a => test a
  | .error _ => false

lemma exists_of_okWith {test : α → Bool} {x : Except ε α} (h : okWith test x = true) :
    ∃ a, x = .ok a ∧ test a = true := by
  cases x with
  | ok a => exact ⟨a, rfl, h⟩
  | error e => cases h

/-- A computation that is seen to return returns something. -/
lemma exists_eq_ok_of_isOk {x : Except ε α} (h : x.isOk = true) : ∃ a, x = .ok a := by
  cases x with
  | error e => cases h
  | ok a => exact ⟨a, rfl⟩

/-- A constructor call: check the fields, then build the value that carries the proof. -/
def construct {φ ρ : Type} (check : φ → Except ε Unit) (make : ∀ f, check f = .ok () → ρ) (f : φ) : Except ε ρ :=
  match h : check f with
  | .ok () => .ok (make f h)
  | .error e => .error e

lemma construct_eq_ok {φ ρ : Type} {check : φ → Except ε Unit} {make : ∀ f, check f = .ok () → ρ} {f : φ}
    (h : check f = .ok ()) : construct check make f = .ok (make f h) := by
  unfold construct
  split
  · rfl
  · rename_i e he
    rw [h] at he
    cases he

/-- `for x in xs: check(x)`. -/
def forEach (check : α → Except ε Unit) : List α → Except ε Unit
  | [] => .ok ()
  | x :: xs => do
      check x
      forEach check xs

lemma forEach_eq_ok {check : α → Except ε Unit} {xs : List α} {u : Unit} :
    forEach check xs = .ok u ↔ ∀ x ∈ xs, check x = .ok () := by
  induction xs with
  | nil => simp [forEach]
  | cons x xs ih =>
      rw [forEach, bind_eq_ok, List.forall_mem_cons]
      constructor
      · rintro ⟨⟨⟩, hx, hxs⟩
        exact ⟨hx, ih.mp hxs⟩
      · rintro ⟨hx, hxs⟩
        exact ⟨(), hx, ih.mpr hxs⟩

/-- Mapping a computation that returns on every element returns the mapped list. -/
lemma mapM_eq_ok {f : α → Except ε β} {g : α → β} {xs : List α}
    (h : ∀ x ∈ xs, f x = .ok (g x)) : xs.mapM f = .ok (xs.map g) := by
  induction xs with
  | nil => rfl
  | cons x xs ih =>
      obtain ⟨hx, hxs⟩ := List.forall_mem_cons.mp h
      rw [List.mapM_cons, hx, ih hxs]
      rfl

/-- A computation that returns on every element returns on the list. -/
lemma exists_mapM_eq_ok {f : α → Except ε β} {xs : List α} (h : ∀ x ∈ xs, ∃ y, f x = .ok y) :
    ∃ ys, xs.mapM f = .ok ys := by
  induction xs with
  | nil => exact ⟨[], rfl⟩
  | cons x xs ih =>
      obtain ⟨⟨y, hy⟩, hxs⟩ := List.forall_mem_cons.mp h
      obtain ⟨ys, hys⟩ := ih hxs
      exact ⟨y :: ys, by rw [List.mapM_cons, hy, hys]; rfl⟩

/-- Each result of a mapped computation is the result on one element, in order. -/
lemma forall₂_of_mapM_eq_ok {f : α → Except ε β} {xs : List α} {ys : List β}
    (h : xs.mapM f = .ok ys) : List.Forall₂ (fun x y => f x = .ok y) xs ys := by
  induction xs generalizing ys with
  | nil =>
      cases h
      exact .nil
  | cons x xs ih =>
      rw [List.mapM_cons, bind_eq_ok] at h
      obtain ⟨y, hy, h⟩ := h
      obtain ⟨ys', hys, h⟩ := bind_eq_ok.mp h
      rw [pure_eq_ok_iff] at h
      subst h
      exact .cons hy (ih hys)

lemma exists_right_of_mem {R : α → β → Prop} {xs : List α} {ys : List β} (h : List.Forall₂ R xs ys) {x : α}
    (hx : x ∈ xs) : ∃ y ∈ ys, R x y := by
  induction h with
  | nil => cases hx
  | cons hxy _ ih =>
      rcases List.mem_cons.mp hx with rfl | hx
      · exact ⟨_, List.mem_cons_self, hxy⟩
      · obtain ⟨y, hy, hR⟩ := ih hx
        exact ⟨y, List.mem_cons_of_mem _ hy, hR⟩

lemma exists_left_of_mem {R : α → β → Prop} {xs : List α} {ys : List β} (h : List.Forall₂ R xs ys) {y : β}
    (hy : y ∈ ys) : ∃ x ∈ xs, R x y :=
  exists_right_of_mem h.flip hy

/-- **Loop rule**: what every iteration that returns preserves, a loop that returns preserves. -/
lemma foldlM_invariant {σ : Type} {f : σ → α → Except ε σ} {I : σ → Prop} {xs : List α}
    (hstep : ∀ s x s', x ∈ xs → I s → f s x = .ok s' → I s') {s s' : σ} (hs : I s)
    (h : xs.foldlM f s = .ok s') : I s' := by
  induction xs generalizing s with
  | nil =>
      obtain rfl := pure_eq_ok_iff.mp h
      exact hs
  | cons x xs ih =>
      rw [List.foldlM_cons, bind_eq_ok] at h
      obtain ⟨t, ht, h⟩ := h
      exact ih (fun s y s' hy => hstep s y s' (List.mem_cons_of_mem x hy))
        (hstep s x t List.mem_cons_self hs ht) h

/-- **Progress rule**: what the iteration of one element makes true where an invariant holds, and the
iterations of the others keep, is true after the loop. -/
lemma foldlM_reaches {σ : Type} {f : σ → α → Except ε σ} {I Q : σ → Prop} {xs : List α} {x : α}
    (hx : x ∈ xs) (hI : ∀ s y s', I s → f s y = .ok s' → I s')
    (hQ : ∀ s y s', Q s → f s y = .ok s' → Q s') (hreach : ∀ s s', I s → f s x = .ok s' → Q s')
    {s s' : σ} (hs : I s) (h : xs.foldlM f s = .ok s') : Q s' := by
  obtain ⟨before, after, rfl⟩ := List.append_of_mem hx
  rw [List.foldlM_append, bind_eq_ok] at h
  obtain ⟨t, ht, h⟩ := h
  rw [List.foldlM_cons, bind_eq_ok] at h
  obtain ⟨u, hu, h⟩ := h
  have hIt : I t := foldlM_invariant (fun s y s' _ => hI s y s') hs ht
  exact foldlM_invariant (fun s y s' _ => hQ s y s') (hreach t u hIt hu) h

/-- A loop whose iterations all return returns. -/
lemma foldlM_total {σ : Type} {f : σ → α → Except ε σ} {xs : List α}
    (hf : ∀ s, ∀ x ∈ xs, ∃ s', f s x = .ok s') (s : σ) : ∃ s', xs.foldlM f s = .ok s' := by
  induction xs generalizing s with
  | nil => exact ⟨s, rfl⟩
  | cons x xs ih =>
      obtain ⟨t, ht⟩ := hf s x List.mem_cons_self
      obtain ⟨s', hs'⟩ := ih (fun s y hy => hf s y (List.mem_cons_of_mem x hy)) t
      exact ⟨s', by rw [List.foldlM_cons, ht, ok_bind, hs']⟩

/-- Loops whose bodies agree where an invariant of the first holds are the same loop. -/
lemma foldlM_congr {σ : Type} {f g : σ → α → Except ε σ} {I : σ → Prop} {xs : List α}
    (hstep : ∀ s x s', x ∈ xs → I s → f s x = .ok s' → I s') (heq : ∀ s x, x ∈ xs → I s → f s x = g s x)
    {s : σ} (hs : I s) : xs.foldlM f s = xs.foldlM g s := by
  induction xs generalizing s with
  | nil => rfl
  | cons x xs ih =>
      rw [List.foldlM_cons, List.foldlM_cons, ← heq s x List.mem_cons_self hs]
      cases hx : f s x with
      | error e => rfl
      | ok t =>
          simp only [ok_bind]
          exact ih (fun s y s' hy => hstep s y s' (List.mem_cons_of_mem x hy))
            (fun s y hy => heq s y (List.mem_cons_of_mem x hy)) (hstep s x t List.mem_cons_self hs hx)

/-- A loop over two sequences is the loop over the second after the loop over the first. -/
lemma foldlM_append_eq_ok {σ : Type} {f : σ → α → Except ε σ} {xs ys : List α} {s s' : σ} :
    (xs ++ ys).foldlM f s = .ok s' ↔ ∃ t, xs.foldlM f s = .ok t ∧ ys.foldlM f t = .ok s' := by
  rw [List.foldlM_append, bind_eq_ok]

/-- A `ValueError`: its message and the names it lists. -/
structure ValueError where
  /-- The message. -/
  text : String
  /-- The names a message ends with. -/
  names : List String := []
  deriving DecidableEq

/-! ## Closed enumerations -/

/-- A closed enumeration whose members have distinct text values. -/
class PyEnum (α : Type) where
  /-- The members, in declaration order. -/
  members : List α
  /-- `member.value`. -/
  value : α → String
  /-- The value of a member names that member. -/
  find_value : ∀ a, members.find? (fun b => value b = value a) = some a

namespace PyEnum

variable [PyEnum α]

/-- `Enum(text)`: the member with that value. -/
def ofValue? (text : String) : Option α := members.find? fun a => value a = text

@[simp] lemma ofValue?_value (a : α) : ofValue? (value a) = some a := find_value a

lemma value_of_ofValue? {text : String} {a : α} (h : ofValue? text = some a) : value a = text := by
  simpa using List.find?_some h

lemma value_injective : Function.Injective (value : α → String) := fun a b h =>
  Option.some.inj ((ofValue?_value a).symm.trans (by rw [h, ofValue?_value]))

end PyEnum

end MuStrategy.Lib
