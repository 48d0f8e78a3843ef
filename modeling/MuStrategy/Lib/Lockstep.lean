import MuStrategy.Lib.Check

/-!
# Two computations in lockstep

* `Lockstep R x y` — `x` and `y` raise the same error, or return values in the relation `R`.
* `Lockstep.bind`, `Lockstep.bind_map`, `Lockstep.ite`, `Lockstep.mono` — its rules.
* `foldlM_hom` — a loop whose steps commute with a map of its states.
-/

namespace MuStrategy.Lib

variable {ε α β γ δ σ : Type} {R : α → β → Prop} {S : γ → δ → Prop}

/-- The same error, or related values. -/
def Lockstep (R : α → β → Prop) : Except ε α → Except ε β → Prop
  | .ok a, .ok b => R a b
  | .error e, .error e' => e = e'
  | _, _ => False

namespace Lockstep

variable {x : Except ε α} {y : Except ε β}

lemma ok {a : α} {b : β} (h : R a b) : Lockstep R (.ok a : Except ε α) (.ok b) := h

/-- Where the first returns, so does the second. -/
lemma of_ok {a : α} (h : Lockstep R x y) (hx : x = .ok a) : ∃ b, y = .ok b ∧ R a b := by
  subst hx
  cases y with
  | error e => exact h.elim
  | ok b => exact ⟨b, rfl, h⟩

lemma mono {R' : α → β → Prop} (h : Lockstep R x y) (himp : ∀ a b, R a b → R' a b) : Lockstep R' x y := by
  cases x with
  | error e =>
      cases y with
      | error e' => exact h
      | ok b => exact h
  | ok a =>
      cases y with
      | error e' => exact h
      | ok b => exact himp a b h

/-- **Sequences**: related values go on in lockstep. -/
lemma bind {f : α → Except ε γ} {g : β → Except ε δ} (h : Lockstep R x y)
    (hrest : ∀ a b, x = .ok a → R a b → Lockstep S (f a) (g b)) : Lockstep S (x >>= f) (y >>= g) := by
  cases x with
  | error e =>
      cases y with
      | error e' => exact h
      | ok b => exact h.elim
  | ok a =>
      cases y with
      | error e' => exact h.elim
      | ok b => exact hrest a b rfl h

/-- The second computes a function of the first. -/
lemma bind_map {h : α → β} {f : α → Except ε γ} {g : β → Except ε δ} (hy : y = h <$> x)
    (hrest : ∀ a, x = .ok a → Lockstep S (f a) (g (h a))) : Lockstep S (x >>= f) (y >>= g) := by
  subst hy
  cases x with
  | error e => exact rfl
  | ok a => exact hrest a rfl

/-- The same first part. -/
lemma bind_same {f : α → Except ε γ} {g : α → Except ε δ}
    (hrest : ∀ a, x = .ok a → Lockstep S (f a) (g a)) : Lockstep S (x >>= f) (x >>= g) := by
  cases x with
  | error e => exact rfl
  | ok a => exact hrest a rfl

/-- The same decision. -/
lemma ite {p : Prop} [Decidable p] {x' : Except ε α} {y' : Except ε β} (h : p → Lockstep R x y)
    (h' : ¬p → Lockstep R x' y') : Lockstep R (if p then x else x') (if p then y else y') := by
  split
  · rename_i hp
    exact h hp
  · rename_i hp
    exact h' hp

end Lockstep

/-- A loop whose steps commute with a map of its states. -/
lemma foldlM_hom {f : σ → σ} {step : σ → α → Except ε σ} (hstep : ∀ s a, step (f s) a = f <$> step s a)
    (xs : List α) (s : σ) : xs.foldlM step (f s) = f <$> xs.foldlM step s := by
  induction xs generalizing s with
  | nil => rfl
  | cons x xs ih =>
      rw [List.foldlM_cons, List.foldlM_cons, hstep, bind_map_left, map_bind]
      exact bind_congr fun t => ih t

end MuStrategy.Lib
