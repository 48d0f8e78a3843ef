import MuStrategy.Lib.Check

/-!
# Refusals

A function that checks its input may return a value or refuse the input with an error of one kind; any other error
escapes. `Clean` says that nothing escapes, and its rules take a sequence of checks apart from the front.

* `Clean allowed P x` — `x` returns a value with `P`, or raises an allowed error.
* `Quiet allowed x` — `x` raises allowed errors only.
* `clean_require_bind`, `clean_orThrow_bind`, `clean_bind` — the rest has to be clean if the first part returns.
-/

namespace MuStrategy.Lib

variable {ε α β : Type} {allowed : ε → Prop} {P : α → Prop} {Q : β → Prop}

/-- A value with a property, or an allowed error. -/
def Clean (allowed : ε → Prop) (P : α → Prop) : Except ε α → Prop
  | .ok a => P a
  | .error e => allowed e

/-- Allowed errors only. -/
def Quiet (allowed : ε → Prop) (x : Except ε α) : Prop := Clean allowed (fun _ => True) x

lemma Quiet.of_error {x : Except ε α} (h : Quiet allowed x) {e : ε} (he : x = .error e) : allowed e := by
  rw [he] at h
  exact h

lemma quiet_ok {a : α} : Quiet allowed (.ok a : Except ε α) := trivial

lemma quiet_error {e : ε} (h : allowed e) : Quiet allowed (.error e : Except ε α) := h

lemma quiet_require {c : Bool} {e : ε} (h : allowed e) : Quiet allowed (require c e) := by
  unfold require
  split
  · exact quiet_ok
  · exact quiet_error h

lemma quiet_orThrow {value : Option α} {e : ε} (h : allowed e) : Quiet allowed (orThrow value e) := by
  cases value with
  | none => exact quiet_error h
  | some a => exact quiet_ok

lemma quiet_bind {x : Except ε α} {f : α → Except ε β} (hx : Quiet allowed x)
    (hf : ∀ a, x = .ok a → Quiet allowed (f a)) : Quiet allowed (x >>= f) := by
  cases x with
  | error e => exact hx
  | ok a => exact hf a rfl

/-- **Sequences**: where the first part is quiet, the rest decides. -/
lemma clean_bind {x : Except ε α} {f : α → Except ε β} (hx : Quiet allowed x) :
    Clean allowed Q (x >>= f) ↔ ∀ a, x = .ok a → Clean allowed Q (f a) := by
  cases x with
  | error e =>
      constructor
      · intro _ a ha
        cases ha
      · intro _
        exact hx
  | ok a =>
      constructor
      · rintro h _ ⟨⟩
        exact h
      · intro h
        exact h a rfl

lemma clean_require_bind {c : Bool} {e : ε} {f : Unit → Except ε β} (h : allowed e) :
    Clean allowed Q (require c e >>= f) ↔ (c = true → Clean allowed Q (f ())) := by
  rw [clean_bind (quiet_require h)]
  constructor
  · intro hall hc
    exact hall () (require_eq_ok.mpr hc)
  · rintro himp ⟨⟩ hc
    exact himp (require_eq_ok.mp hc)

lemma clean_orThrow_bind {value : Option α} {e : ε} {f : α → Except ε β} (h : allowed e) :
    Clean allowed Q (orThrow value e >>= f) ↔ ∀ a, value = some a → Clean allowed Q (f a) := by
  rw [clean_bind (quiet_orThrow h)]
  simp only [orThrow_eq_ok]

/-- An error that is not allowed is clean only where it is not raised. -/
lemma clean_require_bind_of_not {c : Bool} {e : ε} {f : Unit → Except ε β} (h : ¬allowed e) :
    Clean allowed Q (require c e >>= f) ↔ c = true ∧ Clean allowed Q (f ()) := by
  cases c with
  | false =>
      constructor
      · intro he
        exact absurd he h
      · rintro ⟨⟨⟩, -⟩
  | true =>
      constructor
      · intro hf
        exact ⟨rfl, hf⟩
      · rintro ⟨-, hf⟩
        exact hf

end MuStrategy.Lib
