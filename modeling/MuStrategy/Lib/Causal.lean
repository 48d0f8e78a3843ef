import Mathlib.Data.List.Basic

/-!
# Causal functions on sequences

A function that turns a sequence into a sequence of the same length is causal when each output
depends only on the inputs up to its position: what comes later does not change what was computed.

* `Causal` — the property; `Causal.take_eq`, `Causal.getElem?_congr` — outputs on a common prefix
  agree; `Causal.getLast?_take` — the last output on a prefix.
* `Causal.comp`, `Causal.zipWith` — composition; `causal_transduce` — every state machine that emits
  one output for each input is causal.
-/

namespace MuStrategy.Lib

variable {α β γ δ σ : Type}

/-- The outputs at the positions of a prefix are those of the prefix alone. -/
structure Causal (f : List α → List β) : Prop where
  length_eq : ∀ xs, (f xs).length = xs.length
  take_append : ∀ xs ys, (f (xs ++ ys)).take xs.length = f xs

namespace Causal

variable {f : List α → List β}

lemma take_eq (h : Causal f) (xs : List α) (n : ℕ) : (f xs).take n = f (xs.take n) := by
  have happend := h.take_append (xs.take n) (xs.drop n)
  rw [List.take_append_drop, List.length_take] at happend
  rw [← happend]
  by_cases hn : n ≤ xs.length
  · rw [Nat.min_eq_left hn]
  · rw [Nat.min_eq_right (by omega), List.take_of_length_le (by rw [h.length_eq]; omega),
      List.take_of_length_le (Nat.le_of_eq (h.length_eq xs))]

/-- **No look-ahead**: sequences with a common prefix have outputs with a common prefix. -/
theorem getElem?_congr (h : Causal f) {xs ys : List α} {n i : ℕ} (hi : i < n)
    (htake : xs.take n = ys.take n) : (f xs)[i]? = (f ys)[i]? := by
  have hout : (f xs).take n = (f ys).take n := by rw [h.take_eq, h.take_eq, htake]
  rw [← List.getElem?_take_of_lt hi, hout, List.getElem?_take_of_lt hi]

/-- The last output on a prefix is the output at its last position. -/
lemma getLast?_take (h : Causal f) {xs : List α} {i : ℕ} (hi : i < xs.length) :
    (f (xs.take (i + 1))).getLast? = (f xs)[i]? := by
  have hlength : ((f xs).take (i + 1)).length = i + 1 := by
    rw [List.length_take, h.length_eq]
    omega
  rw [← h.take_eq, List.getLast?_eq_getElem?, hlength, Nat.add_sub_cancel,
    List.getElem?_take_of_lt (Nat.lt_succ_self i)]

lemma comp {g : List β → List γ} (hg : Causal g) (hf : Causal f) : Causal (g ∘ f) where
  length_eq xs := by simp only [Function.comp, hg.length_eq, hf.length_eq]
  take_append xs ys := by
    simp only [Function.comp]
    rw [hg.take_eq, hf.take_append]

lemma zipWith {g : List α → List γ} (hf : Causal f) (hg : Causal g) (r : β → γ → δ) :
    Causal fun xs => List.zipWith r (f xs) (g xs) where
  length_eq xs := by rw [List.length_zipWith, hf.length_eq, hg.length_eq, Nat.min_self]
  take_append xs ys := by rw [List.take_zipWith, hf.take_append, hg.take_append]

end Causal

lemma causal_map (r : α → β) : Causal (List.map r) where
  length_eq _ := List.length_map r
  take_append xs ys := by rw [List.map_append, List.take_left' (List.length_map r)]

/-! ## State machines -/

/-- One output for each input, from a state. -/
def transduce (step : σ → α → σ × β) : σ → List α → List β
  | _, [] => []
  | s, x :: xs => (step s x).2 :: transduce step (step s x).1 xs

variable {step : σ → α → σ × β}

lemma transduce_append (s : σ) (xs ys : List α) :
    transduce step s (xs ++ ys) = transduce step s xs ++
      transduce step (xs.foldl (fun s x => (step s x).1) s) ys := by
  induction xs generalizing s with
  | nil => rfl
  | cons x xs ih => simp only [List.cons_append, transduce, List.foldl_cons, ih]

lemma length_transduce (s : σ) (xs : List α) : (transduce step s xs).length = xs.length := by
  induction xs generalizing s with
  | nil => rfl
  | cons x xs ih => simp only [transduce, List.length_cons, ih]

/-- What the steps keep of the state, and say of the outputs. -/
lemma transduce_forall {I : σ → Prop} {P : β → Prop} {xs : List α}
    (hstep : ∀ s, ∀ x ∈ xs, I s → I (step s x).1 ∧ P (step s x).2) {s : σ} (hs : I s) :
    ∀ y ∈ transduce step s xs, P y := by
  induction xs generalizing s with
  | nil => exact fun y hy => absurd hy List.not_mem_nil
  | cons x xs ih =>
      obtain ⟨hnext, hout⟩ := hstep s x List.mem_cons_self hs
      intro y hy
      rcases List.mem_cons.mp hy with rfl | hy
      · exact hout
      · exact ih (fun s x hx => hstep s x (List.mem_cons_of_mem _ hx)) hnext y hy

/-- A loop that appends its outputs. -/
lemma foldl_append_transduce (s : σ) (done : List β) (xs : List α) :
    (xs.foldl (fun p x => ((step p.1 x).1, p.2 ++ [(step p.1 x).2])) (s, done)).2 = done ++ transduce step s xs := by
  induction xs generalizing s done with
  | nil => exact (List.append_nil done).symm
  | cons x xs ih => rw [List.foldl_cons, ih, transduce, List.append_assoc, List.singleton_append]

/-- A state machine is causal. -/
theorem causal_transduce (s : σ) : Causal (transduce step s) where
  length_eq := length_transduce s
  take_append xs ys := by rw [transduce_append, List.take_left' (length_transduce s xs)]

end MuStrategy.Lib
