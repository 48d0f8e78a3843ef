import Mathlib.Order.Basic
import MuStrategy.Lib.System

/-!
# Reading a cell twice

Many processes share a cell, and each change of it raises a stamp. Whoever reads the cell twice and finds the same value
knows that the cell had this value all the time between.

* `Grows` — a value stays, or its stamp is raised.
* `Stamped` — every change of a cell raises its stamp; `Stamped.unchanged` — the rule of the double read.
* `System.Since` — a state of the run that leads to another one, since the last label of a kind.
-/

namespace MuStrategy.Lib

variable {σ α γ ν : Type*}

section stamps

variable [Preorder ν] {stamp : γ → ν} {x y z : γ}

/-- The value stays, or its stamp is raised. -/
def Grows (stamp : γ → ν) (x y : γ) : Prop := x = y ∨ stamp x < stamp y

namespace Grows

lemma refl (x : γ) : Grows stamp x x := .inl rfl

lemma trans (h : Grows stamp x y) (h' : Grows stamp y z) : Grows stamp x z := by
  rcases h with rfl | h
  · exact h'
  · rcases h' with rfl | h'
    · exact .inr h
    · exact .inr (h.trans h')

/-- A stamp that was raised does not come back. -/
lemma antisymm (h : Grows stamp x y) (h' : Grows stamp y x) : x = y := by
  rcases h with h | h
  · exact h
  · rcases h' with h' | h'
    · exact h'.symm
    · exact absurd (h.trans h') (lt_irrefl _)

end Grows

/-- Every change of the cell, from a state of the invariant, raises its stamp. -/
structure Stamped (S : System σ α) (I : σ → Prop) (cell : σ → γ) (stamp : γ → ν) : Prop where
  keeps : ∀ s a t, I s → S.step s a t → I t
  grows : ∀ s a t, I s → S.step s a t → Grows stamp (cell s) (cell t)

namespace Stamped

variable {S : System σ α} {I : σ → Prop} {cell : σ → γ} {s t u : σ} {tr tr' : List (α × σ)}

/-- Along a run the cell stays, or its stamp was raised. -/
lemma run (h : Stamped S I cell stamp) (hr : S.Run s tr t) (hs : I s) : Grows stamp (cell s) (cell t) :=
  hr.rel (fun _ => .refl _) (fun _ _ _ => .trans) h.keeps h.grows hs

/-- **Double read**: a cell that is the same at both ends of a run was the same all the time between. -/
theorem unchanged (h : Stamped S I cell stamp) (hbefore : S.Run s tr u) (hafter : S.Run u tr' t) (hs : I s)
    (hsame : cell s = cell t) : cell u = cell t := by
  have hu : I u := hbefore.invariant h.keeps hs
  refine (h.run hafter hu).antisymm ?_
  rw [← hsame]
  exact h.run hbefore hs

end Stamped

end stamps

/-! ## Since a label -/

namespace System

variable {S : System σ α} {starts : α → Prop} {s t u : σ} {a : α}

/-- The run to `s` passes through `u`, and no label of the kind happens after it. -/
def Since (S : System σ α) (starts : α → Prop) (u s : σ) : Prop :=
  S.Reachable u ∧ ∃ tr, S.Run u tr s ∧ ∀ x ∈ tr, ¬starts x.1

namespace Since

lemma refl (h : S.Reachable s) : Since S starts s s := ⟨h, [], .nil s, by simp⟩

lemma trans (h : Since S starts u s) (h' : Since S starts s t) : Since S starts u t := by
  obtain ⟨hu, tr, hr, hquiet⟩ := h
  obtain ⟨-, tr', hr', hquiet'⟩ := h'
  exact ⟨hu, tr ++ tr', hr.append hr', List.forall_mem_append.mpr ⟨hquiet, hquiet'⟩⟩

lemma step (h : Since S starts u s) (hstep : S.step s a t) (hquiet : ¬starts a) : Since S starts u t := by
  obtain ⟨hu, tr, hr, hall⟩ := h
  exact ⟨hu, tr ++ [(a, t)], hr.append (.single hstep), List.forall_mem_append.mpr ⟨hall, by simpa using hquiet⟩⟩

end Since

end System

end MuStrategy.Lib
