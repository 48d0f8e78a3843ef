import MuStrategy.Lib.System
import Mathlib.Data.List.Destutter

/-!
# Observations along a run

A run is a list of states; an observation `f : σ → Option β` reads at most one value from each.

* `observed f states` — the values an observer sees, repetitions merged.
* `Observes f R start s t` — a step leaves the observation alone, makes it appear as `start`, or
  moves it along `R`.
* `isChain_observed`, `head?_observed` — along a run of such steps, the observed values are a path
  of `R` that begins at `start`.
-/

namespace MuStrategy.Lib

variable {σ β : Type*}

/-- The values seen along a list of states, with repetitions merged. -/
def observed [DecidableEq β] (f : σ → Option β) (states : List σ) : List β :=
  (states.filterMap f).destutter (· ≠ ·)

/-- What one step may do to an observation. -/
inductive Observes (f : σ → Option β) (R : β → β → Prop) (start : β) (s t : σ) : Prop where
  | same : f t = f s → Observes f R start s t
  | appear : f s = none → f t = some start → Observes f R start s t
  | move {a b : β} : f s = some a → f t = some b → R a b → Observes f R start s t

variable {f : σ → Option β} {R : β → β → Prop} {start : β}

/-- Before merging repetitions: the next value is the same one or follows by `R`, and the first
value is the one of the first state, or `start` when that has none. -/
lemma isChain_filterMap (s : σ) (rest : List σ) (h : (s :: rest).IsChain (Observes f R start)) :
    ((s :: rest).filterMap f).IsChain (fun a b => a = b ∨ R a b) ∧
      ∀ a ∈ ((s :: rest).filterMap f).head?, f s = some a ∨ (f s = none ∧ a = start) := by
  induction rest generalizing s with
  | nil => cases hs : f s <;> simp [hs]
  | cons t rest ih =>
      obtain ⟨hst, hrest⟩ := List.isChain_cons_cons.mp h
      obtain ⟨hchain, hhead⟩ := ih t hrest
      cases hs : f s with
      | none =>
          rw [List.filterMap_cons_none hs]
          refine ⟨hchain, fun a ha => .inr ⟨rfl, ?_⟩⟩
          cases hst with
          | same hsame =>
              obtain hat | ⟨-, rfl⟩ := hhead a ha
              · rw [hsame, hs] at hat
                cases hat
              · rfl
          | appear _ ht =>
              obtain hat | ⟨hnone, -⟩ := hhead a ha
              · rw [ht] at hat
                exact (Option.some.inj hat).symm
              · rw [ht] at hnone
                cases hnone
          | move hsa =>
              rw [hs] at hsa
              cases hsa
      | some a =>
          rw [List.filterMap_cons_some hs]
          refine ⟨List.isChain_cons.mpr ⟨?_, hchain⟩, by simp⟩
          intro b hb
          have hat : f t = some b := by
            obtain hat | ⟨hnone, -⟩ := hhead b hb
            · exact hat
            · cases hst with
              | same hsame =>
                  rw [hsame, hs] at hnone
                  cases hnone
              | appear hsn =>
                  rw [hs] at hsn
                  cases hsn
              | move _ ht =>
                  rw [ht] at hnone
                  cases hnone
          cases hst with
          | same hsame =>
              rw [hsame, hs] at hat
              exact .inl (Option.some.inj hat)
          | appear hsn =>
              rw [hs] at hsn
              cases hsn
          | move hsa ht hR =>
              rw [hs, Option.some.injEq] at hsa
              rw [hat, Option.some.injEq] at ht
              exact .inr (hsa ▸ ht ▸ hR)

variable [DecidableEq β]

/-- Merging repetitions of a list whose neighbours are equal or related leaves an `R`-path. -/
lemma isChain_destutter'_of_eq_or (a : β) (l : List β)
    (h : (a :: l).IsChain fun a b => a = b ∨ R a b) :
    (l.destutter' (· ≠ ·) a).IsChain R ∧ (l.destutter' (· ≠ ·) a).head? = some a := by
  induction l generalizing a with
  | nil => simp
  | cons b l ih =>
      obtain ⟨hab, hrest⟩ := List.isChain_cons_cons.mp h
      by_cases hne : a ≠ b
      · obtain ⟨hchain, hhead⟩ := ih b hrest
        rw [List.destutter'_cons_pos _ hne]
        refine ⟨List.isChain_cons.mpr ⟨?_, hchain⟩, rfl⟩
        intro y hy
        rw [hhead] at hy
        obtain rfl := Option.some.inj hy
        exact hab.resolve_left hne
      · rw [List.destutter'_cons_neg _ hne]
        obtain rfl := not_not.mp hne
        exact ih a hrest

/-- **The observed values are a path of the relation.** -/
theorem isChain_observed {states : List σ} (h : states.IsChain (Observes f R start)) :
    (observed f states).IsChain R := by
  cases states with
  | nil => exact .nil
  | cons s rest =>
      unfold observed
      cases hl : (s :: rest).filterMap f with
      | nil => exact .nil
      | cons a l =>
          have hchain := (isChain_filterMap s rest h).1
          rw [hl] at hchain
          exact (isChain_destutter'_of_eq_or a l hchain).1

/-- **The path begins at `start`**, when the first state has no value yet. -/
theorem head?_observed {s : σ} {rest : List σ} (h : (s :: rest).IsChain (Observes f R start))
    (hs : f s = none) : ∀ a ∈ (observed f (s :: rest)).head?, a = start := by
  intro a ha
  unfold observed at ha
  obtain ⟨hchain, hhead⟩ := isChain_filterMap s rest h
  cases hl : (s :: rest).filterMap f with
  | nil =>
      rw [hl] at ha
      cases ha
  | cons b l =>
      rw [hl] at ha hchain hhead
      have hb : some b = some a :=
        (isChain_destutter'_of_eq_or b l hchain).2.symm.trans ha
      obtain hsb | ⟨-, rfl⟩ := hhead b rfl
      · rw [hs] at hsb
        cases hsb
      · exact (Option.some.inj hb).symm

end MuStrategy.Lib
