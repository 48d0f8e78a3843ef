import Mathlib.Algebra.Order.Field.Basic
import Mathlib.Order.Interval.Set.Basic
import Mathlib.Order.Monotone.Basic
import Mathlib.Tactic.GCongr
import Mathlib.Tactic.Linarith
import Mathlib.Tactic.Positivity
import Mathlib.Tactic.Ring
import MuStrategy.Lib.Number

/-!
# Easing

A value that moves from one number to another, by a curve of the share of its time that has passed. It is never
above both ends, it arrives, and it only moves towards its target.

* `Easing` — a monotone curve of the unit interval that arrives at one.
* `linear`, `slowStart`, `fastStart`, `smooth` — the curves in use.
* `blend` — the value; `blend_le_max`, `blend_one`, `max_blend_mono` — its bounds.
* `share` — the share of a number of steps that has passed.
-/

namespace MuStrategy.Lib

variable {K : Type*} [Field K] [LinearOrder K] [IsStrictOrderedRing K]

/-- A curve of the unit interval: it does not go below zero, it never falls, and it arrives at one. -/
structure Easing (K : Type*) [Field K] [LinearOrder K] where
  curve : K → K
  nonneg : 0 ≤ curve 0
  done : curve 1 = 1
  mono : MonotoneOn curve (Set.Icc 0 1)

namespace Easing

/-! ## Curves -/

/-- The share itself. -/
def linear : Easing K where
  curve p := p
  nonneg := le_refl 0
  done := rfl
  mono := fun _ _ _ _ h => h

/-- Slow at first. -/
def slowStart : Easing K where
  curve p := p * p
  nonneg := by simp
  done := mul_one 1
  mono := by
    intro p hp q _ h
    exact mul_le_mul h h hp.1 (hp.1.trans h)

/-- Fast at first: a slow start, read backwards. -/
def fastStart : Easing K where
  curve p := 1 - (1 - p) * (1 - p)
  nonneg := by simp
  done := by simp
  mono := by
    intro p _ q hq h
    have hrest : 1 - q ≤ 1 - p := by linarith
    have hleft : 0 ≤ 1 - q := by linarith [hq.2]
    have hsquare : (1 - q) * (1 - q) ≤ (1 - p) * (1 - p) := mul_le_mul hrest hrest hleft (hleft.trans hrest)
    change 1 - (1 - p) * (1 - p) ≤ 1 - (1 - q) * (1 - q)
    linarith

/-- Slow at both ends. -/
def smooth : Easing K where
  curve p := 3 * p * p - 2 * p * p * p
  nonneg := by simp
  done := by ring
  mono := by
    intro p hp q hq h
    have hleft : 0 ≤ p * (3 - 2 * p - q) := mul_nonneg hp.1 (by linarith [hp.2, hq.2])
    have hright : 0 ≤ q * (3 - 2 * q - p) := mul_nonneg hq.1 (by linarith [hp.2, hq.2])
    have hdifference : (3 * q * q - 2 * q * q * q) - (3 * p * p - 2 * p * p * p) =
        (q - p) * (p * (3 - 2 * p - q) + q * (3 - 2 * q - p)) := by ring
    have hrise := mul_nonneg (sub_nonneg.mpr h) (add_nonneg hleft hright)
    change 3 * p * p - 2 * p * p * p ≤ 3 * q * q - 2 * q * q * q
    linarith

/-! ## Values -/

variable (e : Easing K) {start target p q : K}

lemma curve_mem (hp : p ∈ Set.Icc 0 1) : e.curve p ∈ Set.Icc 0 1 := by
  have hzero : (0 : K) ∈ Set.Icc 0 1 := Set.left_mem_Icc.mpr zero_le_one
  have hone : (1 : K) ∈ Set.Icc 0 1 := Set.right_mem_Icc.mpr zero_le_one
  refine ⟨e.nonneg.trans (e.mono hzero hp hp.1), ?_⟩
  rw [← e.done]
  exact e.mono hp hone hp.2

/-- The value after a share of the way. -/
def blend (start target p : K) : K := start + (target - start) * e.curve p

omit [IsStrictOrderedRing K] in
lemma blend_one : e.blend start target 1 = target := by
  rw [blend, e.done]
  ring

/-- The value is never above both ends. -/
lemma blend_le_max (hp : p ∈ Set.Icc 0 1) : e.blend start target p ≤ max start target := by
  obtain ⟨hnonneg, hle⟩ := e.curve_mem hp
  unfold blend
  rcases le_total start target with hrise | hfall
  · have hstep : (target - start) * e.curve p ≤ target - start := mul_le_of_le_one_right (sub_nonneg.mpr hrise) hle
    exact (by linarith : start + (target - start) * e.curve p ≤ target).trans (le_max_right _ _)
  · have hstep : (target - start) * e.curve p ≤ 0 := mul_nonpos_of_nonpos_of_nonneg (sub_nonpos.mpr hfall) hnonneg
    exact (by linarith : start + (target - start) * e.curve p ≤ start).trans (le_max_left _ _)

/-- Over a value that is not below the start, a longer way is not below a shorter one. -/
lemma max_blend_mono {floor : K} (hfloor : start ≤ floor) (hp : p ∈ Set.Icc 0 1) (hq : q ∈ Set.Icc 0 1) (h : p ≤ q) :
    max floor (e.blend start target p) ≤ max floor (e.blend start target q) := by
  rcases le_total start target with hrise | hfall
  · refine max_le_max (le_refl _) ?_
    have hstep := mul_le_mul_of_nonneg_left (e.mono hp hq h) (sub_nonneg.mpr hrise)
    unfold blend
    linarith
  · -- the value falls from its start, which is not above the floor
    have hbelow : e.blend start target p ≤ floor :=
      (e.blend_le_max hp).trans (max_le hfloor (hfall.trans hfloor))
    rw [max_eq_left hbelow]
    exact le_max_left _ _

end Easing

/-! ## Shares -/

/-- The share of `total` steps that `n` steps are, at most one. -/
def share (total n : ℕ) : K := min 1 (n / total)

lemma share_mem (total n : ℕ) : (share total n : K) ∈ Set.Icc 0 1 :=
  ⟨le_min zero_le_one (by positivity), min_le_left _ _⟩

lemma share_mono {total m n : ℕ} (h : m ≤ n) : (share total m : K) ≤ share total n := by
  have hcast : (m : K) ≤ n := Nat.cast_le.mpr h
  unfold share
  gcongr

lemma share_eq_one {total n : ℕ} (htotal : 0 < total) (h : total ≤ n) : (share total n : K) = 1 := by
  have hcast : (0 : K) < total := Nat.cast_pos.mpr htotal
  exact min_eq_left ((one_le_div hcast).mpr (Nat.cast_le.mpr h))

end MuStrategy.Lib
