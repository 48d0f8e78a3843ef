import Mathlib.Algebra.Order.Ring.Int
import Mathlib.Algebra.Ring.Divisibility.Basic
import Mathlib.Data.List.Chain
import Mathlib.Data.List.Range
import Mathlib.Data.List.Perm.Subperm
import Mathlib.Tactic.Linarith
import Mathlib.Tactic.Ring
import MuStrategy.Lib.Levels
import MuStrategy.Lib.Timeline

/-!
# Lists on a grid

Entries at multiples of a step, one step apart, and the wider buckets they fill.

* `floorTo`, `ceilTo` — the multiples around a number.
* `progression` — the numbers from one to another, a step apart.
* `OnGrid` — entries at multiples of a step, one step apart; `OnGrid.mem_keys` — they are all multiples between the
  first and the last.
* `OnGrid.length_bucket` — a bucket is full exactly if it lies between the first and the last entry.
-/

namespace MuStrategy.Lib

/-! ## Multiples -/

/-- The greatest multiple that is not above a number. -/
def floorTo (width t : ℤ) : ℤ := t - t % width

/-- The least multiple that is not below a number. -/
def ceilTo (width t : ℤ) : ℤ := if t % width = 0 then t else t + (width - t % width)

variable {width step t s : ℤ}

lemma dvd_floorTo : width ∣ floorTo width t := Int.dvd_self_sub_emod

lemma floorTo_le (h : 0 < width) : floorTo width t ≤ t := by
  have := Int.emod_nonneg t h.ne'
  rw [floorTo]
  omega

lemma lt_floorTo_add (h : 0 < width) : t < floorTo width t + width := by
  have := Int.emod_lt_of_pos t h
  rw [floorTo]
  omega

lemma dvd_ceilTo : width ∣ ceilTo width t := by
  unfold ceilTo
  split
  · rename_i hmod
    exact Int.dvd_of_emod_eq_zero hmod
  · have hself : t + (width - t % width) = floorTo width t + width := by
      rw [floorTo]
      ring
    rw [hself]
    exact dvd_add dvd_floorTo dvd_rfl

/-- A positive multiple is at least one. -/
lemma add_le_of_dvd (hs : width ∣ s) (ht : width ∣ t) (hlt : s < t) : s + width ≤ t := by
  have := Int.le_of_dvd (sub_pos.mpr hlt) (dvd_sub ht hs)
  omega

lemma le_floorTo_iff (h : 0 < width) (hs : width ∣ s) : s ≤ floorTo width t ↔ s ≤ t := by
  refine ⟨fun hle => hle.trans (floorTo_le h), fun hle => ?_⟩
  by_contra hlt
  have := add_le_of_dvd dvd_floorTo hs (not_le.mp hlt)
  have := lt_floorTo_add (t := t) h
  omega

lemma ceilTo_le_iff (h : 0 < width) (hs : width ∣ s) : ceilTo width t ≤ s ↔ t ≤ s := by
  have hmod := Int.emod_nonneg t h.ne'
  have hlt := Int.emod_lt_of_pos t h
  unfold ceilTo
  split
  · exact Iff.rfl
  · refine ⟨fun hle => by omega, fun hle => ?_⟩
    have hfloor : floorTo width t < s := by
      rw [floorTo]
      omega
    have := add_le_of_dvd dvd_floorTo hs hfloor
    rw [floorTo] at this
    omega

lemma le_ceilTo (h : 0 < width) : t ≤ ceilTo width t := (ceilTo_le_iff h dvd_ceilTo).mp le_rfl

lemma ceilTo_lt_add (h : 0 < width) : ceilTo width t < t + width := by
  have := Int.emod_nonneg t h.ne'
  unfold ceilTo
  split <;> omega

/-- The bucket of a number. -/
lemma floorTo_eq_iff (h : 0 < width) (hs : width ∣ s) : floorTo width t = s ↔ s ≤ t ∧ t < s + width := by
  constructor
  · rintro rfl
    exact ⟨floorTo_le h, lt_floorTo_add h⟩
  · rintro ⟨hle, hlt⟩
    refine le_antisymm ?_ ((le_floorTo_iff h hs).mpr hle)
    by_contra hgt
    have := add_le_of_dvd hs dvd_floorTo (not_le.mp hgt)
    have := floorTo_le (t := t) h
    omega

lemma floorTo_mono (h : 0 < width) (hle : s ≤ t) : floorTo width s ≤ floorTo width t :=
  (le_floorTo_iff h dvd_floorTo).mpr ((floorTo_le h).trans hle)

/-! ## Progressions -/

/-- The numbers from `first` to `last`, a step apart. -/
def progression (step first last : ℤ) : List ℤ :=
  if first ≤ last then (List.range ((last - first) / step + 1).toNat).map fun i : ℕ => first + (i : ℤ) * step else []

variable {first last : ℤ}

lemma mem_progression (h : 0 < step) : s ∈ progression step first last ↔ step ∣ s - first ∧ first ≤ s ∧ s ≤ last := by
  unfold progression
  split
  · rename_i hle
    rw [List.mem_map]
    constructor
    · rintro ⟨i, hi, rfl⟩
      have hquotient : (i : ℤ) ≤ (last - first) / step := by
        have := Int.ediv_nonneg (sub_nonneg.mpr hle) h.le
        have := List.mem_range.mp hi
        omega
      have hmul := (Int.le_ediv_iff_mul_le h).mp hquotient
      have hnonneg : 0 ≤ (i : ℤ) * step := mul_nonneg (Int.natCast_nonneg i) h.le
      exact ⟨⟨i, by ring⟩, by omega, by omega⟩
    · rintro ⟨⟨i, hi⟩, hfirst, hlast⟩
      have hpos : 0 ≤ i := by
        by_contra hneg
        have := mul_neg_of_pos_of_neg h (not_le.mp hneg)
        omega
      refine ⟨i.toNat, List.mem_range.mpr ?_, ?_⟩
      · have hle' : i ≤ (last - first) / step := (Int.le_ediv_iff_mul_le h).mpr (by rw [mul_comm]; omega)
        omega
      · rw [Int.toNat_of_nonneg hpos, mul_comm, ← hi]
        ring
  · rename_i hgt
    exact ⟨fun hmem => absurd hmem List.not_mem_nil, fun hmem => absurd (hmem.2.1.trans hmem.2.2) hgt⟩

lemma progression_pairwise (h : 0 < step) : (progression step first last).Pairwise (· < ·) := by
  unfold progression
  split
  · rw [List.pairwise_map]
    refine List.pairwise_lt_range.imp fun {i j} hlt => ?_
    have := mul_lt_mul_of_pos_right (Int.ofNat_lt.mpr hlt) h
    omega
  · exact List.Pairwise.nil

/-- The steps of a full bucket. -/
lemma length_progression (h : 0 < step) {n : ℕ} (hn : 0 < n) :
    (progression step t (t + n * step - step)).length = n := by
  have hn' : (1 : ℤ) ≤ n := by exact_mod_cast hn
  have hle : t ≤ t + n * step - step := by nlinarith
  have hquotient : (t + n * step - step - t) / step = n - 1 := by
    have hmul : t + n * step - step - t = (n - 1) * step := by ring
    rw [hmul, Int.mul_ediv_cancel _ h.ne']
  rw [progression, if_pos hle, List.length_map, List.length_range, hquotient]
  omega

/-! ## Entries -/

section grid

variable {α : Type} {key : α → ℤ} {x y : α} {xs ys : List α}

/-- Entries at multiples of a step, one step apart. -/
structure OnGrid (step : ℤ) (key : α → ℤ) (xs : List α) : Prop where
  aligned : ∀ x ∈ xs, step ∣ key x
  steps : xs.IsChain fun a b => key b = key a + step

lemma OnGrid.tail (h : OnGrid step key (x :: xs)) : OnGrid step key xs :=
  ⟨fun y hy => h.aligned y (List.mem_cons_of_mem x hy), h.steps.tail⟩

lemma OnGrid.piece (h : OnGrid step key ys) (hsub : xs <:+: ys) : OnGrid step key xs :=
  ⟨fun x hx => h.aligned x (hsub.subset hx), List.IsChain.infix h.steps hsub⟩

lemma OnGrid.increasing (hstep : 0 < step) (h : OnGrid step key xs) : Increasing key xs := by
  have hlt : xs.IsChain fun a b => key a < key b := h.steps.imp fun a b heq => by omega
  exact List.isChain_iff_pairwise.mp hlt

/-- **The keys are all multiples** from the first to the last. -/
theorem OnGrid.mem_keys (hstep : 0 < step) (h : OnGrid step key xs) (hfirst : xs.head?.map key = some first)
    (hlast : xs.getLast?.map key = some last) (s : ℤ) : s ∈ xs.map key ↔ step ∣ s ∧ first ≤ s ∧ s ≤ last := by
  induction xs generalizing first s with
  | nil => cases hfirst
  | cons x xs ih =>
      obtain rfl := Option.some.inj hfirst
      have hx := h.aligned x List.mem_cons_self
      rw [List.map_cons, List.mem_cons]
      cases xs with
      | nil =>
          obtain rfl := Option.some.inj hlast
          rw [List.map_nil, List.mem_nil_iff, or_false]
          constructor
          · rintro rfl
            exact ⟨hx, le_rfl, le_rfl⟩
          · exact fun hs => le_antisymm hs.2.2 hs.2.1
      | cons y ys =>
          have hy : key y = key x + step := (List.isChain_cons_cons.mp h.steps).1
          have hrest := ih h.tail rfl (by rwa [List.getLast?_cons_cons] at hlast)
          rw [hrest]
          constructor
          · rintro (rfl | ⟨hs, hge, hle⟩)
            · have := ((hrest (key y)).mp (List.mem_map_of_mem List.mem_cons_self)).2.2
              exact ⟨hx, le_rfl, by omega⟩
            · exact ⟨hs, by omega, hle⟩
          · rintro ⟨hs, hge, hle⟩
            rcases eq_or_lt_of_le hge with heq | hlt
            · exact .inl heq.symm
            · have := add_le_of_dvd hx hs hlt
              exact .inr ⟨hs, by omega, hle⟩

/-- The keys of a bucket are multiples in it. -/
lemma OnGrid.bucket_subset (hstep : 0 < step) (h : OnGrid step key xs) {n : ℕ} (hwidth : width = n * step)
    (hpos : 0 < width) (ht : width ∣ t) :
    (level (floorTo width ∘ key) t xs).map key ⊆ progression step t (t + n * step - step) := by
  intro s hs
  obtain ⟨x, hx, rfl⟩ := List.mem_map.mp hs
  obtain ⟨hx, hbucket⟩ := mem_level.mp hx
  obtain ⟨hle, hlt⟩ := (floorTo_eq_iff hpos ht).mp hbucket
  have haligned := h.aligned x hx
  have hdvd : step ∣ width := ⟨n, by rw [hwidth, mul_comm]⟩
  have hnext := add_le_of_dvd haligned (dvd_add (hdvd.trans ht) hdvd) hlt
  exact (mem_progression hstep).mpr ⟨dvd_sub haligned (hdvd.trans ht), hle, by omega⟩

/-- **A bucket is full** exactly if it lies between the first and the last entry. -/
theorem OnGrid.length_bucket (hstep : 0 < step) (h : OnGrid step key xs) (hfirst : xs.head?.map key = some first)
    (hlast : xs.getLast?.map key = some last) {n : ℕ} (hn : 0 < n) (hwidth : width = n * step) (ht : width ∣ t) :
    (level (floorTo width ∘ key) t xs).length = n ↔ first ≤ t ∧ t + width - step ≤ last := by
  have hpos : 0 < width := hwidth ▸ mul_pos (Int.natCast_pos.mpr hn) hstep
  have hdvd : step ∣ width := ⟨n, by rw [hwidth, mul_comm]⟩
  have hsub := h.bucket_subset hstep hwidth hpos ht
  have hnodup : ((level (floorTo width ∘ key) t xs).map key).Nodup :=
    (List.pairwise_map.mpr ((h.increasing hstep).filter _)).imp fun hlt => hlt.ne
  have hlength := length_progression (t := t) hstep hn
  have hmem := h.mem_keys hstep hfirst hlast
  constructor
  · intro hfull
    have hperm := (hnodup.subperm hsub).perm_of_length_le (by rw [hlength, List.length_map, hfull])
    have hkeys : ∀ s ∈ progression step t (t + n * step - step), first ≤ s ∧ s ≤ last := by
      intro s hs
      obtain ⟨x, hx, rfl⟩ := List.mem_map.mp (hperm.mem_iff.mpr hs)
      exact ((hmem _).mp (List.mem_map_of_mem (mem_level.mp hx).1)).2
    have hle : step ≤ width := Int.le_of_dvd hpos hdvd
    refine ⟨(hkeys t ((mem_progression hstep).mpr ⟨by simp, le_rfl, by omega⟩)).1, ?_⟩
    refine (hkeys (t + width - step) ((mem_progression hstep).mpr ⟨?_, by omega, by omega⟩)).2
    have hself : t + width - step - t = width - step := by ring
    rw [hself]
    exact dvd_sub hdvd dvd_rfl
  · rintro ⟨hlower, hupper⟩
    have hcovers : progression step t (t + n * step - step) ⊆ (level (floorTo width ∘ key) t xs).map key := by
      intro s hs
      obtain ⟨hs, hge, hle⟩ := (mem_progression hstep).mp hs
      have hs' : step ∣ s := by
        have := dvd_add hs (hdvd.trans ht)
        rwa [sub_add_cancel] at this
      obtain ⟨x, hx, rfl⟩ := List.mem_map.mp ((hmem s).mpr ⟨hs', by omega, by omega⟩)
      exact List.mem_map_of_mem (mem_level.mpr ⟨hx, (floorTo_eq_iff hpos ht).mpr ⟨hge, by omega⟩⟩)
    have hprogression : (progression step t (t + n * step - step)).Nodup :=
      (progression_pairwise hstep).imp fun hlt => hlt.ne
    have hge := (hprogression.subperm hcovers).length_le
    have hle := (hnodup.subperm hsub).length_le
    rw [hlength, List.length_map] at hge hle
    exact le_antisymm hle hge

end grid

end MuStrategy.Lib
