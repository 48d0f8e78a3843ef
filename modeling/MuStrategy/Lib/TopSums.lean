import Mathlib.Algebra.Order.BigOperators.Group.List
import Mathlib.Algebra.Order.Monoid.Unbundled.Pow
import Mathlib.Data.List.Perm.Subperm

/-!
# Sums of the greatest elements

The first elements of a descending list, against all of it and against other elements of it.

* `smul_sum_le_smul_sum_take` — the mean of the first elements is no less than the mean of all.
* `sum_le_sum_take` — no other elements, as many of them, add up to more.
-/

namespace MuStrategy.Lib

section

variable {α : Type*} [AddCommMonoid α] [LinearOrder α] [IsOrderedAddMonoid α] {xs : List α}

/-- **The first elements have the greatest mean.** -/
theorem smul_sum_le_smul_sum_take (h : xs.Pairwise (· ≥ ·)) (k : ℕ) :
    min k xs.length • xs.sum ≤ xs.length • (xs.take k).sum := by
  rcases le_or_gt xs.length k with hall | hsome
  · rw [min_eq_right hall, List.take_of_length_le hall]
  · rw [min_eq_left hsome.le]
    cases k with
    | zero => simp
    | succ k =>
        -- the last of the first elements is between both parts
        obtain ⟨m, hm⟩ : ∃ m, m = xs[k] := ⟨_, rfl⟩
        have hlength : (xs.take (k + 1)).length = k + 1 := List.length_take_of_le hsome.le
        have hfirst : (k + 1) • m ≤ (xs.take (k + 1)).sum := by
          have hbound := List.card_nsmul_le_sum (xs.take (k + 1)) m fun x hx => by
            obtain ⟨i, hi, rfl⟩ := List.mem_take_iff_getElem.mp hx
            rcases (show i ≤ k by omega).lt_or_eq with hlt | rfl
            · exact hm ▸ List.pairwise_iff_getElem.mp h i k (by omega) (by omega) hlt
            · exact hm.le
          rwa [hlength] at hbound
        have hrest : (xs.drop (k + 1)).sum ≤ (xs.length - (k + 1)) • m := by
          have hbound := List.sum_le_card_nsmul (xs.drop (k + 1)) m fun x hx => by
            obtain ⟨i, hi, rfl⟩ := List.mem_drop_iff_getElem.mp hx
            exact hm ▸ List.pairwise_iff_getElem.mp h k (k + 1 + i) (by omega) (by omega) (by omega)
          rwa [List.length_drop] at hbound
        have hsplit : xs.sum = (xs.take (k + 1)).sum + (xs.drop (k + 1)).sum := by
          rw [← List.sum_append, List.take_append_drop]
        obtain ⟨r, hr⟩ : ∃ r, xs.length = k + 1 + r := Nat.exists_eq_add_of_le hsome.le
        rw [hr, Nat.add_sub_cancel_left] at hrest
        calc (k + 1) • xs.sum = (k + 1) • (xs.take (k + 1)).sum + (k + 1) • (xs.drop (k + 1)).sum := by
              rw [hsplit, nsmul_add]
          _ ≤ (k + 1) • (xs.take (k + 1)).sum + (k + 1) • r • m :=
              add_le_add_right (nsmul_le_nsmul_right hrest _) _
          _ = (k + 1) • (xs.take (k + 1)).sum + r • (k + 1) • m := by rw [nsmul_left_comm]
          _ ≤ (k + 1) • (xs.take (k + 1)).sum + r • (xs.take (k + 1)).sum :=
              add_le_add_right (nsmul_le_nsmul_right hfirst _) _
          _ = xs.length • (xs.take (k + 1)).sum := by rw [← add_nsmul, hr]

/-- **No elements add up to more** than the first ones, of a descending list without negative elements. -/
theorem sum_le_sum_take {ys : List α} (h : xs.Pairwise (· ≥ ·)) (hnonneg : ∀ x ∈ xs, 0 ≤ x) (hys : ys.Subperm xs)
    {k : ℕ} (hk : ys.length ≤ k) : ys.sum ≤ (xs.take k).sum := by
  induction xs generalizing ys k with
  | nil =>
      obtain rfl := List.subperm_nil.mp hys
      simp
  | cons x xs ih =>
      have hrest := List.pairwise_cons.mp h
      cases ys with
      | nil =>
          rw [List.sum_nil]
          exact List.sum_nonneg fun a ha => hnonneg a (List.mem_of_mem_take ha)
      | cons y ys =>
          obtain ⟨k, rfl⟩ : ∃ n, k = n + 1 := ⟨k - 1, by rw [List.length_cons] at hk; omega⟩
          have hnonneg' : ∀ a ∈ xs, 0 ≤ a := fun a ha => hnonneg a (List.mem_cons_of_mem x ha)
          rw [List.length_cons] at hk
          have herase := List.erase_cons_head x xs ▸ hys.erase x
          by_cases hx : x ∈ y :: ys
          · -- the greatest is among them
            have hperm := List.perm_cons_erase hx
            have hlength := hperm.length_eq
            rw [List.length_cons, List.length_cons] at hlength
            rw [hperm.sum_eq, List.take_succ_cons, List.sum_cons, List.sum_cons]
            exact add_le_add_right (ih hrest.2 hnonneg' herase (by omega)) x
          · rw [List.erase_of_not_mem hx] at herase
            have hy : y ∈ xs := herase.subset List.mem_cons_self
            rw [List.take_succ_cons, List.sum_cons, List.sum_cons]
            exact add_le_add (hrest.1 y hy)
              (ih hrest.2 hnonneg' ((List.sublist_cons_self y ys).subperm.trans herase) (by omega))

end

end MuStrategy.Lib
