import Mathlib

/-!
# Lists by level

A list whose entries have a level that never decreases is its levels, one after the other.

* `level` — the entries of a level; `flatMap_level` — the levels, in order, are the list.
* `Climbs` — natural numbers that start at one, never decrease, skip none and end at a given one.
* `climbs_iff` — these are the nondecreasing lists of all numbers from one to the greatest.
-/

namespace MuStrategy.Lib

section level

variable {α K : Type} [LinearOrder K] (key : α → K)

/-- The entries of a level. -/
def level (k : K) (xs : List α) : List α := xs.filter fun x => key x = k

variable {key}

lemma mem_level {k : K} {xs : List α} {x : α} : x ∈ level key k xs ↔ x ∈ xs ∧ key x = k := by
  rw [level, List.mem_filter, decide_eq_true_eq]

/-- The least level comes first. -/
lemma level_append_rest {k : K} {xs : List α} (hxs : xs.Pairwise fun a b => key a ≤ key b)
    (hmin : ∀ x ∈ xs, k ≤ key x) : level key k xs ++ (xs.filter fun x => key x ≠ k) = xs := by
  induction xs with
  | nil => rfl
  | cons x xs ih =>
      have htail := ih hxs.of_cons fun y hy => hmin y (List.mem_cons_of_mem x hy)
      rw [level] at htail ⊢
      by_cases hk : key x = k
      · rw [List.filter_cons_of_pos (by simpa using hk), List.filter_cons_of_neg (by simpa using hk), List.cons_append,
          htail]
      · -- no entry of the level is left
        have hnone : (xs.filter fun y => key y = k) = [] := by
          refine List.filter_eq_nil_iff.mpr fun y hy => ?_
          have hlt : k < key x := lt_of_le_of_ne (hmin x List.mem_cons_self) (Ne.symm hk)
          have hle := List.rel_of_pairwise_cons hxs hy
          rw [decide_eq_true_eq]
          exact (hlt.trans_le hle).ne'
        rw [hnone, List.nil_append] at htail
        rw [List.filter_cons_of_neg (by simpa using hk), hnone, List.nil_append,
          List.filter_cons_of_pos (by simpa using hk), htail]

/-- **A list whose levels never decrease** is its levels, one after the other. -/
theorem flatMap_level {keys : List K} (hkeys : keys.Pairwise (· < ·)) {xs : List α}
    (hxs : xs.Pairwise fun a b => key a ≤ key b) (hcovers : ∀ x ∈ xs, key x ∈ keys) :
    (keys.flatMap fun k => level key k xs) = xs := by
  induction keys generalizing xs with
  | nil =>
      cases xs with
      | nil => rfl
      | cons x xs => cases hcovers x List.mem_cons_self
  | cons k keys ih =>
      have hmin : ∀ x ∈ xs, k ≤ key x := by
        intro x hx
        rcases List.mem_cons.mp (hcovers x hx) with hk | hk
        · exact hk.ge
        · exact (List.rel_of_pairwise_cons hkeys hk).le
      have hrest : (keys.flatMap fun k' => level key k' (xs.filter fun x => key x ≠ k)) =
          xs.filter fun x => key x ≠ k := by
        refine ih hkeys.of_cons (hxs.filter _) fun x hx => ?_
        obtain ⟨hx, hne⟩ := List.mem_filter.mp hx
        exact (List.mem_cons.mp (hcovers x hx)).resolve_left (of_decide_eq_true hne)
      have hlevels : (keys.flatMap fun k' => level key k' xs) =
          keys.flatMap fun k' => level key k' (xs.filter fun x => key x ≠ k) := by
        rw [List.flatMap_def, List.flatMap_def]
        refine congrArg List.flatten (List.map_congr_left fun k' hk' => ?_)
        have hne : k' ≠ k := (List.rel_of_pairwise_cons hkeys hk').ne'
        rw [level, level, List.filter_filter]
        refine List.filter_congr fun x _ => ?_
        by_cases hx : key x = k'
        · simp [hx, hne]
        · simp [hx]
      rw [List.flatMap_cons, hlevels, hrest]
      exact level_append_rest hxs hmin

end level

/-! ## Climbing -/

/-- The levels start at one, never decrease, skip none and end at the top. -/
structure Climbs (levels : List ℕ) (top : Option ℕ) : Prop where
  starts : levels.head? = some 1
  rises : levels.Pairwise (· ≤ ·)
  skips : levels.IsChain fun a b => b ≤ a + 1
  ends : levels.getLast? = top

/-- What climbs goes through every level. -/
lemma Climbs.mem_iff {levels : List ℕ} {top : ℕ} (h : Climbs levels (some top)) (k : ℕ) :
    k ∈ levels ↔ 1 ≤ k ∧ k ≤ top := by
  induction levels using List.reverseRecOn generalizing top k with
  | nil => cases h.starts
  | append_singleton levels x ih =>
      have htop : x = top := Option.some.inj (List.getLast?_concat.symm.trans h.ends)
      subst htop
      obtain ⟨hrises, -, hlast⟩ := List.pairwise_append.mp h.rises
      rcases List.eq_nil_or_concat levels with rfl | ⟨init, y, rfl⟩
      · have hone : x = 1 := Option.some.inj h.starts
        rw [List.nil_append, List.mem_singleton]
        omega
      · rw [List.concat_eq_append] at ih hrises hlast h ⊢
        obtain ⟨hskips, -, hstep⟩ := List.isChain_append.mp h.skips
        have hstart : (init ++ [y]).head? = some 1 := by
          have hstarts := h.starts
          rw [List.head?_append] at hstarts
          cases hinit : (init ++ [y]).head? with
          | none => exact absurd (List.head?_eq_none_iff.mp hinit) (by simp)
          | some first => rwa [hinit] at hstarts
        have hmem := ih ⟨hstart, hrises, hskips, List.getLast?_concat⟩ (k := k)
        have hle := hlast y (List.mem_append_right init List.mem_cons_self) x List.mem_cons_self
        have hnext := hstep y List.getLast?_concat x rfl
        rw [List.mem_append, hmem, List.mem_singleton]
        have hpos := (ih ⟨hstart, hrises, hskips, List.getLast?_concat⟩ (k := y)).mp
          (List.mem_append_right init List.mem_cons_self)
        omega

/-- The greatest of a list is where it ends. -/
lemma getLast?_of_pairwise {levels : List ℕ} (hne : levels ≠ []) (hrises : levels.Pairwise (· ≤ ·)) :
    levels.getLast? = some (levels.foldl max 0) := by
  have hbound : ∀ (xs : List ℕ) (n x : ℕ), n ≤ x → (∀ y ∈ xs, y ≤ x) → xs.foldl max n ≤ x := by
    intro xs
    induction xs with
    | nil => exact fun n x hn _ => hn
    | cons y ys ih =>
        intro n x hn hxs
        exact ih (max n y) x (max_le hn (hxs y List.mem_cons_self)) fun z hz => hxs z (List.mem_cons_of_mem y hz)
  obtain ⟨init, x, rfl⟩ := (List.eq_nil_or_concat levels).resolve_left hne
  rw [List.concat_eq_append] at hrises ⊢
  have hlast := (List.pairwise_append.mp hrises).2.2
  have hle := hbound init 0 x (Nat.zero_le x) fun y hy => hlast y hy x List.mem_cons_self
  rw [List.getLast?_concat, List.foldl_append, List.foldl_cons, List.foldl_nil, max_eq_right hle]

/-- **To climb** is to be a nondecreasing list of all levels from one to the greatest. -/
theorem climbs_iff {levels : List ℕ} {top : Option ℕ} : Climbs levels top ↔
    levels ≠ [] ∧ levels.Pairwise (· ≤ ·) ∧ (∀ k, k ∈ levels ↔ 1 ≤ k ∧ k ≤ levels.foldl max 0) ∧
      top = some (levels.foldl max 0) := by
  constructor
  · intro h
    have hne : levels ≠ [] := by
      rintro rfl
      cases h.starts
    have htop := h.ends.symm.trans (getLast?_of_pairwise hne h.rises)
    subst htop
    exact ⟨hne, h.rises, h.mem_iff, rfl⟩
  · rintro ⟨hne, hrises, hmem, rfl⟩
    refine ⟨?_, hrises, ?_, getLast?_of_pairwise hne hrises⟩
    · obtain ⟨first, rest, rfl⟩ := List.exists_cons_of_ne_nil hne
      obtain ⟨hfirst, htop⟩ := (hmem first).mp List.mem_cons_self
      have hone := (hmem 1).mpr ⟨le_rfl, hfirst.trans htop⟩
      rcases List.mem_cons.mp hone with heq | hone
      · rw [heq]
        rfl
      · have hle := List.rel_of_pairwise_cons hrises hone
        rw [le_antisymm hle hfirst]
        rfl
    · refine List.isChain_iff_forall_rel_of_append_cons_cons.mpr fun a b before after hsplit => ?_
      by_contra hgap
      rw [hsplit] at hrises
      obtain ⟨-, htail, hbefore⟩ := List.pairwise_append.mp hrises
      have hab := List.rel_of_pairwise_cons htail List.mem_cons_self
      have ha := (hmem a).mp (hsplit ▸ List.mem_append_right before List.mem_cons_self)
      have hb := (hmem b).mp (hsplit ▸ List.mem_append_right before (List.mem_cons_of_mem a List.mem_cons_self))
      -- the level after `a` is nowhere
      have hnext := (hmem (a + 1)).mpr ⟨by omega, by omega⟩
      rw [hsplit, List.mem_append, List.mem_cons, List.mem_cons] at hnext
      rcases hnext with hin | heq | heq | hin
      · have := hbefore (a + 1) hin a List.mem_cons_self
        omega
      · omega
      · omega
      · have := List.rel_of_pairwise_cons htail.of_cons hin
        omega

end MuStrategy.Lib
