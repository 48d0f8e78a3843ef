import Mathlib

/-!
# Lists in the order of a key

* `Increasing` — every entry has a smaller key than the ones after it.
* `assign`, `byKey` — a dictionary in the order of its keys; a later entry replaces an earlier one of the same key.
* `Increasing.ext` — an increasing list is determined by its members.
* `Increasing.filter_piece` — the entries of a range are a piece of an increasing list.
* `byKey_eq_filter` — sorting entries that come from an increasing list gives back the part of it they are.
-/

namespace MuStrategy.Lib

variable {α K : Type} [LinearOrder K] (key : α → K)

/-- Every entry has a smaller key than the ones after it. -/
def Increasing (xs : List α) : Prop := xs.Pairwise fun a b => key a < key b

/-- Assignment to a dictionary that is kept in the order of its keys. -/
def assign (x : α) : List α → List α
  | [] => [x]
  | y :: ys => if key x < key y then x :: y :: ys else if key x = key y then x :: ys else y :: assign x ys

/-- The entries by key, in the order of the keys: the last entry of each key. -/
def byKey (xs : List α) : List α := xs.foldl (fun entries x => assign key x entries) []

variable {key}

lemma Increasing.tail {x : α} {xs : List α} (h : Increasing key (x :: xs)) : Increasing key xs :=
  List.Pairwise.of_cons h

lemma Increasing.lt_of_cons {x y : α} {xs : List α} (h : Increasing key (x :: xs)) (hy : y ∈ xs) : key x < key y :=
  List.rel_of_pairwise_cons h hy

lemma Increasing.filter {xs : List α} (h : Increasing key xs) (p : α → Bool) : Increasing key (xs.filter p) :=
  List.Pairwise.filter p h

lemma Increasing.sublist {xs ys : List α} (h : Increasing key ys) (hsub : xs.Sublist ys) : Increasing key xs :=
  List.Pairwise.sublist hsub h

lemma increasing_append {xs ys : List α} :
    Increasing key (xs ++ ys) ↔ Increasing key xs ∧ Increasing key ys ∧ ∀ x ∈ xs, ∀ y ∈ ys, key x < key y :=
  List.pairwise_append

/-- A key has one entry. -/
lemma Increasing.eq_of_key {xs : List α} (h : Increasing key xs) {x y : α} (hx : x ∈ xs) (hy : y ∈ xs)
    (heq : key x = key y) : x = y := by
  induction xs with
  | nil => cases hx
  | cons z zs ih =>
      rcases List.mem_cons.mp hx with rfl | hx'
      · rcases List.mem_cons.mp hy with rfl | hy'
        · rfl
        · exact absurd heq (h.lt_of_cons hy').ne
      · rcases List.mem_cons.mp hy with rfl | hy'
        · exact absurd heq (h.lt_of_cons hx').ne'
        · exact ih h.tail hx' hy'

lemma Increasing.nodup {xs : List α} (h : Increasing key xs) : xs.Nodup :=
  h.imp fun hlt heq => absurd (congrArg key heq) hlt.ne

/-- The first entry has the least key. -/
lemma Increasing.head_le {xs : List α} (h : Increasing key xs) {first x : α} (hfirst : xs.head? = some first)
    (hx : x ∈ xs) : key first ≤ key x := by
  cases xs with
  | nil => cases hfirst
  | cons y ys =>
      obtain rfl := Option.some.inj hfirst
      rcases List.mem_cons.mp hx with rfl | hx
      · exact le_rfl
      · exact (h.lt_of_cons hx).le

/-- The last entry has the greatest key. -/
lemma Increasing.le_getLast {xs : List α} (h : Increasing key xs) {last x : α} (hlast : xs.getLast? = some last)
    (hx : x ∈ xs) : key x ≤ key last := by
  rcases List.eq_nil_or_concat xs with rfl | ⟨init, y, rfl⟩
  · cases hlast
  · rw [List.concat_eq_append] at h hlast hx
    obtain rfl := Option.some.inj (List.getLast?_concat.symm.trans hlast)
    rcases List.mem_append.mp hx with hx | hx
    · exact ((increasing_append.mp h).2.2 x hx y List.mem_cons_self).le
    · rw [List.mem_singleton.mp hx]

/-- The end of an increasing list: the entries from the key of its head on. -/
lemma Increasing.suffix_eq_filter {xs ys : List α} {first : α} (h : Increasing key xs) (hsub : ys <:+ xs)
    (hfirst : ys.head? = some first) : ys = xs.filter fun x => key first ≤ key x := by
  obtain ⟨before, rfl⟩ := hsub
  obtain ⟨-, hys, hlt⟩ := increasing_append.mp h
  have hbefore : (before.filter fun x => key first ≤ key x) = [] := by
    refine List.filter_eq_nil_iff.mpr fun x hx => ?_
    rw [decide_eq_true_eq, not_le]
    exact hlt x hx first (List.mem_of_head? hfirst)
  have hkept : (ys.filter fun x => key first ≤ key x) = ys := by
    refine List.filter_eq_self.mpr fun x hx => ?_
    rw [decide_eq_true_eq]
    exact hys.head_le hfirst hx
  rw [List.filter_append, hbefore, hkept, List.nil_append]

/-- **An increasing list is determined by its members.** -/
theorem Increasing.ext {xs ys : List α} (hx : Increasing key xs) (hy : Increasing key ys)
    (hmem : ∀ z, z ∈ xs ↔ z ∈ ys) : xs = ys :=
  ((List.perm_ext_iff_of_nodup hx.nodup hy.nodup).mpr hmem).eq_of_pairwise
    (fun _ _ _ _ hab hba => absurd hab hba.asymm) hx hy

/-! ## Dictionaries -/

/-- Assignment keeps the order; the entry with that key goes. -/
lemma Increasing.assign {ys : List α} (h : Increasing key ys) (x : α) :
    Increasing key (assign key x ys) ∧ ∀ z, z ∈ assign key x ys ↔ z = x ∨ z ∈ ys ∧ key z ≠ key x := by
  induction ys with
  | nil => exact ⟨List.pairwise_singleton _ x, fun z => by simp [Lib.assign]⟩
  | cons y ys ih =>
      obtain ⟨hsorted, hmem⟩ := ih h.tail
      rw [Lib.assign]
      by_cases hlt : key x < key y
      · rw [if_pos hlt]
        have hall : ∀ z ∈ y :: ys, key x < key z := by
          intro z hz
          rcases List.mem_cons.mp hz with rfl | hz
          · exact hlt
          · exact hlt.trans (h.lt_of_cons hz)
        refine ⟨List.pairwise_cons.mpr ⟨hall, h⟩, fun z => ?_⟩
        rw [List.mem_cons, and_iff_left_of_imp fun hz => (hall z hz).ne']
      rw [if_neg hlt]
      by_cases heq : key x = key y
      · rw [if_pos heq]
        have hall : ∀ z ∈ ys, key x < key z := fun z hz => heq ▸ h.lt_of_cons hz
        refine ⟨List.pairwise_cons.mpr ⟨hall, h.tail⟩, fun z => ?_⟩
        rw [List.mem_cons, List.mem_cons]
        refine or_congr_right ?_
        constructor
        · exact fun hz => ⟨.inr hz, (hall z hz).ne'⟩
        · rintro ⟨rfl | hz, hne⟩
          · exact absurd heq.symm hne
          · exact hz
      · rw [if_neg heq]
        have hgt : key y < key x := lt_of_le_of_ne (not_lt.mp hlt) (Ne.symm heq)
        refine ⟨List.pairwise_cons.mpr ⟨fun z hz => ?_, hsorted⟩, fun z => ?_⟩
        · rcases (hmem z).mp hz with rfl | ⟨hz, -⟩
          · exact hgt
          · exact h.lt_of_cons hz
        · rw [List.mem_cons, List.mem_cons, hmem]
          constructor
          · rintro (rfl | rfl | ⟨hz, hne⟩)
            · exact .inr ⟨.inl rfl, Ne.symm heq⟩
            · exact .inl rfl
            · exact .inr ⟨.inr hz, hne⟩
          · rintro (rfl | ⟨rfl | hz, hne⟩)
            · exact .inr (.inl rfl)
            · exact .inl rfl
            · exact .inr (.inr ⟨hz, hne⟩)

/-- A list of entries by key is in the order of the keys, and all its entries are of the list. -/
lemma byKey_spec (key : α → K) (xs : List α) : Increasing key (byKey key xs) ∧ (∀ z ∈ byKey key xs, z ∈ xs) ∧
    ∀ x ∈ xs, ∃ z ∈ byKey key xs, key z = key x := by
  induction xs using List.reverseRecOn with
  | nil => exact ⟨List.Pairwise.nil, fun z hz => hz, fun x hx => by cases hx⟩
  | append_singleton xs x ih =>
      obtain ⟨hsorted, hsub, hcovers⟩ := ih
      obtain ⟨hassigned, hmem⟩ := hsorted.assign x
      have hstep : byKey key (xs ++ [x]) = assign key x (byKey key xs) := by
        rw [byKey, List.foldl_append]
        rfl
      rw [hstep]
      refine ⟨hassigned, fun z hz => ?_, fun y hy => ?_⟩
      · rcases (hmem z).mp hz with rfl | ⟨hz, -⟩
        · exact List.mem_append_right xs List.mem_cons_self
        · exact List.mem_append_left [x] (hsub z hz)
      · rcases eq_or_ne (key y) (key x) with heq | hne
        · exact ⟨x, (hmem x).mpr (.inl rfl), heq.symm⟩
        · rcases List.mem_append.mp hy with hy | hy
          · obtain ⟨z, hz, hkey⟩ := hcovers y hy
            exact ⟨z, (hmem z).mpr (.inr ⟨hz, hkey.trans_ne hne⟩), hkey⟩
          · rw [List.mem_singleton.mp hy] at hne
            exact absurd rfl hne

/-- **Entries of an increasing list, by key**, are the part of it they are. -/
theorem byKey_eq_filter {history xs : List α} (h : Increasing key history) (hsub : xs ⊆ history) {p : α → Bool}
    (hp : ∀ x ∈ history, p x = true ↔ x ∈ xs) : byKey key xs = history.filter p := by
  obtain ⟨hsorted, hmem, hcovers⟩ := byKey_spec key xs
  refine hsorted.ext (h.filter p) fun z => ?_
  rw [List.mem_filter]
  constructor
  · intro hz
    have hz' := hsub (hmem z hz)
    exact ⟨hz', (hp z hz').mpr (hmem z hz)⟩
  · rintro ⟨hz, hpz⟩
    obtain ⟨y, hy, hkey⟩ := hcovers z ((hp z hz).mp hpz)
    rwa [← h.eq_of_key (hsub (hmem y hy)) hz hkey]

lemma byKey_of_increasing {xs : List α} (h : Increasing key xs) : byKey key xs = xs := by
  have hall : ∀ x ∈ xs, true = true ↔ x ∈ xs := fun x hx => iff_of_true rfl hx
  rw [byKey_eq_filter h (List.Subset.refl xs) hall]
  exact List.filter_eq_self.mpr fun _ _ => rfl

/-! ## Ranges -/

/-- What comes before a bound, what is in a range and what comes after it. -/
lemma Increasing.filter_piece {xs : List α} (h : Increasing key xs) (lower upper : K) :
    (xs.filter fun x => lower ≤ key x && key x ≤ upper) <:+: xs := by
  induction xs with
  | nil => exact List.infix_rfl
  | cons x xs ih =>
      by_cases hlower : lower ≤ key x
      · by_cases hupper : key x ≤ upper
        · -- the range starts here, so that it is a prefix
          have hinitial : ∀ ys : List α, Increasing key ys → (∀ y ∈ ys, lower ≤ key y) →
              (ys.filter fun y => lower ≤ key y && key y ≤ upper) <+: ys := by
            intro ys hys hge
            induction ys with
            | nil => exact List.prefix_rfl
            | cons y ys ihy =>
                by_cases hy : key y ≤ upper
                · rw [List.filter_cons_of_pos (by simp [hge y List.mem_cons_self, hy])]
                  exact List.cons_prefix_cons.mpr
                    ⟨rfl, ihy hys.tail fun z hz => hge z (List.mem_cons_of_mem y hz)⟩
                · have hnone : ((y :: ys).filter fun z => lower ≤ key z && key z ≤ upper) = [] := by
                    refine List.filter_eq_nil_iff.mpr fun z hz => ?_
                    have hz' : ¬key z ≤ upper := by
                      rcases List.mem_cons.mp hz with rfl | hz
                      · exact hy
                      · exact fun hle => hy ((hys.lt_of_cons hz).le.trans hle)
                    simp [hz']
                  rw [hnone]
                  exact List.nil_prefix
          refine (hinitial (x :: xs) h fun y hy => ?_).isInfix
          rcases List.mem_cons.mp hy with rfl | hy
          · exact hlower
          · exact hlower.trans (h.lt_of_cons hy).le
        · rw [List.filter_cons_of_neg (by simp [hupper])]
          exact (ih h.tail).trans (List.suffix_cons x xs).isInfix
      · rw [List.filter_cons_of_neg (by simp [hlower])]
        exact (ih h.tail).trans (List.suffix_cons x xs).isInfix

end MuStrategy.Lib
