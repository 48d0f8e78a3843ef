import Mathlib.Data.List.Basic
import Mathlib.Data.List.Infix
import Mathlib.Data.List.Range

/-!
# Logs that keep their last entries

A log that only grows, of which a store keeps the last entries. The entries are numbered from one.

* `retained` — what is kept; `retained_append` — it is updated without the entries that are gone.
* `Numbered` — every entry carries its number.
* `Numbered.filter_retained` — the kept entries after a number are all entries after it, if they are kept.
-/

namespace MuStrategy.Lib

variable {α : Type*} {limit n : ℕ} {number : α → ℕ} {log log' : List α} {a : α}

/-- The last entries of a log. -/
def retained (limit : ℕ) (log : List α) : List α := log.drop (log.length - limit)

lemma length_retained : (retained limit log).length = min limit log.length := by
  rw [retained, List.length_drop]
  omega

/-- **What is kept of a longer log** is found without the entries that are gone. -/
lemma retained_append (limit : ℕ) (log new : List α) : retained limit (retained limit log ++ new) = retained limit (log ++ new) := by
  obtain ⟨k, hk⟩ : ∃ k, k = log.length - limit := ⟨_, rfl⟩
  have hle : k ≤ log.length := by omega
  have hdrop : retained limit log ++ new = (log ++ new).drop k := by
    rw [retained, ← hk, List.drop_append_of_le_length hle]
  rw [hdrop, retained, retained, List.drop_drop, List.length_drop]
  congr 1
  rw [List.length_append]
  omega

lemma retained_of_le (h : log.length ≤ limit) : retained limit log = log := by
  rw [retained, Nat.sub_eq_zero_of_le h, List.drop_zero]

/-- The entries are numbered from one. -/
def Numbered (number : α → ℕ) (log : List α) : Prop := log.map number = List.range' 1 log.length

lemma Numbered.nil : Numbered number ([] : List α) := rfl

lemma numbered_append : Numbered number (log ++ [a]) ↔ Numbered number log ∧ number a = log.length + 1 := by
  unfold Numbered
  rw [List.map_append, List.map_singleton, List.length_append, List.length_singleton, List.range'_1_concat, Nat.add_comm 1]
  constructor
  · intro h
    obtain ⟨hlog, hlast⟩ := List.append_inj' h rfl
    exact ⟨hlog, List.singleton_injective hlast⟩
  · rintro ⟨hlog, hlast⟩
    rw [hlog, hlast]

lemma Numbered.number_get (h : Numbered number log) {i : ℕ} (hi : log[i]? = some a) : number a = i + 1 := by
  have hmap : (log.map number)[i]? = some (number a) := by rw [List.getElem?_map, hi, Option.map_some]
  obtain ⟨hlt, -⟩ := List.getElem?_eq_some_iff.mp hi
  rw [h, List.getElem?_range' hlt, Option.some.injEq] at hmap
  omega

/-- The numbers of the entries that are kept. -/
lemma Numbered.map_retained (h : Numbered number log) :
    (retained limit log).map number = List.range' (log.length - limit + 1) (retained limit log).length := by
  have h' : log.map number = List.range' 1 log.length := h
  rw [length_retained, retained, List.map_drop, h', List.drop_range']
  congr 1 <;> omega

/-- The entries up to a number, and the entries after it. -/
lemma Numbered.filter_eq (h : Numbered number log) (n : ℕ) : (log.filter fun a => n < number a) = log.drop n := by
  have htake : ((log.take n).filter fun a => n < number a) = [] := by
    refine List.filter_eq_nil_iff.mpr fun a ha => ?_
    obtain ⟨i, hi⟩ := List.mem_iff_getElem?.mp ha
    obtain ⟨hlt, -⟩ := List.getElem?_eq_some_iff.mp hi
    rw [List.length_take] at hlt
    rw [List.getElem?_take_of_lt (by omega)] at hi
    have hnumber := h.number_get hi
    rw [decide_eq_true_eq]
    omega
  have hdrop : ((log.drop n).filter fun a => n < number a) = log.drop n := by
    refine List.filter_eq_self.mpr fun a ha => ?_
    obtain ⟨i, hi⟩ := List.mem_iff_getElem?.mp ha
    rw [List.getElem?_drop] at hi
    have hnumber := h.number_get hi
    rw [decide_eq_true_eq]
    omega
  conv_lhs => rw [← List.take_append_drop n log]
  rw [List.filter_append, htake, hdrop, List.nil_append]

/-- **The kept entries after a number** are all entries after it, if all of them are kept. -/
theorem Numbered.filter_retained (h : Numbered number log) (hn : log.length - limit ≤ n) :
    ((retained limit log).filter fun a => n < number a) = log.drop n := by
  have hgone : ((log.take (log.length - limit)).filter fun a => n < number a) = [] := by
    refine List.filter_eq_nil_iff.mpr fun a ha => ?_
    obtain ⟨i, hi⟩ := List.mem_iff_getElem?.mp ha
    obtain ⟨hlt, -⟩ := List.getElem?_eq_some_iff.mp hi
    rw [List.length_take] at hlt
    rw [List.getElem?_take_of_lt (by omega)] at hi
    have hnumber := h.number_get hi
    rw [decide_eq_true_eq]
    omega
  have hall := h.filter_eq n
  rw [← List.take_append_drop (log.length - limit) log, List.filter_append, hgone, List.nil_append] at hall
  rw [retained, hall, List.take_append_drop]

end MuStrategy.Lib
