import Mathlib.Data.Nat.Factorization.Basic
import MuStrategy.Lib.DecimalText

/-!
# Canonical texts are unique

A number has one plain canonical text: the one that its normal form prints.

* `toDigits_digitsValue`, `fractionDigits_digitsValue` — digits that are read are printed again.
* `eq_format_of_plainDecimal` — a plain canonical text is printed by a normal form.
* `normal_unique` — a number has one normal form.
-/

namespace MuStrategy.Lib.Decimal

/-! ## Digits that are read are printed again -/

lemma digitChar_toNat {c : Char} (h : isAsciiDigit c = true) : Nat.digitChar (c.toNat - 48) = c := by
  simp only [isAsciiDigit, Bool.and_eq_true, decide_eq_true_eq, Char.le_def, UInt32.le_iff_toNat_le] at h
  have hlow : 48 ≤ c.toNat := h.1
  have hhigh : c.toNat ≤ 57 := h.2
  have hlt : c.toNat - 48 < 10 := by omega
  obtain ⟨-, hvalue⟩ := isAsciiDigit_digitChar hlt
  have hdigit : ∀ d < 10, 48 ≤ (Nat.digitChar d).toNat := by decide
  have := hdigit _ hlt
  exact Char.toNat_inj.mp (by omega)

lemma digitsValue_pos {cs : List Char} (hall : cs.all isAsciiDigit = true) (hne : cs ≠ []) (hhead : cs.head? ≠ some '0') :
    0 < digitsValue cs := by
  obtain ⟨c, rest, rfl⟩ := List.exists_cons_of_ne_nil hne
  obtain ⟨hpos, -⟩ := digit_pos (List.all_eq_true.mp hall c List.mem_cons_self) (fun h => hhead (by rw [h]; rfl))
  rw [digitsValue_cons]
  positivity

/-- Digits without a zero in front are those of their number. -/
lemma toDigits_digitsValue {cs : List Char} (hall : cs.all isAsciiDigit = true) (hne : cs ≠ [])
    (hhead : cs.length = 1 ∨ cs.head? ≠ some '0') : Nat.toDigits 10 (digitsValue cs) = cs := by
  induction cs using List.reverseRecOn with
  | nil => exact absurd rfl hne
  | append_singleton ds d ih =>
      rw [List.all_append, Bool.and_eq_true] at hall
      have hd : isAsciiDigit d = true := by simpa using hall.2
      have hlt : d.toNat - 48 < 10 := by
        by_cases hzero : d = '0'
        · rw [hzero]
          decide
        · exact (digit_pos hd hzero).2
      rw [digitsValue_append]
      rcases List.eq_nil_or_concat ds with rfl | ⟨_, _, hds⟩
      · rw [show digitsValue [] = 0 from rfl, Nat.mul_zero, Nat.zero_add, Nat.toDigits_of_lt_base hlt,
          digitChar_toNat hd]
        rfl
      · -- more than one digit: none of them in front is a zero
        have hdsne : ds ≠ [] := by
          rw [hds, List.concat_eq_append]
          exact List.append_ne_nil_of_right_ne_nil _ (List.cons_ne_nil _ _)
        have hfirst : ds.head? ≠ some '0' := by
          rcases hhead with hone | hfirst
          · rw [List.length_append, List.length_singleton] at hone
            exact absurd (List.length_eq_zero_iff.mp (by omega)) hdsne
          · rwa [List.head?_append_of_ne_nil _ hdsne] at hfirst
        have hpos := digitsValue_pos hall.1 hdsne hfirst
        rw [Nat.toDigits_eq_if (by omega), if_neg (by omega), show (10 * digitsValue ds + (d.toNat - 48)) / 10 =
          digitsValue ds by omega, show (10 * digitsValue ds + (d.toNat - 48)) % 10 = d.toNat - 48 by omega,
          digitChar_toNat hd, ih hall.1 hdsne (Or.inr hfirst)]

/-- The digits of a fraction are its last digits. -/
lemma fractionDigits_digitsValue {cs : List Char} (hall : cs.all isAsciiDigit = true) (a : ℕ) :
    fractionDigits cs.length (a * 10 ^ cs.length + digitsValue cs) = cs := by
  induction cs using List.reverseRecOn with
  | nil => rfl
  | append_singleton ds d ih =>
      rw [List.all_append, Bool.and_eq_true] at hall
      have hd : isAsciiDigit d = true := by simpa using hall.2
      have hlt : d.toNat - 48 < 10 := by
        by_cases hzero : d = '0'
        · rw [hzero]
          decide
        · exact (digit_pos hd hzero).2
      have hsplit : a * 10 ^ (ds.length + 1) + (10 * digitsValue ds + (d.toNat - 48)) =
          10 * (a * 10 ^ ds.length + digitsValue ds) + (d.toNat - 48) := by
        rw [pow_succ]
        ring
      rw [digitsValue_append, List.length_append, List.length_singleton, hsplit, fractionDigits,
        show (10 * (a * 10 ^ ds.length + digitsValue ds) + (d.toNat - 48)) / 10 =
          a * 10 ^ ds.length + digitsValue ds by omega,
        show (10 * (a * 10 ^ ds.length + digitsValue ds) + (d.toNat - 48)) % 10 = d.toNat - 48 by omega,
        digitChar_toNat hd, ih hall.1]

lemma digitsValue_lt {cs : List Char} (hall : cs.all isAsciiDigit = true) : digitsValue cs < 10 ^ cs.length := by
  obtain ⟨-, hvalue⟩ := fractionDigits_digits cs.length (0 * 10 ^ cs.length + digitsValue cs)
  rw [fractionDigits_digitsValue hall, Nat.zero_mul, Nat.zero_add] at hvalue
  rw [hvalue]
  exact Nat.mod_lt _ (by positivity)

/-! ## One text, one normal form -/

lemma splitDecimal_eq_some {cs int fraction : List Char} (h : splitDecimal? cs = some (int, fraction)) :
    int.all isAsciiDigit = true ∧ fraction.all isAsciiDigit = true ∧
      (fraction = [] ∧ cs = int ∨ fraction ≠ [] ∧ cs = int ++ '.' :: fraction) := by
  have hsplit := List.takeWhile_append_dropWhile (p := isAsciiDigit) (l := cs)
  have hint : (cs.takeWhile isAsciiDigit).all isAsciiDigit = true :=
    List.all_eq_true.mpr fun c hc => List.mem_takeWhile_imp hc
  unfold splitDecimal? at h
  split at h
  · rename_i hnil
    obtain ⟨rfl, rfl⟩ := Prod.mk.inj (Option.some.inj h)
    rw [hnil, List.append_nil] at hsplit
    exact ⟨hint, rfl, Or.inl ⟨rfl, hsplit.symm⟩⟩
  · rename_i fraction' hpoint
    split at h
    · rename_i hall
      obtain ⟨rfl, rfl⟩ := Prod.mk.inj (Option.some.inj h)
      simp only [Bool.and_eq_true, Bool.not_eq_true', List.isEmpty_eq_false_iff] at hall
      rw [hpoint] at hsplit
      exact ⟨hint, hall.1, Or.inr ⟨hall.2, hsplit.symm⟩⟩
    · cases h
  · cases h

/-- **A plain canonical text is printed by a normal form** of its number. -/
theorem eq_format_of_plainDecimal {prec : ℕ} {text : String} {q : ℚ} (h : plainDecimal? prec text = some q) (hq : q ≠ 0) :
    ∃ d : Decimal, d.coefficient % 10 ≠ 0 ∧ d.toRat = q ∧ text = String.ofList d.format := by
  unfold plainDecimal? at h
  cases hsplit : splitDecimal? text.toList with
  | none =>
      rw [hsplit] at h
      cases h
  | some parts =>
      obtain ⟨int, fraction⟩ := parts
      rw [hsplit] at h
      dsimp only at h
      split at h
      · cases h
      · rename_i hcanonical
        simp only [Bool.or_eq_true, Bool.and_eq_true, decide_eq_true_eq, List.isEmpty_iff, not_or] at hcanonical
        obtain ⟨⟨⟨hne, hhead⟩, hlast⟩, -⟩ := hcanonical
        have hvalue := Option.some.inj h
        obtain ⟨hint, hfraction, hshape⟩ := splitDecimal_eq_some hsplit
        have hhead' : int.length = 1 ∨ int.head? ≠ some '0' := by
          by_contra hnot
          exact hhead (by simpa using hnot)
        rcases hshape with ⟨rfl, htext⟩ | ⟨hfractionNe, htext⟩
        · -- a whole number
          rw [List.append_nil, List.length_nil, pow_zero, div_one] at hvalue
          have hpos : digitsValue int ≠ 0 := fun hzero => hq (by rw [← hvalue, hzero, Nat.cast_zero])
          obtain ⟨j, c, hc, hcj⟩ := Nat.exists_eq_pow_mul_and_not_dvd hpos 10 (by omega)
          refine ⟨⟨c, j⟩, fun hmod => hc (Nat.dvd_of_mod_eq_zero hmod), ?_, ?_⟩
          · rw [← hvalue, hcj, toRat, zpow_natCast]
            push_cast
            ring
          · have hformat : format ⟨c, (j : ℤ)⟩ = Nat.toDigits 10 (c * 10 ^ j) := by simp [format]
            rw [hformat, mul_comm, ← hcj, toDigits_digitsValue hint hne hhead', ← htext, String.ofList_toList]
        · -- a fraction, whose last digit is not zero
          obtain ⟨k, hk⟩ : ∃ k, fraction.length = k + 1 :=
            ⟨fraction.length - 1, by have := List.length_pos_iff.mpr hfractionNe; omega⟩
          have hdigits := digitsValue_concat int fraction
          have hlt := digitsValue_lt hfraction
          refine ⟨⟨digitsValue (int ++ fraction), -((k + 1 : ℕ) : ℤ)⟩, ?_, ?_, ?_⟩
          · obtain ⟨init, last, hinit⟩ := (List.eq_nil_or_concat fraction).resolve_left hfractionNe
            rw [List.concat_eq_append] at hinit
            have hnot : last ≠ '0' := by
              rintro rfl
              exact hlast (by rw [hinit, List.getLast?_concat])
            have hdigit := List.all_eq_true.mp hfraction last (by rw [hinit]; simp)
            obtain ⟨hpos, hten⟩ := digit_pos hdigit hnot
            rw [hinit, ← List.append_assoc, digitsValue_append]
            dsimp only
            omega
          · rw [← hvalue, toRat, hk, zpow_neg, zpow_natCast, div_eq_mul_inv]
          · have hdiv : digitsValue (int ++ fraction) / 10 ^ (k + 1) = digitsValue int := by
              rw [hdigits, ← hk, mul_comm, Nat.mul_add_div (by positivity), Nat.div_eq_of_lt hlt, Nat.add_zero]
            rw [format_fraction, hdiv, toDigits_digitsValue hint hne hhead', hdigits, ← hk,
              fractionDigits_digitsValue hfraction, ← htext, String.ofList_toList]

/-- **A number has one normal form.** -/
theorem normal_unique {d d' : Decimal} (hd : d.coefficient % 10 ≠ 0) (hd' : d'.coefficient % 10 ≠ 0)
    (h : d.toRat = d'.toRat) : d = d' := by
  wlog hle : d.exponent ≤ d'.exponent generalizing d d'
  · exact (this hd' hd h.symm (by omega)).symm
  obtain ⟨c, e⟩ := d
  obtain ⟨c', e'⟩ := d'
  obtain ⟨j, rfl⟩ : ∃ j : ℕ, e' = e + j := ⟨(e' - e).toNat, by dsimp only at hle; omega⟩
  have hten : (10 : ℚ) ≠ 0 := by norm_num
  have hcoefficient : c = c' * 10 ^ j := by
    simp only [toRat] at h
    rw [zpow_add₀ hten, zpow_natCast, mul_comm ((10 : ℚ) ^ e), ← mul_assoc] at h
    exact_mod_cast mul_right_cancel₀ (zpow_ne_zero e hten) h
  cases j with
  | zero =>
      rw [pow_zero, mul_one] at hcoefficient
      rw [hcoefficient]
      simp
  | succ j =>
      rw [hcoefficient, pow_succ, ← mul_assoc, Nat.mul_mod_left] at hd
      exact absurd rfl hd

end MuStrategy.Lib.Decimal
