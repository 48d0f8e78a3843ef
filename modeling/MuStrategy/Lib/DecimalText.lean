import MuStrategy.Lib.DecimalContext
import MuStrategy.Lib.IntText

/-!
# Texts of decimals in normal form

The text `format(value.normalize(), "f")` is canonical, and reads back as the number.

* `digitsValue_concat`, `length_significant` — digit lists: values, and the digits that count.
* `plainDecimal_format` — the text is a plain canonical text of the number.
* `ofText_format_normal` — `Decimal(text)` is the number.
-/

namespace MuStrategy.Lib.Decimal

/-! ## Digit lists -/

lemma digitsValue_concat (cs ds : List Char) : digitsValue (cs ++ ds) = digitsValue cs * 10 ^ ds.length + digitsValue ds := by
  induction ds using List.reverseRecOn with
  | nil => simp [digitsValue]
  | append_singleton ds d ih =>
      rw [← List.append_assoc, digitsValue_append, ih, digitsValue_append, List.length_append, List.length_singleton,
        pow_succ]
      ring

lemma digitsValue_cons (c : Char) (cs : List Char) :
    digitsValue (c :: cs) = (c.toNat - 48) * 10 ^ cs.length + digitsValue cs := by
  have hone : digitsValue [c] = c.toNat - 48 := by simp [digitsValue]
  rw [← List.singleton_append, digitsValue_concat, hone]

lemma digitsValue_replicate_zero (n : ℕ) : digitsValue (List.replicate n '0') = 0 := by
  induction n with
  | zero => rfl
  | succ n ih =>
      have hzero : ('0').toNat - 48 = 0 := rfl
      rw [List.replicate_succ, digitsValue_cons, ih, hzero, Nat.zero_mul]

/-- A digit that is not zero has a value. -/
lemma digit_pos {c : Char} (hdigit : isAsciiDigit c = true) (hne : c ≠ '0') : 0 < c.toNat - 48 ∧ c.toNat - 48 < 10 := by
  simp only [isAsciiDigit, Bool.and_eq_true, decide_eq_true_eq, Char.le_def, UInt32.le_iff_toNat_le] at hdigit
  have hlow : 48 ≤ c.toNat := hdigit.1
  have hhigh : c.toNat ≤ 57 := hdigit.2
  have hfirst : c.toNat ≠ 48 := fun h => hne (Char.toNat_inj.mp h)
  omega

/-- Zeros in front do not count. -/
lemma digitsValue_dropWhile (cs : List Char) : digitsValue (cs.dropWhile (· = '0')) = digitsValue cs := by
  induction cs with
  | nil => rfl
  | cons c cs ih =>
      by_cases hc : c = '0'
      · rw [List.dropWhile_cons_of_pos (by simpa using hc), ih, hc, digitsValue_cons]
        simp
      · rw [List.dropWhile_cons_of_neg (by simpa using hc)]

/-- **The digits that count** are no more than those of a coefficient of the number. -/
lemma length_significant {cs : List Char} {prec c j : ℕ} (hall : cs.all isAsciiDigit = true)
    (hvalue : digitsValue cs = c * 10 ^ j) (hc : c < 10 ^ prec) :
    ((cs.dropWhile (· = '0')).reverse.dropWhile (· = '0')).length ≤ prec := by
  obtain ⟨ds, hds⟩ : ∃ ds, ds = cs.dropWhile (· = '0') := ⟨_, rfl⟩
  have hdsall : ∀ d ∈ ds, isAsciiDigit d = true := by
    intro d hd
    rw [hds] at hd
    exact List.all_eq_true.mp hall d (List.dropWhile_sublist _ |>.mem hd)
  obtain ⟨es, hes⟩ : ∃ es, es = ds.rdropWhile (· = '0') := ⟨_, rfl⟩
  -- the zeros at the end
  obtain ⟨i, hi⟩ : ∃ i, ds = es ++ List.replicate i '0' := by
    refine ⟨(ds.rtakeWhile (· = '0')).length, ?_⟩
    have hzeros : ds.rtakeWhile (· = '0') = List.replicate (ds.rtakeWhile (· = '0')).length '0' := by
      refine List.eq_replicate_of_mem fun d hd => ?_
      simpa using List.mem_rtakeWhile_imp hd
    rw [← hzeros, hes, List.rdropWhile_append_rtakeWhile]
  have hlength : (ds.reverse.dropWhile (· = '0')).length = es.length := by
    rw [hes, List.rdropWhile, List.length_reverse]
  rw [← hds, hlength]
  have hnumber : digitsValue es * 10 ^ i = c * 10 ^ j := by
    rw [← hvalue, ← digitsValue_dropWhile cs, ← hds, hi, digitsValue_concat, digitsValue_replicate_zero,
      List.length_replicate, Nat.add_zero]
  rcases List.eq_nil_or_concat es with hnil | ⟨init, last, hlast⟩
  · rw [hnil]
    exact Nat.zero_le _
  · have hne : es ≠ [] := by
      rw [hlast, List.concat_eq_append]
      exact List.append_ne_nil_of_right_ne_nil _ (List.cons_ne_nil _ _)
    have hesall : ∀ d ∈ es, isAsciiDigit d = true := fun d hd => hdsall d (hi ▸ List.mem_append_left _ hd)
    -- the last digit is not zero, so no coefficient of the number is smaller
    have hten : digitsValue es % 10 ≠ 0 := by
      have hnot : ¬last = '0' := by
        have hend := List.rdropWhile_last_not (· = '0') ds (hes ▸ hne)
        simp only [← hes, hlast, List.concat_eq_append, List.getLast_append_singleton, decide_eq_true_eq] at hend
        exact hend
      obtain ⟨hpos, hlt⟩ := digit_pos (hesall last (by rw [hlast]; simp)) hnot
      rw [hlast, List.concat_eq_append, digitsValue_append]
      omega
    have hle : digitsValue es ≤ c := by
      rcases le_or_gt i j with hij | hij
      · obtain ⟨k, rfl⟩ := Nat.exists_eq_add_of_le hij
        rw [pow_add, mul_comm (10 ^ i), ← mul_assoc] at hnumber
        have hcancel := Nat.eq_of_mul_eq_mul_right (by positivity) hnumber
        cases k with
        | zero => rw [hcancel, pow_zero, mul_one]
        | succ k =>
            rw [hcancel, pow_succ, ← mul_assoc, Nat.mul_mod_left] at hten
            exact absurd rfl hten
      · obtain ⟨k, rfl⟩ := Nat.exists_eq_add_of_le hij.le
        rw [pow_add, mul_comm (10 ^ j), ← mul_assoc] at hnumber
        have hcancel := Nat.eq_of_mul_eq_mul_right (by positivity) hnumber
        rw [← hcancel]
        exact Nat.le_mul_of_pos_right _ (by positivity)
    -- the first digit is not zero
    obtain ⟨d, rest, hcons⟩ := List.exists_cons_of_ne_nil hne
    have hfirst : d ≠ '0' := by
      have hhead := List.head?_dropWhile_not (fun x => decide (x = '0')) cs
      rw [← hds, hi, hcons, List.cons_append, List.head?_cons] at hhead
      simpa using hhead
    obtain ⟨hpos, -⟩ := digit_pos (hesall d (by rw [hcons]; exact List.mem_cons_self)) hfirst
    have hlow : 10 ^ rest.length ≤ digitsValue es := by
      rw [hcons, digitsValue_cons]
      exact (Nat.le_mul_of_pos_left _ hpos).trans (Nat.le_add_right _ _)
    have hlt : 10 ^ rest.length < 10 ^ prec := (hlow.trans hle).trans_lt hc
    rw [hcons, List.length_cons]
    exact (Nat.pow_lt_pow_iff_right (by norm_num)).mp hlt

/-! ## The text of a normal form -/

lemma fractionDigits_digits (scale n : ℕ) : (fractionDigits scale n).all isAsciiDigit = true ∧
    digitsValue (fractionDigits scale n) = n % 10 ^ scale := by
  induction scale generalizing n with
  | zero => exact ⟨rfl, (Nat.mod_one n).symm⟩
  | succ scale ih =>
      obtain ⟨hall, hvalue⟩ := ih (n / 10)
      obtain ⟨hdigit, hlast⟩ := isAsciiDigit_digitChar (Nat.mod_lt n (by omega : 0 < 10))
      rw [fractionDigits]
      refine ⟨by simp [hall, hdigit], ?_⟩
      rw [digitsValue_append, hvalue, hlast, pow_succ', Nat.mod_mul]
      omega

/-- The text of a positive whole number starts with no zero. -/
lemma toDigits_head {n : ℕ} (hn : 0 < n) : (Nat.toDigits 10 n).head? ≠ some '0' := by
  obtain ⟨d, cs, hcs, hpos, hlt, -⟩ := toDigits_eq_cons hn
  rw [hcs, List.head?_cons]
  intro h
  have hvalue := (isAsciiDigit_digitChar hlt).2
  rw [Option.some.inj h] at hvalue
  exact absurd hvalue (by simpa using hpos.ne)

lemma splitDecimal_digits {cs : List Char} (hall : cs.all isAsciiDigit = true) : splitDecimal? cs = some (cs, []) := by
  have hforall := List.all_eq_true.mp hall
  rw [splitDecimal?, List.dropWhile_eq_nil_iff.mpr hforall, List.takeWhile_eq_self_iff.mpr hforall]

lemma splitDecimal_fraction {cs fraction : List Char} (hall : cs.all isAsciiDigit = true)
    (hfraction : fraction.all isAsciiDigit = true) (hne : fraction ≠ []) :
    splitDecimal? (cs ++ '.' :: fraction) = some (cs, fraction) := by
  have hforall := List.all_eq_true.mp hall
  have hpoint : isAsciiDigit '.' = false := by decide
  rw [splitDecimal?, List.dropWhile_append_of_pos hforall, List.takeWhile_append_of_pos hforall,
    List.dropWhile_cons_of_neg (by simp [hpoint]), List.takeWhile_cons_of_neg (by simp [hpoint]), List.append_nil]
  have hnonempty : fraction.isEmpty = false := by
    rw [List.isEmpty_eq_false_iff]
    exact hne
  simp [hfraction, hnonempty]

/-- **The text of a normal form is canonical**: it is a plain text of the number. -/
theorem plainDecimal_format {prec : ℕ} {d : Decimal} (hdigit : d.coefficient % 10 ≠ 0) (hc : d.coefficient < 10 ^ prec) :
    plainDecimal? prec (String.ofList d.format) = some d.toRat := by
  obtain ⟨c, e⟩ := d
  have hcpos : 0 < c := Nat.pos_of_ne_zero fun hzero => hdigit (by subst hzero; rfl)
  rw [plainDecimal?, String.toList_ofList]
  rcases le_or_gt 0 e with hwhole | hfraction
  · obtain ⟨k, rfl⟩ : ∃ k : ℕ, e = k := ⟨e.toNat, by omega⟩
    obtain ⟨hall, hvalue, hne⟩ := toDigits_digits (c * 10 ^ k)
    have hformat : format ⟨c, (k : ℤ)⟩ = Nat.toDigits 10 (c * 10 ^ k) := by simp [format]
    have hcount := length_significant hall hvalue hc
    have hhead := toDigits_head (n := c * 10 ^ k) (by positivity)
    rw [hformat, splitDecimal_digits hall]
    dsimp only
    rw [List.append_nil, if_neg]
    · rw [hvalue, toRat, zpow_natCast, List.length_nil, pow_zero, div_one]
      push_cast
      rfl
    · simp only [Bool.or_eq_true, Bool.and_eq_true, decide_eq_true_eq, List.isEmpty_iff, not_or]
      refine ⟨⟨⟨hne, fun h => hhead h.2⟩, by simp⟩, by omega⟩
  · obtain ⟨k, rfl⟩ : ∃ k : ℕ, e = -((k + 1 : ℕ) : ℤ) := ⟨(-e).toNat - 1, by omega⟩
    obtain ⟨hall, hvalue, hne⟩ := toDigits_digits (c / 10 ^ (k + 1))
    obtain ⟨hfrac, hfracValue⟩ := fractionDigits_digits (k + 1) c
    have hfracNe : fractionDigits (k + 1) c ≠ [] := by
      rw [← List.length_pos_iff, length_fractionDigits]
      omega
    have hdigits : digitsValue (Nat.toDigits 10 (c / 10 ^ (k + 1)) ++ fractionDigits (k + 1) c) = c * 10 ^ 0 := by
      rw [digitsValue_concat, hvalue, hfracValue, length_fractionDigits, pow_zero, mul_one, Nat.div_add_mod']
    have hboth : (Nat.toDigits 10 (c / 10 ^ (k + 1)) ++ fractionDigits (k + 1) c).all isAsciiDigit = true := by
      rw [List.all_append, hall, hfrac]
      rfl
    have hcount := length_significant hboth hdigits hc
    -- a lone zero, or no zero in front
    have hhead : ¬((Nat.toDigits 10 (c / 10 ^ (k + 1))).length ≠ 1 ∧
        (Nat.toDigits 10 (c / 10 ^ (k + 1))).head? = some '0') := by
      rintro ⟨hlength, hzero⟩
      rcases Nat.eq_zero_or_pos (c / 10 ^ (k + 1)) with hnone | hsome
      · rw [hnone] at hlength
        exact hlength rfl
      · exact toDigits_head hsome hzero
    have hlast : (fractionDigits (k + 1) c).getLast? ≠ some '0' := by
      rw [fractionDigits, List.getLast?_concat]
      intro h
      have hten : c % 10 ≠ 0 := hdigit
      have hend := (isAsciiDigit_digitChar (Nat.mod_lt c (by omega : 0 < 10))).2
      rw [Option.some.inj h] at hend
      exact hten (by simpa using hend.symm)
    rw [format_fraction, splitDecimal_fraction hall hfrac hfracNe]
    dsimp only
    rw [if_neg]
    · rw [hdigits, length_fractionDigits, toRat, zpow_neg, zpow_natCast, div_eq_mul_inv]
      simp
    · simp only [Bool.or_eq_true, Bool.and_eq_true, decide_eq_true_eq, List.isEmpty_iff, not_or]
      exact ⟨⟨⟨hne, hhead⟩, hlast⟩, by omega⟩

/-- The text of a number reads as the number. -/
theorem ofText_format_normal [DecimalDigits] (d : Decimal) :
    ∃ r, ofText? d.format = some r ∧ r.toRat = d.toRat := by
  obtain ⟨c, e⟩ := d
  rcases le_or_gt 0 e with hwhole | hfraction
  · obtain ⟨k, rfl⟩ : ∃ k : ℕ, e = k := ⟨e.toNat, by omega⟩
    have hformat : format ⟨c, (k : ℤ)⟩ = format ⟨c * 10 ^ k, 0⟩ := by simp [format]
    rw [hformat, ofText_format_natural]
    refine ⟨_, rfl, ?_⟩
    simp [toRat]
  · obtain ⟨k, rfl⟩ : ∃ k : ℕ, e = -(k : ℤ) := ⟨(-e).toNat, by omega⟩
    exact ⟨_, ofText_format c k, rfl⟩

/-- The digits that `Nat.digitChar` writes. -/
@[reducible] def writtenDigits : DecimalDigits where
  digit? c := (List.range 10).find? fun d => Nat.digitChar d = c
  ascii := by decide
  lt_ten _ _ h := by simpa using List.mem_of_find?_eq_some h

end MuStrategy.Lib.Decimal
