import Mathlib.Data.Int.Notation
import Mathlib.Data.List.Basic
import MuStrategy.Lib.Text

/-!
# Integers in texts, and names in paths

* `intText`, `intOfText?` — `str(n)` of an integer, and the texts `-?[0-9]+` with their value.
* `append_slash_inj` — a path determines its last component.
-/

namespace MuStrategy.Lib

/-! ## Integers -/

/-- `str(n)`. -/
def intText (n : ℤ) : String :=
  String.ofList (if n < 0 then '-' :: Nat.toDigits 10 n.natAbs else Nat.toDigits 10 n.natAbs)

/-- `int(text)` of a text `[0-9]+`. -/
def natOfDigits? (cs : List Char) : Option ℕ :=
  if !cs.isEmpty && cs.all isAsciiDigit then some (digitsValue cs) else none

/-- `int(text)` of a text `-?[0-9]+`. -/
def intOfText? (text : String) : Option ℤ :=
  match text.toList with
  | '-' :: cs => (natOfDigits? cs).map fun (n : ℕ) => -(n : ℤ)
  | cs => (natOfDigits? cs).map fun (n : ℕ) => (n : ℤ)

lemma digitsValue_append (cs : List Char) (c : Char) :
    digitsValue (cs ++ [c]) = 10 * digitsValue cs + (c.toNat - 48) := by
  rw [digitsValue, List.foldl_append]
  rfl

lemma isAsciiDigit_digitChar {d : ℕ} (hd : d < 10) :
    isAsciiDigit (Nat.digitChar d) = true ∧ (Nat.digitChar d).toNat - 48 = d := by
  revert d
  decide

lemma toDigits_digits (n : ℕ) : (Nat.toDigits 10 n).all isAsciiDigit = true ∧
    digitsValue (Nat.toDigits 10 n) = n ∧ Nat.toDigits 10 n ≠ [] := by
  induction n using Nat.strong_induction_on with
  | _ n ih =>
      rw [Nat.toDigits_eq_if (by omega)]
      split
      · rename_i hn
        obtain ⟨hdigit, hvalue⟩ := isAsciiDigit_digitChar hn
        refine ⟨by simp [hdigit], ?_, by simp⟩
        simp [digitsValue, hvalue]
      · rename_i hn
        obtain ⟨hall, hvalue, -⟩ := ih (n / 10) (by omega)
        obtain ⟨hdigit, hlast⟩ := isAsciiDigit_digitChar (Nat.mod_lt n (by omega : 0 < 10))
        refine ⟨by simp [hall, hdigit], ?_, by simp⟩
        rw [digitsValue_append, hvalue, hlast]
        omega

lemma natOfDigits_toDigits (n : ℕ) : natOfDigits? (Nat.toDigits 10 n) = some n := by
  obtain ⟨hall, hvalue, hne⟩ := toDigits_digits n
  simp [natOfDigits?, hall, hvalue, hne]

lemma ne_minus_of_isAsciiDigit {c : Char} (h : isAsciiDigit c = true) : c ≠ '-' := by
  rintro rfl
  revert h
  decide

/-- **The text of an integer is read back.** -/
lemma intOfText_intText (n : ℤ) : intOfText? (intText n) = some n := by
  rw [intOfText?, intText, String.toList_ofList]
  split_ifs with h
  · change (natOfDigits? (Nat.toDigits 10 n.natAbs)).map _ = _
    rw [natOfDigits_toDigits, Option.map_some]
    congr 1
    omega
  · obtain ⟨hall, -, hne⟩ := toDigits_digits n.natAbs
    have hvalue := natOfDigits_toDigits n.natAbs
    generalize Nat.toDigits 10 n.natAbs = cs at hall hne hvalue
    split
    · rename_i cs'
      rw [List.all_cons, Bool.and_eq_true] at hall
      exact absurd rfl (ne_minus_of_isAsciiDigit hall.1)
    · rw [hvalue, Option.map_some]
      congr 1
      omega

lemma intText_injective : Function.Injective intText := fun m n h =>
  Option.some.inj ((intOfText_intText m).symm.trans (by rw [h, intOfText_intText]))

/-- The text of an integer has no separator. -/
lemma not_mem_intText {c : Char} (hdigit : isAsciiDigit c = false) (hminus : c ≠ '-') (n : ℤ) :
    c ∉ (intText n).toList := by
  obtain ⟨hall, -, -⟩ := toDigits_digits n.natAbs
  rw [List.all_eq_true] at hall
  have hnot : c ∉ Nat.toDigits 10 n.natAbs := by
    intro hc
    rw [hall c hc] at hdigit
    cases hdigit
  rw [intText, String.toList_ofList]
  split
  · rw [List.mem_cons]
    rintro (h | h)
    · exact hminus h
    · exact hnot h
  · exact hnot

/-! ## Paths -/

/-- A list determines its part after the last separator. -/
lemma append_separator_inj {c : Char} {a a' b b' : List Char} (hb : c ∉ b) (hb' : c ∉ b')
    (h : a ++ c :: b = a' ++ c :: b') : a = a' ∧ b = b' := by
  rcases List.append_eq_append_iff.mp h with ⟨xs, hxs, htail⟩ | ⟨xs, hxs, htail⟩
  · cases xs with
    | nil => exact ⟨by simpa using hxs.symm, by simpa using htail⟩
    | cons x xs =>
        rw [List.cons_append, List.cons.injEq] at htail
        refine absurd ?_ hb
        rw [htail.2]
        exact List.mem_append_right _ List.mem_cons_self
  · cases xs with
    | nil => exact ⟨by simpa using hxs, by simpa using htail.symm⟩
    | cons x xs =>
        rw [List.cons_append, List.cons.injEq] at htail
        refine absurd ?_ hb'
        rw [htail.2]
        exact List.mem_append_right _ List.mem_cons_self

/-- A path determines its parent and its name. -/
lemma append_slash_inj {a a' b b' : String} (hb : '/' ∉ b.toList) (hb' : '/' ∉ b'.toList)
    (h : a ++ "/" ++ b = a' ++ "/" ++ b') : a = a' ∧ b = b' := by
  have hlist := congrArg String.toList h
  rw [String.toList_append, String.toList_append, String.toList_append, String.toList_append,
    List.append_assoc, List.append_assoc] at hlist
  obtain ⟨ha, hb⟩ := append_separator_inj hb hb' hlist
  exact ⟨String.toList_inj.mp ha, String.toList_inj.mp hb⟩

end MuStrategy.Lib
