import Mathlib.Algebra.Order.Field.Rat
import Mathlib.Data.List.Basic

/-!
# Text checks

The string predicates Python code applies to identifiers and decimal texts.

* `isToken` — `value and value == value.strip()` and no line break: non-empty single-line text.
* `isLowerHex n` — the regular expression `[0-9a-f]{n}`; `hasPrefixHex p n` — `p[0-9a-f]{n}`.
* `plainDecimal?` — the value of a decimal text in plain canonical form (`0`, `12`, `0.5`): the
  only texts that `format(Decimal(text).normalize(), "f")` gives back unchanged.
-/

namespace MuStrategy.Lib

/-- The characters `str.strip()` removes. -/
def isSpace (c : Char) : Bool :=
  let n := c.toNat
  (9 ≤ n && n ≤ 13) || (28 ≤ n && n ≤ 32) || n = 133 || n = 160 || n = 5760 ||
    (8192 ≤ n && n ≤ 8202) || n = 8232 || n = 8233 || n = 8239 || n = 8287 || n = 12288

/-- `value == value.strip()`: neither end is white space. -/
def isStripped (cs : List Char) : Bool :=
  (cs.head?.all fun c => !isSpace c) && (cs.getLast?.all fun c => !isSpace c)

/-- Non-empty single-line text without surrounding white space. -/
def isToken (value : String) : Bool :=
  !value.toList.isEmpty && isStripped value.toList &&
    !value.toList.contains '\n' && !value.toList.contains '\r'

/-- A character of `[0-9a-f]`. -/
def isLowerHexChar (c : Char) : Bool := ('0' ≤ c && c ≤ '9') || ('a' ≤ c && c ≤ 'f')

/-- `[0-9a-f]{n}`. -/
def isLowerHexList (n : ℕ) (cs : List Char) : Bool := cs.length = n && cs.all isLowerHexChar

/-- The text matches `[0-9a-f]{n}`. -/
def isLowerHex (n : ℕ) (value : String) : Bool := isLowerHexList n value.toList

/-- A character that is neither white space nor a line break. -/
def isVisible (c : Char) : Bool := !isSpace c && c != '\n' && c != '\r'

/-- The text matches `prefix[0-9a-f]{n}`. -/
def hasPrefixHex (start : String) (n : ℕ) (value : String) : Bool :=
  start.toList.isPrefixOf value.toList &&
    isLowerHexList n (value.toList.drop start.toList.length)

/-- A hexadecimal digit is neither white space nor a line break. -/
lemma isSpace_of_isLowerHexChar {c : Char} (h : isLowerHexChar c = true) : isSpace c = false := by
  have hc : (48 ≤ c.toNat ∧ c.toNat ≤ 57) ∨ (97 ≤ c.toNat ∧ c.toNat ≤ 102) := by
    simpa [isLowerHexChar, Char.le_def, UInt32.le_iff_toNat_le] using h
  simp only [isSpace, Bool.or_eq_false_iff, Bool.and_eq_false_iff, decide_eq_false_iff_not]
  omega

lemma ne_newline_of_isLowerHexChar {c : Char} (h : isLowerHexChar c = true) :
    c ≠ '\n' ∧ c ≠ '\r' := by
  constructor <;> (rintro rfl; revert h; decide)

/-- A non-empty text whose characters are neither white space nor line breaks is a token. -/
lemma isToken_of_all {value : String} (hne : value.toList ≠ [])
    (h : ∀ c ∈ value.toList, isSpace c = false ∧ c ≠ '\n' ∧ c ≠ '\r') : isToken value = true := by
  have hhead : ∀ c, value.toList.head? = some c → isSpace c = false := fun c hc =>
    (h c (List.mem_of_mem_head? hc)).1
  have hlast : ∀ c, value.toList.getLast? = some c → isSpace c = false := fun c hc =>
    (h c (List.mem_of_mem_getLast? hc)).1
  have hn : '\n' ∉ value.toList := fun hc => (h _ hc).2.1 rfl
  have hr : '\r' ∉ value.toList := fun hc => (h _ hc).2.2 rfl
  have hs : isStripped value.toList = true := by
    simp only [isStripped, Bool.and_eq_true]
    constructor
    · cases hh : value.toList.head? with
      | none => rfl
      | some c => simp [hhead c hh]
    · cases hh : value.toList.getLast? with
      | none => rfl
      | some c => simp [hlast c hh]
  simp [isToken, hs, hn, hr, hne]

/-- `prefix[0-9a-f]{n}` is a token when the prefix has only visible characters and is not empty. -/
lemma isToken_of_hasPrefixHex {start : String} {n : ℕ} {value : String}
    (hstart : start.toList.isEmpty = false) (hvis : start.toList.all isVisible = true)
    (h : hasPrefixHex start n value = true) : isToken value = true := by
  simp only [hasPrefixHex, isLowerHexList, Bool.and_eq_true, List.all_eq_true] at h
  obtain ⟨hpre, -, hall⟩ := h
  obtain ⟨rest, hrest⟩ := List.isPrefixOf_iff_prefix.mp hpre
  rw [← hrest, List.drop_left] at hall
  apply isToken_of_all
  · rw [← hrest]
    simp [List.isEmpty_eq_false_iff.mp hstart]
  · intro c hc
    rw [← hrest, List.mem_append] at hc
    rcases hc with hc | hc
    · simpa [isVisible, and_assoc] using List.all_eq_true.mp hvis c hc
    · exact ⟨isSpace_of_isLowerHexChar (hall c hc), ne_newline_of_isLowerHexChar (hall c hc)⟩

/-- `[0-9a-f]{n}` with `n ≠ 0` is a token. -/
lemma isToken_of_isLowerHex {n : ℕ} {value : String} (hn : n ≠ 0)
    (h : isLowerHex n value = true) : isToken value = true := by
  simp only [isLowerHex, isLowerHexList, Bool.and_eq_true, decide_eq_true_eq,
    List.all_eq_true] at h
  apply isToken_of_all
  · intro hnil; rw [hnil] at h; exact hn h.1.symm
  · intro c hc
    exact ⟨isSpace_of_isLowerHexChar (h.2 c hc), ne_newline_of_isLowerHexChar (h.2 c hc)⟩

/-- Prepending the prefix to a digest gives a text of the prefixed pattern. -/
lemma hasPrefixHex_append {start : String} {n : ℕ} {digest : String}
    (h : isLowerHex n digest = true) : hasPrefixHex start n (start ++ digest) = true := by
  simp only [hasPrefixHex, String.toList_append, List.drop_left, Bool.and_eq_true]
  exact ⟨List.isPrefixOf_iff_prefix.mpr (List.prefix_append _ _), h⟩

lemma isToken_ne_empty {value : String} (h : isToken value = true) : value ≠ "" := by
  rintro rfl; revert h; decide

lemma ne_empty_of_hasPrefixHex {start : String} {n : ℕ} {value : String} (hn : n ≠ 0)
    (h : hasPrefixHex start n value = true) : value ≠ "" := by
  rintro rfl
  simp [hasPrefixHex, isLowerHexList, hn.symm] at h

lemma ne_empty_of_isLowerHex {n : ℕ} {value : String} (hn : n ≠ 0)
    (h : isLowerHex n value = true) : value ≠ "" := isToken_ne_empty (isToken_of_isLowerHex hn h)

/-! ## Plain decimal texts -/

/-- The number a list of decimal digits denotes. -/
def digitsValue (cs : List Char) : ℕ := cs.foldl (fun n c => 10 * n + (c.toNat - 48)) 0

/-- An ASCII decimal digit. -/
def isAsciiDigit (c : Char) : Bool := '0' ≤ c && c ≤ '9'

/-- The integer and fraction digits of `digits` or `digits.digits`. -/
def splitDecimal? (cs : List Char) : Option (List Char × List Char) :=
  let int := cs.takeWhile isAsciiDigit
  match cs.dropWhile isAsciiDigit with
  | [] => some (int, [])
  | '.' :: frac => if frac.all isAsciiDigit && !frac.isEmpty then some (int, frac) else none
  | _ => none

/-- The value of a plain canonical decimal text: no leading zero except a lone one, no trailing
zero in the fraction, and at most `prec` significant digits (what `Decimal.normalize` keeps). -/
def plainDecimal? (prec : ℕ) (text : String) : Option ℚ :=
  match splitDecimal? text.toList with
  | none => none
  | some (int, frac) =>
      let digits := int ++ frac
      let significant := (digits.dropWhile (· = '0')).reverse.dropWhile (· = '0')
      if int.isEmpty || (int.length ≠ 1 && int.head? = some '0') || frac.getLast? = some '0' ||
          prec < significant.length then none
      else some ((digitsValue digits : ℚ) / 10 ^ frac.length)

end MuStrategy.Lib
