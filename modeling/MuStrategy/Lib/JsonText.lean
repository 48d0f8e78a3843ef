import Mathlib.Data.List.Sort
import MuStrategy.Lib.Decimal
import MuStrategy.Lib.IntText
import MuStrategy.Lib.Json

/-!
# JSON texts

The texts of JSON values, as `json.dumps` writes them with sorted keys, ASCII only and without spaces, and as
`json.loads` reads them.

* `quoteTail`, `scanString` — texts and their escapes.
* `Json.sortKeys`, `Json.render`, `Json.dumps` — writing; `scanValue`, `Json.loads` — reading.
* `loadsWith_dumps`, `loads_dumps` — a text that was written reads back as the value with its keys sorted.
* `get?_sortKeys` — sorting the keys of a dictionary changes no entry.
-/

namespace MuStrategy.Lib

/-! ## Strings -/

/-- A hexadecimal digit, in lower case. -/
def hexDigit (d : ℕ) : Char := if d < 10 then Char.ofNat (48 + d) else Char.ofNat (87 + d)

/-- The value of a hexadecimal digit in either case. -/
def hexValue? (c : Char) : Option ℕ :=
  if '0' ≤ c ∧ c ≤ '9' then some (c.toNat - 48)
  else if 'a' ≤ c ∧ c ≤ 'f' then some (c.toNat - 87)
  else if 'A' ≤ c ∧ c ≤ 'F' then some (c.toNat - 55)
  else none

/-- `{0:04x}`. -/
def hex4 (n : ℕ) : List Char :=
  [hexDigit (n / 4096 % 16), hexDigit (n / 256 % 16), hexDigit (n / 16 % 16), hexDigit (n % 16)]

/-- The value of four hexadecimal digits. -/
def readHex4? (a b c d : Char) : Option ℕ := do
  let w ← hexValue? a
  let x ← hexValue? b
  let y ← hexValue? c
  let z ← hexValue? d
  pure (4096 * w + 256 * x + 16 * y + z)

/-- The UTF-16 code units of a character. -/
def codeUnits (c : Char) : List ℕ :=
  if c.toNat < 0x10000 then [c.toNat]
  else [0xD800 + (c.toNat - 0x10000) / 1024, 0xDC00 + (c.toNat - 0x10000) % 1024]

/-- The escapes with a letter of their own: the character and the letter. -/
def shortEscapes : List (ℕ × Char) :=
  [(34, '"'), (92, '\\'), (10, 'n'), (13, 'r'), (9, 't'), (8, 'b'), (12, 'f')]

/-- The text of a character inside a string. -/
def escapeChar (c : Char) : List Char :=
  match shortEscapes.find? fun e => e.1 = c.toNat with
  | some e => ['\\', e.2]
  | none => if 32 ≤ c.toNat ∧ c.toNat ≤ 126 then [c] else (codeUnits c).flatMap fun u => '\\' :: 'u' :: hex4 u

/-- The text of a string after its opening quote. -/
def quoteTail (cs : List Char) : List Char := cs.flatMap escapeChar ++ ['"']

/-- The character of a short escape. -/
def unescape? (letter : Char) : Option ℕ :=
  if letter = '/' then some 47 else (shortEscapes.find? fun e => e.2 = letter).map Prod.fst

/-- The code units of a string after its opening quote, and the text after its closing quote. -/
def scanUnits : List Char → Option (List ℕ × List Char)
  | [] => none
  | '"' :: rest => some ([], rest)
  | '\\' :: 'u' :: a :: b :: c :: d :: rest => do
      let unit ← readHex4? a b c d
      (scanUnits rest).map fun r => (unit :: r.1, r.2)
  | '\\' :: letter :: rest => do
      let unit ← unescape? letter
      (scanUnits rest).map fun r => (unit :: r.1, r.2)
  | c :: rest => if c.toNat < 32 then none else (scanUnits rest).map fun r => (c.toNat :: r.1, r.2)

/-- The characters of code units; a lone surrogate is no character. -/
def joinUnits : List ℕ → Option (List Char)
  | [] => some []
  | u :: us =>
      if 0xD800 ≤ u ∧ u ≤ 0xDBFF then
        match us with
        | v :: us =>
            if 0xDC00 ≤ v ∧ v ≤ 0xDFFF then
              (joinUnits us).map (Char.ofNat (0x10000 + (u - 0xD800) * 1024 + (v - 0xDC00)) :: ·)
            else none
        | [] => none
      else if 0xDC00 ≤ u ∧ u ≤ 0xDFFF then none
      else (joinUnits us).map (Char.ofNat u :: ·)

/-- The string after an opening quote, and the text after its closing quote. -/
def scanString (cs : List Char) : Option (String × List Char) := do
  let (units, rest) ← scanUnits cs
  let chars ← joinUnits units
  pure (String.ofList chars, rest)

lemma hexValue_hexDigit {d : ℕ} (h : d < 16) : hexValue? (hexDigit d) = some d := by
  revert d
  decide

lemma readHex4_hex4 {n : ℕ} (h : n < 65536) :
    readHex4? (hexDigit (n / 4096 % 16)) (hexDigit (n / 256 % 16)) (hexDigit (n / 16 % 16)) (hexDigit (n % 16)) =
      some n := by
  simp only [readHex4?, hexValue_hexDigit (Nat.mod_lt _ (by omega : 0 < 16)), Option.bind_eq_bind, Option.bind_some]
  congr 1
  omega

/-- Escaped code units read back. -/
lemma scanUnits_hex (units : List ℕ) (tail : List Char) (h : ∀ u ∈ units, u < 65536) :
    scanUnits (units.flatMap (fun u => '\\' :: 'u' :: hex4 u) ++ tail) =
      (scanUnits tail).map fun r => (units ++ r.1, r.2) := by
  induction units with
  | nil => simp
  | cons u us ih =>
      have hu := readHex4_hex4 (h u List.mem_cons_self)
      have hus := ih fun v hv => h v (List.mem_cons_of_mem _ hv)
      simp only [List.flatMap_cons, hex4, List.cons_append, List.nil_append, scanUnits, hu, Option.bind_eq_bind,
        Option.bind_some]
      simp only [hex4] at hus
      rw [hus]
      cases scanUnits tail <;> rfl

lemma toNat_eq_iff {c d : Char} : c.toNat = d.toNat ↔ c = d :=
  ⟨fun h => by rw [← Char.ofNat_toNat c, h, Char.ofNat_toNat], fun h => by rw [h]⟩

/-- The scalar values: all but the surrogates. -/
lemma toNat_valid (c : Char) : c.toNat < 0xD800 ∨ 0xDFFF < c.toNat ∧ c.toNat < 0x110000 := c.valid

lemma codeUnits_lt (c : Char) : ∀ u ∈ codeUnits c, u < 65536 := by
  have hvalid := toNat_valid c
  intro u hu
  unfold codeUnits at hu
  split at hu
  · rw [List.mem_singleton] at hu
    omega
  · simp only [List.mem_cons, List.not_mem_nil, or_false] at hu
    omega

/-- A printable character stands for itself. -/
lemma scanUnits_plain {c : Char} {tail : List Char} (hquote : c ≠ '"') (hslash : c ≠ '\\') (hvisible : 32 ≤ c.toNat) :
    scanUnits (c :: tail) = (scanUnits tail).map fun r => (c.toNat :: r.1, r.2) := by
  rw [scanUnits]
  · rw [if_neg (by omega)]
  · exact hquote
  · rintro _ _ _ _ _ rfl
    exact absurd rfl hslash
  · rintro _ _ rfl
    exact absurd rfl hslash

/-- A character's text reads back as its code units. -/
lemma scanUnits_escapeChar (c : Char) (tail : List Char) :
    scanUnits (escapeChar c ++ tail) = (scanUnits tail).map fun r => (codeUnits c ++ r.1, r.2) := by
  unfold escapeChar
  split
  · rename_i e he
    have hmem := List.mem_of_find?_eq_some he
    have hcode := List.find?_some he
    simp only [shortEscapes, List.mem_cons, List.not_mem_nil, or_false, decide_eq_true_eq] at hmem hcode
    rcases hmem with rfl | rfl | rfl | rfl | rfl | rfl | rfl
    all_goals
      simp only at hcode
      have hunits : codeUnits c = [c.toNat] := if_pos (by omega)
      rw [hunits, ← hcode]
      simp [scanUnits, unescape?, shortEscapes]
  · rename_i hnone
    rw [List.find?_eq_none] at hnone
    split
    · rename_i hvisible
      have hquote : c ≠ '"' := by
        rintro rfl
        exact hnone (34, '"') (by decide) (by decide)
      have hslash : c ≠ '\\' := by
        rintro rfl
        exact hnone (92, '\\') (by decide) (by decide)
      have hunits : codeUnits c = [c.toNat] := if_pos (by omega)
      rw [List.singleton_append, scanUnits_plain hquote hslash hvisible.1, hunits]
      rfl
    · exact scanUnits_hex _ _ (codeUnits_lt c)

/-- The code units of a character are read as it. -/
lemma joinUnits_codeUnits (c : Char) (us : List ℕ) : joinUnits (codeUnits c ++ us) = (joinUnits us).map (c :: ·) := by
  have hvalid := toNat_valid c
  unfold codeUnits
  split
  · rw [List.singleton_append, joinUnits.eq_def]
    simp only
    rw [if_neg (by omega), if_neg (by omega), Char.ofNat_toNat]
  · have hcode : 0x10000 + (0xD800 + (c.toNat - 0x10000) / 1024 - 0xD800) * 1024 +
        (0xDC00 + (c.toNat - 0x10000) % 1024 - 0xDC00) = c.toNat := by omega
    rw [List.cons_append, List.singleton_append, joinUnits.eq_def]
    simp only
    rw [if_pos (by omega), if_pos (by omega), hcode, Char.ofNat_toNat]

lemma scanUnits_quoteTail (cs rest : List Char) :
    scanUnits (quoteTail cs ++ rest) = some (cs.flatMap codeUnits, rest) := by
  induction cs with
  | nil => simp [quoteTail, scanUnits]
  | cons c cs ih =>
      rw [quoteTail, List.flatMap_cons, List.append_assoc, List.append_assoc, ← List.append_assoc (List.flatMap _ _),
        ← quoteTail, scanUnits_escapeChar, ih]
      rfl

lemma joinUnits_flatMap (cs : List Char) : joinUnits (cs.flatMap codeUnits) = some cs := by
  induction cs with
  | nil => simp [joinUnits]
  | cons c cs ih => rw [List.flatMap_cons, joinUnits_codeUnits, ih, Option.map_some]

/-- **A quoted string reads back.** -/
lemma scanString_quoteTail (s : String) (rest : List Char) :
    scanString (quoteTail s.toList ++ rest) = some (s, rest) := by
  simp only [scanString, scanUnits_quoteTail, joinUnits_flatMap, Option.bind_eq_bind, Option.bind_some, Option.pure_def,
    String.ofList_toList]

/-- What is written is ASCII, without control characters. -/
def IsPrintable (c : Char) : Prop := 32 ≤ c.toNat ∧ c.toNat ≤ 126

instance (c : Char) : Decidable (IsPrintable c) := inferInstanceAs (Decidable (_ ∧ _))

lemma forall_isPrintable {cs : List Char} (h : cs.all (fun c => decide (IsPrintable c)) = true) :
    ∀ c ∈ cs, IsPrintable c :=
  fun c hc => of_decide_eq_true (List.all_eq_true.mp h c hc)

lemma isPrintable_hexDigit {d : ℕ} (h : d < 16) : IsPrintable (hexDigit d) := by
  revert d
  decide

lemma isPrintable_escapeChar (c : Char) : ∀ d ∈ escapeChar c, IsPrintable d := by
  unfold escapeChar
  split
  · rename_i e he
    have hletters : shortEscapes.all (fun e => decide (IsPrintable e.2)) = true := rfl
    have hletter : IsPrintable e.2 := of_decide_eq_true (List.all_eq_true.mp hletters e (List.mem_of_find?_eq_some he))
    exact List.forall_mem_cons.mpr ⟨by decide, List.forall_mem_singleton.mpr hletter⟩
  · split
    · rename_i hc
      intro d hd
      obtain rfl := List.mem_singleton.mp hd
      exact hc
    · intro d hd
      obtain ⟨u, -, hd⟩ := List.mem_flatMap.mp hd
      have hdigit : ∀ n, IsPrintable (hexDigit (n % 16)) := fun n => isPrintable_hexDigit (Nat.mod_lt _ (by omega))
      simp only [hex4, List.mem_cons, List.not_mem_nil, or_false] at hd
      rcases hd with rfl | rfl | rfl | rfl | rfl | rfl
      · decide
      · decide
      · exact hdigit _
      · exact hdigit _
      · exact hdigit _
      · exact hdigit _

lemma isPrintable_quoteTail (cs : List Char) : ∀ d ∈ quoteTail cs, IsPrintable d := by
  intro d hd
  rcases List.mem_append.mp hd with hd | hd
  · obtain ⟨c, -, hd⟩ := List.mem_flatMap.mp hd
    exact isPrintable_escapeChar c d hd
  · obtain rfl := List.mem_singleton.mp hd
    decide

lemma isPrintable_intText (n : ℤ) : ∀ d ∈ (intText n).toList, IsPrintable d := by
  have hdigits : ∀ d ∈ Nat.toDigits 10 n.natAbs, IsPrintable d := by
    intro d hd
    have hdigit := List.all_eq_true.mp (toDigits_digits n.natAbs).1 d hd
    simp only [isAsciiDigit, Bool.and_eq_true, decide_eq_true_eq] at hdigit
    have hlow : '0'.toNat ≤ d.toNat := hdigit.1
    have hhigh : d.toNat ≤ '9'.toNat := hdigit.2
    change 48 ≤ d.toNat at hlow
    change d.toNat ≤ 57 at hhigh
    exact ⟨by omega, by omega⟩
  intro d hd
  rw [intText, String.toList_ofList] at hd
  split at hd
  · rcases List.mem_cons.mp hd with rfl | hd
    · decide
    · exact hdigits d hd
  · exact hdigits d hd

/-! ## Writing -/

/-- The texts of floats: `float.__repr__`, which NaN and the infinities lack here, and `float(text)`. -/
class FloatText (F : Type) where
  repr : F → Option (List Char)
  read : List Char → F

section writing

variable {F : Type} [FloatText F]

mutual

/-- A value without spaces, its keys in their order. -/
def Json.render : Json F → Option (List Char)
  | .null => some ['n', 'u', 'l', 'l']
  | .bool true => some ['t', 'r', 'u', 'e']
  | .bool false => some ['f', 'a', 'l', 's', 'e']
  | .int n => some (intText n).toList
  | .float x => FloatText.repr x
  | .str s => some ('"' :: quoteTail s.toList)
  | .arr [] => some ['[', ']']
  | .arr (x :: xs) => do
      let head ← x.render
      let tail ← renderItems xs
      pure ('[' :: head ++ tail)
  | .obj [] => some ['{', '}']
  | .obj (field :: fields) => do
      let head ← field.2.render
      let tail ← renderFields fields
      pure ('{' :: '"' :: quoteTail field.1.toList ++ ':' :: head ++ tail)

/-- The items after the first, and the closing bracket. -/
def renderItems : List (Json F) → Option (List Char)
  | [] => some [']']
  | x :: xs => do
      let head ← x.render
      let tail ← renderItems xs
      pure (',' :: head ++ tail)

/-- The fields after the first, and the closing brace. -/
def renderFields : List (String × Json F) → Option (List Char)
  | [] => some ['}']
  | field :: fields => do
      let head ← field.2.render
      let tail ← renderFields fields
      pure (',' :: '"' :: quoteTail field.1.toList ++ ':' :: head ++ tail)

end

omit [FloatText F]

mutual

/-- The value with the keys of every object sorted. -/
def Json.sortKeys : Json F → Json F
  | .arr xs => .arr (sortItems xs)
  | .obj fields => .obj ((sortFields fields).insertionSort fun a b => a.1 ≤ b.1)
  | v => v

/-- The items of an array, with their keys sorted. -/
def sortItems : List (Json F) → List (Json F)
  | [] => []
  | x :: xs => x.sortKeys :: sortItems xs

/-- The fields of an object in their order, with the keys of their values sorted. -/
def sortFields : List (String × Json F) → List (String × Json F)
  | [] => []
  | field :: fields => (field.1, field.2.sortKeys) :: sortFields fields

end

end writing

/-- `json.dumps(payload, ensure_ascii=True, allow_nan=False, separators=(",", ":"), sort_keys=True)`.
Fidelity: the limit of 4300 digits on the text of an integer is left out. -/
def Json.dumps {F : Type} [FloatText F] (payload : Json F) : Option String := payload.sortKeys.render.map String.ofList

/-! ## Reading -/

/-- The spaces of JSON. -/
def isJsonSpace (c : Char) : Bool := c = ' ' || c = '\t' || c = '\n' || c = '\r'

/-- The text after its leading spaces. -/
def skipSpace (cs : List Char) : List Char := cs.dropWhile isJsonSpace

/-- The digits a text starts with, and the text after them. -/
def spanDigits (cs : List Char) : List Char × List Char := (cs.takeWhile isAsciiDigit, cs.dropWhile isAsciiDigit)

/-- A fraction `\.[0-9]+`, or nothing. -/
def scanFraction : List Char → List Char × List Char
  | '.' :: rest =>
      match spanDigits rest with
      | ([], _) => ([], '.' :: rest)
      | (digits, rest) => ('.' :: digits, rest)
  | cs => ([], cs)

/-- A sign, or nothing. -/
def scanSign : List Char → List Char × List Char
  | '-' :: rest => (['-'], rest)
  | '+' :: rest => (['+'], rest)
  | rest => ([], rest)

/-- An exponent `[eE][-+]?[0-9]+`, or nothing. -/
def scanExponent : List Char → List Char × List Char
  | e :: rest =>
      if e = 'e' ∨ e = 'E' then
        let (sign, body) := scanSign rest
        match spanDigits body with
        | ([], _) => ([], e :: rest)
        | (digits, rest) => (e :: sign ++ digits, rest)
      else ([], e :: rest)
  | [] => ([], [])

/-- An integer text `0|[1-9][0-9]*`: a zero is a text of its own. -/
def scanNatural (cs : List Char) : Option (List Char × List Char) :=
  match cs with
  | '0' :: rest => some (['0'], rest)
  | _ =>
      match spanDigits cs with
      | ([], _) => none
      | span => some span

section reading

variable {F : Type} [FloatText F]

/-- A number after its sign: an integer without a fraction and an exponent, a float else. -/
def scanUnsigned (negative : Bool) (body : List Char) : Option (Json F × List Char) := do
  let (digits, rest) ← scanNatural body
  let (fraction, rest) := scanFraction rest
  let (exponent, rest) := scanExponent rest
  let sign := if negative then ['-'] else []
  if fraction.isEmpty && exponent.isEmpty then
    let n : ℤ := digitsValue digits
    pure (.int (if negative then -n else n), rest)
  else pure (.float (FloatText.read (sign ++ digits ++ fraction ++ exponent)), rest)

/-- A number. -/
def scanNumber : List Char → Option (Json F × List Char)
  | '-' :: body => scanUnsigned true body
  | body => scanUnsigned false body

/-- The dictionary of a list of fields: a later value replaces an earlier one. -/
def dictOf (fields : List (String × Json F)) : List (String × Json F) :=
  fields.foldl (fun dict field =>
    if dict.any (fun entry => entry.1 = field.1) then
      dict.map fun entry => if entry.1 = field.1 then field else entry
    else dict ++ [field]) []

/-- What is made of the fields of an object: `object_pairs_hook`, which may raise. -/
abbrev PairsHook (F : Type) := List (String × Json F) → Option (List (String × Json F))

section scanner

variable (hook : PairsHook F)

mutual

/-- A value at the start of a text, and the text after it. -/
def scanValue : ℕ → List Char → Option (Json F × List Char)
  | 0, _ => none
  | fuel + 1, cs =>
      match cs with
      | '"' :: rest => (scanString rest).map fun r => (.str r.1, r.2)
      | '[' :: rest =>
          match skipSpace rest with
          | ']' :: rest => some (.arr [], rest)
          | rest => do
              let (x, rest) ← scanValue fuel rest
              let (xs, rest) ← scanItems fuel rest
              pure (.arr (x :: xs), rest)
      | '{' :: rest =>
          match skipSpace rest with
          | '}' :: rest => (hook []).map fun dict => (.obj dict, rest)
          | rest => do
              let (field, rest) ← scanField fuel rest
              let (fields, rest) ← scanFields fuel rest
              let dict ← hook (field :: fields)
              pure (.obj dict, rest)
      | 'n' :: 'u' :: 'l' :: 'l' :: rest => some (.null, rest)
      | 't' :: 'r' :: 'u' :: 'e' :: rest => some (.bool true, rest)
      | 'f' :: 'a' :: 'l' :: 's' :: 'e' :: rest => some (.bool false, rest)
      | 'N' :: 'a' :: 'N' :: rest => some (.float (FloatText.read ['N', 'a', 'N']), rest)
      | 'I' :: 'n' :: 'f' :: 'i' :: 'n' :: 'i' :: 't' :: 'y' :: rest =>
          some (.float (FloatText.read ['I', 'n', 'f', 'i', 'n', 'i', 't', 'y']), rest)
      | '-' :: 'I' :: 'n' :: 'f' :: 'i' :: 'n' :: 'i' :: 't' :: 'y' :: rest =>
          some (.float (FloatText.read ['-', 'I', 'n', 'f', 'i', 'n', 'i', 't', 'y']), rest)
      | cs => scanNumber cs

/-- The items after the first, to the closing bracket. -/
def scanItems : ℕ → List Char → Option (List (Json F) × List Char)
  | 0, _ => none
  | fuel + 1, cs =>
      match skipSpace cs with
      | ']' :: rest => some ([], rest)
      | ',' :: rest => do
          let (x, rest) ← scanValue fuel (skipSpace rest)
          let (xs, rest) ← scanItems fuel rest
          pure (x :: xs, rest)
      | _ => none

/-- A field of an object. -/
def scanField : ℕ → List Char → Option ((String × Json F) × List Char)
  | 0, _ => none
  | fuel + 1, '"' :: rest => do
      let (key, rest) ← scanString rest
      match skipSpace rest with
      | ':' :: rest => do
          let (value, rest) ← scanValue fuel (skipSpace rest)
          pure ((key, value), rest)
      | _ => none
  | _ + 1, _ => none

/-- The fields after the first, to the closing brace. -/
def scanFields : ℕ → List Char → Option (List (String × Json F) × List Char)
  | 0, _ => none
  | fuel + 1, cs =>
      match skipSpace cs with
      | '}' :: rest => some ([], rest)
      | ',' :: rest => do
          let (field, rest) ← scanField fuel (skipSpace rest)
          let (fields, rest) ← scanFields fuel rest
          pure (field :: fields, rest)
      | _ => none

end

/-- `json.loads(text, object_pairs_hook=hook)`.
Fidelity: a lone surrogate has no character, so a text with one is refused; the limits on the digits of an integer and
on the depth of a value are left out. -/
def Json.loadsWith (text : String) : Option (Json F) := do
  let (value, rest) ← scanValue hook (2 * text.length + 1) (skipSpace text.toList)
  if skipSpace rest = [] then some value else none

end scanner

/-- `json.loads(text)`. -/
def Json.loads (text : String) : Option (Json F) := Json.loadsWith (fun fields => some (dictOf fields)) text

end reading

/-! ## Integers -/

/-- What may follow a number: nothing that a number could go on with. -/
def Delimited (rest : List Char) : Prop :=
  ∀ c tail, rest = c :: tail → isAsciiDigit c = false ∧ c ≠ '.' ∧ c ≠ 'e' ∧ c ≠ 'E'

lemma Delimited.nil : Delimited [] := fun _ _ h => by cases h

lemma Delimited.cons {c : Char} {tail : List Char} (hdigit : isAsciiDigit c = false) (hpoint : c ≠ '.') (he : c ≠ 'e')
    (hE : c ≠ 'E') : Delimited (c :: tail) := by
  rintro _ _ ⟨⟩
  exact ⟨hdigit, hpoint, he, hE⟩

lemma spanDigits_append {digits rest : List Char} (hdigits : digits.all isAsciiDigit = true) (hrest : Delimited rest) :
    spanDigits (digits ++ rest) = (digits, rest) := by
  rw [List.all_eq_true] at hdigits
  have htake : rest.takeWhile isAsciiDigit = [] ∧ rest.dropWhile isAsciiDigit = rest := by
    cases rest with
    | nil => exact ⟨rfl, rfl⟩
    | cons c tail =>
        have hc := (hrest c tail rfl).1
        simp [hc]
  rw [spanDigits, List.takeWhile_append_of_pos hdigits, List.dropWhile_append_of_pos hdigits, htake.1, htake.2,
    List.append_nil]

lemma scanFraction_delimited {rest : List Char} (hrest : Delimited rest) : scanFraction rest = ([], rest) := by
  unfold scanFraction
  split
  · rename_i tail
    exact absurd rfl (hrest '.' tail rfl).2.1
  · rfl

lemma scanExponent_delimited {rest : List Char} (hrest : Delimited rest) : scanExponent rest = ([], rest) := by
  cases rest with
  | nil => rfl
  | cons c tail =>
      obtain ⟨-, -, he, hE⟩ := hrest c tail rfl
      rw [scanExponent, if_neg]
      rintro (h | h)
      · exact he h
      · exact hE h

/-- The digits of a natural number are read as its text. -/
lemma scanNatural_toDigits (n : ℕ) {rest : List Char} (hrest : Delimited rest) :
    scanNatural (Nat.toDigits 10 n ++ rest) = some (Nat.toDigits 10 n, rest) := by
  rcases Nat.eq_zero_or_pos n with rfl | hn
  · rfl
  · obtain ⟨d, cs, hcs, hpos, hlt, -⟩ := Decimal.toDigits_eq_cons hn
    have hspan := spanDigits_append (toDigits_digits n).1 hrest
    have hzero : Nat.digitChar d ≠ '0' := by
      have hdigits : ∀ e < 10, 0 < e → Nat.digitChar e ≠ '0' := by decide
      exact hdigits d hlt hpos
    rw [hcs] at hspan ⊢
    rw [List.cons_append] at hspan ⊢
    unfold scanNatural
    split
    · rename_i tail htail
      exact absurd (List.cons.inj htail).1 hzero
    · rw [hspan]

section numbers

variable {F : Type} [FloatText F]

lemma scanUnsigned_toDigits (negative : Bool) (n : ℕ) {rest : List Char} (hrest : Delimited rest) :
    scanUnsigned (F := F) negative (Nat.toDigits 10 n ++ rest) =
      some (.int (if negative then -(n : ℤ) else n), rest) := by
  simp only [scanUnsigned, scanNatural_toDigits n hrest, Option.bind_eq_bind, Option.bind_some,
    scanFraction_delimited hrest, scanExponent_delimited hrest, List.isEmpty_nil, Bool.and_self, if_true,
    (toDigits_digits n).2.1]
  rfl

/-- The text of an integer is read as it. -/
lemma scanNumber_intText (n : ℤ) {rest : List Char} (hrest : Delimited rest) :
    scanNumber (F := F) ((intText n).toList ++ rest) = some (.int n, rest) := by
  rw [intText, String.toList_ofList]
  split
  · rename_i hneg
    rw [List.cons_append, scanNumber, scanUnsigned_toDigits true _ hrest, if_pos rfl]
    congr 3
    omega
  · rename_i hnonneg
    obtain ⟨hall, -, hne⟩ := toDigits_digits n.natAbs
    have hscan := scanUnsigned_toDigits (F := F) false n.natAbs hrest
    have hhead : ∀ body, Nat.toDigits 10 n.natAbs ++ rest ≠ '-' :: body := by
      intro body hbody
      obtain ⟨c, cs, hcs⟩ := List.exists_cons_of_ne_nil hne
      rw [hcs, List.cons_append, List.cons.injEq] at hbody
      rw [hcs, List.all_cons, Bool.and_eq_true] at hall
      exact ne_minus_of_isAsciiDigit hall.1 hbody.1
    unfold scanNumber
    split
    · rename_i body hbody
      exact absurd hbody (hhead body)
    · rw [hscan, if_neg (by decide)]
      congr 3
      omega

/-! ## Values -/

mutual

/-- A value without floats, each object of which has its keys once. -/
def Json.Plain : Json F → Prop
  | .float _ => False
  | .arr xs => PlainItems xs
  | .obj fields => (fields.map Prod.fst).Nodup ∧ PlainFields fields
  | _ => True

/-- Plain items. -/
def PlainItems : List (Json F) → Prop
  | [] => True
  | x :: xs => x.Plain ∧ PlainItems xs

/-- Fields with plain values. -/
def PlainFields : List (String × Json F) → Prop
  | [] => True
  | field :: fields => field.2.Plain ∧ PlainFields fields

end

omit [FloatText F] in
/-- Fields with distinct keys are a dictionary. -/
lemma dictOf_eq {fields : List (String × Json F)} (h : (fields.map Prod.fst).Nodup) : dictOf fields = fields := by
  have hfold : ∀ (rest dict : List (String × Json F)), ((dict ++ rest).map Prod.fst).Nodup →
      rest.foldl (fun dict field =>
        if dict.any (fun entry => entry.1 = field.1) then
          dict.map fun entry => if entry.1 = field.1 then field else entry
        else dict ++ [field]) dict = dict ++ rest := by
    intro rest
    induction rest with
    | nil => simp
    | cons field rest ih =>
        intro dict hnodup
        have hnew : (dict.any fun entry => decide (entry.1 = field.1)) = false := by
          rw [List.any_eq_false]
          intro entry hentry hkey
          rw [List.map_append, List.nodup_append] at hnodup
          exact hnodup.2.2 entry.1 (List.mem_map_of_mem hentry) field.1 (List.mem_map_of_mem List.mem_cons_self)
            (of_decide_eq_true hkey)
        rw [List.foldl_cons, hnew, if_neg Bool.false_ne_true, ih (dict ++ [field]) (by simpa using hnodup),
          List.append_assoc, List.singleton_append]
  exact hfold fields [] h

/-- The hook makes a dictionary of fields with distinct keys, and leaves them as they are. -/
def KeepsDicts (hook : PairsHook F) : Prop := ∀ fields, (fields.map Prod.fst).Nodup → hook fields = some fields

omit [FloatText F] in
lemma keepsDicts_dictOf : KeepsDicts (F := F) fun fields => some (dictOf fields) :=
  fun _ hnodup => congrArg some (dictOf_eq hnodup)

/-- A text that is written for a value, and read as it before anything that ends it. -/
structure Reads (v : Json F) (cs : List Char) : Prop where
  written : v.render = some cs
  printable : ∀ c ∈ cs, IsPrintable c
  starts : ∃ c tail, cs = c :: tail ∧ isJsonSpace c = false ∧ c ≠ ']'
  scanned : ∀ hook, KeepsDicts hook → ∀ fuel rest, 2 * cs.length < fuel → Delimited rest →
    scanValue hook fuel (cs ++ rest) = some (v, rest)

/-- A text that is written for the items after the first, and read as them. -/
structure ReadsItems (xs : List (Json F)) (cs : List Char) : Prop where
  written : renderItems xs = some cs
  printable : ∀ c ∈ cs, IsPrintable c
  delimited : ∀ rest, Delimited (cs ++ rest)
  scanned : ∀ hook, KeepsDicts hook → ∀ fuel rest, 2 * cs.length < fuel →
    scanItems hook fuel (cs ++ rest) = some (xs, rest)

/-- A text that is written for the fields after the first, and read as them. -/
structure ReadsFields (fields : List (String × Json F)) (cs : List Char) : Prop where
  written : renderFields fields = some cs
  printable : ∀ c ∈ cs, IsPrintable c
  delimited : ∀ rest, Delimited (cs ++ rest)
  scanned : ∀ hook, KeepsDicts hook → ∀ fuel rest, 2 * cs.length < fuel →
    scanFields hook fuel (cs ++ rest) = some (fields, rest)

lemma skipSpace_cons {c : Char} {cs : List Char} (h : isJsonSpace c = false) : skipSpace (c :: cs) = c :: cs := by
  simp [skipSpace, h]

/-- A field is read back. -/
lemma scanField_reads {hook : PairsHook F} (hhook : KeepsDicts hook) (fuel : ℕ) (key : String) {v : Json F}
    {cs rest : List Char} (h : Reads v cs) (hfuel : 2 * cs.length + 1 < fuel) (hrest : Delimited rest) :
    scanField hook fuel ('"' :: quoteTail key.toList ++ ':' :: cs ++ rest) = some ((key, v), rest) := by
  obtain ⟨c, tail, hcs, hspace, -⟩ := h.starts
  obtain ⟨fuel, rfl⟩ : ∃ n, fuel = n + 1 := ⟨fuel - 1, by omega⟩
  have hscan := h.scanned hook hhook fuel rest (by omega) hrest
  have hskip : skipSpace (cs ++ rest) = cs ++ rest := by
    rw [hcs, List.cons_append, skipSpace_cons hspace]
  rw [List.append_assoc, List.cons_append, List.cons_append, scanField, scanString_quoteTail]
  simp only [Option.bind_eq_bind, Option.bind_some, skipSpace_cons (show isJsonSpace ':' = false from rfl), hskip, hscan]
  rfl

/-- The text of an integer starts with a digit, or with a minus and a digit. -/
lemma intText_starts (n : ℤ) : ∃ c tail, (intText n).toList = c :: tail ∧
    (isAsciiDigit c = true ∨ c = '-' ∧ ∃ d digits, tail = d :: digits ∧ isAsciiDigit d = true) := by
  obtain ⟨hall, -, hne⟩ := toDigits_digits n.natAbs
  obtain ⟨d, digits, hdigits⟩ := List.exists_cons_of_ne_nil hne
  rw [hdigits, List.all_cons, Bool.and_eq_true] at hall
  rw [intText, String.toList_ofList, hdigits]
  split
  · exact ⟨'-', _, rfl, Or.inr ⟨rfl, d, digits, rfl, hall.1⟩⟩
  · exact ⟨d, digits, rfl, Or.inl hall.1⟩

lemma isAsciiDigit_ne {c d : Char} (h : isAsciiDigit c = true) (hd : isAsciiDigit d = false) : c ≠ d := by
  rintro rfl
  rw [h] at hd
  cases hd

lemma Reads.int (n : ℤ) : Reads (F := F) (.int n) (intText n).toList := by
  obtain ⟨c, tail, hcs, hc⟩ := intText_starts n
  have hother : ∀ d, isAsciiDigit d = false → d ≠ '-' → c ≠ d := by
    intro d hd hminus
    rcases hc with hc | ⟨rfl, -⟩
    · exact isAsciiDigit_ne hc hd
    · exact hminus.symm
  refine ⟨rfl, isPrintable_intText n, ⟨c, tail, hcs, ?_, hother ']' rfl (by decide)⟩, fun hook _ fuel rest hfuel hrest => ?_⟩
  · simp [isJsonSpace, hother ' ' rfl (by decide), hother '\t' rfl (by decide), hother '\n' rfl (by decide),
      hother '\r' rfl (by decide)]
  · obtain ⟨fuel, rfl⟩ : ∃ n, fuel = n + 1 := ⟨fuel - 1, by omega⟩
    have hnumber := scanNumber_intText (F := F) n hrest
    rw [hcs, List.cons_append] at hnumber ⊢
    have hminus : ∀ body, c :: (tail ++ rest) ≠ '-' :: 'I' :: body := by
      intro body heq
      obtain ⟨hminus, htail⟩ := List.cons.inj heq
      rcases hc with hc | ⟨-, d, digits, rfl, hd⟩
      · exact isAsciiDigit_ne hc (by decide) hminus
      · exact isAsciiDigit_ne hd (by decide) (List.cons.inj htail).1
    rw [scanValue]
    · exact hnumber
    · exact fun _ heq => hother _ (by decide) (by decide) (List.cons.inj heq).1
    · exact fun _ heq => hother _ (by decide) (by decide) (List.cons.inj heq).1
    · exact fun _ heq => hother _ (by decide) (by decide) (List.cons.inj heq).1
    · exact fun _ heq => hother _ (by decide) (by decide) (List.cons.inj heq).1
    · exact fun _ heq => hother _ (by decide) (by decide) (List.cons.inj heq).1
    · exact fun _ heq => hother _ (by decide) (by decide) (List.cons.inj heq).1
    · exact fun _ heq => hother _ (by decide) (by decide) (List.cons.inj heq).1
    · exact fun _ heq => hother _ (by decide) (by decide) (List.cons.inj heq).1
    · exact fun _ heq => hminus _ heq

lemma Reads.str (s : String) : Reads (F := F) (.str s) ('"' :: quoteTail s.toList) := by
  refine ⟨rfl, List.forall_mem_cons.mpr ⟨by decide, isPrintable_quoteTail _⟩, ⟨_, _, rfl, rfl, by decide⟩,
    fun hook _ fuel rest hfuel _ => ?_⟩
  obtain ⟨fuel, rfl⟩ : ∃ n, fuel = n + 1 := ⟨fuel - 1, by omega⟩
  rw [List.cons_append, scanValue, scanString_quoteTail]
  rfl

lemma Reads.arr {x : Json F} {xs : List (Json F)} {cs cs' : List Char} (h : Reads x cs) (hs : ReadsItems xs cs') :
    Reads (.arr (x :: xs)) ('[' :: cs ++ cs') := by
  obtain ⟨c, tail, hcs, hspace, hclose⟩ := h.starts
  refine ⟨?_, ?_, ⟨_, _, rfl, rfl, by decide⟩, fun hook hhook fuel rest hfuel hrest => ?_⟩
  · rw [Json.render, h.written, hs.written]
    rfl
  · simp only [List.cons_append, List.forall_mem_cons, List.forall_mem_append]
    exact ⟨by decide, h.printable, hs.printable⟩
  · obtain ⟨fuel, rfl⟩ : ∃ n, fuel = n + 1 := ⟨fuel - 1, by omega⟩
    simp only [List.length_append, List.length_cons] at hfuel
    have hx := h.scanned hook hhook fuel (cs' ++ rest) (by omega) (hs.delimited rest)
    have hxs := hs.scanned hook hhook fuel rest (by omega)
    rw [hcs, List.cons_append] at hx
    rw [hcs, List.append_assoc, List.cons_append, List.cons_append, scanValue, skipSpace_cons hspace]
    split
    · rename_i heq
      exact absurd (List.cons.inj heq).1 hclose
    · rw [hx]
      simp only [Option.bind_eq_bind, Option.bind_some, hxs]
      rfl

lemma Reads.obj {field : String × Json F} {fields : List (String × Json F)} {cs cs' : List Char}
    (h : Reads field.2 cs) (hs : ReadsFields fields cs') (hnodup : ((field :: fields).map Prod.fst).Nodup) :
    Reads (.obj (field :: fields)) ('{' :: '"' :: quoteTail field.1.toList ++ ':' :: cs ++ cs') := by
  refine ⟨?_, ?_, ⟨_, _, rfl, rfl, by decide⟩, fun hook hhook fuel rest hfuel hrest => ?_⟩
  · rw [Json.render, h.written, hs.written]
    rfl
  · simp only [List.cons_append, List.append_assoc, List.forall_mem_cons, List.forall_mem_append]
    exact ⟨by decide, by decide, isPrintable_quoteTail _, by decide, h.printable, hs.printable⟩
  · obtain ⟨fuel, rfl⟩ : ∃ n, fuel = n + 1 := ⟨fuel - 1, by omega⟩
    simp only [List.length_append, List.length_cons] at hfuel
    have hfield := scanField_reads hhook fuel field.1 h (by omega) (hs.delimited rest)
    have hfields := hs.scanned hook hhook fuel rest (by omega)
    simp only [List.append_assoc, List.cons_append] at hfield ⊢
    rw [scanValue, skipSpace_cons (show isJsonSpace '"' = false from rfl)]
    split
    · rename_i heq
      exact absurd (List.cons.inj heq).1 (by decide)
    · simp only [hfield, Option.bind_eq_bind, Option.bind_some, hfields, hhook _ hnodup]
      rfl

lemma ReadsItems.nil : ReadsItems (F := F) [] [']'] := by
  refine ⟨rfl, forall_isPrintable rfl, fun rest => Delimited.cons (by decide) (by decide) (by decide) (by decide),
    fun hook hhook fuel rest hfuel => ?_⟩
  obtain ⟨fuel, rfl⟩ : ∃ n, fuel = n + 1 := ⟨fuel - 1, by omega⟩
  rfl

lemma ReadsItems.cons {x : Json F} {xs : List (Json F)} {cs cs' : List Char} (h : Reads x cs) (hs : ReadsItems xs cs') :
    ReadsItems (x :: xs) (',' :: cs ++ cs') := by
  obtain ⟨c, tail, hcs, hspace, -⟩ := h.starts
  refine ⟨?_, ?_, fun rest => Delimited.cons (by decide) (by decide) (by decide) (by decide),
    fun hook hhook fuel rest hfuel => ?_⟩
  · rw [renderItems, h.written, hs.written]
    rfl
  · simp only [List.cons_append, List.forall_mem_cons, List.forall_mem_append]
    exact ⟨by decide, h.printable, hs.printable⟩
  · obtain ⟨fuel, rfl⟩ : ∃ n, fuel = n + 1 := ⟨fuel - 1, by omega⟩
    simp only [List.length_append, List.length_cons] at hfuel
    have hx := h.scanned hook hhook fuel (cs' ++ rest) (by omega) (hs.delimited rest)
    have hxs := hs.scanned hook hhook fuel rest (by omega)
    rw [hcs, List.cons_append] at hx
    rw [hcs, List.append_assoc, List.cons_append, List.cons_append, scanItems,
      skipSpace_cons (show isJsonSpace ',' = false from rfl)]
    simp only [skipSpace_cons hspace, hx, Option.bind_eq_bind, Option.bind_some, hxs]
    rfl

lemma ReadsFields.nil : ReadsFields (F := F) [] ['}'] := by
  refine ⟨rfl, forall_isPrintable rfl, fun rest => Delimited.cons (by decide) (by decide) (by decide) (by decide),
    fun hook hhook fuel rest hfuel => ?_⟩
  obtain ⟨fuel, rfl⟩ : ∃ n, fuel = n + 1 := ⟨fuel - 1, by omega⟩
  rfl

lemma ReadsFields.cons {field : String × Json F} {fields : List (String × Json F)} {cs cs' : List Char}
    (h : Reads field.2 cs) (hs : ReadsFields fields cs') :
    ReadsFields (field :: fields) (',' :: '"' :: quoteTail field.1.toList ++ ':' :: cs ++ cs') := by
  refine ⟨?_, ?_, fun rest => Delimited.cons (by decide) (by decide) (by decide) (by decide),
    fun hook hhook fuel rest hfuel => ?_⟩
  · rw [renderFields, h.written, hs.written]
    rfl
  · simp only [List.cons_append, List.append_assoc, List.forall_mem_cons, List.forall_mem_append]
    exact ⟨by decide, by decide, isPrintable_quoteTail _, by decide, h.printable, hs.printable⟩
  · obtain ⟨fuel, rfl⟩ : ∃ n, fuel = n + 1 := ⟨fuel - 1, by omega⟩
    simp only [List.length_append, List.length_cons] at hfuel
    have hfield := scanField_reads hhook fuel field.1 h (by omega) (hs.delimited rest)
    have hfields := hs.scanned hook hhook fuel rest (by omega)
    simp only [List.append_assoc, List.cons_append] at hfield ⊢
    rw [scanFields, skipSpace_cons (show isJsonSpace ',' = false from rfl)]
    simp only [skipSpace_cons (show isJsonSpace '"' = false from rfl), hfield, Option.bind_eq_bind, Option.bind_some,
      hfields]
    rfl

mutual

/-- A value whose floats have a text that reads back, each object of which has its keys once. -/
def Json.Tidy : Json F → Prop
  | .float x => ∃ cs, Reads (.float x) cs
  | .arr xs => TidyItems xs
  | .obj fields => (fields.map Prod.fst).Nodup ∧ TidyFields fields
  | _ => True

/-- Tidy items. -/
def TidyItems : List (Json F) → Prop
  | [] => True
  | x :: xs => x.Tidy ∧ TidyItems xs

/-- Fields with tidy values. -/
def TidyFields : List (String × Json F) → Prop
  | [] => True
  | field :: fields => field.2.Tidy ∧ TidyFields fields

end

mutual

/-- A plain value is tidy. -/
theorem Json.Plain.tidy : ∀ (v : Json F), v.Plain → v.Tidy
  | .null, _ => trivial
  | .bool _, _ => trivial
  | .int _, _ => trivial
  | .str _, _ => trivial
  | .arr xs, h => PlainItems.tidy xs h
  | .obj fields, h => ⟨h.1, PlainFields.tidy fields h.2⟩

theorem PlainItems.tidy : ∀ (xs : List (Json F)), PlainItems xs → TidyItems xs
  | [], _ => trivial
  | x :: xs, h => ⟨Json.Plain.tidy x h.1, PlainItems.tidy xs h.2⟩

theorem PlainFields.tidy : ∀ (fields : List (String × Json F)), PlainFields fields → TidyFields fields
  | [], _ => trivial
  | field :: fields, h => ⟨Json.Plain.tidy field.2 h.1, PlainFields.tidy fields h.2⟩

end

mutual

/-- Every tidy value has a text that reads back. -/
theorem exists_reads : ∀ (v : Json F), v.Tidy → ∃ cs, Reads v cs
  | .null, _ => ⟨_, rfl, forall_isPrintable rfl, ⟨_, _, rfl, rfl, by decide⟩,
    fun hook hhook fuel rest hfuel _ => by
      obtain ⟨fuel, rfl⟩ : ∃ n, fuel = n + 1 := ⟨fuel - 1, by omega⟩
      rfl⟩
  | .bool true, _ => ⟨_, rfl, forall_isPrintable rfl, ⟨_, _, rfl, rfl, by decide⟩,
    fun hook hhook fuel rest hfuel _ => by
      obtain ⟨fuel, rfl⟩ : ∃ n, fuel = n + 1 := ⟨fuel - 1, by omega⟩
      rfl⟩
  | .bool false, _ => ⟨_, rfl, forall_isPrintable rfl, ⟨_, _, rfl, rfl, by decide⟩,
    fun hook hhook fuel rest hfuel _ => by
      obtain ⟨fuel, rfl⟩ : ∃ n, fuel = n + 1 := ⟨fuel - 1, by omega⟩
      rfl⟩
  | .int n, _ => ⟨_, .int n⟩
  | .float _, h => h
  | .str s, _ => ⟨_, .str s⟩
  | .arr [], _ => ⟨_, rfl, forall_isPrintable rfl, ⟨_, _, rfl, rfl, by decide⟩,
    fun hook hhook fuel rest hfuel _ => by
      obtain ⟨fuel, rfl⟩ : ∃ n, fuel = n + 1 := ⟨fuel - 1, by omega⟩
      rfl⟩
  | .arr (x :: xs), h => by
      obtain ⟨cs, hcs⟩ := exists_reads x h.1
      obtain ⟨cs', hcs'⟩ := exists_readsItems xs h.2
      exact ⟨_, .arr hcs hcs'⟩
  | .obj [], _ => ⟨_, rfl, forall_isPrintable rfl, ⟨_, _, rfl, rfl, by decide⟩,
    fun hook hhook fuel rest hfuel _ => by
      obtain ⟨fuel, rfl⟩ : ∃ n, fuel = n + 1 := ⟨fuel - 1, by omega⟩
      have hempty := hhook [] List.nodup_nil
      change (hook []).map _ = _
      rw [hempty]
      rfl⟩
  | .obj (field :: fields), h => by
      obtain ⟨cs, hcs⟩ := exists_reads field.2 h.2.1
      obtain ⟨cs', hcs'⟩ := exists_readsFields fields h.2.2
      exact ⟨_, .obj hcs hcs' h.1⟩

/-- Tidy items have a text that reads back. -/
theorem exists_readsItems : ∀ (xs : List (Json F)), TidyItems xs → ∃ cs, ReadsItems xs cs
  | [], _ => ⟨_, .nil⟩
  | x :: xs, h => by
      obtain ⟨cs, hcs⟩ := exists_reads x h.1
      obtain ⟨cs', hcs'⟩ := exists_readsItems xs h.2
      exact ⟨_, .cons hcs hcs'⟩

/-- Fields with tidy values have a text that reads back. -/
theorem exists_readsFields : ∀ (fields : List (String × Json F)), TidyFields fields → ∃ cs, ReadsFields fields cs
  | [], _ => ⟨_, .nil⟩
  | field :: fields, h => by
      obtain ⟨cs, hcs⟩ := exists_reads field.2 h.1
      obtain ⟨cs', hcs'⟩ := exists_readsFields fields h.2
      exact ⟨_, .cons hcs hcs'⟩

end

end numbers

/-! ## Sorted keys -/

section sorting

variable {F : Type}

lemma sortItems_eq_map (xs : List (Json F)) : sortItems xs = xs.map Json.sortKeys := by
  induction xs with
  | nil => rfl
  | cons x xs ih => rw [sortItems, ih, List.map_cons]

lemma sortFields_eq_map (fields : List (String × Json F)) :
    sortFields fields = fields.map fun field => (field.1, field.2.sortKeys) := by
  induction fields with
  | nil => rfl
  | cons field fields ih => rw [sortFields, ih, List.map_cons]

lemma plainItems_iff {xs : List (Json F)} : PlainItems xs ↔ ∀ x ∈ xs, x.Plain := by
  induction xs with
  | nil => simp [PlainItems]
  | cons x xs ih => rw [PlainItems, ih, List.forall_mem_cons]

/-- Sorting the keys moves the fields, with the keys of their values sorted. -/
lemma sortKeys_perm (fields : List (String × Json F)) :
    ((sortFields fields).insertionSort fun a b => a.1 ≤ b.1).Perm
      (fields.map fun field => (field.1, field.2.sortKeys)) := by
  rw [← sortFields_eq_map]
  exact List.perm_insertionSort _ _

lemma keys_sortKeys_perm (fields : List (String × Json F)) :
    (((sortFields fields).insertionSort fun a b => a.1 ≤ b.1).map Prod.fst).Perm (fields.map Prod.fst) := by
  have h := (sortKeys_perm fields).map Prod.fst
  rwa [List.map_map] at h

section tidy

variable [FloatText F]

lemma tidyItems_iff {xs : List (Json F)} : TidyItems xs ↔ ∀ x ∈ xs, x.Tidy := by
  induction xs with
  | nil => simp [TidyItems]
  | cons x xs ih => rw [TidyItems, ih, List.forall_mem_cons]

lemma tidyFields_iff {fields : List (String × Json F)} : TidyFields fields ↔ ∀ field ∈ fields, field.2.Tidy := by
  induction fields with
  | nil => simp [TidyFields]
  | cons field fields ih => rw [TidyFields, ih, List.forall_mem_cons]

mutual

/-- Sorting the keys keeps a value tidy. -/
theorem Json.Tidy.sortKeys : ∀ (v : Json F), v.Tidy → v.sortKeys.Tidy
  | .null, _ => trivial
  | .bool _, _ => trivial
  | .int _, _ => trivial
  | .float _, h => h
  | .str _, _ => trivial
  | .arr xs, h => TidyItems.sort xs h
  | .obj fields, h => by
      refine ⟨(keys_sortKeys_perm fields).nodup_iff.mpr h.1, tidyFields_iff.mpr fun field hfield => ?_⟩
      exact tidyFields_iff.mp (TidyFields.sort fields h.2) field ((List.perm_insertionSort _ _).mem_iff.mp hfield)

theorem TidyItems.sort : ∀ (xs : List (Json F)), TidyItems xs → TidyItems (sortItems xs)
  | [], _ => trivial
  | x :: xs, h => ⟨Json.Tidy.sortKeys x h.1, TidyItems.sort xs h.2⟩

theorem TidyFields.sort : ∀ (fields : List (String × Json F)), TidyFields fields → TidyFields (sortFields fields)
  | [], _ => trivial
  | field :: fields, h => ⟨Json.Tidy.sortKeys field.2 h.1, TidyFields.sort fields h.2⟩

end

end tidy

/-- An entry of a dictionary is a field of it. -/
lemma get?_eq_some {fields : List (String × Json F)} (hnodup : (fields.map Prod.fst).Nodup) {key : String} {v : Json F} :
    (Json.obj fields).get? key = some v ↔ (key, v) ∈ fields := by
  rw [Json.get?_obj, Option.map_eq_some_iff]
  constructor
  · rintro ⟨⟨key', v'⟩, hfound, rfl⟩
    obtain rfl : key' = key := by simpa using List.find?_some hfound
    exact List.mem_of_find?_eq_some hfound
  · intro hmem
    obtain ⟨found, hfound⟩ := Option.isSome_iff_exists.mp
      (List.find?_isSome (p := fun f => decide (f.1 = key)) |>.mpr ⟨(key, v), hmem, decide_eq_true rfl⟩)
    refine ⟨found, hfound, ?_⟩
    have hkey : found.1 = key := by simpa using List.find?_some hfound
    have hsame := List.inj_on_of_nodup_map hnodup (List.mem_of_find?_eq_some hfound) hmem hkey
    rw [hsame]

/-- **Sorting the keys of a dictionary changes no entry**, but for the keys of its values. -/
lemma get?_sortKeys {fields : List (String × Json F)} (hnodup : (fields.map Prod.fst).Nodup) (key : String) :
    (Json.obj fields).sortKeys.get? key = ((Json.obj fields).get? key).map Json.sortKeys := by
  ext v
  rw [Json.sortKeys, get?_eq_some ((keys_sortKeys_perm fields).nodup_iff.mpr hnodup), (sortKeys_perm fields).mem_iff,
    List.mem_map, Option.map_eq_some_iff]
  constructor
  · rintro ⟨field, hmem, heq⟩
    obtain ⟨rfl, rfl⟩ := Prod.mk.inj heq
    exact ⟨field.2, (get?_eq_some hnodup).mpr hmem, rfl⟩
  · rintro ⟨w, hw, rfl⟩
    exact ⟨(key, w), (get?_eq_some hnodup).mp hw, rfl⟩

/-- A dictionary whose values have no keys to sort keeps its entries. -/
lemma get?_sortKeys_of_flat {fields : List (String × Json F)} (hnodup : (fields.map Prod.fst).Nodup)
    (hflat : sortFields fields = fields) (key : String) :
    (Json.obj fields).sortKeys.get? key = (Json.obj fields).get? key := by
  have hperm := sortKeys_perm fields
  rw [← sortFields_eq_map, hflat] at hperm
  ext v
  rw [get?_eq_some hnodup, Json.sortKeys, hflat,
    get?_eq_some ((hperm.map Prod.fst).nodup_iff.mpr hnodup), hperm.mem_iff]

lemma Delimited.spaces {spaces : List Char} (h : ∀ c ∈ spaces, isJsonSpace c = true) : Delimited spaces := by
  rintro c tail rfl
  have hspace := h c List.mem_cons_self
  simp only [isJsonSpace, Bool.or_eq_true, decide_eq_true_eq] at hspace
  rcases hspace with ((rfl | rfl) | rfl) | rfl <;> decide

/-- **A text that `dumps` writes reads back**, with the keys sorted, whatever is made of its dictionaries; spaces may
follow it. -/
theorem loadsWith_dumps [FloatText F] {v : Json F} (h : v.Tidy) :
    ∃ text, v.dumps = some text ∧ (∀ c ∈ text.toList, IsPrintable c) ∧ ∀ hook, KeepsDicts hook → ∀ spaces,
      (∀ c ∈ spaces, isJsonSpace c = true) → Json.loadsWith hook (text ++ String.ofList spaces) = some v.sortKeys := by
  obtain ⟨cs, hcs⟩ := exists_reads v.sortKeys (h.sortKeys v)
  obtain ⟨c, tail, hstart, hspace, -⟩ := hcs.starts
  refine ⟨String.ofList cs, by rw [Json.dumps, hcs.written, Option.map_some], ?_, fun hook hhook spaces hspaces => ?_⟩
  · rw [String.toList_ofList]
    exact hcs.printable
  · have hscan := hcs.scanned hook hhook (2 * (cs ++ spaces).length + 1) spaces
      (by rw [List.length_append]; omega) (.spaces hspaces)
    have hskip : skipSpace (cs ++ spaces) = cs ++ spaces := by rw [hstart, List.cons_append, skipSpace_cons hspace]
    have hrest : skipSpace spaces = [] := List.dropWhile_eq_nil_iff.mpr hspaces
    rw [Json.loadsWith, ← String.ofList_append, String.toList_ofList, String.length_ofList, hskip, hscan]
    simp only [Option.bind_eq_bind, Option.bind_some, hrest, if_pos]

/-- **A text that `dumps` writes, `loads` reads back**, with the keys sorted. -/
theorem loads_dumps [FloatText F] {v : Json F} (h : v.Plain) : ∃ text, v.dumps = some text ∧ Json.loads text = some v.sortKeys := by
  obtain ⟨text, hdumps, -, hloads⟩ := loadsWith_dumps (Json.Plain.tidy v h)
  have hread := hloads _ keepsDicts_dictOf [] fun _ hc => by cases hc
  rw [String.ofList_nil, String.append_empty] at hread
  exact ⟨text, hdumps, hread⟩

end sorting

end MuStrategy.Lib
