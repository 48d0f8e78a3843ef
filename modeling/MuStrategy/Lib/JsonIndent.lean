import MuStrategy.Lib.JsonText

/-!
# Indented JSON texts

The texts that `json.dumps(payload, ensure_ascii=False, indent=n)` writes: a character of a string stands for itself,
and an item or a field has a line of its own.

* `literalTail` — a string; `Json.renderIndented` — a value at a level; `Json.dumpsIndented`.
* `Scans` — a text that is read as a value, whoever wrote it.
* `loadsWith_dumpsIndented` — an indented text reads back as the value, its keys in their order.
-/

namespace MuStrategy.Lib

/-! ## Strings -/

/-- The text of a character inside a string that is not limited to ASCII. -/
def literalChar (c : Char) : List Char :=
  match shortEscapes.find? fun e => e.1 = c.toNat with
  | some e => ['\\', e.2]
  | none => if c.toNat < 32 then '\\' :: 'u' :: hex4 c.toNat else [c]

/-- The text of a string after its opening quote. -/
def literalTail (cs : List Char) : List Char := cs.flatMap literalChar ++ ['"']

/-- A character's text reads back as its code. -/
lemma scanUnits_literalChar (c : Char) (tail : List Char) :
    scanUnits (literalChar c ++ tail) = (scanUnits tail).map fun r => (c.toNat :: r.1, r.2) := by
  unfold literalChar
  split
  · rename_i e he
    have hmem := List.mem_of_find?_eq_some he
    have hcode := List.find?_some he
    simp only [shortEscapes, List.mem_cons, List.not_mem_nil, or_false, decide_eq_true_eq] at hmem hcode
    rcases hmem with rfl | rfl | rfl | rfl | rfl | rfl | rfl
    all_goals
      simp only at hcode
      rw [← hcode]
      simp [scanUnits, unescape?, shortEscapes]
  · rename_i hnone
    rw [List.find?_eq_none] at hnone
    split
    · rename_i hcontrol
      have hunit := scanUnits_hex [c.toNat] tail fun u hu => by
        rw [List.mem_singleton] at hu
        omega
      rwa [List.flatMap_singleton] at hunit
    · rename_i hvisible
      refine scanUnits_plain ?_ ?_ (not_lt.mp hvisible)
      · rintro rfl
        exact hnone (34, '"') (by decide) (by decide)
      · rintro rfl
        exact hnone (92, '\\') (by decide) (by decide)

lemma scanUnits_literalTail (cs rest : List Char) :
    scanUnits (literalTail cs ++ rest) = some (cs.map Char.toNat, rest) := by
  induction cs with
  | nil => simp [literalTail, scanUnits]
  | cons c cs ih =>
      rw [literalTail, List.flatMap_cons, List.append_assoc, List.append_assoc, ← List.append_assoc (List.flatMap _ _),
        ← literalTail, scanUnits_literalChar, ih]
      rfl

/-- No character is a surrogate. -/
lemma joinUnits_map_toNat (cs : List Char) : joinUnits (cs.map Char.toNat) = some cs := by
  induction cs with
  | nil => simp [joinUnits]
  | cons c cs ih =>
      have hvalid := toNat_valid c
      rw [List.map_cons, joinUnits.eq_def]
      simp only
      rw [if_neg (by omega), if_neg (by omega), Char.ofNat_toNat, ih, Option.map_some]

/-- **A string that is written as it is reads back.** -/
lemma scanString_literalTail (s : String) (rest : List Char) :
    scanString (literalTail s.toList ++ rest) = some (s, rest) := by
  simp only [scanString, scanUnits_literalTail, joinUnits_map_toNat, Option.bind_eq_bind, Option.bind_some,
    Option.pure_def, String.ofList_toList]

/-! ## Writing -/

/-- The new line of a level. -/
def newLine (indent level : ℕ) : List Char := '\n' :: List.replicate (indent * level) ' '

section writing

variable {F : Type} [FloatText F] (indent : ℕ)

mutual

/-- A value at a level, its keys in their order. -/
def Json.renderIndented : ℕ → Json F → Option (List Char)
  | _, .str s => some ('"' :: literalTail s.toList)
  | level, .arr (x :: xs) => do
      let head ← x.renderIndented (level + 1)
      let tail ← renderIndentedItems level xs
      pure ('[' :: newLine indent (level + 1) ++ head ++ tail)
  | level, .obj (field :: fields) => do
      let head ← field.2.renderIndented (level + 1)
      let tail ← renderIndentedFields level fields
      pure ('{' :: newLine indent (level + 1) ++ '"' :: literalTail field.1.toList ++ ':' :: ' ' :: head ++ tail)
  | _, leaf => leaf.render

/-- The items after the first, and the closing bracket. -/
def renderIndentedItems : ℕ → List (Json F) → Option (List Char)
  | level, [] => some (newLine indent level ++ [']'])
  | level, x :: xs => do
      let head ← x.renderIndented (level + 1)
      let tail ← renderIndentedItems level xs
      pure (',' :: newLine indent (level + 1) ++ head ++ tail)

/-- The fields after the first, and the closing brace. -/
def renderIndentedFields : ℕ → List (String × Json F) → Option (List Char)
  | level, [] => some (newLine indent level ++ ['}'])
  | level, field :: fields => do
      let head ← field.2.renderIndented (level + 1)
      let tail ← renderIndentedFields level fields
      pure (',' :: newLine indent (level + 1) ++ '"' :: literalTail field.1.toList ++ ':' :: ' ' :: head ++ tail)

end

/-- `json.dumps(payload, ensure_ascii=False, indent=indent, allow_nan=False)`.
Fidelity: the limit of 4300 digits on the text of an integer is left out. -/
def Json.dumpsIndented (payload : Json F) : Option String := (payload.renderIndented indent 0).map String.ofList

end writing

/-! ## Reading back -/

section reading

variable {F : Type} [FloatText F]

/-- A text that is read as a value, before anything that ends it. -/
structure Scans (v : Json F) (cs : List Char) : Prop where
  starts : ∃ c tail, cs = c :: tail ∧ isJsonSpace c = false ∧ c ≠ ']'
  scanned : ∀ hook, KeepsDicts hook → ∀ fuel rest, 2 * cs.length < fuel → Delimited rest →
    scanValue hook fuel (cs ++ rest) = some (v, rest)

/-- A text that is read as the items after the first. -/
structure ScansItems (xs : List (Json F)) (cs : List Char) : Prop where
  delimited : ∀ rest, Delimited (cs ++ rest)
  scanned : ∀ hook, KeepsDicts hook → ∀ fuel rest, 2 * cs.length < fuel →
    scanItems hook fuel (cs ++ rest) = some (xs, rest)

/-- A text that is read as the fields after the first. -/
structure ScansFields (fields : List (String × Json F)) (cs : List Char) : Prop where
  delimited : ∀ rest, Delimited (cs ++ rest)
  scanned : ∀ hook, KeepsDicts hook → ∀ fuel rest, 2 * cs.length < fuel →
    scanFields hook fuel (cs ++ rest) = some (fields, rest)

omit [FloatText F] in
lemma skipSpace_newLine (indent level : ℕ) {c : Char} (cs : List Char) (h : isJsonSpace c = false) :
    skipSpace (newLine indent level ++ c :: cs) = c :: cs := by
  have hspaces : ∀ d ∈ newLine indent level, isJsonSpace d = true := by
    intro d hd
    rcases List.mem_cons.mp hd with rfl | hd
    · rfl
    · rw [List.eq_of_mem_replicate hd]
      rfl
  rw [skipSpace, List.dropWhile_append_of_pos hspaces]
  exact skipSpace_cons h

omit [FloatText F] in
lemma delimited_newLine (indent level : ℕ) (cs : List Char) : Delimited (newLine indent level ++ cs) :=
  Delimited.cons (by decide) (by decide) (by decide) (by decide)

omit [FloatText F] in
lemma delimited_comma (cs : List Char) : Delimited (',' :: cs) :=
  Delimited.cons (by decide) (by decide) (by decide) (by decide)

lemma Scans.skipSpace {v : Json F} {cs : List Char} (h : Scans v cs) (rest : List Char) (indent level : ℕ) :
    Lib.skipSpace (newLine indent level ++ (cs ++ rest)) = cs ++ rest := by
  obtain ⟨c, tail, rfl, hspace, -⟩ := h.starts
  exact skipSpace_newLine indent level _ hspace

lemma Reads.scans {v : Json F} {cs : List Char} (h : Reads v cs) : Scans v cs := ⟨h.starts, h.scanned⟩

lemma Scans.str (s : String) : Scans (F := F) (.str s) ('"' :: literalTail s.toList) := by
  refine ⟨⟨_, _, rfl, rfl, by decide⟩, fun hook _ fuel rest hfuel _ => ?_⟩
  obtain ⟨fuel, rfl⟩ : ∃ n, fuel = n + 1 := ⟨fuel - 1, by omega⟩
  rw [List.cons_append, scanValue, scanString_literalTail]
  rfl

/-- A field is read back. -/
lemma Scans.field {hook : PairsHook F} (hhook : KeepsDicts hook) (fuel : ℕ) (key : String) {v : Json F}
    {cs rest : List Char} (h : Scans v cs) (hfuel : 2 * cs.length + 1 < fuel) (hrest : Delimited rest) :
    scanField hook fuel ('"' :: (literalTail key.toList ++ ':' :: ' ' :: (cs ++ rest))) = some ((key, v), rest) := by
  obtain ⟨c, tail, hcs, hspace, -⟩ := h.starts
  obtain ⟨fuel, rfl⟩ : ∃ n, fuel = n + 1 := ⟨fuel - 1, by omega⟩
  have hscan := h.scanned hook hhook fuel rest (by omega) hrest
  have hskip : Lib.skipSpace (' ' :: (cs ++ rest)) = cs ++ rest := by
    rw [hcs, List.cons_append, Lib.skipSpace, List.dropWhile_cons_of_pos (by decide)]
    exact skipSpace_cons hspace
  rw [scanField, scanString_literalTail]
  simp only [Option.bind_eq_bind, Option.bind_some, skipSpace_cons (show isJsonSpace ':' = false from rfl), hskip, hscan]
  rfl

lemma Scans.arr {x : Json F} {xs : List (Json F)} {cs cs' : List Char} (indent level : ℕ) (h : Scans x cs)
    (hs : ScansItems xs cs') : Scans (.arr (x :: xs)) ('[' :: newLine indent level ++ cs ++ cs') := by
  refine ⟨⟨_, _, rfl, rfl, by decide⟩, fun hook hhook fuel rest hfuel hrest => ?_⟩
  obtain ⟨fuel, rfl⟩ : ∃ n, fuel = n + 1 := ⟨fuel - 1, by omega⟩
  simp only [List.length_append, List.length_cons] at hfuel
  have hx := h.scanned hook hhook fuel (cs' ++ rest) (by omega) (hs.delimited rest)
  have hxs := hs.scanned hook hhook fuel rest (by omega)
  have hskip := h.skipSpace (cs' ++ rest) indent level
  obtain ⟨c, tail, hcs, -, hclose⟩ := h.starts
  rw [hcs] at hskip hx
  simp only [hcs, List.append_assoc, List.cons_append] at hskip hx ⊢
  rw [scanValue, hskip]
  split
  · rename_i heq
    exact absurd (List.cons.inj heq).1 hclose
  · rw [hx]
    simp only [Option.bind_eq_bind, Option.bind_some, hxs]
    rfl

lemma Scans.obj {field : String × Json F} {fields : List (String × Json F)} {cs cs' : List Char} (indent level : ℕ)
    (h : Scans field.2 cs) (hs : ScansFields fields cs') (hnodup : ((field :: fields).map Prod.fst).Nodup) :
    Scans (.obj (field :: fields))
      ('{' :: newLine indent level ++ '"' :: literalTail field.1.toList ++ ':' :: ' ' :: cs ++ cs') := by
  refine ⟨⟨_, _, rfl, rfl, by decide⟩, fun hook hhook fuel rest hfuel hrest => ?_⟩
  obtain ⟨fuel, rfl⟩ : ∃ n, fuel = n + 1 := ⟨fuel - 1, by omega⟩
  simp only [List.length_append, List.length_cons] at hfuel
  have hfield := h.field hhook fuel field.1 (by omega) (hs.delimited rest)
  have hfields := hs.scanned hook hhook fuel rest (by omega)
  simp only [List.append_assoc, List.cons_append]
  rw [scanValue, skipSpace_newLine indent level _ (show isJsonSpace '"' = false from rfl)]
  split
  · rename_i heq
    exact absurd (List.cons.inj heq).1 (by decide)
  · simp only [hfield, Option.bind_eq_bind, Option.bind_some, hfields, hhook _ hnodup]
    rfl

lemma ScansItems.nil (indent level : ℕ) : ScansItems (F := F) [] (newLine indent level ++ [']']) := by
  refine ⟨fun rest => ?_, fun hook _ fuel rest hfuel => ?_⟩
  · rw [List.append_assoc]
    exact delimited_newLine indent level _
  · obtain ⟨fuel, rfl⟩ : ∃ n, fuel = n + 1 := ⟨fuel - 1, by omega⟩
    simp only [List.append_assoc, List.singleton_append, scanItems,
      skipSpace_newLine indent level rest (show isJsonSpace ']' = false from rfl)]

lemma ScansItems.cons {x : Json F} {xs : List (Json F)} {cs cs' : List Char} (indent level : ℕ) (h : Scans x cs)
    (hs : ScansItems xs cs') : ScansItems (x :: xs) (',' :: newLine indent level ++ cs ++ cs') := by
  refine ⟨fun rest => delimited_comma _, fun hook hhook fuel rest hfuel => ?_⟩
  obtain ⟨fuel, rfl⟩ : ∃ n, fuel = n + 1 := ⟨fuel - 1, by omega⟩
  simp only [List.length_append, List.length_cons] at hfuel
  have hx := h.scanned hook hhook fuel (cs' ++ rest) (by omega) (hs.delimited rest)
  have hxs := hs.scanned hook hhook fuel rest (by omega)
  simp only [List.append_assoc, List.cons_append]
  rw [scanItems, skipSpace_cons (show isJsonSpace ',' = false from rfl)]
  simp only [h.skipSpace (cs' ++ rest) indent level, hx, Option.bind_eq_bind, Option.bind_some, hxs]
  rfl

lemma ScansFields.nil (indent level : ℕ) : ScansFields (F := F) [] (newLine indent level ++ ['}']) := by
  refine ⟨fun rest => ?_, fun hook _ fuel rest hfuel => ?_⟩
  · rw [List.append_assoc]
    exact delimited_newLine indent level _
  · obtain ⟨fuel, rfl⟩ : ∃ n, fuel = n + 1 := ⟨fuel - 1, by omega⟩
    simp only [List.append_assoc, List.singleton_append, scanFields,
      skipSpace_newLine indent level rest (show isJsonSpace '}' = false from rfl)]

lemma ScansFields.cons {field : String × Json F} {fields : List (String × Json F)} {cs cs' : List Char}
    (indent level : ℕ) (h : Scans field.2 cs) (hs : ScansFields fields cs') :
    ScansFields (field :: fields)
      (',' :: newLine indent level ++ '"' :: literalTail field.1.toList ++ ':' :: ' ' :: cs ++ cs') := by
  refine ⟨fun rest => delimited_comma _, fun hook hhook fuel rest hfuel => ?_⟩
  obtain ⟨fuel, rfl⟩ : ∃ n, fuel = n + 1 := ⟨fuel - 1, by omega⟩
  simp only [List.length_append, List.length_cons] at hfuel
  have hfield := h.field hhook fuel field.1 (by omega) (hs.delimited rest)
  have hfields := hs.scanned hook hhook fuel rest (by omega)
  simp only [List.append_assoc, List.cons_append]
  rw [scanFields, skipSpace_cons (show isJsonSpace ',' = false from rfl)]
  simp only [skipSpace_newLine indent level _ (show isJsonSpace '"' = false from rfl), hfield, Option.bind_eq_bind,
    Option.bind_some, hfields]
  rfl

/-- A value that is written as in one line is read as from one line. -/
lemma exists_scans_leaf {v : Json F} (h : v.Tidy) : ∃ cs, v.render = some cs ∧ Scans v cs := by
  obtain ⟨cs, hcs⟩ := exists_reads v h
  exact ⟨cs, hcs.written, hcs.scans⟩

variable (indent : ℕ)

mutual

/-- Every tidy value has an indented text that is read as it. -/
theorem exists_scans : ∀ (level : ℕ) (v : Json F), v.Tidy → ∃ cs, v.renderIndented indent level = some cs ∧ Scans v cs
  | _, .null, h => exists_scans_leaf h
  | _, .bool _, h => exists_scans_leaf h
  | _, .int _, h => exists_scans_leaf h
  | _, .float _, h => exists_scans_leaf h
  | _, .str s, _ => ⟨_, rfl, .str s⟩
  | _, .arr [], h => exists_scans_leaf h
  | level, .arr (x :: xs), h => by
      obtain ⟨cs, hwritten, hcs⟩ := exists_scans (level + 1) x h.1
      obtain ⟨cs', hwritten', hcs'⟩ := exists_scansItems level xs h.2
      refine ⟨_, ?_, .arr indent (level + 1) hcs hcs'⟩
      rw [Json.renderIndented, hwritten, hwritten']
      rfl
  | _, .obj [], h => exists_scans_leaf h
  | level, .obj (field :: fields), h => by
      obtain ⟨cs, hwritten, hcs⟩ := exists_scans (level + 1) field.2 h.2.1
      obtain ⟨cs', hwritten', hcs'⟩ := exists_scansFields level fields h.2.2
      refine ⟨_, ?_, .obj indent (level + 1) hcs hcs' h.1⟩
      rw [Json.renderIndented, hwritten, hwritten']
      rfl

/-- Tidy items have an indented text that is read as them. -/
theorem exists_scansItems : ∀ (level : ℕ) (xs : List (Json F)), TidyItems xs →
    ∃ cs, renderIndentedItems indent level xs = some cs ∧ ScansItems xs cs
  | level, [], _ => ⟨_, rfl, .nil indent level⟩
  | level, x :: xs, h => by
      obtain ⟨cs, hwritten, hcs⟩ := exists_scans (level + 1) x h.1
      obtain ⟨cs', hwritten', hcs'⟩ := exists_scansItems level xs h.2
      refine ⟨_, ?_, .cons indent (level + 1) hcs hcs'⟩
      rw [renderIndentedItems, hwritten, hwritten']
      rfl

/-- Fields with tidy values have an indented text that is read as them. -/
theorem exists_scansFields : ∀ (level : ℕ) (fields : List (String × Json F)), TidyFields fields →
    ∃ cs, renderIndentedFields indent level fields = some cs ∧ ScansFields fields cs
  | level, [], _ => ⟨_, rfl, .nil indent level⟩
  | level, field :: fields, h => by
      obtain ⟨cs, hwritten, hcs⟩ := exists_scans (level + 1) field.2 h.1
      obtain ⟨cs', hwritten', hcs'⟩ := exists_scansFields level fields h.2
      refine ⟨_, ?_, .cons indent (level + 1) hcs hcs'⟩
      rw [renderIndentedFields, hwritten, hwritten']
      rfl

end

/-- Dictionaries start with a brace. -/
lemma dumpsIndented_obj {field : String × Json F} {fields : List (String × Json F)} {text : String}
    (h : (Json.obj (field :: fields)).dumpsIndented indent = some text) : ∃ tail, text.toList = '{' :: tail := by
  rw [Json.dumpsIndented, Json.renderIndented] at h
  obtain ⟨cs, hcs, rfl⟩ := Option.map_eq_some_iff.mp h
  obtain ⟨head, -, hcs⟩ := Option.bind_eq_some_iff.mp hcs
  obtain ⟨tail, -, hcs⟩ := Option.bind_eq_some_iff.mp hcs
  rw [← Option.some.inj hcs, String.toList_ofList]
  exact ⟨_, rfl⟩

/-- **An indented text reads back** as the value it was written of, whatever is made of its dictionaries; spaces may
follow it. -/
theorem loadsWith_dumpsIndented {v : Json F} (h : v.Tidy) : ∃ text, v.dumpsIndented indent = some text ∧
    ∀ hook, KeepsDicts hook → ∀ spaces, (∀ c ∈ spaces, isJsonSpace c = true) →
      Json.loadsWith hook (text ++ String.ofList spaces) = some v := by
  obtain ⟨cs, hwritten, hcs⟩ := exists_scans indent 0 v h
  obtain ⟨c, tail, hstart, hspace, -⟩ := hcs.starts
  refine ⟨String.ofList cs, by rw [Json.dumpsIndented, hwritten, Option.map_some], fun hook hhook spaces hspaces => ?_⟩
  have hscan := hcs.scanned hook hhook (2 * (cs ++ spaces).length + 1) spaces
    (by rw [List.length_append]; omega) (.spaces hspaces)
  have hskip : skipSpace (cs ++ spaces) = cs ++ spaces := by rw [hstart, List.cons_append, skipSpace_cons hspace]
  have hrest : skipSpace spaces = [] := List.dropWhile_eq_nil_iff.mpr hspaces
  rw [Json.loadsWith, ← String.ofList_append, String.toList_ofList, String.length_ofList, hskip, hscan]
  simp only [Option.bind_eq_bind, Option.bind_some, hrest, if_pos]

end reading

end MuStrategy.Lib
