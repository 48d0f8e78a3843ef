import Mathlib.Data.List.Basic

/-!
# Dot stuffing

A text is sent as lines, and a line with a single dot ends it: so every line that starts with a dot is sent with one
more, and the receiver takes it away.

* `stuff`, `frame` — what is sent for a text.
* `readText` — what a receiver reads, and what it leaves.
* `readText_frame` — it reads the text, and leaves nothing.
-/

namespace MuStrategy.Lib

/-- A carriage return. -/
def cr : UInt8 := 13

/-- A line feed. -/
def lf : UInt8 := 10

/-- A dot. -/
def dot : UInt8 := 46

/-- The end of a line. -/
def crlf : List UInt8 := [cr, lf]

/-! ## Sending -/

/-- `re.sub(br"(?m)^\.", b"..", text)`, where `start` says whether the text begins a line. -/
def stuff (start : Bool) : List UInt8 → List UInt8
  | [] => []
  | byte :: bytes => (if start && byte = dot then [dot, dot] else [byte]) ++ stuff (byte = lf) bytes

/-- The text with its dots doubled and its last line ended, and the line that ends it. -/
def frame (text : List UInt8) : List UInt8 :=
  let payload := stuff true text
  (if crlf.isSuffixOf payload then payload else payload ++ crlf) ++ dot :: crlf

/-! ## Receiving -/

/-- The bytes up to the first end of a line, and those behind it. -/
def cutLine : List UInt8 → Option (List UInt8 × List UInt8)
  | [] => none
  | byte :: bytes =>
      if byte = cr ∧ bytes.head? = some lf then some ([], bytes.tail)
      else (cutLine bytes).map fun (line, rest) => (byte :: line, rest)

/-- A line without the dot that was added to it. -/
def unstuffLine (line : List UInt8) : List UInt8 := if line.head? = some dot then line.tail else line

/-- The lines up to the first line with a single dot, and the bytes behind it. The line end in front of that dot is the
end of the last line. -/
def readLines : ℕ → List UInt8 → Option (List UInt8 × List UInt8)
  | 0, _ => none
  | fuel + 1, bytes => do
      let (line, rest) ← cutLine bytes
      if line = [dot] then some ([], rest)
      else
        let (text, rest) ← readLines fuel rest
        some (unstuffLine line ++ crlf ++ text, rest)

/-- What a receiver reads of the bytes, and what it leaves. -/
def readText (bytes : List UInt8) : Option (List UInt8 × List UInt8) := readLines bytes.length bytes

/-! ## Lines -/

/-- A line as it is sent. -/
def stuffLine (line : List UInt8) : List UInt8 := if line.head? = some dot then dot :: line else line

/-- No part of an end of a line. -/
def IsLine (line : List UInt8) : Prop := cr ∉ line ∧ lf ∉ line

/-- Lines, each with its end. -/
def endLines (lines : List (List UInt8)) : List UInt8 := lines.flatMap fun line => line ++ crlf

/-- Lines with line ends between them. -/
def joinLines : List (List UInt8) → List UInt8
  | [] => []
  | [line] => line
  | line :: lines => line ++ crlf ++ joinLines lines

@[simp] lemma endLines_cons (line : List UInt8) (lines : List (List UInt8)) :
    endLines (line :: lines) = line ++ crlf ++ endLines lines := rfl

lemma joinLines_concat (lines : List (List UInt8)) (last : List UInt8) :
    joinLines (lines ++ [last]) = endLines lines ++ last := by
  induction lines with
  | nil => rfl
  | cons line lines ih =>
      have hcons : joinLines (line :: (lines ++ [last])) = line ++ crlf ++ joinLines (lines ++ [last]) := by
        cases lines <;> rfl
      rw [List.cons_append, hcons, ih, endLines_cons, List.append_assoc, List.append_assoc, List.append_assoc]

lemma isLine_stuffLine {line : List UInt8} (h : IsLine line) : IsLine (stuffLine line) := by
  unfold stuffLine
  split
  · refine ⟨fun hmem => ?_, fun hmem => ?_⟩
    · rcases List.mem_cons.mp hmem with heq | hmem
      · exact absurd heq (by decide)
      · exact h.1 hmem
    · rcases List.mem_cons.mp hmem with heq | hmem
      · exact absurd heq (by decide)
      · exact h.2 hmem
  · exact h

lemma unstuffLine_stuffLine (line : List UInt8) : unstuffLine (stuffLine line) = line := by
  unfold stuffLine
  split
  · rfl
  · rename_i hdot
    exact if_neg hdot

/-- No line of a text is taken for the one that ends it. -/
lemma stuffLine_ne_dot (line : List UInt8) : stuffLine line ≠ [dot] := by
  unfold stuffLine
  split
  · rename_i hdot
    intro heq
    rw [List.cons.injEq] at heq
    rw [heq.2] at hdot
    cases hdot
  · rename_i hdot
    rintro rfl
    exact hdot rfl

lemma stuffLine_cons (byte : UInt8) (line : List UInt8) :
    stuffLine (byte :: line) = (if byte = dot then [dot, dot] else [byte]) ++ line := by
  by_cases hdot : byte = dot
  · rw [if_pos hdot, stuffLine, if_pos (show (byte :: line).head? = some dot from congrArg some hdot), hdot]
    rfl
  · rw [if_neg hdot, stuffLine, if_neg fun heq : (byte :: line).head? = some dot => hdot (Option.some.inj heq)]
    rfl

/-- Within a line nothing is doubled. -/
lemma stuff_inner {line : List UInt8} (h : lf ∉ line) (rest : List UInt8) :
    stuff false (line ++ rest) = line ++ stuff false rest := by
  induction line with
  | nil => rfl
  | cons byte line ih =>
      rw [List.mem_cons, not_or] at h
      rw [List.cons_append, stuff, Bool.false_and, if_neg Bool.false_ne_true, decide_eq_false (Ne.symm h.1), ih h.2]
      rfl

/-- The start of a line, and what follows on it. -/
lemma stuff_line {line : List UInt8} (h : lf ∉ line) (rest : List UInt8) :
    stuff true (line ++ rest) = stuffLine line ++ stuff line.isEmpty rest := by
  cases line with
  | nil => rfl
  | cons byte line =>
      rw [List.mem_cons, not_or] at h
      rw [List.cons_append, stuff, Bool.true_and, decide_eq_false (Ne.symm h.1), stuff_inner h.2, stuffLine_cons,
        List.append_assoc]
      by_cases hdot : byte = dot
      · rw [decide_eq_true hdot, if_pos rfl, if_pos hdot]
        rfl
      · rw [decide_eq_false hdot, if_neg Bool.false_ne_true, if_neg hdot]
        rfl

lemma stuff_crlf (start : Bool) (rest : List UInt8) : stuff start (crlf ++ rest) = crlf ++ stuff true rest := by
  cases start <;> rfl

lemma stuff_endLines {lines : List (List UInt8)} (h : ∀ line ∈ lines, IsLine line) (rest : List UInt8) :
    stuff true (endLines lines ++ rest) = endLines (lines.map stuffLine) ++ stuff true rest := by
  induction lines with
  | nil => rfl
  | cons line lines ih =>
      rw [endLines_cons, List.append_assoc, List.append_assoc, stuff_line (h line List.mem_cons_self).2, stuff_crlf,
        ih fun line hline => h line (List.mem_cons_of_mem _ hline), List.map_cons, endLines_cons, List.append_assoc,
        List.append_assoc]

/-- The last line of a text, when it has no end. -/
lemma stuff_last {line : List UInt8} (h : IsLine line) : stuff true line = stuffLine line := by
  have hline := stuff_line h.2 []
  rwa [List.append_nil, stuff, List.append_nil] at hline

/-! ## What is read -/

lemma cutLine_line {line : List UInt8} (h : IsLine line) (rest : List UInt8) :
    cutLine (line ++ crlf ++ rest) = some (line, rest) := by
  induction line with
  | nil => rfl
  | cons byte line ih =>
      have hcr := h.1
      have hlf := h.2
      rw [List.mem_cons, not_or] at hcr hlf
      rw [List.cons_append, List.cons_append, cutLine, if_neg fun hend => hcr.1 hend.1.symm, ih ⟨hcr.2, hlf.2⟩]
      rfl

lemma readLines_endLines {lines : List (List UInt8)} (h : ∀ line ∈ lines, IsLine line) (fuel : ℕ)
    (hfuel : lines.length < fuel) (rest : List UInt8) :
    readLines fuel (endLines (lines.map stuffLine) ++ (dot :: crlf ++ rest)) = some (endLines lines, rest) := by
  induction lines generalizing fuel with
  | nil =>
      obtain ⟨fuel, rfl⟩ : ∃ n, fuel = n + 1 := ⟨fuel - 1, by omega⟩
      rfl
  | cons line lines ih =>
      rw [List.length_cons] at hfuel
      obtain ⟨fuel, rfl⟩ : ∃ n, fuel = n + 1 := ⟨fuel - 1, by omega⟩
      have hrest := ih (fun line hline => h line (List.mem_cons_of_mem _ hline)) fuel (by omega)
      have hsplit : endLines ((line :: lines).map stuffLine) ++ (dot :: crlf ++ rest) =
          stuffLine line ++ crlf ++ (endLines (lines.map stuffLine) ++ (dot :: crlf ++ rest)) := by
        rw [List.map_cons, endLines_cons, List.append_assoc]
      rw [hsplit, readLines, cutLine_line (isLine_stuffLine (h line List.mem_cons_self))]
      simp only [Option.bind_eq_bind, Option.bind_some, if_neg (stuffLine_ne_dot line), hrest, unstuffLine_stuffLine]
      rfl

lemma length_le_endLines (lines : List (List UInt8)) : lines.length ≤ (endLines lines).length := by
  induction lines with
  | nil => exact Nat.zero_le _
  | cons line lines ih =>
      rw [endLines_cons, List.length_append, List.length_append, List.length_cons]
      have hend : crlf.length = 2 := rfl
      omega

lemma endLines_concat (lines : List (List UInt8)) (last : List UInt8) :
    endLines (lines ++ [last]) = endLines lines ++ last ++ crlf := by
  rw [endLines, List.flatMap_append, ← endLines, List.flatMap_singleton, List.append_assoc]

/-- A text ends with the end of a line only if nothing follows its last one. -/
lemma ends_iff {lines : List (List UInt8)} {last : List UInt8} (h : IsLine last) :
    crlf.isSuffixOf (endLines lines ++ last) = true ↔ last = [] ∧ lines ≠ [] := by
  rw [List.isSuffixOf_iff_suffix]
  constructor
  · intro hsuffix
    have hlast : last = [] := by
      by_contra hne
      have hmem : lf ∈ last := by
        have hget : (endLines lines ++ last).getLast? = some lf := by
          obtain ⟨front, hfront⟩ := hsuffix
          rw [← hfront]
          exact List.getLast?_append_of_ne_nil front (List.cons_ne_nil cr [lf])
        rw [List.getLast?_append_of_ne_nil _ hne] at hget
        exact List.mem_of_getLast? hget
      exact h.2 hmem
    refine ⟨hlast, ?_⟩
    rintro rfl
    rw [hlast] at hsuffix
    exact absurd hsuffix (by decide)
  · rintro ⟨rfl, hne⟩
    rcases List.eq_nil_or_concat lines with rfl | ⟨front, line, rfl⟩
    · exact absurd rfl hne
    · rw [List.concat_eq_append, endLines_concat, List.append_nil]
      exact ⟨_, rfl⟩

lemma stuffLine_eq_nil {line : List UInt8} : stuffLine line = [] ↔ line = [] := by
  cases line with
  | nil => exact Iff.rfl
  | cons byte line =>
      rw [stuffLine_cons]
      split <;> simp

lemma readText_endLines {lines : List (List UInt8)} (h : ∀ line ∈ lines, IsLine line) :
    readText (endLines (lines.map stuffLine) ++ dot :: crlf) = some (endLines lines, []) := by
  have hread := readLines_endLines h (endLines (lines.map stuffLine) ++ dot :: crlf).length ?_ []
  · rw [List.append_nil] at hread
    exact hread
  · have hlength := length_le_endLines (lines.map stuffLine)
    rw [List.length_map] at hlength
    rw [List.length_append, List.length_cons]
    omega

/-- **A text that is sent is read**, with an end of its last line, and nothing is left over. -/
theorem readText_frame {lines : List (List UInt8)} (hne : lines ≠ []) (h : ∀ line ∈ lines, IsLine line) :
    readText (frame (joinLines lines)) =
      some (if crlf.isSuffixOf (joinLines lines) then joinLines lines else joinLines lines ++ crlf, []) := by
  rcases List.eq_nil_or_concat lines with rfl | ⟨front, last, rfl⟩
  · exact absurd rfl hne
  rw [List.concat_eq_append] at h ⊢
  have hfront : ∀ line ∈ front, IsLine line := fun line hline => h line (List.mem_append_left _ hline)
  have hlast : IsLine last := h last (List.mem_append_right _ List.mem_cons_self)
  have hstuffed : stuff true (endLines front ++ last) = endLines (front.map stuffLine) ++ stuffLine last := by
    rw [stuff_endLines hfront, stuff_last hlast]
  have hends : crlf.isSuffixOf (endLines (front.map stuffLine) ++ stuffLine last) =
      crlf.isSuffixOf (endLines front ++ last) := by
    rw [Bool.eq_iff_iff, ends_iff hlast, ends_iff (isLine_stuffLine hlast), stuffLine_eq_nil, ne_eq, ne_eq,
      List.map_eq_nil_iff]
  rw [joinLines_concat, frame, hstuffed, hends]
  split
  · rename_i hended
    obtain ⟨rfl, -⟩ := (ends_iff hlast).mp hended
    have hnil : stuffLine [] = [] := rfl
    rw [hnil, List.append_nil, List.append_nil, readText_endLines hfront]
  · have hread := readText_endLines h
    rw [List.map_append, List.map_singleton, endLines_concat, endLines_concat] at hread
    exact hread

end MuStrategy.Lib
