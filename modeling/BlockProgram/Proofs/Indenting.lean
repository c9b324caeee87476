import BlockProgram.Text.Indent
import Mathlib.Tactic

/-!
# Texts of whole lines

A text is of whole lines if its last line is ended, or if it has none. Such a text can be
put before another without joining a line of the one to a line of the other. So the lines
of the two are the lines of the whole, and indenting them one by one is to indent the whole.

An indentation without a newline joins and breaks no lines either. A text that is indented
has the lines that it had, blank where they were blank, and can be indented again: what
counts in the end are all indentations together, the last one in front.
-/
namespace BlockProgram.Text

/-- The text is empty or ends with a newline. -/
def WholeLines (cs : List Char) : Prop := cs = [] ∨ cs.getLast? = some '\n'

variable {cs : List Char}

lemma WholeLines.nil : WholeLines [] := .inl rfl

lemma WholeLines.append {more : List Char} (h : WholeLines cs) (hmore : WholeLines more) :
    WholeLines (cs ++ more) := by
  rcases hmore with rfl | hlast
  · rwa [List.append_nil]
  · exact .inr (by rw [List.getLast?_append, hlast, Option.some_or])

lemma WholeLines.tail {c : Char} (h : WholeLines (c :: cs)) : WholeLines cs := by
  cases cs with
  | nil => exact .nil
  | cons d rest =>
    refine .inr ?_
    rw [← List.getLast?_cons_cons]
    exact h.resolve_left (List.cons_ne_nil _ _)

/-- A line that is not yet ended goes on. -/
lemma WholeLines.ne_nil {c : Char} (hc : c ≠ '\n') (h : WholeLines (c :: cs)) : cs ≠ [] := by
  rintro rfl
  rcases h with hnil | hlast
  · cases hnil
  · exact hc (Option.some.inj hlast)

lemma wholeLines_endLine (text : String) : WholeLines (endLine text).toList := by
  unfold endLine
  split
  · next hlast => exact .inr hlast
  · exact .inr (by simp)

/-! ### Lines -/

lemma lines_ne_nil (h : cs ≠ []) : lines cs ≠ [] := by
  intro hlines
  have hflat := flatten_lines cs
  rw [hlines] at hflat
  exact h hflat.symm

theorem lines_append (h : WholeLines cs) (more : List Char) :
    lines (cs ++ more) = lines cs ++ lines more := by
  induction cs with
  | nil => rfl
  | cons c rest ih =>
    have hrest := ih h.tail
    by_cases hc : c = '\n'
    · simp only [List.cons_append, lines, if_pos hc, hrest]
    · obtain ⟨line, others, hlines⟩ := List.exists_cons_of_ne_nil (lines_ne_nil (h.ne_nil hc))
      rw [hlines] at hrest
      simp only [List.cons_append, lines, if_neg hc, hrest, hlines]

/-! ### Indentation -/

lemma indentChars_append (indent : List Char) (h : WholeLines cs) (more : List Char) :
    indentChars indent (cs ++ more) = indentChars indent cs ++ indentChars indent more := by
  rw [indentChars, lines_append h, List.flatMap_append, indentChars, indentChars]

lemma toList_indentLines (code indent : String) :
    (indentLines code indent).toList = indentChars indent.toList code.toList :=
  String.toList_ofList

lemma wholeLines_join {texts : List String} (h : ∀ text ∈ texts, WholeLines text.toList) :
    WholeLines (String.join texts).toList := by
  rw [String.toList_join]
  induction texts with
  | nil => exact .nil
  | cons text rest ih =>
    rw [List.forall_mem_cons] at h
    rw [List.flatMap_cons]
    exact h.1.append (ih h.2)

/-- Texts of whole lines may be indented before or after they are joined. -/
theorem indentLines_join (indent : String) {texts : List String}
    (h : ∀ text ∈ texts, WholeLines text.toList) :
    indentLines (String.join texts) indent =
      String.join (texts.map (indentLines · indent)) := by
  rw [← String.toList_inj, toList_indentLines, String.toList_join, String.toList_join,
    List.flatMap_map]
  induction texts with
  | nil => rfl
  | cons text rest ih =>
    rw [List.forall_mem_cons] at h
    rw [List.flatMap_cons, List.flatMap_cons, indentChars_append _ h.1, ih h.2,
      toList_indentLines]

/-! ### Indenting again -/

/-- The lists of lines that texts are cut into: a newline stands at the end of a line and
nowhere else in it, only the last line may lack it, and no line is empty. -/
inductive Lined : List (List Char) → Prop
  | nil : Lined []
  | last {body : List Char} (hne : body ≠ []) (hbody : '\n' ∉ body) : Lined [body]
  | cons {body : List Char} {rest : List (List Char)} (hbody : '\n' ∉ body) (hrest : Lined rest) :
      Lined ((body ++ ['\n']) :: rest)

lemma lined_lines (cs : List Char) : Lined (lines cs) := by
  induction cs with
  | nil => exact .nil
  | cons c rest ih =>
    by_cases hc : c = '\n'
    · rw [lines, if_pos hc, hc]
      exact .cons List.not_mem_nil ih
    · have hbody {body : List Char} (h : '\n' ∉ body) : '\n' ∉ c :: body := by
        rw [List.mem_cons, not_or]
        exact ⟨Ne.symm hc, h⟩
      rw [lines, if_neg hc]
      cases hl : lines rest with
      | nil => exact .last (List.cons_ne_nil _ _) (hbody List.not_mem_nil)
      | cons line more =>
        rw [hl] at ih
        cases ih with
        | last _ h => exact .last (List.cons_ne_nil _ _) (hbody h)
        | cons h hmore => exact .cons (hbody h) hmore

/-- Characters before the first line belong to it. -/
lemma lines_append_of_not_mem {body tail line : List Char} {more : List (List Char)}
    (h : '\n' ∉ body) (htail : lines tail = line :: more) :
    lines (body ++ tail) = (body ++ line) :: more := by
  induction body with
  | nil => exact htail
  | cons c rest ih =>
    rw [List.mem_cons, not_or] at h
    rw [List.cons_append, lines, if_neg (Ne.symm h.1), ih h.2, List.cons_append]

/-- A text put together from lines is cut into these lines again. -/
lemma Lined.lines_flatten {ls : List (List Char)} (h : Lined ls) : lines ls.flatten = ls := by
  induction h with
  | nil => rfl
  | @last body hne hbody =>
    obtain ⟨front, c, rfl⟩ := (List.eq_nil_or_concat' body).resolve_left hne
    rw [List.mem_append, List.mem_singleton, not_or] at hbody
    rw [List.flatten_singleton]
    exact lines_append_of_not_mem hbody.1 (by rw [lines, if_neg (Ne.symm hbody.2), lines])
  | cons hbody _ ih =>
    rw [List.flatten_cons, List.append_assoc]
    exact lines_append_of_not_mem hbody (by rw [List.singleton_append, lines, if_pos rfl, ih])

lemma Lined.map_indentLine {indent : List Char} (hindent : '\n' ∉ indent) {ls : List (List Char)}
    (h : Lined ls) : Lined (ls.map (indentLine indent)) := by
  have hjoined {body : List Char} (hbody : '\n' ∉ body) : '\n' ∉ indent ++ body := by
    rw [List.mem_append, not_or]
    exact ⟨hindent, hbody⟩
  induction h with
  | nil => exact .nil
  | last hne hbody =>
    rw [List.map_singleton, indentLine]
    split
    · exact .last hne hbody
    · exact .last (List.append_ne_nil_of_right_ne_nil _ hne) (hjoined hbody)
  | cons hbody _ ih =>
    rw [List.map_cons, indentLine]
    split
    · exact .cons hbody ih
    · rw [← List.append_assoc]
      exact .cons (hjoined hbody) ih

/-- Without a newline of its own, the indentation leaves the lines where they are. -/
theorem lines_indentChars {indent : List Char} (h : '\n' ∉ indent) (cs : List Char) :
    lines (indentChars indent cs) = (lines cs).map (indentLine indent) := by
  rw [indentChars, List.flatMap_def]
  exact ((lined_lines cs).map_indentLine h).lines_flatten

/-- An indented line is blank just when it was. -/
lemma indentLine_indentLine (inner outer line : List Char) :
    indentLine outer (indentLine inner line) = indentLine (outer ++ inner) line := by
  cases hblank : line.all isBlank with
  | true => simp [indentLine, hblank]
  | false => simp [indentLine, hblank]

lemma indentLines_indentLines (code : String) {inner : String} (h : '\n' ∉ inner.toList)
    (outer : String) :
    indentLines (indentLines code inner) outer = indentLines code (outer ++ inner) := by
  rw [← String.toList_inj]
  simp only [toList_indentLines, String.toList_append]
  rw [indentChars, lines_indentChars h, List.flatMap_map, indentChars]
  simp only [indentLine_indentLine]

lemma not_mem_copies {indent : String} (h : '\n' ∉ indent.toList) (d : Nat) :
    '\n' ∉ (String.join (List.replicate d indent)).toList := by
  rw [String.toList_join, List.mem_flatMap]
  rintro ⟨text, htext, hmem⟩
  rw [List.eq_of_mem_replicate htext] at hmem
  exact h hmem

lemma indentLines_empty (code : String) : indentLines code "" = code := by
  have hline : indentLine [] = id := funext fun line => by simp [indentLine]
  rw [← String.toList_inj, toList_indentLines, String.toList_empty, indentChars, hline,
    List.flatMap_id, flatten_lines]

/-- To indent several times is to indent once by as many copies. -/
lemma iterate_indentLines (code : String) {indent : String} (h : '\n' ∉ indent.toList) (d : Nat) :
    (indentLines · indent)^[d] code = indentLines code (String.join (List.replicate d indent)) := by
  induction d with
  | zero => rw [Function.iterate_zero_apply, List.replicate_zero, String.join_nil, indentLines_empty]
  | succ d ih =>
    rw [Function.iterate_succ_apply', ih, indentLines_indentLines code (not_mem_copies h d),
      List.replicate_succ, String.join_cons]

/-- Indentation composes if the inner one has no newline. Indented any number of times, a text
has the lines that it had, the blank ones as they were and each other one behind as many copies
of the indentation. -/
theorem indentation_composes (code : String) {inner : String} (h : '\n' ∉ inner.toList) :
    (∀ outer, indentLines (indentLines code inner) outer = indentLines code (outer ++ inner)) ∧
    ∀ d, (indentLines · inner)^[d] code =
        indentLines code (String.join (List.replicate d inner)) ∧
      lines ((indentLines · inner)^[d] code).toList = (lines code.toList).map fun line =>
        if line.all isBlank then line
        else (String.join (List.replicate d inner)).toList ++ line := by
  refine ⟨indentLines_indentLines code h, fun d => ⟨iterate_indentLines code h d, ?_⟩⟩
  rw [iterate_indentLines code h d, toList_indentLines, lines_indentChars (not_mem_copies h d)]
  rfl

/-- The second line is blank, but not empty, the third is empty, and the last one is not ended. -/
theorem ragged_text_indented :
    '\n' ∉ "\t".toList ∧
      indentLines (indentLines "a;\n \u3000\n\n  b;" "\t") "\n>" =
        "\n>\ta;\n \u3000\n\n\n>\t  b;" ∧
      (indentLines · "\t")^[3] "a;\n \u3000\n\n  b;" = "\t\t\ta;\n \u3000\n\n\t\t\t  b;" := by
  have htab : '\n' ∉ "\t".toList := by decide
  obtain ⟨hagain, htimes⟩ := indentation_composes "a;\n \u3000\n\n  b;" htab
  refine ⟨htab, ?_, ?_⟩
  · rw [hagain]
    decide +kernel
  · rw [(htimes 3).1]
    decide +kernel

end BlockProgram.Text
