import BlockProgram.Text.Blank

/-!
# Indentation

A text is cut after each newline. Indenting puts the same characters in front
of every line that holds a non-blank character and leaves the others alone, so
the text is never broken differently.
-/
namespace BlockProgram.Text

/-- The lines of a text, each with its newline; the last one may lack it. -/
def lines : List Char → List (List Char)
  | [] => []
  | c :: rest =>
    if c = '\n' then [c] :: lines rest
    else match lines rest with
      | [] => [[c]]
      | line :: more => (c :: line) :: more

@[simp] theorem lines_nil : lines [] = [] := rfl

/-- Cutting loses nothing. -/
@[simp] theorem flatten_lines (cs : List Char) : (lines cs).flatten = cs := by
  induction cs with
  | nil => rfl
  | cons c rest ih =>
    by_cases h : c = '\n'
    · simp [lines, h, ih]
    · cases hl : lines rest with
      | nil =>
        rw [hl] at ih
        simp [lines, h, ← ih]
      | cons line more =>
        rw [hl] at ih
        simpa [lines, h, hl] using ih

/-- A line is indented unless it is blank throughout. -/
def indentLine (indent line : List Char) : List Char :=
  if line.all isBlank then line else indent ++ line

def indentChars (indent cs : List Char) : List Char :=
  (lines cs).flatMap (indentLine indent)

/-- Puts `indent` in front of every line of `code` that is not blank. -/
def indentLines (code indent : String) : String :=
  String.ofList (indentChars indent.toList code.toList)

/-- The text with a newline at its end, added only if there is none. -/
def endLine (code : String) : String :=
  if code.toList.getLast? = some '\n' then code else code ++ "\n"

end BlockProgram.Text
