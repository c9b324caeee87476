/-!
# Marked names in text

A marker is an opening, a name and a closing character, such as `$[name]`.
`Marker.scan` cuts a text into plain characters and marked names, from the left
and without overlap. Every reader of marked names goes through the scan, so two
of them cannot disagree on where a name stands.
-/
namespace BlockProgram.Text

/-- How a marked name is written: `opening`, a character of the class `first`,
any number of the class `inner`, then `closing`. -/
structure Marker where
  opening : List Char
  first : Char → Bool
  inner : Char → Bool
  closing : Char

inductive Piece where
  | char (c : Char)
  | mark (name : String)
  deriving DecidableEq, Repr

/-- What follows `opening` in `cs`, when `cs` starts with it. -/
def after? : List Char → List Char → Option (List Char)
  | [], cs => some cs
  | _ :: _, [] => none
  | p :: ps, c :: cs => if p = c then after? ps cs else none

theorem after?_length {ps cs rest : List Char} (h : after? ps cs = some rest) :
    rest.length + ps.length = cs.length := by
  induction ps generalizing cs with
  | nil => simp_all [after?]
  | cons p ps ih =>
    cases cs with
    | nil => simp [after?] at h
    | cons c cs =>
      by_cases hpc : p = c
      · have := ih (by simpa [after?, hpc] using h)
        simp only [List.length_cons]
        omega
      · simp [after?, hpc] at h

namespace Marker

/-- The marked name that `cs` starts with, and what follows it. -/
def match? (m : Marker) (cs : List Char) : Option (List Char × List Char) :=
  match after? m.opening cs with
  | some (c :: rest) =>
    if m.first c then
      match rest.dropWhile m.inner with
      | d :: tail => if d = m.closing then some (c :: rest.takeWhile m.inner, tail) else none
      | [] => none
    else none
  | _ => none

theorem match?_length {m : Marker} {cs name tail : List Char}
    (h : m.match? cs = some (name, tail)) : tail.length < cs.length := by
  unfold match? at h
  split at h
  · next c rest hafter =>
    have hlen := after?_length hafter
    split at h
    · split at h
      · next d tl hdrop =>
        split at h
        · simp only [Option.some.injEq, Prod.mk.injEq] at h
          have hle : (rest.dropWhile m.inner).length ≤ rest.length :=
            (List.dropWhile_sublist m.inner).length_le
          rw [hdrop] at hle
          obtain ⟨_, rfl⟩ := h
          simp only [List.length_cons] at hlen hle
          omega
        · simp at h
      · simp at h
    · simp at h
  · simp at h

/-- The text cut into marked names and the characters outside of them. -/
def scan (m : Marker) (cs : List Char) : List Piece :=
  match cs with
  | [] => []
  | c :: rest =>
    match _h : m.match? (c :: rest) with
    | some (name, tail) => .mark (String.ofList name) :: m.scan tail
    | none => .char c :: m.scan rest
termination_by cs.length
decreasing_by
  · exact match?_length _h
  · simp

/-- A name as it is written. -/
def literal (m : Marker) (name : String) : List Char :=
  m.opening ++ name.toList ++ [m.closing]

/-- The names of a scanned text, from left to right. -/
def names (pieces : List Piece) : List String :=
  pieces.filterMap fun
    | .char _ => none
    | .mark name => some name

/-- The text with each marked name replaced by what `fill` gives for it; a name
that `fill` does not know stays as it is written. Replacements are not scanned
again. -/
def fill (m : Marker) (values : String → Option String) (pieces : List Piece) : List Char :=
  pieces.flatMap fun
    | .char c => [c]
    | .mark name => match values name with
      | some value => value.toList
      | none => m.literal name

/-- Some name of the text has a value. -/
def fills (values : String → Option String) (pieces : List Piece) : Bool :=
  (names pieces).any fun name => (values name).isSome

end Marker

end BlockProgram.Text
