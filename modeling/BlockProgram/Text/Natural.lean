import BlockProgram.Text.Lower

/-!
# Natural order of labels

Labels compare by what a reader sees: a run of ASCII digits by the number it
writes, any other character without regard to case. Labels that look the same
that way compare by code points, so only equal labels tie.
-/
namespace BlockProgram.Text

/-- One unit of a label: a character with its case dropped, or a whole run of
digits. A run shows the face `0` and carries its number; no other character has
a digit in its lower case, so runs and characters stay apart. -/
structure Chunk where
  face : List Char
  value : Nat
  deriving DecidableEq, Repr

namespace Chunk

def number (n : Nat) : Chunk := ⟨['0'], n⟩

def letter (c : Char) : Chunk := ⟨lower c, 0⟩

def order : Chunk → Chunk → Ordering :=
  compareLex (compareOn face) (compareOn value)

end Chunk

def digitValue (c : Char) : Nat := c.toNat - '0'.toNat

/-- The chunks of a label; the first argument is the number of a run of digits
that has already begun. -/
def chunksFrom : Option Nat → List Char → List Chunk
  | none, [] => []
  | some n, [] => [.number n]
  | run, c :: rest =>
    if c.isDigit then chunksFrom (some (run.getD 0 * 10 + digitValue c)) rest
    else (run.map Chunk.number).toList ++ .letter c :: chunksFrom none rest

def chunks (label : String) : List Chunk := chunksFrom none label.toList

/-- By chunks first, then by code points. -/
def naturalOrder : String → String → Ordering :=
  compareLex (fun a b => List.compareLex Chunk.order (chunks a) (chunks b)) compare

def naturalLe (a b : String) : Bool := naturalOrder a b != .gt

/-- Labels in natural order; equal ones keep their places. -/
def naturalSort (labels : List String) : List String := labels.mergeSort naturalLe

end BlockProgram.Text
