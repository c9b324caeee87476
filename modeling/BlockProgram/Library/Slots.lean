import BlockProgram.Library.Definition
import BlockProgram.Template

/-!
# Slots of a block

In the editor the parts of a message are numbered: the first placeholder that
names an argument becomes slot `%1`, the next `%2`, and so on. Arguments that the
message leaves out get the slots after it.
-/
namespace BlockProgram

open Text

/-- The message with numbered slots, and the argument in each. -/
structure Slots where
  message : String
  args : List Argument

namespace Slots

def slot (n : Nat) : List Char := '%' :: (toString n).toList

/-- The pieces of a message, when the slots in `taken` have been given away. -/
def place (args : List Argument) : List Argument → List Piece → List Char × List Argument
  | taken, [] => ([], taken)
  | taken, .char c :: rest =>
    let (text, all) := place args taken rest
    (c :: text, all)
  | taken, .mark name :: rest =>
    match args.find? (·.name == name) with
    | some a =>
      if taken.any (·.name == name) then
        let (text, all) := place args taken rest
        (Template.placeholder.literal name ++ text, all)
      else
        let (text, all) := place args (taken ++ [a]) rest
        (slot (taken.length + 1) ++ text, all)
    | none =>
      let (text, all) := place args taken rest
      (Template.placeholder.literal name ++ text, all)

/-- Slots for the arguments that have none, after the text. -/
def append : List Argument → List Char × List Argument → List Char × List Argument
  | [], r => r
  | a :: rest, (text, taken) =>
    if taken.any (·.name == a.name) then append rest (text, taken)
    else
      let gap := if text.isEmpty then [] else [' ']
      append rest (text ++ gap ++ slot (taken.length + 1), taken ++ [a])

def ofMessage (message : String) (args : List Argument) : Slots :=
  let (text, taken) := append args (place args [] (Template.pieces message))
  ⟨String.ofList text, taken⟩

end Slots

end BlockProgram
