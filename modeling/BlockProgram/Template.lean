import BlockProgram.Library.Definition
import BlockProgram.Table
import BlockProgram.Text.Blank
import BlockProgram.Text.Marker

/-!
# Templates

A template is text with placeholders `$[name]`. Messages of blocks and their
code are templates.
-/
namespace BlockProgram.Template

open Text

def placeholder : Marker where
  opening := ['$', '[']
  first := isNameStart
  inner := isNameChar
  closing := ']'

def pieces (text : String) : List Piece := placeholder.scan text.toList

/-- The placeholder names, from left to right; a repeated one is listed again. -/
def placeholders (text : String) : List String := Marker.names (pieces text)

def mentions (text name : String) : Bool := (placeholders text).contains name

/-- The text with every placeholder that has a value replaced by it. -/
def expand (text : String) (values : String → Option String) : String :=
  String.ofList (placeholder.fill values (pieces text))

/-- The fragment of an argument; other names have no value, even if there is a fragment. -/
def argumentValue? (args : List Argument) (fragments : Table String) (name : String) :
    Option String :=
  if args.any (·.name == name) then fragments.get? name else none

end BlockProgram.Template
