import BlockProgram.Failure
import BlockProgram.Json.Reader
import BlockProgram.Table
import BlockProgram.Text.Blank
import BlockProgram.Text.Marker

/-!
# Message catalogues

Texts that a user sees may refer to a catalogue by `%{BKY_KEY}`. A text of the
catalogue may refer to others in turn, up to four deep.
-/
namespace BlockProgram

open Text

structure Catalog where
  texts : Table String := {}

namespace Catalog

def reference : Marker where
  opening := ['%', '\x7b', 'B', 'K', 'Y', '_']
  first := isNameChar
  inner := isNameChar
  closing := '\x7d'

/-- How deep references may lie. -/
def maxDepth : Nat := 4

def get? (c : Catalog) (key : String) : Option String := c.texts.get? key

/-- One pass: every reference that the catalogue knows is replaced. -/
def pass (c : Catalog) (text : List Char) : List Char :=
  reference.fill c.get? (reference.scan text)

/-- Passes until the text has no reference, or a pass has found none that the
catalogue knows; at most as many as given. -/
def resolveWithin (c : Catalog) : Nat → List Char → List Char
  | 0, text => text
  | n + 1, text =>
    let pieces := reference.scan text
    if (Marker.names pieces).isEmpty then text
    else if Marker.fills c.get? pieces then c.resolveWithin n (c.pass text)
    else c.pass text

/-- The text with its references replaced; unknown ones stay as written. -/
def resolve (c : Catalog) (text : String) : String :=
  String.ofList (c.resolveWithin maxDepth text.toList)

/-! ### Documents -/

/-- The members that hold text for the user. -/
def displayKeys : List String := ["name", "description", "tooltip", "message", "text"]

/-- An entry of a dropdown, which starts with its label. -/
def localizeChoice (c : Catalog) : Json → Json
  | .array (.string label :: rest) => .array (.string (c.resolve label) :: rest)
  | j => j

mutual

/-- The document with the texts for the user resolved. -/
def localize (c : Catalog) : Json → Json
  | .object members => .object (localizeMembers c members)
  | .array items => .array (localizeItems c items)
  | .null => .null
  | .bool b => .bool b
  | .number n => .number n
  | .string s => .string s

def localizeItems (c : Catalog) : List Json → List Json
  | [] => []
  | j :: rest => localize c j :: localizeItems c rest

def localizeMembers (c : Catalog) : List (String × Json) → List (String × Json)
  | [] => []
  | (key, .string s) :: rest =>
    (key, .string (if displayKeys.contains key then c.resolve s else s)) ::
      localizeMembers c rest
  | (key, .array items) :: rest =>
    (key, .array (if key = "options" then items.map c.localizeChoice
      else localizeItems c items)) :: localizeMembers c rest
  | (key, j) :: rest => (key, localize c j) :: localizeMembers c rest

end

/-! ### Reading -/

open Json

/-- A text under a key; a repeated key keeps the last. -/
def member (known : Table String) (key : String) : Reader (Table String) := fun s => do
  let s ← colon s
  let (value, s) ← text s
  return (known.insert key value, s)

def read : Reader Catalog := fun s =>
  match skipSpace s with
  | [] => stop .endOfValue []
  | '\x7b' :: rest => do
    let (texts, s) ← members member (rest.length + 1) true {} rest
    return (⟨texts⟩, s)
  | s => mistyped "a map" s

/-- The catalogue that a text writes. -/
def ofText (s : String) : Except Failure Catalog := readText "messages" (readAll read) s

end Catalog

end BlockProgram
