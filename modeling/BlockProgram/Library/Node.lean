import BlockProgram.Library.Refusal
import BlockProgram.Text.Blank

/-!
# Nodes of a document

An object inside a document together with its path. Members are asked for by
key and type; where a member may be left out, `null` counts as left out.
-/
namespace BlockProgram

structure Node where
  path : Path
  members : List (String × Json)

/-- The string that a value is. -/
def Json.asText (path : Path) : Json → Checked String
  | .string s => .ok s
  | j => refuse path (.expected "a string" j.kind)

/-- The items of an array. -/
def Json.asItems (path : Path) : Json → Checked (List Json)
  | .array items => .ok items
  | j => refuse path (.expected "an array" j.kind)

namespace Node

def ofJson (path : Path) : Json → Checked Node
  | .object members => .ok ⟨path, members⟩
  | j => BlockProgram.refuse path (.expected "an object" j.kind)

/-- The member at a key, also when it is `null`. -/
def member? (n : Node) (key : String) : Option Json := n.members.lookup key

/-- The member at a key, unless it is `null`. -/
def given? (n : Node) (key : String) : Option Json :=
  match n.member? key with
  | some .null => none
  | j => j

def refuse {α : Type} (n : Node) (key : String) (reason : Reason) : Checked α :=
  BlockProgram.refuse (n.path.key key) reason

/-- Refuses the first member under any other key. -/
def only (n : Node) (keys : List String) : Checked Unit :=
  match n.members.find? fun m => !keys.contains m.1 with
  | some m => n.refuse m.1 .unknown
  | none => .ok ()

/-- A string that must be there. -/
def text (n : Node) (key : String) : Checked String :=
  match n.member? key with
  | some j => j.asText (n.path.key key)
  | none => n.refuse key .missing

/-- A non-empty string without blanks. -/
def word (n : Node) (key : String) : Checked String := do
  let s ← n.text key
  if Text.isWord s then return s else n.refuse key (.notWord s)

def text? (n : Node) (key : String) : Checked (Option String) :=
  match n.given? key with
  | none => .ok none
  | some j => (j.asText (n.path.key key)).map some

def flag? (n : Node) (key : String) : Checked (Option Bool) :=
  match n.given? key with
  | none => .ok none
  | some (.bool b) => .ok (some b)
  | some j => n.refuse key (.expected "a boolean" j.kind)

/-- A flag that is off unless it is given. -/
def flag (n : Node) (key : String) : Checked Bool := do
  return (← n.flag? key).getD false

/-- An integer of 64 bits. -/
def int? (n : Node) (key : String) : Checked (Option Int) :=
  match n.given? key with
  | none => .ok none
  | some (.number m) => match m.toIntIn? (-0x8000000000000000) 0x7FFFFFFFFFFFFFFF with
    | some i => .ok (some i)
    | none => n.refuse key (.expected "an integer" .number)
  | some j => n.refuse key (.expected "an integer" j.kind)

def float? (n : Node) (key : String) : Checked (Option Float) :=
  match n.given? key with
  | none => .ok none
  | some (.number m) => .ok (some m.toFloat)
  | some j => n.refuse key (.expected "a number" j.kind)

/-- The items of an array, none when it is left out. -/
def items (n : Node) (key : String) : Checked (List Json) :=
  match n.given? key with
  | none => .ok []
  | some j => j.asItems (n.path.key key)

end Node

end BlockProgram
