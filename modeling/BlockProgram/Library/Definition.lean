import BlockProgram.Json.Basic
import BlockProgram.Precedence

/-!
# Block definitions

What a library says about a block type: how it looks, what it plugs into, the
code it stands for, and whether its blocks construct instances that other blocks
refer to by name.
-/
namespace BlockProgram

/-- An entry of a dropdown: what is shown, and what is stored. -/
structure Choice where
  label : String
  value : String
  deriving DecidableEq, Repr

inductive ArgumentKind where
  | text (initial : String)
  | number (initial : Float) (least most : Option Float)
  | checkbox (checked : Bool)
  | choice (choices : List Choice)
  /-- A dropdown over the instances of a system. -/
  | instances (system : String)
  | value (check : Option String) (order : Precedence)
  | statement (check : Option String)

/-- A field or an input of a block. -/
structure Argument where
  name : String
  kind : ArgumentKind

def ArgumentKind.isText : ArgumentKind → Bool
  | .text _ => true
  | _ => false

/-- An instance that every block of a type provides beside its own: part `name`
of it, an instance of the system `instanceOf`, reached by the code `connection`. -/
structure Virtual where
  instanceOf : String
  name : String
  connection : String
  deriving DecidableEq, Repr

/-- Blocks of the type construct instances of `system`. Their names stand in the
field `nameField` and are `stem` followed by a number unless the user writes
another. -/
structure Constructor where
  system : String
  stem : String
  nameField : String
  virtuals : List Virtual
  deriving DecidableEq, Repr

/-- The output of a value block, with the type it is checked against. -/
structure Output where
  check : Option String
  deriving DecidableEq, Repr

inductive Style where
  | colour (text : String)
  | named (name : String)
  deriving DecidableEq, Repr

inductive BlockKind where
  | root
  | statement
  | value
  deriving DecidableEq, Repr

structure Definition where
  type : String
  message : String := ""
  args : List Argument := []
  code : Option String := none
  previous : Bool := false
  next : Bool := false
  output : Option Output := none
  order : Precedence := .atomic
  programStart : Bool := false
  constructs : Option Constructor := none
  hidden : Bool := false
  tooltip : Option String := none
  helpUrl : Option String := none
  style : Option Style := none
  inputsInline : Option Bool := none
  /-- Members that mean nothing here and are handed on to the editor. -/
  extra : List (String × Json) := []

namespace Definition

/-- A block with an output is a value, one that follows another a statement. -/
def kind (d : Definition) : BlockKind :=
  if d.output.isSome then .value else if d.previous then .statement else .root

def argument? (d : Definition) (name : String) : Option Argument :=
  d.args.find? (·.name == name)

/-- The dropdowns over instances, with their systems. -/
def instanceFields (d : Definition) : List (String × String) :=
  d.args.filterMap fun a => match a.kind with
    | .instances system => some (a.name, system)
    | _ => none

end Definition

/-- An entry of a library. -/
inductive Item where
  | block (definition : Definition)
  | label (text : String)
  | separator (gap : Option Nat)

/-- What a category shows: its own entries, or something the editor fills in. -/
inductive Body where
  | contents (items : List Item)
  | custom (name : String)

/-- A library: the blocks of one category. -/
structure Document where
  source : String
  category : String
  name : String
  description : Option String
  docsUrl : Option String
  style : Option Style
  imports : List String
  priority : Option Int
  parent : Option String
  body : Body

def Item.block? : Item → Option Definition
  | .block d => some d
  | _ => none

def Body.items : Body → List Item
  | .contents items => items
  | .custom _ => []

def Document.blocks (d : Document) : List Definition := d.body.items.filterMap Item.block?

end BlockProgram
