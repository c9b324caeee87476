import BlockProgram.Library.Definition
import BlockProgram.Library.Node
import BlockProgram.Template

/-!
# Reading libraries

From JSON to definitions and documents. Checks run in a fixed order and the
first that fails ends the reading, so each document has one refusal at most.
-/
namespace BlockProgram

/-- The name of a class, or an object whose single member has that name and the
value `null`. -/
def Precedence.ofJson? : Json → Option Precedence
  | .string name => ofName? name
  | .object [(name, .null)] => ofName? name
  | _ => none

def Precedence.ofJson (path : Path) (j : Json) : Checked Precedence :=
  match ofJson? j with
  | some p => .ok p
  | none => refuse path (.unknownPrecedence j)

namespace Node

def precedence? (n : Node) (key : String) : Checked (Option Precedence) :=
  match n.given? key with
  | none => .ok none
  | some j => (Precedence.ofJson (n.path.key key) j).map some

/-- A colour as text, or as a hue on the circle of 360 degrees. -/
def colour? (n : Node) : Checked (Option String) :=
  match n.given? "color" with
  | none => .ok none
  | some (.string s) => .ok (some s)
  | some (.number m) => match m.toIntIn? 0 360 with
    | some hue => .ok (some (toString hue))
    | none => n.refuse "color" .hueOutOfRange
  | some j => n.refuse "color" (.expected "a colour string or hue" j.kind)

def style? (n : Node) : Checked (Option Style) := do
  let colour ← n.colour?
  let named ← n.text? "style"
  match colour, named with
  | some _, some _ => n.refuse "style" .colourAndStyle
  | some c, none => return some (.colour c)
  | none, some s => return some (.named s)
  | none, none => return none

def output? (n : Node) : Checked (Option Output) :=
  match n.given? "output" with
  | none => .ok none
  | some (.bool false) => .ok none
  | some (.bool true) => .ok (some ⟨none⟩)
  | some (.string check) => .ok (some ⟨some check⟩)
  | some j => n.refuse "output" (.expected "a boolean or type name" j.kind)

end Node

/-! ### Arguments -/

/-- A pair of a label and a value. -/
def Choice.ofJson (path : Path) : Json → Checked Choice
  | .array [label, value] => do
    let label ← label.asText (path.index 0)
    let value ← value.asText (path.index 1)
    return ⟨label, value⟩
  | _ => refuse path .notPair

/-- The items of an array, the first at position `i`, read one by one. -/
def readItems {α : Type} (read : Path → Json → Checked α) (path : Path) :
    Nat → List Json → Checked (List α)
  | _, [] => .ok []
  | i, j :: rest => do
    let a ← read (path.index i) j
    let more ← readItems read path (i + 1) rest
    return a :: more

def ArgumentKind.ofDropdown (n : Node) : Checked ArgumentKind := do
  let system ← n.text? "instanceOf"
  match n.member? "options", system with
  | some _, some _ => n.refuse "instanceOf" .choicesAndInstances
  | none, some system => return .instances system
  | none, none => n.refuse "options" .missing
  | some raw, none =>
    let path := n.path.key "options"
    let items ← raw.asItems path
    if items.isEmpty then refuse path .noChoices
    else return .choice (← readItems Choice.ofJson path 0 items)

def ArgumentKind.ofNode (n : Node) (type : String) : Checked ArgumentKind :=
  match type with
  | "field_input" => do return .text ((← n.text? "text").getD "")
  | "field_number" => do
    let initial ← n.float? "value"
    let least ← n.float? "min"
    let most ← n.float? "max"
    return .number (initial.getD 0.0) least most
  | "field_checkbox" => do return .checkbox (← n.flag "checked")
  | "field_dropdown" => ofDropdown n
  | "input_value" => do
    let check ← n.text? "check"
    let order ← n.precedence? "order"
    return .value check (order.getD .outermost)
  | "input_statement" => do return .statement (← n.text? "check")
  | other => n.refuse "type" (.unknownArgument other)

def Argument.ofJson (path : Path) (j : Json) : Checked Argument := do
  let n ← Node.ofJson path j
  let name ← n.text "name"
  if !Text.isName name then n.refuse "name" (.notName name)
  else
    let type ← n.text "type"
    let kind ← ArgumentKind.ofNode n type
    return ⟨name, kind⟩

/-- The arguments after those already read; no two have one name. -/
def Argument.readAll (path : Path) : List Argument → List Json → Checked (List Argument)
  | done, [] => .ok done
  | done, j :: rest => do
    let place := path.index done.length
    let a ← Argument.ofJson place j
    if done.any (·.name == a.name) then refuse (place.key "name") (.duplicateArgument a.name)
    else readAll path (done ++ [a]) rest

/-- Every placeholder of a message names an argument, and no two the same one. -/
def checkPlaceholders (path : Path) (args : List Argument) :
    List String → List String → Checked Unit
  | _, [] => .ok ()
  | seen, name :: rest =>
    if seen.contains name then refuse path (.repeatedPlaceholder name)
    else if args.any (·.name == name) then checkPlaceholders path args (name :: seen) rest
    else refuse path (.unmatchedPlaceholder name)

/-! ### Constructors -/

def Virtual.ofJson (path : Path) (j : Json) : Checked Virtual := do
  let n ← Node.ofJson path j
  n.only ["instanceOf", "name", "connection"]
  let instanceOf ← n.word "instanceOf"
  let name ← n.word "name"
  let connection ← n.text "connection"
  return ⟨instanceOf, name, connection⟩

/-- The virtual instances after those already read; no two have one name. -/
def Virtual.readAll (path : Path) : List Virtual → List Json → Checked (List Virtual)
  | done, [] => .ok done
  | done, j :: rest => do
    let place := path.index done.length
    let v ← Virtual.ofJson place j
    if done.any (·.name == v.name) then refuse (place.key "name") (.duplicateVirtual v.name)
    else readAll path (done ++ [v]) rest

/-- A constructor as it is when nothing but its system is given. -/
def Constructor.ofSystem (system : String) : Constructor where
  system := system
  stem := system ++ "_"
  nameField := "NAME"
  virtuals := []

def Constructor.ofNode (n : Node) : Checked Constructor := do
  n.only ["system", "prefix", "field", "virtualInstances"]
  let system ← n.word "system"
  let virtuals ← Virtual.readAll (n.path.key "virtualInstances") [] (← n.items "virtualInstances")
  let plain := Constructor.ofSystem system
  let stem ← n.text? "prefix"
  let field ← n.text? "field"
  return { plain with
    stem := stem.getD plain.stem
    nameField := field.getD plain.nameField
    virtuals := virtuals }

/-- A constructor of a block with the given arguments, one of which is the text
field with the name. -/
def Constructor.ofJson (path : Path) (args : List Argument) (j : Json) : Checked Constructor := do
  let c ← match j with
    | .string system => .ok (ofSystem system)
    | .object members => ofNode ⟨path, members⟩
    | _ => refuse path (.expected "a system name or object" j.kind)
  match args.find? (·.name == c.nameField) with
  | some a => if a.kind.isText then return c else refuse path (.nameFieldNotText c.nameField)
  | none => refuse path (.nameFieldMissing c.nameField)

/-! ### Blocks -/

/-- The keys that a block definition gives a meaning. -/
def Definition.keys : List String :=
  ["kind", "type", "message", "args", "code", "previous", "next", "output", "order",
   "programStart", "constructs", "hidden", "tooltip", "helpUrl", "color", "style",
   "inputsInline"]

def Definition.ofJson (path : Path) (j : Json) : Checked Definition := do
  let n ← Node.ofJson path j
  let type ← n.word "type"
  let message := (← n.text? "message").getD ""
  let args ← Argument.readAll (path.key "args") [] (← n.items "args")
  checkPlaceholders (path.key "message") args [] (Template.placeholders message)
  let output ← n.output?
  let previous ← n.flag "previous"
  let next ← n.flag "next"
  if output.isSome && (previous || next) then n.refuse "output" .valueWithStatements
  let order ← n.precedence? "order"
  let programStart ← n.flag "programStart"
  if programStart && (previous || output.isSome) then n.refuse "programStart" .startNotOnTop
  let constructs ← match n.given? "constructs" with
    | none => pure none
    | some raw => (Constructor.ofJson (path.key "constructs") args raw).map some
  let code ← n.text? "code"
  let hidden ← n.flag "hidden"
  let tooltip ← n.text? "tooltip"
  let helpUrl ← n.text? "helpUrl"
  let style ← n.style?
  let inputsInline ← n.flag? "inputsInline"
  return {
    type, message, args, code, previous, next, output, programStart, constructs, hidden,
    tooltip, helpUrl, style, inputsInline
    order := order.getD .atomic
    extra := n.members.filter fun m => !keys.contains m.1 }

/-! ### Documents -/

/-- The gap of a separator fits in 32 bits. -/
def Item.ofSeparator (n : Node) : Checked Item := do
  n.only ["kind", "gap"]
  match ← n.int? "gap" with
  | none => return .separator none
  | some gap =>
    if 0 ≤ gap && gap < 0x100000000 then return .separator (some gap.toNat)
    else n.refuse "gap" .gapOutOfRange

/-- An item that stands after the items `done`. -/
def Item.ofJson (path : Path) (done : List Item) (j : Json) : Checked Item := do
  let n ← Node.ofJson path j
  match (← n.text? "kind").getD "block" with
  | "block" =>
    let d ← Definition.ofJson path j
    if (done.filterMap Item.block?).any (·.type == d.type) then
      n.refuse "type" (.definedTwice d.type)
    else return .block d
  | "label" =>
    n.only ["kind", "text"]
    return .label (← n.text "text")
  | "sep" => ofSeparator n
  | "separator" => ofSeparator n
  | other => n.refuse "kind" (.unknownItem other)

/-- The items after those already read; no two are blocks of one type. -/
def Item.readAll (path : Path) : List Item → List Json → Checked (List Item)
  | done, [] => .ok done
  | done, j :: rest => do
    let item ← Item.ofJson (path.index done.length) done j
    readAll path (done ++ [item]) rest

def Body.ofNode (n : Node) : Checked Body :=
  match n.member? "contents", n.member? "custom" with
  | some _, some _ => n.refuse "custom" .contentsAndCustom
  | none, none => n.refuse "contents" .missing
  | none, some raw => (raw.asText (n.path.key "custom")).map .custom
  | some raw, none => do
    let path := n.path.key "contents"
    return .contents (← Item.readAll path [] (← raw.asItems path))

def Document.keys : List String :=
  ["category", "name", "description", "docs", "color", "style", "imports", "priority",
   "parent", "contents", "custom"]

def Document.ofJson (source : String) (j : Json) : Checked Document := do
  let n ← Node.ofJson {} j
  n.only keys
  let category ← n.word "category"
  let name := (← n.text? "name").getD category
  let imports ← readItems Json.asText (n.path.key "imports") 0 (← n.items "imports")
  let body ← Body.ofNode n
  let description ← n.text? "description"
  let docsUrl ← n.text? "docs"
  let style ← n.style?
  let priority ← n.int? "priority"
  let parent ← n.text? "parent"
  return { source, category, name, description, docsUrl, style, imports, priority, parent, body }

end BlockProgram
