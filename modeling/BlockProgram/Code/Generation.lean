import BlockProgram.Code.Field
import BlockProgram.Text.Indent

/-!
# Generation

What the code of a block is made of: the code of its fields, of the blocks plugged
into its inputs and of those after it, all of it put into its template. Each part
is generated from the code of other blocks, which is a parameter here. Blocks whose
code is being generated are busy; a block that is busy already is connected to
itself.
-/
namespace BlockProgram

/-- A generation reads and changes the list of busy blocks, also when it fails. -/
abbrev Generation := ExceptT Failure (StateM (List BlockId))

namespace Generation

variable {α : Type}

/-- Runs a generation from the given busy blocks. -/
def start (x : Generation α) (busy : List BlockId) : Except Failure α × List BlockId :=
  x.run.run busy

/-- Generates for a block, which is busy meanwhile. -/
def guarded (id : BlockId) (body : Generation α) : Generation α :=
  ExceptT.mk fun busy =>
    if id ∈ busy then (.error (.code (.connectedToItself id)), busy)
    else
      let (result, after) := body.start (id :: busy)
      (result, after.erase id)

/-- The result of a generation, a failure included. -/
def attempt (x : Generation α) : Generation (Except Failure α) :=
  ExceptT.mk (Except.ok <$> x.run)

end Generation

namespace Generator

/-- The value plugged into an input, as an operand in a context. An empty input
and one with a disabled block give the null literal. -/
def operand (g : Generator) (block : BlockId → Generation Code) (id : BlockId) (input : String)
    (order : Precedence) : Generation String :=
  match g.workspace.target? id input with
  | none => pure g.settings.nullLiteral
  | some target =>
    if g.workspace.isDisabled target then pure g.settings.nullLiteral
    else do
      match ← block target with
      | .value text inner => return order.wrap text inner
      | .statement _ => throw (.code (.statementAsValue target id input))

/-- One statement of a chain, ended by a newline unless it is empty. -/
def statementLine (text : String) : String :=
  if text.isEmpty then "" else Text.endLine text

/-- The code of one block of a chain; a disabled block has none. -/
def link (g : Generator) (block : BlockId → Generation Code) (id : BlockId) :
    Generation String :=
  if g.workspace.isDisabled id then pure ""
  else do
    match ← block id with
    | .statement text => return statementLine text
    | .value _ _ => throw (.code (.valueAsStatement id))

/-- The code of blocks one after the other. -/
def links (g : Generator) (block : BlockId → Generation Code) :
    List BlockId → Generation String
  | [] => pure ""
  | id :: rest => do
    let text ← g.link block id
    let more ← g.links block rest
    return text ++ more

/-- The code of a block and those after it. -/
def chain (g : Generator) (block : BlockId → Generation Code) (first : BlockId) :
    Generation String := do
  let trail := g.workspace.chain first
  let text ← g.links block trail.points
  match trail.repeats with
  | some id => throw (.code (.chainLoops id))
  | none => return text

/-- The indented statements plugged into an input. -/
def body (g : Generator) (block : BlockId → Generation Code) (id : BlockId) (input : String) :
    Generation String :=
  match g.workspace.target? id input with
  | none => pure ""
  | some first => do
    let text ← g.chain block first
    return Text.indentLines text g.settings.indent

/-- The code of an argument. -/
def fragment (g : Generator) (block : BlockId → Generation Code) (id : BlockId) (a : Argument) :
    Generation String :=
  match a.kind with
  | .value _ order => g.operand block id a.name order
  | .statement _ => g.body block id a.name
  | _ => pure (g.fieldCode id a)

/-- The code of the arguments that a template mentions. -/
def fragments (g : Generator) (block : BlockId → Generation Code) (id : BlockId)
    (template : String) : List Argument → Generation (List (String × String))
  | [] => pure []
  | a :: rest =>
    if Template.mentions template a.name then do
      let text ← g.fragment block id a
      let more ← g.fragments block id template rest
      return (a.name, text) :: more
    else g.fragments block id template rest

/-- The code of a block as its kind wants it: a root ends its line. -/
def finish (d : Definition) (text : String) : Code :=
  match d.kind with
  | .value => .value text d.order
  | .statement => .statement text
  | .root => .statement (Text.endLine text)

/-- The template of a block, filled in. -/
def template (g : Generator) (block : BlockId → Generation Code) (id : BlockId)
    (d : Definition) (code : String) : Generation Code := do
  let filled ← g.fragments block id code d.args
  return finish d (Template.expand code (Template.argumentValue? d.args (.ofList filled)))

end Generator

end BlockProgram
