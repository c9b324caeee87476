import BlockProgram.Code.Generation

/-!
# Programs

A program is the header, the imports of the libraries in use, and the code of
every root block with the chain below it. The code of single blocks is a parameter.
-/
namespace BlockProgram.Generator

/-- The imports that enabled blocks need. -/
def imports (g : Generator) : List String :=
  g.vocabulary.importsFor
    ((g.workspace.ids.filter fun id => !g.workspace.isDisabled id).filterMap g.workspace.type?)

/-- The code of a block at the top; none if it is disabled or no root. -/
def topCode (g : Generator) (block : BlockId → Generation Code) (id : BlockId) :
    Generation (Option String) :=
  if g.workspace.isDisabled id then pure none
  else match g.workspace.type? id with
    | none => throw (.noBlock id)
    | some type => match g.vocabulary.get? type with
      | none => throw (.unknownType type)
      | some r => if r.kind = .root then some <$> g.chain block id else pure none

def topCodes (g : Generator) (block : BlockId → Generation Code) :
    List BlockId → Generation (List String)
  | [] => pure []
  | id :: rest => do
    let text ← g.topCode block id
    let more ← g.topCodes block rest
    return text.toList ++ more

/-- The header with its line ended and an empty line after it. -/
def headerText (g : Generator) : String :=
  match g.settings.header with
  | some header => Text.endLine header ++ "\n"
  | none => ""

/-- One import a line, and an empty line after them. -/
def importText (g : Generator) : String :=
  let imports := g.imports
  if imports.isEmpty then "" else String.join (imports.map (· ++ "\n")) ++ "\n"

/-- The program of the workspace, when `block` gives the code of blocks. -/
def programFrom (g : Generator) (block : BlockId → Generation Code) : Generation String := do
  let roots ← g.topCodes block g.workspace.topBlocks
  return g.headerText ++ g.importText ++ "\n".intercalate roots

end BlockProgram.Generator
