import BlockProgram.Code.Program

/-!
# Code of blocks

The code of a block is its template, filled in, or what a script of the host makes
of it. Both ask for the code of other blocks, and a script may ask for any block and
for the whole program; only busy blocks are refused. A program is compiled from the
code of the root blocks.
-/
namespace BlockProgram

namespace Generator

/-- Answers the requests of a script. -/
def perform (g : Generator) (block : BlockId → Generation Code) : Script → Generation Code
  | .done code => pure code
  | .fail failure => throw failure
  | .block id next => do
    let answer ← (block id).attempt
    g.perform block (next answer)
  | .value id input order next => do
    let answer ← (g.operand block id input order).attempt
    g.perform block (next answer)
  | .statement id input next => do
    let answer ← (g.body block id input).attempt
    g.perform block (next answer)
  | .chain id next => do
    let answer ← (g.chain block id).attempt
    g.perform block (next answer)
  | .field id arg next => g.perform block (next (g.fieldCode id arg))
  | .program next => do
    let answer ← (g.programFrom block).attempt
    g.perform block (next answer)

/-- The code of a block, when `block` gives that of those connected to it. -/
def codeOf (g : Generator) (block : BlockId → Generation Code) (id : BlockId) :
    Generation Code :=
  match g.workspace.type? id with
  | none => throw (.noBlock id)
  | some type => match g.vocabulary.get? type with
    | none => throw (.unknownType type)
    | some (.hosted _ code) => g.perform block (code g.settings g.workspace id)
    | some (.declared _ _ d) => match d.code with
      | none => throw (.noTemplate type)
      | some code => g.template block id d code

/-- The code of a block, with connected blocks followed to the given depth. -/
def blockWithin (g : Generator) : Nat → BlockId → Generation Code
  | 0, id => throw (.code (.connectedToItself id))
  | depth + 1, id => Generation.guarded id (g.codeOf (g.blockWithin depth) id)

/-- The code of a block. Busy blocks are different blocks of the workspace, so
they cannot be nested deeper than there are blocks, and the depth is never
used up. -/
def block (g : Generator) (id : BlockId) : Generation Code :=
  g.blockWithin (g.workspace.size + 1) id

/-- The program of the workspace. -/
def program (g : Generator) : Generation String := g.programFrom g.block

end Generator

/-- Compiles a workspace with a vocabulary, indexing its constructors first. -/
def compile (settings : Settings) (v : Vocabulary) (w : Workspace) : Except Failure String :=
  let instances := (InstanceIndex.ofSettings settings).rebuild v
  ((Generator.mk settings v instances w).program.start []).1

end BlockProgram
