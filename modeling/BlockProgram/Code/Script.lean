import BlockProgram.Library.Definition
import BlockProgram.Settings
import BlockProgram.Workspace.Basic

/-!
# Host scripts

A host may give the code of a block type by a script of its own: it looks at the
workspace, asks for the code of other blocks, of fields or of the whole program,
and ends with the code of the block or a failure. A script is a finite tree of such
requests, and the answer to a request may itself be a failure, which the script is
free to handle.
-/
namespace BlockProgram

/-- The code of one block. -/
inductive Code where
  | statement (text : String)
  | value (text : String) (order : Precedence)
  deriving DecidableEq, Repr

def Code.text : Code → String
  | .statement text => text
  | .value text _ => text

inductive Script where
  | done (code : Code)
  | fail (failure : Failure)
  /-- Asks for the code of a block. -/
  | block (block : BlockId) (next : Except Failure Code → Script)
  /-- Asks for the value plugged into an input, as an operand in a context. -/
  | value (block : BlockId) (input : String) (order : Precedence)
      (next : Except Failure String → Script)
  /-- Asks for the indented statements plugged into an input. -/
  | statement (block : BlockId) (input : String) (next : Except Failure String → Script)
  /-- Asks for the statements of a block and those after it. -/
  | chain (block : BlockId) (next : Except Failure String → Script)
  /-- Asks for the code of a field. -/
  | field (block : BlockId) (arg : Argument) (next : String → Script)
  /-- Asks for the program of the workspace. -/
  | program (next : Except Failure String → Script)

/-- The script of a block of a workspace. -/
abbrev HostCode := Settings → Workspace → BlockId → Script

end BlockProgram
