import BlockProgram.Decimal.Layout
import BlockProgram.Instance.Options

/-!
# Code of fields

The text that a field stands for in code: its value, or else what the definition
gives it at first.
-/
namespace BlockProgram

/-- Where code is generated: the blocks and all that is known about them. -/
structure Generator where
  settings : Settings
  vocabulary : Vocabulary
  instances : InstanceIndex
  workspace : Workspace

namespace Generator

/-- A stored instance: a reference gives its code while it stands for something. -/
def instanceCode (g : Generator) (value : String) : String :=
  (g.instances.resolve? g.workspace value).getD value

def fieldCode (g : Generator) (id : BlockId) (a : Argument) : String :=
  let value := g.workspace.field? id a.name
  match a.kind with
  | .text initial => value.getD initial
  | .number initial _ _ => value.getD (Decimal.codeText initial)
  | .checkbox checked =>
    if (value.map (·.toLower == "true")).getD checked then "true" else "false"
  | .choice choices => value.getD ((choices.head?.map Choice.value).getD "")
  | .instances _ => g.instanceCode (value.getD "")
  | .value _ _ => ""
  | .statement _ => ""

end Generator

end BlockProgram
