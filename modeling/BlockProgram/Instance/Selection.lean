import BlockProgram.Instance.Options
import BlockProgram.Workspace.Mark

/-!
# Checking selections

A dropdown over instances carries a warning while its selection stands for
nothing. A warning is written only when it changes.
-/
namespace BlockProgram

/-- What is wrong with a selection. -/
inductive SelectionFault where
  | nothingSelected (system : String)
  | gone (system : String)
  | unknown (name system : String)
  deriving DecidableEq, Repr

def SelectionFault.message : SelectionFault → String
  | .nothingSelected system => "No " ++ system ++ " instance selected"
  | .gone system => "Selected " ++ system ++ " instance no longer exists"
  | .unknown name system => "Instance '" ++ name ++ "' of " ++ system ++ " does not exist"

namespace InstanceIndex

/-- Some block constructs the named instance of a system. -/
def isKnown (x : InstanceIndex) (w : Workspace) (system name : String) : Bool :=
  match x.constructor? system with
  | some (type, c) => (w.named type c).any (·.2 == name)
  | none => false

/-- What is wrong with the value selected for a system. -/
def fault? (x : InstanceIndex) (w : Workspace) (system value : String) :
    Option SelectionFault :=
  if value.isEmpty || value == x.noInstance.value then some (.nothingSelected system)
  else if (Reference.decode? value).isSome then
    if (x.resolve? w value).isSome then none else some (.gone system)
  else if x.isKnown w system value then none
  else some (.unknown value system)

/-- Checks the selection in a field and updates its warning. -/
def checkField (x : InstanceIndex) (w : Workspace) (id : BlockId) (field system : String) :
    Workspace × Bool :=
  let warning := (x.fault? w system ((w.field? id field).getD "")).map SelectionFault.message
  let w := if w.warning? id field != warning then w.setWarning id field warning else w
  (w, warning.isNone)

/-- Checks fields of a block, and counts the invalid selections. -/
def checkFields (x : InstanceIndex) (id : BlockId) :
    Workspace × Nat → List (String × String) → Workspace × Nat
  | r, [] => r
  | (w, invalid), (field, system) :: rest =>
    let (w, valid) := x.checkField w id field system
    x.checkFields id (w, if valid then invalid else invalid + 1) rest

/-- The instance dropdowns of a block. -/
def fieldsOf (v : Vocabulary) (w : Workspace) (id : BlockId) : List (String × String) :=
  match (w.type? id).bind v.definition? with
  | some d => d.instanceFields
  | none => []

/-- Checks every instance dropdown, and counts the invalid selections. -/
def checkAll (x : InstanceIndex) (v : Vocabulary) (w : Workspace) : Workspace × Nat :=
  w.ids.foldl (fun r id => x.checkFields id r (fieldsOf v r.1 id)) (w, 0)

end InstanceIndex

end BlockProgram
