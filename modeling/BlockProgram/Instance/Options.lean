import BlockProgram.Instance.Index
import BlockProgram.Instance.Reference
import BlockProgram.Template
import BlockProgram.Text.Natural

/-!
# Choosing instances

What a dropdown over the instances of a system offers, and what a stored choice
of a virtual instance stands for in code.
-/
namespace BlockProgram

/-- The choices whose value has not come before. -/
def Choice.distinct : List String → List Choice → List Choice
  | _, [] => []
  | seen, c :: rest =>
    if seen.contains c.value then distinct seen rest else c :: distinct (c.value :: seen) rest

namespace InstanceIndex

/-- The instances constructed for a system, except unnamed ones. -/
def plainChoices (x : InstanceIndex) (w : Workspace) (system : String) : List Choice :=
  match x.constructor? system with
  | none => []
  | some (type, c) =>
    ((w.named type c).filter fun e => !e.2.isEmpty && e.2 != x.unassigned c).map fun e =>
      ⟨e.2, e.2⟩

/-- The virtual instances provided for a system. -/
def virtualChoices (x : InstanceIndex) (w : Workspace) (system : String) : List Choice :=
  (x.providers system).flatMap fun (type, c) =>
    (w.named type c).flatMap fun (id, name) =>
      (c.virtuals.filter (·.instanceOf == system)).map fun v =>
        ⟨name ++ "." ++ v.name, Reference.encode ⟨type, id, v.name⟩⟩

/-- How a stored value is shown, whether or not it still stands for something. -/
def label (x : InstanceIndex) (w : Workspace) (value : String) : String :=
  match Reference.decode? value with
  | none => value
  | some r => match (x.get? r.type).bind fun c => w.field? r.block c.nameField with
    | some name => name ++ "." ++ r.name
    | none => r.name

/-- Stored values stay on offer. -/
def storedChoices (x : InstanceIndex) (w : Workspace) (stored : List String) : List Choice :=
  (stored.filter fun s => !s.isEmpty && s != x.noInstance.value).map fun s => ⟨x.label w s, s⟩

/-- The choices of a dropdown over a system, each value once and in natural order
of the labels. `current` is stored in the field, `restoring` about to be. -/
def choices (x : InstanceIndex) (w : Workspace) (system : String)
    (current restoring : Option String) : List Choice :=
  let offered := x.plainChoices w system ++ x.virtualChoices w system ++
    x.storedChoices w (current.toList ++ restoring.toList)
  let sorted := (Choice.distinct [] offered).mergeSort fun a b => Text.naturalLe a.label b.label
  if sorted.isEmpty then [x.noInstance] else sorted

/-- The code for a stored virtual instance, while the block that provides it is
there and still does. -/
def resolve? (x : InstanceIndex) (w : Workspace) (value : String) : Option String := do
  let r ← Reference.decode? value
  let type ← w.type? r.block
  if type != r.type then none
  else
    let c ← x.get? r.type
    let v ← c.virtuals.find? (·.name == r.name)
    let name ← w.field? r.block c.nameField
    return Template.expand v.connection fun field => if field = c.nameField then some name else none

end InstanceIndex

end BlockProgram
