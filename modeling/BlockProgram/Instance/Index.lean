import BlockProgram.Vocabulary

/-!
# The index of constructors

Which block types construct instances. The index is taken from a vocabulary and
does not follow later changes of it by itself.
-/
namespace BlockProgram

structure InstanceIndex where
  unassignedSuffix : String
  noInstance : Choice
  /-- By block type, in ascending order. -/
  constructors : Table Constructor := {}

namespace InstanceIndex

/-- The index that knows no constructor. -/
def ofSettings (s : Settings) : InstanceIndex where
  unassignedSuffix := s.unassignedSuffix
  noInstance := s.noInstance

def clear (x : InstanceIndex) : InstanceIndex := { x with constructors := {} }

/-- The constructors of a vocabulary with their types, in ascending order. -/
def sortedConstructors (v : Vocabulary) : List (String × Constructor) :=
  (v.definitions.filterMap fun d => d.constructs.map (d.type, ·)).mergeSort fun a b => a.1 ≤ b.1

/-- The constructors of a vocabulary, by type. -/
def constructorsOf (v : Vocabulary) : Table Constructor := .ofList (sortedConstructors v)

/-- The same choices, with the constructors of a vocabulary. -/
def rebuild (x : InstanceIndex) (v : Vocabulary) : InstanceIndex :=
  { x with constructors := constructorsOf v }

def isEmpty (x : InstanceIndex) : Bool := x.constructors.isEmpty

def get? (x : InstanceIndex) (type : String) : Option Constructor := x.constructors.get? type

/-- The type that constructs the instances of a system: the first one that says so. -/
def constructor? (x : InstanceIndex) (system : String) : Option (String × Constructor) :=
  x.constructors.entries.find? (·.2.system == system)

/-- The types that provide virtual instances of a system. -/
def providers (x : InstanceIndex) (system : String) : List (String × Constructor) :=
  x.constructors.entries.filter (·.2.virtuals.any (·.instanceOf == system))

/-- The name of an instance that has not been given one. -/
def unassigned (x : InstanceIndex) (c : Constructor) : String := c.stem ++ x.unassignedSuffix

end InstanceIndex

namespace Workspace

/-- The blocks of a type that have a name, with their names. -/
def named (w : Workspace) (type : String) (c : Constructor) : List (BlockId × String) :=
  (w.ofType type).filterMap fun id => (w.field? id c.nameField).map (id, ·)

end Workspace

namespace InstanceIndex

/-- The named instances constructed by blocks of a type. -/
def names (x : InstanceIndex) (w : Workspace) (type : String) : List (BlockId × String) :=
  match x.get? type with
  | some c => w.named type c
  | none => []

end InstanceIndex

end BlockProgram
