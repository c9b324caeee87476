import BlockProgram.Code.Compile
import BlockProgram.Instance.Naming
import BlockProgram.Instance.Selection
import BlockProgram.Palette
import BlockProgram.Reachability

/-!
# Sessions

A session keeps what one editor has loaded, reacts to what happens to the
workspace, fills dropdowns and compiles.
-/
namespace BlockProgram

/-- What has happened in the editor. -/
inductive Event where
  | create (ids : List BlockId)
  | delete (ids : List BlockId)
  | move (id : BlockId)
  | change (id : BlockId) (field : String) (old new : Option String)
  deriving DecidableEq, Repr

/-- What the palette on the screen is asked to do. -/
inductive PaletteRequest where
  | collapseAll
  | clearSelection
  deriving DecidableEq, Repr

/-- A palette is tidied when a block has been taken from it. -/
def Event.paletteRequests : Event → List PaletteRequest
  | .create _ => [.collapseAll, .clearSelection]
  | _ => []

structure EventReport where
  reachability : ReachabilityReport
  names : List (BlockId × NameChange)
  invalidSelections : Nat
  palette : List PaletteRequest
  deriving DecidableEq, Repr

structure Session where
  settings : Settings
  catalog : Catalog
  vocabulary : Vocabulary
  instances : InstanceIndex
  palette : Palette

namespace Session

/-- A session with nothing loaded. -/
def new (settings : Settings) (catalog : Catalog) : Session where
  settings := settings
  catalog := catalog
  vocabulary := {}
  instances := .ofSettings settings
  palette := {}

/-- Loads libraries in place of all that was loaded before. After a failure the
palette is empty, but what was registered up to there stays. -/
def load (s : Session) (sources : List Source) : Session × Option Failure :=
  let (vocabulary, palette) := Palette.assemble s.catalog {} sources
  let s := { s with vocabulary, instances := s.instances.rebuild vocabulary }
  match palette with
  | .ok palette => ({ s with palette }, none)
  | .error failure => ({ s with palette := {} }, some failure)

/-! ### Events -/

/-- Settles the names of new blocks, one after the other. -/
def nameCreated (x : InstanceIndex) :
    Workspace → List BlockId → Workspace × List (BlockId × NameChange)
  | w, [] => (w, [])
  | w, id :: rest =>
    if x.isConstructor w id then
      let (w, change) := x.settleName w id none
      let (w, more) := nameCreated x w rest
      (w, (id, change) :: more)
    else nameCreated x w rest

/-- Settles the name of a block after one of its fields has changed. -/
def nameChanged (x : InstanceIndex) (w : Workspace) (id : BlockId) (field : String)
    (old : Option String) : Workspace × List (BlockId × NameChange) :=
  match x.constructorOf? w id with
  | none => (w, [])
  | some (_, c) =>
    if c.nameField = field then
      let (w, change) := x.settleName w id old
      (w, [(id, change)])
    else match x.autoName w id with
      | (w, some name) => (w, [(id, .assigned name)])
      | (w, none) => (w, [(id, .unchanged)])

/-- Names a block that has been moved, if it has no name yet. -/
def nameMoved (x : InstanceIndex) (w : Workspace) (id : BlockId) :
    Workspace × List (BlockId × NameChange) :=
  match x.autoName w id with
  | (w, some name) => (w, [(id, .assigned name)])
  | (w, none) => (w, [])

def updateNames (x : InstanceIndex) (w : Workspace) :
    Event → Workspace × List (BlockId × NameChange)
  | .create ids => nameCreated x w ids
  | .change id field old _ => nameChanged x w id field old
  | .move id => nameMoved x w id
  | .delete _ => (w, [])

/-- Brings names, reachability and selections up to date after an event. Requests
to the palette are made only if there is one on the screen. -/
def handle (s : Session) (w : Workspace) (event : Event) (hasPalette : Bool) :
    Session × Workspace × EventReport :=
  let instances := s.instances.rebuild s.vocabulary
  let (w, names) := updateNames instances w event
  let (w, reachability) := w.updateReachability s.settings s.vocabulary
  let (w, invalidSelections) := instances.checkAll s.vocabulary w
  let palette := if hasPalette then event.paletteRequests else []
  ({ s with instances }, w, { reachability, names, invalidSelections, palette })

/-! ### Dropdowns and code -/

/-- The choices of an instance dropdown of a block. -/
def choices (s : Session) (w : Workspace) (id : BlockId) (field : String)
    (restoring : Option String) : Except Failure (List Choice) :=
  match w.type? id with
  | none => .error (.noBlock id)
  | some type => match s.vocabulary.definition? type with
    | none => .error (.unknownType type)
    | some d => match (d.argument? field).map Argument.kind with
      | some (.instances system) =>
        .ok (s.instances.choices w system (w.field? id field) restoring)
      | _ => .error (.code (.notInstanceField field type))

def generator (s : Session) (w : Workspace) : Generator :=
  ⟨s.settings, s.vocabulary, s.instances, w⟩

/-- The code of a single block. -/
def generate (s : Session) (w : Workspace) (id : BlockId) : Except Failure Code :=
  (((s.generator w).block id).start []).1

/-- The program of a workspace. -/
def compile (s : Session) (w : Workspace) : Except Failure String :=
  ((s.generator w).program.start []).1

end Session

end BlockProgram
