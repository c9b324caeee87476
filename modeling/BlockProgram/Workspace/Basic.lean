import BlockProgram.Failure
import BlockProgram.Table
import BlockProgram.Trail

/-!
# Workspaces

A workspace is a graph of blocks: each has a type, field values, blocks plugged
into its inputs, at most one block after it, and a link to its parent. Links are
kept as the editor sets them and may lead to blocks that are gone, or in circles.
-/
namespace BlockProgram

structure Block where
  type : String
  fields : Table String := {}
  inputs : Table BlockId := {}
  next : Option BlockId := none
  parent : Option BlockId := none
  /-- Why the block is disabled; it is enabled when there is no reason. -/
  disabled : List String := []
  warnings : Table String := {}
  /-- Where the editor shows the block among those without a parent. -/
  place : Nat := 0

/-- The blocks in the order they were added, the number of the last id handed
out, and the number of writes made from the outside of the editor. -/
structure Workspace where
  blocks : Table Block := {}
  lastId : Nat := 0
  writes : Nat := 0

namespace Workspace

def get? (w : Workspace) (id : BlockId) : Option Block := w.blocks.get? id

def ids (w : Workspace) : List BlockId := w.blocks.keys

def size (w : Workspace) : Nat := w.blocks.size

def isEmpty (w : Workspace) : Bool := w.blocks.isEmpty

def type? (w : Workspace) (id : BlockId) : Option String := (w.get? id).map Block.type

def field? (w : Workspace) (id : BlockId) (name : String) : Option String :=
  (w.get? id).bind (·.fields.get? name)

def target? (w : Workspace) (id : BlockId) (input : String) : Option BlockId :=
  (w.get? id).bind (·.inputs.get? input)

def next? (w : Workspace) (id : BlockId) : Option BlockId := (w.get? id).bind Block.next

def parent? (w : Workspace) (id : BlockId) : Option BlockId := (w.get? id).bind Block.parent

def hasReason (w : Workspace) (id : BlockId) (reason : String) : Bool :=
  match w.get? id with
  | some b => b.disabled.contains reason
  | none => false

def isDisabled (w : Workspace) (id : BlockId) : Bool :=
  match w.get? id with
  | some b => !b.disabled.isEmpty
  | none => false

def warning? (w : Workspace) (id : BlockId) (key : String) : Option String :=
  (w.get? id).bind (·.warnings.get? key)

/-- The warnings of a block, in the order of their keys. -/
def warnings (w : Workspace) (id : BlockId) : List String :=
  match w.get? id with
  | some b => (b.warnings.entries.mergeSort fun x y => x.1 ≤ y.1).map Prod.snd
  | none => []

def place (w : Workspace) (id : BlockId) : Nat := ((w.get? id).map Block.place).getD 0

/-- Puts a block before the first one that is shown no earlier. -/
def insertByPlace (place : BlockId → Nat) (id : BlockId) : List BlockId → List BlockId
  | [] => [id]
  | first :: rest =>
    if place id ≤ place first then id :: first :: rest else first :: insertByPlace place id rest

/-- The blocks by their places, those at one place in their order. -/
def byPlace (place : BlockId → Nat) (ids : List BlockId) : List BlockId :=
  ids.foldr (insertByPlace place) []

/-- The blocks without a parent, in the editor's order. -/
def topBlocks (w : Workspace) : List BlockId :=
  byPlace w.place (w.ids.filter fun id => (w.parent? id).isNone)

def ofType (w : Workspace) (type : String) : List BlockId :=
  w.ids.filter fun id => w.type? id == some type

/-- The way up from a block. -/
def ancestry (w : Workspace) (id : BlockId) : Trail BlockId := Trail.follow w.parent? w.size id

/-- The topmost block above a block. Where the way up comes back on itself, it is
the last block before the repeat. -/
def root (w : Workspace) (id : BlockId) : BlockId := (w.ancestry id).last id

/-- A block and those after it. -/
def chain (w : Workspace) (id : BlockId) : Trail BlockId := Trail.follow w.next? w.size id

/-- Changes a block, if it is there. -/
def modify (w : Workspace) (id : BlockId) (f : Block → Block) : Workspace :=
  { w with blocks := w.blocks.modify id f }

@[simp] theorem get?_modify (w : Workspace) (id k : BlockId) (f : Block → Block) :
    (w.modify id f).get? k = if k = id then (w.get? k).map f else w.get? k :=
  Table.get?_modify w.blocks id k f

@[simp] theorem ids_modify (w : Workspace) (id : BlockId) (f : Block → Block) :
    (w.modify id f).ids = w.ids := Table.keys_modify w.blocks id f

theorem mem_ids_iff (w : Workspace) (id : BlockId) : id ∈ w.ids ↔ (w.get? id).isSome = true :=
  w.blocks.mem_keys_iff id

theorem mem_ids_of_type? {w : Workspace} {id : BlockId} {type : String}
    (h : w.type? id = some type) : id ∈ w.ids := by
  obtain ⟨b, hb, -⟩ := Option.map_eq_some_iff.mp h
  exact (w.mem_ids_iff id).mpr (by simp [hb])

end Workspace

end BlockProgram
