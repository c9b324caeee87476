import BlockProgram.Workspace.Basic

/-!
# Editing a workspace

What the editor does to the graph: blocks are added, plugged together, pulled
apart and deleted. An edit of a block that is not there changes nothing, and of a
connection to such a block the other half is made: the slot that holds it, or the
parent link that leads to it.
-/
namespace BlockProgram

namespace Block

/-- The block without any connection down to `child`. -/
def release (b : Block) (child : BlockId) : Block :=
  { b with
    inputs := b.inputs.filterValues (· != child)
    next := if b.next = some child then none else b.next }

/-- The blocks that a block holds, in the order they are removed. -/
def held (b : Block) : List BlockId :=
  (b.inputs.values ++ b.next.toList).reverse

end Block

namespace Workspace

/-- The id with a number. -/
def numbered (n : Nat) : BlockId := "b" ++ toString n

/-- The first number after the last one whose id is free. Of the numbers tried,
one more than there are blocks, one is free. -/
def freshNumber (w : Workspace) : Nat :=
  let tries := (List.range (w.size + 1)).map (w.lastId + 1 + ·)
  (tries.find? fun n => !w.blocks.contains (numbered n)).getD (w.lastId + 1)

/-- Adds a block under a given id, in place of the one that has it. -/
def addAs (w : Workspace) (id : BlockId) (type : String) : Workspace :=
  { w with blocks := w.blocks.insert id { type } }

/-- Adds a block under a fresh id. -/
def add (w : Workspace) (type : String) : Workspace × BlockId :=
  let n := w.freshNumber
  ({ w with lastId := n }.addAs (numbered n) type, numbered n)

def setField (w : Workspace) (id : BlockId) (name value : String) : Workspace :=
  w.modify id fun b => { b with fields := b.fields.insert name value }

def setParent (w : Workspace) (id : BlockId) (parent : Option BlockId) : Workspace :=
  w.modify id fun b => { b with parent }

/-- Pulls a block off its parent, with all that hangs on it. -/
def disconnect (w : Workspace) (child : BlockId) : Workspace :=
  match w.parent? child with
  | none => w
  | some parent => (w.setParent child none).modify parent (·.release child)

/-- Takes the parent from a block that has been pushed out of its place. -/
def orphan (w : Workspace) : Option BlockId → Workspace
  | some id => w.setParent id none
  | none => w

/-- Plugs a block into an input. -/
def connectInput (w : Workspace) (parent : BlockId) (input : String) (child : BlockId) :
    Workspace :=
  let w := w.disconnect child
  let displaced := w.target? parent input
  let w := w.modify parent fun b => { b with inputs := b.inputs.insert input child }
  (w.orphan displaced).setParent child (some parent)

/-- Puts a block after another. -/
def connectNext (w : Workspace) (previous next : BlockId) : Workspace :=
  let w := w.disconnect next
  let displaced := w.next? previous
  let w := w.modify previous fun b => { b with next := some next }
  (w.orphan displaced).setParent next (some previous)

/-- Removes the pending blocks and all they hold, last found first. -/
def removeAll (blocks : Table Block) (pending : List BlockId) : Table Block × List BlockId :=
  match pending with
  | [] => (blocks, [])
  | id :: rest =>
    match _h : blocks.get? id with
    | some b =>
      let (left, removed) := removeAll (blocks.erase id) (b.held ++ rest)
      (left, id :: removed)
    | none => removeAll blocks rest
termination_by (blocks.size, pending.length)
decreasing_by
  · exact Prod.Lex.left _ _ (Table.size_erase_lt _h)
  · exact Prod.Lex.right _ (by simp)

/-- Deletes a block and all it holds; gives the ids removed. -/
def delete (w : Workspace) (id : BlockId) : Workspace × List BlockId :=
  let w := w.disconnect id
  let (blocks, removed) := removeAll w.blocks [id]
  ({ w with blocks }, removed)

end Workspace

end BlockProgram
