import BlockProgram.Instance.Index
import BlockProgram.Text.Marker
import BlockProgram.Workspace.Mark

/-!
# Naming instances

A new instance gets the stem of its constructor and the next number. Two
instances of one constructor never keep the same name: the later one goes back
to the name it had, or gets a new one.
-/
namespace BlockProgram

open Text

/-- What became of a name. -/
inductive NameChange where
  | unchanged
  | assigned (name : String)
  | reverted (name : String)
  deriving DecidableEq, Repr

/-- Counting goes on from numbers below this only. -/
def numberLimit : Nat := 0x10000000000000000

def readDigits (cs : List Char) : Nat := cs.foldl (fun n c => n * 10 + (c.toNat - '0'.toNat)) 0

/-- The number of a name: what follows the stem, if that is digits only. -/
def nameNumber? (stem name : String) : Option Nat :=
  match after? stem.toList name.toList with
  | some (c :: cs) => if (c :: cs).all Char.isDigit then some (readDigits (c :: cs)) else none
  | _ => none

/-- The least number that is not taken. -/
def leastFree (taken : List Nat) : Nat :=
  ((List.range (taken.length + 1)).find? fun n => !taken.contains n).getD 0

/-- One more than the largest number below the limit, or the least free one when
that would reach the limit. -/
def nextNumber (taken : List Nat) : Nat :=
  match (taken.filter (· < numberLimit)).max? with
  | none => 0
  | some m => if m + 1 < numberLimit then m + 1 else leastFree taken

namespace InstanceIndex

/-- The next name for a block of a type. -/
def freshName (w : Workspace) (type : String) (c : Constructor) : String :=
  c.stem ++ toString (nextNumber ((w.named type c).filterMap (nameNumber? c.stem ·.2)))

/-- The constructor of the type of a block. -/
def constructorOf? (x : InstanceIndex) (w : Workspace) (id : BlockId) :
    Option (String × Constructor) :=
  (w.type? id).bind fun type => (x.get? type).map (type, ·)

def isConstructor (x : InstanceIndex) (w : Workspace) (id : BlockId) : Bool :=
  (x.constructorOf? w id).isSome

/-- Names an instance that has no name or the unassigned one. -/
def autoName (x : InstanceIndex) (w : Workspace) (id : BlockId) : Workspace × Option String :=
  match x.constructorOf? w id with
  | none => (w, none)
  | some (type, c) =>
    let current := w.field? id c.nameField
    if current.isSome && current != some (x.unassigned c) then (w, none)
    else
      let name := freshName w type c
      (w.writeField id c.nameField name, some name)

/-- Another block of the type has the name. -/
def isTaken (w : Workspace) (id : BlockId) (type : String) (c : Constructor) (name : String) :
    Bool :=
  (w.named type c).any fun other => other.1 != id && other.2 == name

/-- Settles the name of an instance that was `previous` before a change. -/
def settleName (x : InstanceIndex) (w : Workspace) (id : BlockId) (previous : Option String) :
    Workspace × NameChange :=
  match x.autoName w id with
  | (w, some name) => (w, .assigned name)
  | (w, none) =>
    match x.constructorOf? w id with
    | none => (w, .unchanged)
    | some (type, c) =>
      match w.field? id c.nameField with
      | none => (w, .unchanged)
      | some current =>
        if !isTaken w id type c current then (w, .unchanged)
        else match previous.filter (· != current) with
          | some previous => (w.writeField id c.nameField previous, .reverted previous)
          | none =>
            let name := freshName w type c
            (w.writeField id c.nameField name, .assigned name)

end InstanceIndex

end BlockProgram
