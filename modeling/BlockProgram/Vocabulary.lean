import BlockProgram.Code.Script
import BlockProgram.Library.Shape

/-!
# Vocabularies

The block types that a program may use: those that libraries declare, and those
for which the host has scripts. A type that is registered again is replaced.
-/
namespace BlockProgram

inductive Registration where
  | declared (library : String) (imports : List String) (definition : Definition)
  | hosted (kind : BlockKind) (code : HostCode)

namespace Registration

def kind : Registration → BlockKind
  | declared _ _ d => d.kind
  | hosted kind _ => kind

def programStart : Registration → Bool
  | declared _ _ d => d.programStart
  | hosted _ _ => false

def library? : Registration → Option String
  | declared library _ _ => some library
  | hosted _ _ => none

def imports : Registration → List String
  | declared _ imports _ => imports
  | hosted _ _ => []

def definition? : Registration → Option Definition
  | declared _ _ d => some d
  | hosted _ _ => none

end Registration

/-- What keeps a definition out of a vocabulary. Definitions read from documents
have most of this behind them; others may not. -/
def Definition.rejection? (d : Definition) : Option Rejection :=
  if d.type.isEmpty then some .emptyType
  else if d.output.isSome && (d.previous || d.next) then some (.valueWithStatements d.type)
  else if d.programStart && d.kind != .root then some (.startNotRoot d.type)
  else
    let unnamed := d.constructs.bind fun c =>
      if (d.argument? c.nameField).any (·.kind.isText) then none
      else some (.nameFieldNotText d.type c.nameField)
    unnamed.or <| (d.instanceFields.find? (·.2.isEmpty)).map fun field =>
      .namelessSystem d.type field.1

/-- Adds a text to a strictly ascending list. -/
def insertSorted (s : String) : List String → List String
  | [] => [s]
  | t :: rest => if s < t then s :: t :: rest else if s = t then t :: rest
    else t :: insertSorted s rest

structure Vocabulary where
  types : Table Registration := {}

namespace Vocabulary

def get? (v : Vocabulary) (type : String) : Option Registration := v.types.get? type

def size (v : Vocabulary) : Nat := v.types.size

def isEmpty (v : Vocabulary) : Bool := v.types.isEmpty

def definition? (v : Vocabulary) (type : String) : Option Definition :=
  (v.get? type).bind (·.definition?)

def isProgramStart (v : Vocabulary) (type : String) : Bool :=
  (v.get? type).any (·.programStart)

def definitions (v : Vocabulary) : List Definition := v.types.values.filterMap (·.definition?)

/-- Takes in a definition of a library with the imports its code needs. -/
def register (v : Vocabulary) (library : String) (imports : List String) (d : Definition) :
    Except Failure Vocabulary :=
  match d.rejection? with
  | some rejection => .error (.rejected library rejection)
  | none => .ok ⟨v.types.insert d.type (.declared library imports d)⟩

/-- Takes in definitions one by one; those before one that is rejected stay. -/
def registerAll (library : String) (imports : List String) :
    Vocabulary → List Definition → Vocabulary × Option Failure
  | v, [] => (v, none)
  | v, d :: rest => match v.register library imports d with
    | .ok v => registerAll library imports v rest
    | .error failure => (v, some failure)

/-- Takes in all blocks of a library. -/
def registerDocument (v : Vocabulary) (doc : Document) : Vocabulary × Option Failure :=
  registerAll doc.category doc.imports v doc.blocks

/-- Takes in a block type with a script. -/
def registerHost (v : Vocabulary) (type : String) (kind : BlockKind) (code : HostCode) :
    Vocabulary :=
  ⟨v.types.insert type (.hosted kind code)⟩

/-- The imports of the libraries that declare the given types, ascending and each once. -/
def importsFor (v : Vocabulary) (types : List String) : List String :=
  (types.flatMap fun type => ((v.get? type).map Registration.imports).getD []).foldl
    (fun sorted s => insertSorted s sorted) []

end Vocabulary

end BlockProgram
