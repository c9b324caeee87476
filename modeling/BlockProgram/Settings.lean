import BlockProgram.Failure
import BlockProgram.Json.Skip
import BlockProgram.Library.Definition

/-!
# Settings

What a host may choose about generated code, instance names and reachability.
Settings are read from JSON text, as an object or as an array of the values in
order; what is left out keeps its default.
-/
namespace BlockProgram

structure Settings where
  /-- Put in front of the lines of a statement input. -/
  indent : String := "  "
  /-- Stands for an empty value input. -/
  nullLiteral : String := "null"
  /-- Follows the stem of a name that has no number yet. -/
  unassignedSuffix : String := "?"
  /-- Offered when there is no instance to choose. -/
  noInstance : Choice := ⟨"No instance available", ""⟩
  /-- The disabling reason of blocks that hang under no entry point. -/
  unreachableReason : String := "UNREACHABLE"
  /-- Types that are entry points beside the program starts. -/
  procedureRootTypes : List String := ["procedures_defnoreturn", "procedures_defreturn"]
  /-- Stands at the top of every program. -/
  header : Option String := none
  deriving DecidableEq, Repr

def Settings.isProcedureRoot (s : Settings) (type : String) : Bool :=
  s.procedureRootTypes.contains type

open Json

/-- A value after a key, for a field that has not been set before. -/
def Json.once {α β : Type} (old : Option α) (name : String) (reader : Reader α)
    (set : α → β) : Reader β := fun s =>
  if old.isSome then stop (.duplicateField name) (leaveMembers s)
  else do
    let s ← colon s
    let (a, s) ← reader s
    return (set a, s)

/-- Passes over the value after an unknown key. -/
def Json.ignore {β : Type} (known : β) : Reader β := fun s => do
  let s ← colon s
  let s ← skipValue (s.length + 1) s
  return (known, s)

/-! ### Choices -/

namespace Choice

/-- The fields of a choice read so far. -/
structure Draft where
  label : Option String := none
  value : Option String := none

def Draft.member (d : Draft) (key : String) : Reader Draft :=
  match key with
  | "label" => once d.label "label" text fun s => { d with label := some s }
  | "value" => once d.value "value" text fun s => { d with value := some s }
  | _ => ignore d

/-- The choice, once the object is closed. -/
def Draft.finish (d : Draft) : Reader Choice := fun s =>
  match d.label, d.value with
  | some label, some value => .ok (⟨label, value⟩, s)
  | none, _ => stop (.missingField "label") s
  | _, none => stop (.missingField "value") s

/-- Exactly two items; with fewer, the array is closed first. -/
def items : Reader Choice := fun s => do
  let wanted := "struct DropdownOption with 2 elements"
  let (more, s) ← nextItem true s
  if !more then stop (.wrongLength 0 wanted) (s.drop 1)
  else
    let (label, s) ← text s
    let (more, s) ← nextItem false s
    if !more then stop (.wrongLength 1 wanted) (s.drop 1)
    else
      let (value, s) ← text s
      let s ← endItems s
      return (⟨label, value⟩, s)

def read : Reader Choice := fun s =>
  match skipSpace s with
  | [] => stop .endOfValue []
  | '[' :: rest => items rest
  | '\x7b' :: rest => do
    let (d, s) ← members Draft.member (rest.length + 1) true {} rest
    d.finish s
  | s => mistyped "struct DropdownOption" s

end Choice

/-! ### Settings -/

namespace Settings

/-- The fields read so far. -/
structure Draft where
  indent : Option String := none
  nullLiteral : Option String := none
  unassignedSuffix : Option String := none
  noInstance : Option Choice := none
  unreachableReason : Option String := none
  procedureRootTypes : Option (List String) := none
  header : Option (Option String) := none

def Draft.finish (d : Draft) : Settings :=
  let plain : Settings := {}
  { indent := d.indent.getD plain.indent
    nullLiteral := d.nullLiteral.getD plain.nullLiteral
    unassignedSuffix := d.unassignedSuffix.getD plain.unassignedSuffix
    noInstance := d.noInstance.getD plain.noInstance
    unreachableReason := d.unreachableReason.getD plain.unreachableReason
    procedureRootTypes := d.procedureRootTypes.getD plain.procedureRootTypes
    header := d.header.getD plain.header }

def Draft.member (d : Draft) (key : String) : Reader Draft :=
  match key with
  | "indent" => once d.indent key text fun v => { d with indent := some v }
  | "nullLiteral" => once d.nullLiteral key text fun v => { d with nullLiteral := some v }
  | "unassignedSuffix" =>
    once d.unassignedSuffix key text fun v => { d with unassignedSuffix := some v }
  | "noInstance" => once d.noInstance key Choice.read fun v => { d with noInstance := some v }
  | "unreachableReason" =>
    once d.unreachableReason key text fun v => { d with unreachableReason := some v }
  | "procedureRootTypes" =>
    once d.procedureRootTypes key (list text) fun v => { d with procedureRootTypes := some v }
  | "header" => once d.header key optionalText fun v => { d with header := some v }
  | _ => ignore d

/-- The next item of an array of settings, if there is one. -/
def nextField {α : Type} (reader : Reader α) (first : Bool) : Reader (Option α) := fun s => do
  let (more, s) ← nextItem first s
  if more then
    let (a, s) ← reader s
    return (some a, s)
  else return (none, s)

/-- The fields in order. -/
def Draft.items : Reader Draft := fun s => do
  let (indent, s) ← nextField text true s
  let (nullLiteral, s) ← nextField text false s
  let (unassignedSuffix, s) ← nextField text false s
  let (noInstance, s) ← nextField Choice.read false s
  let (unreachableReason, s) ← nextField text false s
  let (procedureRootTypes, s) ← nextField (list text) false s
  let (header, s) ← nextField optionalText false s
  let s ← endItems s
  return ({ indent, nullLiteral, unassignedSuffix, noInstance, unreachableReason,
            procedureRootTypes, header }, s)

def read : Reader Settings := fun s =>
  match skipSpace s with
  | [] => stop .endOfValue []
  | '[' :: rest => do
    let (d, s) ← Draft.items rest
    return (d.finish, s)
  | '\x7b' :: rest => do
    let (d, s) ← members Draft.member (rest.length + 1) true {} rest
    return (d.finish, s)
  | s => mistyped "struct CompilerConfig" s

/-- The settings that a text writes. -/
def ofText (s : String) : Except Failure Settings := readText "config" (readAll read) s

end Settings

end BlockProgram
