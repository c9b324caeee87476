import BlockProgram.Json.Fault
import BlockProgram.Library.Refusal

/-!
# Failures

Everything that can end a load or a generation, by cause. `Failure.message` has
the wording.
-/
namespace BlockProgram

/-- A block of a workspace. -/
abbrev BlockId := String

/-- Why a definition cannot be taken into a vocabulary. -/
inductive Rejection where
  | emptyType
  | valueWithStatements (type : String)
  | startNotRoot (type : String)
  | nameFieldNotText (type field : String)
  | namelessSystem (type field : String)
  deriving DecidableEq, Repr

namespace Rejection

/-- The type, or the field of the type, at fault. -/
def path : Rejection → String
  | emptyType => "type"
  | valueWithStatements type => type
  | startNotRoot type => type
  | nameFieldNotText type _ => type
  | namelessSystem type field => type ++ "." ++ field

def message : Rejection → String
  | emptyType => "block type is empty"
  | valueWithStatements _ => "a value block cannot also connect to previous or next statements"
  | startNotRoot _ => "a program start block must be a root block"
  | nameFieldNotText _ field => "constructor name field `" ++ field ++ "` must be a field_input"
  | namelessSystem _ _ => "instance dropdown names no system"

end Rejection

/-- Why no code can be written for a block. -/
inductive CodeFault where
  | connectedToItself (block : BlockId)
  | chainLoops (block : BlockId)
  | valueAsStatement (block : BlockId)
  | statementAsValue (block owner : BlockId) (input : String)
  | notInstanceField (field type : String)
  | host (text : String)
  deriving DecidableEq, Repr

def CodeFault.message : CodeFault → String
  | .connectedToItself block => "block " ++ block ++ " is connected to itself"
  | .chainLoops block => "statement chain loops at block " ++ block
  | .valueAsStatement block => "value block " ++ block ++ " is used as a statement"
  | .statementAsValue block owner input =>
    "statement block " ++ block ++ " is plugged into value input " ++ owner ++ "." ++ input
  | .notInstanceField field type =>
    "field `" ++ field ++ "` of `" ++ type ++ "` is not an instance dropdown"
  | .host text => text

inductive Failure where
  | refused (source : String) (refusal : Refusal)
  | rejected (library : String) (rejection : Rejection)
  | unreadable (source : String) (place : Json.Place) (cause : Json.Cause)
  | noTemplate (type : String)
  | unknownType (type : String)
  | noBlock (block : BlockId)
  | code (fault : CodeFault)

/-- Failures by class, as a host tells them apart. -/
inductive FailureKind where
  | invalidConfiguration
  | missingCodeTemplate
  | unknownBlockType
  | blockNotFound
  | codeGeneration
  deriving DecidableEq, Repr

/-- Where configuration is wrong, and why. -/
structure Complaint where
  source : String
  path : String
  reason : String
  deriving DecidableEq, Repr

namespace Failure

def kind : Failure → FailureKind
  | refused _ _ => .invalidConfiguration
  | rejected _ _ => .invalidConfiguration
  | unreadable _ _ _ => .invalidConfiguration
  | noTemplate _ => .missingCodeTemplate
  | unknownType _ => .unknownBlockType
  | noBlock _ => .blockNotFound
  | code _ => .codeGeneration

def complaint? : Failure → Option Complaint
  | refused source refusal => some ⟨source, refusal.path.render, refusal.reason.message⟩
  | rejected library rejection => some ⟨library, rejection.path, rejection.message⟩
  | unreadable source place cause =>
    let line := toString place.line
    let column := toString place.column
    some ⟨source, "line " ++ line ++ ", column " ++ column,
      cause.message ++ " at line " ++ line ++ " column " ++ column⟩
  | _ => none

def Complaint.message (c : Complaint) : String :=
  "invalid configuration in " ++ c.source ++ " at `" ++ c.path ++ "`: " ++ c.reason

def message (f : Failure) : String :=
  match f.complaint? with
  | some c => Complaint.message c
  | none => match f with
    | noTemplate type => "block type `" ++ type ++ "` has no code template"
    | unknownType type => "no generator registered for block type `" ++ type ++ "`"
    | noBlock block => "block `" ++ block ++ "` does not exist in the workspace"
    | code fault => "code generation failed: " ++ fault.message
    | _ => ""

/-- The block type that the failure is about. -/
def blockType? : Failure → Option String
  | noTemplate type => some type
  | unknownType type => some type
  | _ => none

end Failure

/-- Reads a whole text; a fault is reported with its place in the text. -/
def readText {α : Type} (source : String) (reader : List Char → Except Json.Fault α)
    (text : String) : Except Failure α :=
  match reader text.toList with
  | .ok a => .ok a
  | .error fault => .error (.unreadable source (fault.place text.toList) fault.cause)

end BlockProgram
