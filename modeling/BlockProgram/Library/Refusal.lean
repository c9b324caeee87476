import BlockProgram.Json.Writer
import BlockProgram.Library.Path

/-!
# Refusals

Why a document is refused, and at which path.
-/
namespace BlockProgram

inductive Reason where
  | expected (wanted : String) (found : Json.Kind)
  | missing
  | unknown
  | notWord (text : String)
  | notName (text : String)
  | contentsAndCustom
  | hueOutOfRange
  | colourAndStyle
  | definedTwice (type : String)
  | unknownItem (kind : String)
  | gapOutOfRange
  | duplicateArgument (name : String)
  | repeatedPlaceholder (name : String)
  | unmatchedPlaceholder (name : String)
  | valueWithStatements
  | startNotOnTop
  | unknownPrecedence (value : Json)
  | unknownArgument (type : String)
  | choicesAndInstances
  | noChoices
  | notPair
  | duplicateVirtual (name : String)
  | nameFieldNotText (field : String)
  | nameFieldMissing (field : String)

def Reason.message : Reason → String
  | .expected wanted found => "expected " ++ wanted ++ ", found " ++ found.describe
  | .missing => "missing required field"
  | .unknown => "unknown field"
  | .notWord text => "`" ++ text ++ "` is not a valid identifier"
  | .notName text => "`" ++ text ++ "` is not a valid argument name"
  | .contentsAndCustom => "a category has either `contents` or `custom`, not both"
  | .hueOutOfRange => "hue must be an integer between 0 and 360"
  | .colourAndStyle => "`color` and `style` are mutually exclusive"
  | .definedTwice type => "block type `" ++ type ++ "` is defined twice in this document"
  | .unknownItem kind => "unknown item kind `" ++ kind ++ "`"
  | .gapOutOfRange => "gap must be non-negative"
  | .duplicateArgument name => "duplicate argument `" ++ name ++ "`"
  | .repeatedPlaceholder name => "placeholder `$[" ++ name ++ "]` appears more than once"
  | .unmatchedPlaceholder name => "placeholder `$[" ++ name ++ "]` has no matching argument"
  | .valueWithStatements => "a value block cannot also connect to previous or next statements"
  | .startNotOnTop => "a program start block cannot have a previous connection or an output"
  | .unknownPrecedence value => "unknown precedence class " ++ value.compact
  | .unknownArgument type => "unknown argument type `" ++ type ++ "`"
  | .choicesAndInstances => "a dropdown has either static `options` or `instanceOf`, not both"
  | .noChoices => "a dropdown needs at least one option"
  | .notPair => "expected a [label, value] pair"
  | .duplicateVirtual name => "duplicate virtual instance `" ++ name ++ "`"
  | .nameFieldNotText field => "name field `" ++ field ++ "` must be a field_input"
  | .nameFieldMissing field => "name field `" ++ field ++ "` is not an argument of the block"

structure Refusal where
  path : Path
  reason : Reason

/-- A check that stops at the first refusal. -/
abbrev Checked := Except Refusal

def refuse {α : Type} (path : Path) (reason : Reason) : Checked α := .error ⟨path, reason⟩

end BlockProgram
