import BlockProgram.Json.Writer
import BlockProgram.Text.Printable

/-!
# Faults in JSON text

A fault names its cause and the place where reading stopped, given by what was
left of the text there. Lines count from one and columns in bytes.
-/
namespace BlockProgram.Json

/-- What stood where something else was wanted. -/
inductive Found where
  | scalar (value : Json)
  | sequence
  | map

inductive Cause where
  | endOfValue
  | endOfObject
  | endOfList
  | endOfString
  | expectedValue
  | expectedWord
  | expectedColon
  | expectedListComma
  | expectedObjectComma
  | keyNotString
  | trailingComma
  | trailingCharacters
  | invalidEscape
  | endOfHexEscape
  | loneSurrogate
  | controlCharacter
  | invalidNumber
  | numberOutOfRange
  | wrongType (found : Found) (wanted : String)
  | missingField (name : String)
  | duplicateField (name : String)
  | wrongLength (length : Nat) (wanted : String)

/-- Reading stopped `ahead` bytes after the start of `rest`. -/
structure Fault where
  cause : Cause
  rest : List Char
  ahead : Nat

def Found.describe : Found → String
  | .scalar (.bool b) => "boolean `" ++ (if b then "true" else "false") ++ "`"
  | .scalar (.number (.int n)) => "integer `" ++ toString n ++ "`"
  | .scalar (.number (.float x)) => "floating point `" ++ Decimal.jsonText x ++ "`"
  | .scalar (.string s) => "string " ++ Text.quoted s
  | .scalar _ => "null"
  | .sequence => "sequence"
  | .map => "map"

def Cause.message : Cause → String
  | .endOfValue => "EOF while parsing a value"
  | .endOfObject => "EOF while parsing an object"
  | .endOfList => "EOF while parsing a list"
  | .endOfString => "EOF while parsing a string"
  | .expectedValue => "expected value"
  | .expectedWord => "expected ident"
  | .expectedColon => "expected `:`"
  | .expectedListComma => "expected `,` or `]`"
  | .expectedObjectComma => "expected `,` or `\x7d`"
  | .keyNotString => "key must be a string"
  | .trailingComma => "trailing comma"
  | .trailingCharacters => "trailing characters"
  | .invalidEscape => "invalid escape"
  | .endOfHexEscape => "unexpected end of hex escape"
  | .loneSurrogate => "lone leading surrogate in hex escape"
  | .controlCharacter => "control character (\\u0000-\\u001F) found while parsing a string"
  | .invalidNumber => "invalid number"
  | .numberOutOfRange => "number out of range"
  | .wrongType found wanted => "invalid type: " ++ found.describe ++ ", expected " ++ wanted
  | .missingField name => "missing field `" ++ name ++ "`"
  | .duplicateField name => "duplicate field `" ++ name ++ "`"
  | .wrongLength length wanted =>
    "invalid length " ++ toString length ++ ", expected " ++ wanted

/-- A place in a text. -/
structure Place where
  line : Nat
  column : Nat
  deriving DecidableEq, Repr

namespace Place

def start : Place := ⟨1, 0⟩

/-- The place `n` bytes further on in a text that goes on with the given
characters. -/
def ahead : Place → Nat → List Char → Place
  | p, 0, _ => p
  | p, _, [] => p
  | p, n + 1, c :: rest =>
    if c = '\n' then ahead ⟨p.line + 1, 0⟩ n rest
    else if n < c.utf8Size then ⟨p.line, p.column + (n + 1)⟩
    else ahead ⟨p.line, p.column + c.utf8Size⟩ (n + 1 - c.utf8Size) rest

end Place

/-- The bytes that characters take in a text. -/
def byteLength : List Char → Nat
  | [] => 0
  | c :: rest => c.utf8Size + byteLength rest

/-- Where in `text` the fault is. -/
def Fault.place (f : Fault) (text : List Char) : Place :=
  Place.start.ahead (byteLength text - byteLength f.rest + f.ahead) text

end BlockProgram.Json
