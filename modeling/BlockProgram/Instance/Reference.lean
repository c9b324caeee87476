import BlockProgram.Failure
import BlockProgram.Json.Reader

/-!
# References to virtual instances

A virtual instance is referred to by the block that provides it, not by the
name of that block's instance, so a reference outlives a renaming. It is stored
as a JSON array of three strings.
-/
namespace BlockProgram

/-- Part `name` of the instance constructed by a block of a type. -/
structure Reference where
  type : String
  block : BlockId
  name : String
  deriving DecidableEq, Repr

namespace Reference

def encode (r : Reference) : String :=
  (Json.array [.string r.type, .string r.block, .string r.name]).compact

/-- Only a text that starts with a bracket is taken for a reference. -/
def decode? (s : String) : Option Reference :=
  match s.toList with
  | '[' :: _ => match Json.ofText s with
    | .ok (.array [.string type, .string block, .string name]) => some ⟨type, block, name⟩
    | _ => none
  | _ => none

end Reference

end BlockProgram
