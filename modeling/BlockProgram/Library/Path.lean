import BlockProgram.Json.Basic

/-!
# Paths into JSON values

A path leads from a value to one of its parts by keys and positions. It is
written like `contents[2].args[0].name`, after the base it starts from.
-/
namespace BlockProgram

inductive Step where
  | key (name : String)
  | index (i : Nat)
  deriving DecidableEq, Repr

namespace Json

def step? (j : Json) : Step → Option Json
  | .key name => j.get? name
  | .index i => j.item? i

/-- The part that the steps lead to. -/
def at? : Json → List Step → Option Json
  | j, [] => some j
  | j, s :: rest => (j.step? s).bind (·.at? rest)

@[simp] theorem at?_nil (j : Json) : j.at? [] = some j := rfl

theorem at?_append (j : Json) (a b : List Step) : j.at? (a ++ b) = (j.at? a).bind (·.at? b) := by
  induction a generalizing j with
  | nil => rfl
  | cons s rest ih =>
    simp only [List.cons_append, at?, Option.bind_assoc]
    congr 1
    funext j'
    exact ih j'

end Json

/-- Steps from a part that is itself called `base`. -/
structure Path where
  base : String := ""
  steps : List Step := []
  deriving DecidableEq, Repr

namespace Path

def key (p : Path) (name : String) : Path := { p with steps := p.steps ++ [.key name] }

def index (p : Path) (i : Nat) : Path := { p with steps := p.steps ++ [.index i] }

/-- One more step in writing: a key after a point, unless nothing stands before it. -/
def renderStep (text : String) : Step → String
  | .key name => if text.isEmpty then name else text ++ "." ++ name
  | .index i => text ++ "[" ++ toString i ++ "]"

def render (p : Path) : String := p.steps.foldl renderStep p.base

end Path

end BlockProgram
