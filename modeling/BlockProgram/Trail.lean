/-!
# Trails

From a start one follows a partial step until it has no successor or comes back
to a point already met. Chains of blocks, the way up to a root and the parents
of a category are all walked this way.
-/
namespace BlockProgram

/-- The points met, each once and in order, and the point where the walk would
have met one of them again. -/
structure Trail (α : Type) where
  points : List α
  repeats : Option α
  deriving DecidableEq, Repr

namespace Trail

variable {α : Type} [DecidableEq α]

/-- Walks on from `a`, after the points `seen`, for at most `bound` points. -/
def walk (step : α → Option α) : Nat → List α → α → Trail α
  | 0, _, _ => ⟨[], none⟩
  | bound + 1, seen, a =>
    if a ∈ seen then ⟨[], some a⟩
    else match step a with
      | none => ⟨[a], none⟩
      | some b =>
        let rest := walk step bound (a :: seen) b
        ⟨a :: rest.points, rest.repeats⟩

/-- The trail from `a`, when `step` is defined on at most `size` points: it then
has one point more at most, and if it has that many it does not come back. -/
def follow (step : α → Option α) (size : Nat) (a : α) : Trail α :=
  walk step (size + 1) [] a

/-- The last point met. -/
def last (t : Trail α) (start : α) : α := t.points.getLast?.getD start

end Trail

end BlockProgram
