import BlockProgram.Vocabulary
import BlockProgram.Workspace.Mark

/-!
# Reachability

A block runs only below an entry point: a program start or a procedure. Blocks
whose topmost block is none are disabled for a reason of their own, and enabled
again as far as that reason goes once they hang below one. Only changes are
written.
-/
namespace BlockProgram

structure ReachabilityReport where
  reachable : Nat := 0
  unreachable : Nat := 0
  /-- How many blocks the pass has disabled or enabled. -/
  changed : Nat := 0
  deriving DecidableEq, Repr

/-- Blocks of the type start something that runs. -/
def isEntryPoint (settings : Settings) (v : Vocabulary) (type : String) : Bool :=
  v.isProgramStart type || settings.isProcedureRoot type

namespace Workspace

/-- The topmost block above a block is an entry point. -/
def isReachable (w : Workspace) (settings : Settings) (v : Vocabulary) (id : BlockId) : Bool :=
  (w.type? (w.root id)).any (isEntryPoint settings v)

/-- Brings the reason of one block up to date. -/
def updateReach (settings : Settings) (v : Vocabulary) (w : Workspace)
    (report : ReachabilityReport) (id : BlockId) : Workspace × ReachabilityReport :=
  let reason := settings.unreachableReason
  let reachable := w.isReachable settings v id
  let stale := w.hasReason id reason == reachable
  let report := { report with
    reachable := if reachable then report.reachable + 1 else report.reachable
    unreachable := if reachable then report.unreachable else report.unreachable + 1
    changed := if stale then report.changed + 1 else report.changed }
  (if stale then w.disable id reason (!reachable) else w, report)

/-- Brings the reason of every block up to date. -/
def updateReachability (w : Workspace) (settings : Settings) (v : Vocabulary) :
    Workspace × ReachabilityReport :=
  w.ids.foldl (fun r id => updateReach settings v r.1 r.2 id) (w, {})

end Workspace

end BlockProgram
