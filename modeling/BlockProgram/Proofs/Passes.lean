import BlockProgram.Proofs.Editing
import BlockProgram.Session

/-!
# What the passes over a workspace leave alone

The reachability pass writes disabling reasons only, and the check of selections
writes warnings only. A view that ignores these sees the same blocks after the
pass as before.
-/
namespace BlockProgram

section Passes

variable {β : Type} {π : Block → β}

namespace Workspace

lemma map_get?_disable (hπ : ∀ b reasons, π { b with disabled := reasons } = π b)
    (w : Workspace) (id k : BlockId) (reason : String) (on : Bool) :
    ((w.disable id reason on).get? k).map π = (w.get? k).map π := by
  unfold disable
  rw [map_get?_modify _ _ _ fun b => hπ b _, get?_count]

lemma map_get?_setWarning (hπ : ∀ b warnings, π { b with warnings := warnings } = π b)
    (w : Workspace) (id k : BlockId) (key : String) (text : Option String) :
    ((w.setWarning id key text).get? k).map π = (w.get? k).map π := by
  unfold setWarning
  rw [map_get?_modify _ _ _ fun b => hπ b _, get?_count]

lemma map_get?_updateReach (hπ : ∀ b reasons, π { b with disabled := reasons } = π b)
    (settings : Settings) (v : Vocabulary) (w : Workspace) (report : ReachabilityReport)
    (id k : BlockId) :
    ((updateReach settings v w report id).1.get? k).map π = (w.get? k).map π := by
  unfold updateReach
  dsimp only
  split
  · exact map_get?_disable hπ w id k _ _
  · rfl

theorem map_get?_updateReachability (hπ : ∀ b reasons, π { b with disabled := reasons } = π b)
    (settings : Settings) (v : Vocabulary) (w : Workspace) (k : BlockId) :
    ((w.updateReachability settings v).1.get? k).map π = (w.get? k).map π := by
  unfold updateReachability
  generalize w.ids = ids
  generalize ({} : ReachabilityReport) = report
  induction ids generalizing w report with
  | nil => rfl
  | cons id rest ih => rw [List.foldl_cons, ih, map_get?_updateReach hπ]

end Workspace

namespace InstanceIndex

lemma map_get?_checkField (hπ : ∀ b warnings, π { b with warnings := warnings } = π b)
    (x : InstanceIndex) (w : Workspace) (id k : BlockId) (field system : String) :
    ((x.checkField w id field system).1.get? k).map π = (w.get? k).map π := by
  unfold checkField
  dsimp only
  split
  · exact Workspace.map_get?_setWarning hπ w id k _ _
  · rfl

lemma map_get?_checkFields (hπ : ∀ b warnings, π { b with warnings := warnings } = π b)
    (x : InstanceIndex) (id k : BlockId) (r : Workspace × Nat) (fields : List (String × String)) :
    ((x.checkFields id r fields).1.get? k).map π = (r.1.get? k).map π := by
  induction fields generalizing r with
  | nil => rfl
  | cons e rest ih => rw [checkFields, ih, map_get?_checkField hπ]

theorem map_get?_checkAll (hπ : ∀ b warnings, π { b with warnings := warnings } = π b)
    (x : InstanceIndex) (v : Vocabulary) (w : Workspace) (k : BlockId) :
    ((x.checkAll v w).1.get? k).map π = (w.get? k).map π := by
  unfold checkAll
  generalize w.ids = ids
  generalize (0 : Nat) = invalid
  induction ids generalizing w invalid with
  | nil => rfl
  | cons id rest ih => rw [List.foldl_cons, ih, map_get?_checkFields hπ]

end InstanceIndex

end Passes

end BlockProgram
