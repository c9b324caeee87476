import BlockProgram.Proofs.DeadCode
import BlockProgram.Proofs.Framing

/-!
# The reachability pass as a whole

The pass reads the way up from each block while it writes to those before it. Since it
writes reasons only, every block is judged as it stood before the pass. A block comes once,
so the reasons that change, the writes that are counted and the changes that are reported
are equally many, and a second pass has nothing left to do.
-/
namespace BlockProgram

namespace Workspace

/-! ### The way up -/

/-- The way up is followed to a block without parent, or to one whose parent has been met. -/
lemma leads_ancestry (w : Workspace) (id : BlockId) :
    Trail.Leads w.parent? [] id (w.ancestry id) :=
  Trail.leads_follow (fun _ _ => mem_ids_of_parent?) w.blocks.length_keys id

lemma getLast?_ancestry (w : Workspace) (id : BlockId) :
    (w.ancestry id).points.getLast? = some (w.root id) := by
  obtain ⟨last, hlast, -⟩ := (w.leads_ancestry id).exists_last
  rw [root, Trail.last, hlast, Option.getD_some]

section Pass

variable (settings : Settings) (v : Vocabulary)

lemma isReachable_eq_false_iff (w : Workspace) (id : BlockId) :
    w.isReachable settings v id = false ↔ ∀ type, w.type? (w.root id) = some type →
      v.isProgramStart type = false ∧ settings.isProcedureRoot type = false := by
  unfold isReachable isEntryPoint
  cases w.type? (w.root id) with
  | none => simp
  | some type => simp

/-! ### Counting -/

lemma writes_updateReach (w : Workspace) (report : ReachabilityReport) (id : BlockId) :
    (updateReach settings v w report id).1.writes + report.changed =
      w.writes + (updateReach settings v w report id).2.changed := by
  unfold updateReach
  dsimp only
  split
  · simp only [disable, modify, count]
    omega
  · rfl

/-- What the report counts as changed is what has been written. -/
lemma writes_foldl_updateReach (w : Workspace) (pending : List BlockId)
    (report : ReachabilityReport) :
    (pending.foldl (fun r id => updateReach settings v r.1 r.2 id) (w, report)).1.writes +
        report.changed =
      w.writes +
        (pending.foldl (fun r id => updateReach settings v r.1 r.2 id) (w, report)).2.changed := by
  induction pending generalizing w report with
  | nil => rfl
  | cons id rest ih =>
    have hstep := writes_updateReach settings v w report id
    have hrest := ih (updateReach settings v w report id).1 (updateReach settings v w report id).2
    rw [Prod.mk.eta] at hrest
    rw [List.foldl_cons]
    dsimp only
    omega

/-- The blocks that the pass comes to are counted as changed if their reason is wrong before
the pass: what it writes to one block is not seen by the others. -/
lemma changed_foldl_updateReach {w : Workspace} {pending : List BlockId}
    (hnodup : pending.Nodup) (hpending : pending ⊆ w.ids) (report : ReachabilityReport) :
    (pending.foldl (fun r id => updateReach settings v r.1 r.2 id) (w, report)).2.changed =
      report.changed + pending.countP fun id =>
        w.hasReason id settings.unreachableReason == w.isReachable settings v id := by
  induction pending generalizing w report with
  | nil => rfl
  | cons id rest ih =>
    obtain ⟨hid, hrest⟩ := List.cons_subset.mp hpending
    obtain ⟨hnew, hnodup⟩ := List.nodup_cons.mp hnodup
    have hsame : ∀ k ∈ rest,
        ((updateReach settings v w report id).1.hasReason k settings.unreachableReason ==
          (updateReach settings v w report id).1.isReachable settings v k) = true ↔
        (w.hasReason k settings.unreachableReason == w.isReachable settings v k) = true := by
      intro k hk
      have hne : k ≠ id := fun h => hnew (h ▸ hk)
      rw [isReachable_updateReach, hasReason_updateReach settings v report hid, if_neg hne]
    rw [List.foldl_cons, ih hnodup (by rwa [ids_updateReach]), List.countP_congr hsame,
      List.countP_cons]
    simp only [updateReach]
    split <;> omega

/-- The pass changes the reasons that were wrong, and no others. -/
lemma changed_updateReachability (w : Workspace) :
    (w.updateReachability settings v).2.changed = w.ids.countP fun id =>
      (w.updateReachability settings v).1.hasReason id settings.unreachableReason !=
        w.hasReason id settings.unreachableReason := by
  have hcount := changed_foldl_updateReach settings v w.blocks.nodup_keys
    (List.Subset.refl w.ids) {}
  rw [Nat.zero_add] at hcount
  refine hcount.trans (List.countP_congr fun id hid => ?_)
  rw [hasReason_updateReachability settings v hid]
  cases w.hasReason id settings.unreachableReason <;> cases w.isReachable settings v id <;> simp

/-- Every block is counted, in reach or out of it. -/
lemma reachable_add_unreachable (w : Workspace) :
    (w.updateReachability settings v).2.reachable +
      (w.updateReachability settings v).2.unreachable = w.size := by
  obtain ⟨hreachable, hunreachable⟩ := counts_updateReachability settings v w
  have hids : w.ids.length = w.size := w.blocks.length_keys
  rw [hreachable, hunreachable, ← hids, List.length_eq_countP_add_countP (w.isReachable settings v)]
  simp

/-- A second pass reports the same blocks in and out of reach, and no change. -/
lemma updateReachability_again (w : Workspace) :
    (w.updateReachability settings v).1.updateReachability settings v =
      ((w.updateReachability settings v).1,
        { (w.updateReachability settings v).2 with changed := 0 }) := by
  have hreach := isReachable_updateReachability settings v w
  have hids := ids_updateReachability settings v w
  have hdecided : ∀ id ∈ (w.updateReachability settings v).1.ids,
      (w.updateReachability settings v).1.hasReason id settings.unreachableReason =
        !(w.updateReachability settings v).1.isReachable settings v id := by
    intro id hid
    rw [hids] at hid
    rw [hreach, hasReason_updateReachability settings v hid]
  obtain ⟨hsame, hchanged⟩ := updateReachability_of_decided settings v hdecided
  have hcounts := counts_updateReachability settings v (w.updateReachability settings v).1
  rw [hreach, hids, ← (counts_updateReachability settings v w).1,
    ← (counts_updateReachability settings v w).2] at hcounts
  refine Prod.ext hsame ?_
  dsimp only
  rw [← hcounts.1, ← hcounts.2, ← hchanged]

end Pass

/-- The pass gives its reason to just the blocks whose topmost block is missing or starts
nothing, also where the way up comes back on itself or leads to a block that is gone. All else
in the blocks stays as it is. What it reports as changed are the blocks whose reason
differs, one write each, and a second pass reports the same blocks and writes nothing. -/
theorem updateReachability_exact {settings : Settings} {v : Vocabulary} {w w' : Workspace}
    {report : ReachabilityReport} (h : w.updateReachability settings v = (w', report)) :
    (∀ id, Trail.Leads w.parent? [] id (w.ancestry id) ∧
      (w.ancestry id).points.getLast? = some (w.root id)) ∧
    (∀ id ∈ w.ids, w'.hasReason id settings.unreachableReason = true ↔
      ∀ type, w.type? (w.root id) = some type →
        v.isProgramStart type = false ∧ settings.isProcedureRoot type = false) ∧
    w'.ids = w.ids ∧
    (∀ id, (w'.get? id).map (fun b => { b with disabled := [] }) =
      (w.get? id).map fun b => { b with disabled := [] }) ∧
    (∀ id reason, reason ≠ settings.unreachableReason →
      w'.hasReason id reason = w.hasReason id reason) ∧
    report.reachable + report.unreachable = w.size ∧
    report.unreachable = w.ids.countP (w'.hasReason · settings.unreachableReason) ∧
    report.changed = w.ids.countP (fun id => w'.hasReason id settings.unreachableReason !=
      w.hasReason id settings.unreachableReason) ∧
    w'.writes = w.writes + report.changed ∧
    w'.updateReachability settings v = (w', { report with changed := 0 }) := by
  obtain ⟨rfl, rfl⟩ : (w.updateReachability settings v).1 = w' ∧
      (w.updateReachability settings v).2 = report := by
    rw [h]
    exact ⟨rfl, rfl⟩
  have hframe := frame_updateReachability settings v w
  have hwrites := writes_foldl_updateReach settings v w w.ids {}
  refine ⟨fun id => ⟨w.leads_ancestry id, w.getLast?_ancestry id⟩, fun id hid => ?_, hframe.ids,
    fun id => map_get?_updateReachability (fun _ _ => rfl) settings v w id,
    fun id reason hreason => hframe.reason id reason hreason,
    reachable_add_unreachable settings v w, ?_, changed_updateReachability settings v w,
    hwrites, updateReachability_again settings v w⟩
  · rw [hasReason_updateReachability settings v hid, Bool.not_eq_true',
      isReachable_eq_false_iff]
  · rw [(counts_updateReachability settings v w).2]
    refine List.countP_congr fun id hid => ?_
    rw [hasReason_updateReachability settings v hid]

/-- Below the start stands a block that counts as unreachable and has been disabled by hand;
two blocks are each other's parent, so that the topmost block above each is the other; the
parent of the last block is gone. -/
def tangledParents : Workspace where
  blocks := .ofList [
    ("s", { type := "start", inputs := .ofList [("DO", "a")] }),
    ("a", { type := "motor", parent := some "s", disabled := ["MANUAL", "UNREACHABLE"] }),
    ("b", { type := "motor", parent := some "c", disabled := ["UNREACHABLE"] }),
    ("c", { type := "start", parent := some "b" }),
    ("p", { type := "procedures_defnoreturn" }),
    ("d", { type := "motor", parent := some "gone" })]

theorem tangledParents_swept :
    ∃ w', tangledParents.updateReachability {} motorVocabulary = (w', ⟨4, 2, 4⟩) ∧
      (w'.hasReason "a" "UNREACHABLE" = false ∧ w'.hasReason "a" "MANUAL" = true) ∧
      w'.hasReason "b" "UNREACHABLE" = false ∧
      (∀ id ∈ ["c", "d"], w'.hasReason id "UNREACHABLE" = true) ∧ w'.writes = 4 ∧
      w'.updateReachability {} motorVocabulary = (w', ⟨4, 2, 0⟩) := by
  have hreport : (tangledParents.updateReachability {} motorVocabulary).2 = ⟨4, 2, 4⟩ := by
    decide +kernel
  have hpass : tangledParents.updateReachability {} motorVocabulary =
      ((tangledParents.updateReachability {} motorVocabulary).1, ⟨4, 2, 4⟩) := by
    rw [← hreport]
  obtain ⟨-, hreason, -, -, hothers, -, -, -, hwrites, hagain⟩ := updateReachability_exact hpass
  have hin (id : BlockId) (hid : id ∈ tangledParents.ids)
      (htype : tangledParents.type? (tangledParents.root id) = some "start") :
      (tangledParents.updateReachability {} motorVocabulary).1.hasReason id "UNREACHABLE" =
        false := by
    refine Bool.eq_false_iff.mpr fun hmarked => ?_
    exact absurd ((hreason id hid).mp hmarked "start" htype).1 (by decide +kernel)
  have hout : ∀ id ∈ ["c", "d"], id ∈ tangledParents.ids ∧
      ∀ type ∈ tangledParents.type? (tangledParents.root id),
        motorVocabulary.isProgramStart type = false ∧
          Settings.isProcedureRoot {} type = false := by decide +kernel
  refine ⟨_, hpass, ⟨hin "a" (by decide +kernel) (by decide +kernel), ?_⟩,
    hin "b" (by decide +kernel) (by decide +kernel), fun id hid => ?_, hwrites, hagain⟩
  · exact (hothers "a" "MANUAL" (by decide)).trans (by decide +kernel)
  · exact (hreason id (hout id hid).1).mpr (hout id hid).2

end Workspace

end BlockProgram
