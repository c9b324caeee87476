import BlockProgram.Proofs.Passes

/-!
# What the reachability pass decides

The pass goes through the blocks one by one and writes the reason of one block at a
time. What it decides for a block depends on types and parents, which it does not
write, so that after the pass every block has the reason just when it was out of
reach before.
-/
namespace BlockProgram

namespace Workspace

variable (settings : Settings) (v : Vocabulary)

lemma isReachable_congr {w w' : Workspace} (hids : w'.ids = w.ids)
    (hview : ∀ k, (w'.get? k).map (fun b => (b.type, b.parent)) =
      (w.get? k).map fun b => (b.type, b.parent)) (id : BlockId) :
    w'.isReachable settings v id = w.isReachable settings v id := by
  have htype : w'.type? = w.type? := by
    funext k
    have h := congrArg (Option.map Prod.fst) (hview k)
    rwa [Option.map_map, Option.map_map] at h
  have hparent : w'.parent? = w.parent? := by
    funext k
    have h := congrArg (Option.bind · Prod.snd) (hview k)
    simp only [Option.bind_map] at h
    exact h
  have hsize : w'.size = w.size := by
    have h : w'.ids.length = w.ids.length := by rw [hids]
    rwa [ids, ids, Table.length_keys, Table.length_keys] at h
  rw [isReachable, isReachable, root, root, ancestry, ancestry, hparent, hsize, htype]

lemma isReachable_disable (w : Workspace) (k : BlockId) (reason : String) (on : Bool)
    (id : BlockId) :
    (w.disable k reason on).isReachable settings v id = w.isReachable settings v id :=
  isReachable_congr settings v (ids_modify w.count k _)
    (fun j => map_get?_disable (fun _ _ => rfl) w k j reason on) id

lemma hasReason_disable (w : Workspace) (id k : BlockId) (reason : String) (on : Bool) :
    (w.disable id reason on).hasReason k reason =
      if k = id then on && (w.get? k).isSome else w.hasReason k reason := by
  simp only [hasReason, disable, get?_modify, get?_count]
  by_cases hk : k = id
  · rw [if_pos hk, if_pos hk]
    cases w.get? k with
    | none => simp
    | some b => cases on <;> simp
  · rw [if_neg hk, if_neg hk]

lemma hasReason_congr {w w' : Workspace} {k : BlockId}
    (h : (w'.get? k).map Block.disabled = (w.get? k).map Block.disabled) (reason : String) :
    w'.hasReason k reason = w.hasReason k reason := by
  unfold hasReason
  cases hb' : w'.get? k <;> cases hb : w.get? k <;> simp_all

/-- The step for one block gives or takes its reason and leaves all others alone. -/
lemma hasReason_updateReach {w : Workspace} (report : ReachabilityReport) {id : BlockId}
    (hid : id ∈ w.ids) (k : BlockId) :
    (updateReach settings v w report id).1.hasReason k settings.unreachableReason =
      if k = id then !w.isReachable settings v id
      else w.hasReason k settings.unreachableReason := by
  rw [mem_ids_iff] at hid
  unfold updateReach
  dsimp only
  by_cases hstale : w.hasReason id settings.unreachableReason = w.isReachable settings v id
  · rw [if_pos (by simp [hstale]), hasReason_disable]
    split
    · next hk => rw [hk, hid, Bool.and_true]
    · rfl
  · rw [if_neg (by simpa using hstale)]
    split
    · next hk => rw [hk, ← Bool.eq_not_of_ne hstale]
    · rfl

lemma ids_updateReach (w : Workspace) (report : ReachabilityReport) (id : BlockId) :
    (updateReach settings v w report id).1.ids = w.ids := by
  unfold updateReach
  dsimp only
  split
  · exact ids_modify w.count id _
  · rfl

lemma isReachable_updateReach (w : Workspace) (report : ReachabilityReport) (k id : BlockId) :
    (updateReach settings v w report k).1.isReachable settings v id =
      w.isReachable settings v id := by
  unfold updateReach
  dsimp only
  split
  · exact isReachable_disable settings v w k _ _ id
  · rfl

/-- The blocks that the pass comes to are decided, the others keep their reason. -/
lemma hasReason_foldl_updateReach {w : Workspace} {pending : List BlockId}
    (hpending : pending ⊆ w.ids) (report : ReachabilityReport) (k : BlockId) :
    (pending.foldl (fun r id => updateReach settings v r.1 r.2 id) (w, report)).1.hasReason k
        settings.unreachableReason =
      if k ∈ pending then !w.isReachable settings v k
      else w.hasReason k settings.unreachableReason := by
  induction pending generalizing w report with
  | nil => simp
  | cons id rest ih =>
    obtain ⟨hid, hrest⟩ := List.cons_subset.mp hpending
    rw [List.foldl_cons, ih (by rwa [ids_updateReach]), isReachable_updateReach,
      hasReason_updateReach settings v report hid]
    by_cases hk : k = id
    · simp [hk]
    · simp [hk]

/-- After the pass a block has the reason just when its topmost block is no entry point. -/
theorem hasReason_updateReachability {w : Workspace} {id : BlockId} (hid : id ∈ w.ids) :
    (w.updateReachability settings v).1.hasReason id settings.unreachableReason =
      !w.isReachable settings v id := by
  rw [updateReachability, hasReason_foldl_updateReach settings v (List.Subset.refl _), if_pos hid]

/-! ### A second pass -/

lemma ids_foldl_updateReach (w : Workspace) (pending : List BlockId)
    (report : ReachabilityReport) :
    (pending.foldl (fun r id => updateReach settings v r.1 r.2 id) (w, report)).1.ids = w.ids := by
  induction pending generalizing w report with
  | nil => rfl
  | cons id rest ih => rw [List.foldl_cons, ih, ids_updateReach]

theorem ids_updateReachability (w : Workspace) :
    (w.updateReachability settings v).1.ids = w.ids :=
  ids_foldl_updateReach settings v w w.ids {}

theorem isReachable_updateReachability (w : Workspace) :
    (w.updateReachability settings v).1.isReachable settings v = w.isReachable settings v :=
  funext (isReachable_congr settings v (ids_updateReachability settings v w)
    fun k => map_get?_updateReachability (fun _ _ => rfl) settings v w k)

lemma counts_foldl_updateReach (w : Workspace) (pending : List BlockId)
    (report : ReachabilityReport) :
    (pending.foldl (fun r id => updateReach settings v r.1 r.2 id) (w, report)).2.reachable =
        report.reachable + pending.countP (w.isReachable settings v) ∧
      (pending.foldl (fun r id => updateReach settings v r.1 r.2 id) (w, report)).2.unreachable =
        report.unreachable + pending.countP fun id => !w.isReachable settings v id := by
  induction pending generalizing w report with
  | nil => simp
  | cons id rest ih =>
    have hsame : (updateReach settings v w report id).1.isReachable settings v =
        w.isReachable settings v := funext (isReachable_updateReach settings v w report id)
    rw [List.foldl_cons, (ih _ _).1, (ih _ _).2, hsame]
    simp only [updateReach, List.countP_cons]
    cases w.isReachable settings v id
    · exact ⟨by simp, by simp; omega⟩
    · exact ⟨by simp; omega, by simp⟩

/-- The pass reports how many blocks are in reach and how many are not. -/
theorem counts_updateReachability (w : Workspace) :
    (w.updateReachability settings v).2.reachable = w.ids.countP (w.isReachable settings v) ∧
      (w.updateReachability settings v).2.unreachable =
        w.ids.countP fun id => !w.isReachable settings v id := by
  have h := counts_foldl_updateReach settings v w w.ids {}
  simpa [updateReachability] using h

lemma updateReach_of_decided {w : Workspace} (report : ReachabilityReport) {id : BlockId}
    (h : w.hasReason id settings.unreachableReason = !w.isReachable settings v id) :
    (updateReach settings v w report id).1 = w ∧
      (updateReach settings v w report id).2.changed = report.changed := by
  simp [updateReach, h]

/-- Where every block has the reason just when it is out of reach, there is nothing to do. -/
theorem updateReachability_of_decided {w : Workspace}
    (h : ∀ id ∈ w.ids, w.hasReason id settings.unreachableReason =
      !w.isReachable settings v id) :
    (w.updateReachability settings v).1 = w ∧ (w.updateReachability settings v).2.changed = 0 := by
  have hfold (pending : List BlockId) (hpending : pending ⊆ w.ids)
      (r : Workspace × ReachabilityReport) (hr : r.1 = w ∧ r.2.changed = 0) :
      (pending.foldl (fun r id => updateReach settings v r.1 r.2 id) r).1 = w ∧
        (pending.foldl (fun r id => updateReach settings v r.1 r.2 id) r).2.changed = 0 := by
    induction pending generalizing r with
    | nil => exact hr
    | cons id rest ih =>
      obtain ⟨hid, hrest⟩ := List.cons_subset.mp hpending
      obtain ⟨hw, hchanged⟩ := updateReach_of_decided settings v r.2 (h id hid)
      refine ih hrest _ ?_
      dsimp only
      rw [hr.1]
      exact ⟨hw, hchanged.trans hr.2⟩
  exact hfold w.ids (List.Subset.refl _) (w, {}) ⟨rfl, rfl⟩

end Workspace

end BlockProgram
