import BlockProgram.Proofs.Editing

/-!
# Blocks at the top in the editor's order

Blocks without a parent are listed by their places. The sort is stable, so that blocks at
one place stay in the order they were added, and taking blocks away leaves the others in
order. Places are no limit to the editor: it can show the blocks at the top in any order.
-/
namespace BlockProgram.Workspace

variable {w : Workspace} {place place' : BlockId → Nat}

/-! ### Sorting by place -/

lemma insertByPlace_eq_orderedInsert (place : BlockId → Nat) (id : BlockId) (ids : List BlockId) :
    insertByPlace place id ids = ids.orderedInsert (fun a b => place a ≤ place b) id := by
  induction ids with
  | nil => rfl
  | cons first rest ih => rw [insertByPlace, List.orderedInsert_cons, ih]

lemma byPlace_cons (place : BlockId → Nat) (id : BlockId) (rest : List BlockId) :
    byPlace place (id :: rest) = insertByPlace place id (byPlace place rest) := rfl

lemma byPlace_eq_insertionSort (place : BlockId → Nat) (ids : List BlockId) :
    byPlace place ids = ids.insertionSort fun a b => place a ≤ place b := by
  induction ids with
  | nil => rfl
  | cons id rest ih =>
    rw [List.insertionSort_cons, ← ih, ← insertByPlace_eq_orderedInsert, byPlace_cons]

lemma perm_byPlace (place : BlockId → Nat) (ids : List BlockId) :
    (byPlace place ids).Perm ids := by
  rw [byPlace_eq_insertionSort]
  exact List.perm_insertionSort _ ids

lemma pairwise_byPlace (place : BlockId → Nat) (ids : List BlockId) :
    (byPlace place ids).Pairwise fun a b => place a ≤ place b := by
  have htotal : Std.Total fun a b => place a ≤ place b := ⟨fun a b => le_total _ _⟩
  have htrans : IsTrans BlockId fun a b => place a ≤ place b := ⟨fun _ _ _ => le_trans⟩
  rw [byPlace_eq_insertionSort]
  exact List.pairwise_insertionSort _ ids

lemma insertByPlace_congr {id : BlockId} {ids : List BlockId} (hid : place id = place' id)
    (hids : ∀ k ∈ ids, place k = place' k) :
    insertByPlace place id ids = insertByPlace place' id ids := by
  induction ids with
  | nil => rfl
  | cons first rest ih =>
    rw [List.forall_mem_cons] at hids
    rw [insertByPlace, insertByPlace, hid, hids.1, ih hids.2]

/-- Only the places of the blocks that are sorted matter. -/
lemma byPlace_congr {ids : List BlockId} (h : ∀ k ∈ ids, place k = place' k) :
    byPlace place ids = byPlace place' ids := by
  induction ids with
  | nil => rfl
  | cons id rest ih =>
    rw [List.forall_mem_cons] at h
    have hrest (k : BlockId) (hk : k ∈ byPlace place' rest) : place k = place' k :=
      h.2 k ((perm_byPlace place' rest).mem_iff.mp hk)
    rw [byPlace_cons, byPlace_cons, ih h.2, insertByPlace_congr h.1 hrest]

/-- A block that is put in front of all others shown no earlier stays in front of those that
are left of them. -/
lemma filter_insertByPlace {ids : List BlockId} (h : ids.Pairwise fun a b => place a ≤ place b)
    (id : BlockId) (p : BlockId → Bool) : (insertByPlace place id ids).filter p =
      if p id then insertByPlace place id (ids.filter p) else ids.filter p := by
  induction ids with
  | nil => cases hid : p id <;> simp [insertByPlace, hid]
  | cons first rest ih =>
    obtain ⟨hfirst, hrest⟩ := List.pairwise_cons.mp h
    rw [insertByPlace]
    split
    · next hle =>
      have hfront : insertByPlace place id ((first :: rest).filter p) =
          id :: (first :: rest).filter p := by
        cases hkept : (first :: rest).filter p with
        | nil => rfl
        | cons k kept =>
          have hk : k ∈ first :: rest := (List.mem_filter.mp (hkept ▸ List.mem_cons_self)).1
          have hplace : place id ≤ place k := by
            rcases List.mem_cons.mp hk with rfl | hk
            · exact hle
            · exact hle.trans (hfirst k hk)
          rw [insertByPlace, if_pos hplace]
      rw [hfront, List.filter_cons]
    · next hle =>
      rw [List.filter_cons, ih hrest, List.filter_cons]
      cases hp : p first with
      | true => cases p id <;> simp [insertByPlace, hle]
      | false => simp

theorem filter_byPlace (ids : List BlockId) (p : BlockId → Bool) :
    (byPlace place ids).filter p = byPlace place (ids.filter p) := by
  induction ids with
  | nil => rfl
  | cons id rest ih =>
    rw [byPlace_cons, filter_insertByPlace (pairwise_byPlace place rest), ih, List.filter_cons]
    split <;> rfl

/-! ### Blocks at the top -/

lemma mem_topBlocks_iff {id : BlockId} :
    id ∈ w.topBlocks ↔ id ∈ w.ids ∧ w.parent? id = none := by
  rw [topBlocks, (perm_byPlace _ _).mem_iff, List.mem_filter,
    Option.isNone_iff_eq_none]

lemma nodup_topBlocks (w : Workspace) : w.topBlocks.Nodup := by
  rw [topBlocks, (perm_byPlace _ _).nodup_iff]
  exact w.blocks.nodup_keys.filter _

/-! ### Any order -/

/-- Shows the blocks one after the other, from a place on. -/
def showFrom : Nat → List BlockId → Workspace → Workspace
  | _, [], w => w
  | n, id :: rest, w => showFrom (n + 1) rest (w.modify id fun b => { b with place := n })

/-- Nothing but places changes. -/
lemma map_get?_showFrom {β : Type} {π : Block → β}
    (hπ : ∀ b n, π { b with place := n } = π b) (n : Nat) (shown : List BlockId) (w : Workspace)
    (k : BlockId) : ((showFrom n shown w).get? k).map π = (w.get? k).map π := by
  induction shown generalizing n w with
  | nil => rfl
  | cons id rest ih =>
    rw [showFrom, ih]
    exact map_get?_modify w id k fun b => hπ b n

lemma ids_showFrom (n : Nat) (shown : List BlockId) (w : Workspace) :
    (showFrom n shown w).ids = w.ids := by
  induction shown generalizing n w with
  | nil => rfl
  | cons id rest ih => rw [showFrom, ih, ids_modify]

lemma place_showFrom_of_not_mem {k : BlockId} {shown : List BlockId} (h : k ∉ shown) (n : Nat)
    (w : Workspace) : (showFrom n shown w).place k = w.place k := by
  induction shown generalizing n w with
  | nil => rfl
  | cons id rest ih =>
    rw [List.mem_cons, not_or] at h
    rw [showFrom, ih h.2, place, get?_modify, if_neg h.1, place]

/-- Blocks that are shown one after the other have ascending places. -/
lemma pairwise_showFrom {shown : List BlockId} (hnodup : shown.Nodup) {w : Workspace}
    (hlive : shown ⊆ w.ids) (n : Nat) :
    (∀ k ∈ shown, n ≤ (showFrom n shown w).place k) ∧
      shown.Pairwise fun a b => (showFrom n shown w).place a < (showFrom n shown w).place b := by
  induction shown generalizing n w with
  | nil => exact ⟨by simp, .nil⟩
  | cons id rest ih =>
    obtain ⟨hid, hrest⟩ := List.nodup_cons.mp hnodup
    obtain ⟨hlive, hrestLive⟩ := List.cons_subset.mp hlive
    obtain ⟨hlater, hascending⟩ :=
      ih hrest (w := w.modify id fun b => { b with place := n }) (by rwa [ids_modify]) (n + 1)
    have hplace : (showFrom n (id :: rest) w).place id = n := by
      obtain ⟨b, hb⟩ := Option.isSome_iff_exists.mp ((w.mem_ids_iff id).mp hlive)
      rw [showFrom, place_showFrom_of_not_mem hid, place, get?_modify, if_pos rfl, hb]
      rfl
    refine ⟨?_, List.pairwise_cons.mpr ⟨fun k hk => ?_, hascending⟩⟩
    · rw [List.forall_mem_cons]
      exact ⟨hplace.ge, fun k hk => (Nat.le_succ n).trans (hlater k hk)⟩
    · rw [hplace]
      exact hlater k hk

/-- The blocks at the top can be shown in any order, with nothing but places changed. -/
theorem exists_topBlocks_eq (w : Workspace) {shown : List BlockId}
    (h : shown.Perm w.topBlocks) :
    ∃ w' : Workspace, w'.topBlocks = shown ∧ w'.ids = w.ids ∧
      ∀ k, (w'.get? k).map ({ · with place := 0 }) = (w.get? k).map ({ · with place := 0 }) := by
  set w' := showFrom 0 shown w
  have hparent : w'.parent? = w.parent? := by
    funext k
    have hview := congrArg (·.bind id)
      (map_get?_showFrom (π := Block.parent) (fun _ _ => rfl) 0 shown w k)
    rwa [Option.bind_map, Option.bind_map] at hview
  have hids : w'.ids = w.ids := ids_showFrom 0 shown w
  have hperm : w'.topBlocks.Perm shown := by
    refine ((perm_byPlace _ _).trans ?_).trans h.symm
    rw [hids, hparent]
    exact (perm_byPlace _ _).symm
  have hlive : shown ⊆ w.ids := fun k hk => (mem_topBlocks_iff.mp (h.mem_iff.mp hk)).1
  obtain ⟨-, hascending⟩ := pairwise_showFrom (h.nodup_iff.mpr w.nodup_topBlocks) hlive 0
  refine ⟨w', ?_, hids, map_get?_showFrom (fun _ _ => rfl) 0 shown w⟩
  have hplaces : (shown.map w'.place).Nodup := List.pairwise_map.mpr (hascending.imp ne_of_lt)
  refine hperm.eq_of_pairwise (fun a b ha hb hab hba => ?_) (pairwise_byPlace _ _)
    (hascending.imp le_of_lt)
  exact List.inj_on_of_nodup_map hplaces (hperm.mem_iff.mp ha) hb (le_antisymm hab hba)

end BlockProgram.Workspace
