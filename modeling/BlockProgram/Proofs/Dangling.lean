import BlockProgram.Proofs.Linking
import BlockProgram.Proofs.Placing

/-!
# Connecting blocks that are not there

An edit of a missing block changes nothing, and connecting is made of such edits: the slot
of the holder, the parent of the block that was in it, and the parent of the child. When
only one of the two blocks is there, half of the connection is made. A missing child leaves
a slot that leads nowhere, and a missing holder a parent that is not there; all other links
stay as they should be.
-/
namespace BlockProgram

lemma Table.modify_of_not_mem {α : Type} {t : Table α} {key : String} (h : key ∉ t.keys)
    (f : α → α) : t.modify key f = t := by
  refine Table.ext_entries ((List.map_congr_left fun e he => ?_).trans t.entries.map_id)
  have hne : e.1 ≠ key := by
    rintro rfl
    exact h (List.mem_map_of_mem he)
  rw [modifyEntry, if_neg hne, id]

namespace Workspace

variable {w : Workspace} {holder child : BlockId}

/-! ### Sound links -/

/-- The parent of a block is there and holds the block in just one slot. -/
def ParentSound (w : Workspace) (c : BlockId) : Prop :=
  ∀ p, w.parent? c = some p → p ∈ w.ids ∧ ∃! slot, w.held? p slot = some c

/-- The block in a slot is there and has the holder as its parent. -/
def SlotSound (w : Workspace) (p : BlockId) (slot : Slot) : Prop :=
  ∀ c, w.held? p slot = some c → c ∈ w.ids ∧ w.parent? c = some p

/-- No link leads to a missing block, and links up and down match one to one. -/
def Consistent (w : Workspace) : Prop :=
  (∀ c, w.ParentSound c) ∧ ∀ p slot, w.SlotSound p slot

lemma Linked.slotSound (h : w.Linked) (p : BlockId) (slot : Slot) : w.SlotSound p slot := by
  intro c hc
  have hparent := h.up p slot c hc
  exact ⟨mem_ids_of_parent? hparent, hparent⟩

lemma Linked.parentSound (h : w.Linked) (c : BlockId) : w.ParentSound c := by
  intro p hp
  obtain ⟨slot, hslot⟩ := h.down p c hp
  refine ⟨mem_ids_of_held? hslot, slot, hslot, fun slot' hslot' => ?_⟩
  exact h.once p slot' slot c hslot' hslot

lemma consistent_iff_linked : w.Consistent ↔ w.Linked := by
  constructor
  · rintro ⟨hparents, hslots⟩
    refine ⟨fun p slot c hc => (hslots p slot c hc).2, fun p c hp => ?_,
      fun p slot slot' c hc hc' => ?_⟩
    · obtain ⟨-, slot, hslot, -⟩ := hparents c p hp
      exact ⟨slot, hslot⟩
    · exact (hparents c p (hslots p slot c hc).2).2.unique hc hc'
  · intro h
    exact ⟨h.parentSound, h.slotSound⟩

/-! ### Edits of missing blocks -/

lemma modify_of_not_mem {id : BlockId} (h : id ∉ w.ids) (f : Block → Block) :
    w.modify id f = w := by
  rw [modify, Table.modify_of_not_mem h]

lemma get?_of_not_mem {id : BlockId} (h : id ∉ w.ids) : w.get? id = none :=
  (w.blocks.get?_eq_none_iff id).mpr h

lemma disconnect_of_not_mem (h : child ∉ w.ids) : w.disconnect child = w := by
  have hnone : w.parent? child = none := by rw [parent?, get?_of_not_mem h, Option.bind_none]
  rw [disconnect, hnone]

lemma connect_of_missing_child (h : child ∉ w.ids) (holder : BlockId) (slot : Slot) :
    w.connect holder slot child =
      (w.modify holder (·.put slot child)).orphan (w.held? holder slot) := by
  rw [connect, disconnect_of_not_mem h]
  exact modify_of_not_mem (by rwa [ids_orphan, ids_modify]) _

lemma connect_of_missing_holder (h : holder ∉ w.ids) (slot : Slot) (child : BlockId) :
    w.connect holder slot child = (w.disconnect child).setParent child (some holder) := by
  have hgone : holder ∉ (w.disconnect child).ids := by rwa [ids_disconnect]
  have hempty : (w.disconnect child).held? holder slot = none := by
    rw [held?_eq, get?_of_not_mem hgone, Option.bind_none]
  rw [connect, modify_of_not_mem hgone, hempty, orphan]

lemma ids_connect (w : Workspace) (holder : BlockId) (slot : Slot) (child : BlockId) :
    (w.connect holder slot child).ids = w.ids := by
  rw [connect, setParent, ids_modify, ids_orphan, ids_modify, ids_disconnect]

/-! ### A missing child -/

section MissingChild

variable (h : w.Linked) (hholder : holder ∈ w.ids) (hchild : child ∉ w.ids) (slot : Slot)
include hchild

lemma parent?_connect_missing_child (k : BlockId) : (w.connect holder slot child).parent? k =
    if w.held? holder slot = some k then none else w.parent? k := by
  rw [connect_of_missing_child hchild, parent?_orphan,
    parent?_modify _ _ _ fun b => b.parent_put slot child]

include hholder

lemma held?_connect_missing_child (k : BlockId) (slot' : Slot) :
    (w.connect holder slot child).held? k slot' =
      if k = holder ∧ slot' = slot then some child else w.held? k slot' := by
  rw [held?_connect hholder, disconnect_of_not_mem hchild]

include h

/-- The block that was in the slot has no parent any more, and no other is concerned. -/
lemma parentSound_connect_missing_child (c : BlockId) :
    (w.connect holder slot child).ParentSound c := by
  intro p hp
  rw [parent?_connect_missing_child hchild] at hp
  split at hp
  · cases hp
  · next hstay =>
    obtain ⟨hlive, slot', hslot', honce⟩ := h.parentSound c p hp
    have hne : child ≠ c := by
      rintro rfl
      exact hchild (mem_ids_of_parent? hp)
    have hheld (s : Slot) :
        (w.connect holder slot child).held? p s = some c ↔ w.held? p s = some c := by
      rw [held?_connect_missing_child hholder hchild]
      split
      · next hplace =>
        rw [hplace.1, hplace.2]
        exact iff_of_false (by simpa using hne) hstay
      · rfl
    rw [ids_connect]
    exact ⟨hlive, slot', (hheld slot').mpr hslot', fun s hs => honce s ((hheld s).mp hs)⟩

lemma slotSound_connect_missing_child (p : BlockId) (slot' : Slot) :
    (w.connect holder slot child).SlotSound p slot' ↔ (p, slot') ≠ (holder, slot) := by
  rw [ne_eq, Prod.mk.injEq]
  constructor
  · rintro hsound hplace
    have hheld := held?_connect_missing_child hholder hchild slot p slot'
    rw [if_pos hplace] at hheld
    exact hchild (ids_connect w holder slot child ▸ (hsound child hheld).1)
  · intro hplace c hc
    rw [held?_connect_missing_child hholder hchild, if_neg hplace] at hc
    obtain ⟨hlive, hparent⟩ := h.slotSound p slot' c hc
    have hstay : w.held? holder slot ≠ some c := by
      intro hslot
      obtain rfl : holder = p := Option.some.inj ((h.up _ _ _ hslot).symm.trans hparent)
      exact hplace ⟨rfl, h.once _ _ _ _ hc hslot⟩
    rw [ids_connect, parent?_connect_missing_child hchild, if_neg hstay]
    exact ⟨hlive, hparent⟩

end MissingChild

/-! ### A missing holder -/

section MissingHolder

variable (h : w.Linked) (hholder : holder ∉ w.ids) (hchild : child ∈ w.ids) (slot : Slot)
include hholder

lemma held?_connect_missing_holder (k : BlockId) (slot' : Slot) :
    (w.connect holder slot child).held? k slot' = (w.disconnect child).held? k slot' := by
  rw [connect_of_missing_holder hholder, held?_setParent]

include hchild

lemma parent?_connect_missing_holder (k : BlockId) : (w.connect holder slot child).parent? k =
    if k = child then some holder else (w.disconnect child).parent? k := by
  rw [← ids_disconnect w child, mem_ids_iff, Option.isSome_iff_exists] at hchild
  obtain ⟨b, hb⟩ := hchild
  rw [connect_of_missing_holder hholder, parent?_setParent]
  split
  · next hk => rw [hk, hb, Option.bind_some]
  · rfl

include h

/-- The child has left its slot before it gets its new parent. -/
lemma slotSound_connect_missing_holder (p : BlockId) (slot' : Slot) :
    (w.connect holder slot child).SlotSound p slot' := by
  intro c hc
  rw [held?_connect_missing_holder hholder] at hc
  obtain ⟨hlive, hparent⟩ := (h.disconnect child).slotSound p slot' c hc
  have hne : c ≠ child := by
    rintro rfl
    rw [parent?_disconnect, if_pos rfl] at hparent
    cases hparent
  rw [ids_connect, parent?_connect_missing_holder hholder hchild, if_neg hne]
  exact ⟨ids_disconnect w child ▸ hlive, hparent⟩

lemma parentSound_connect_missing_holder (c : BlockId) :
    (w.connect holder slot child).ParentSound c ↔ c ≠ child := by
  constructor
  · rintro hsound rfl
    have hparent := parent?_connect_missing_holder hholder hchild slot c
    rw [if_pos rfl] at hparent
    exact hholder (ids_connect w holder slot c ▸ (hsound holder hparent).1)
  · intro hne p hp
    rw [parent?_connect_missing_holder hholder hchild, if_neg hne] at hp
    obtain ⟨hlive, honly⟩ := (h.disconnect child).parentSound c p hp
    simp only [held?_connect_missing_holder hholder]
    exact ⟨by rwa [ids_connect, ← ids_disconnect w child], honly⟩

end MissingHolder

/-! ### Half of a connection -/

/-- What comes of connecting a child to a slot of a holder when one of them is missing. The
workspace stays consistent only if both are, and then nothing changes. Otherwise just one
link leads to a missing block: the slot, or else the parent of the child, which then is
neither at the top nor in any slot. -/
structure ConnectedInPart (w w' : Workspace) (holder : BlockId) (slot : Slot) (child : BlockId) :
    Prop where
  consistent_iff : w'.Consistent ↔ holder ∉ w.ids ∧ child ∉ w.ids
  neither : holder ∉ w.ids → child ∉ w.ids → w' = w
  missingChild : holder ∈ w.ids → w'.held? holder slot = some child ∧
    (∀ c, w'.ParentSound c) ∧ ∀ p slot', w'.SlotSound p slot' ↔ (p, slot') ≠ (holder, slot)
  missingHolder : child ∈ w.ids → w'.parent? child = some holder ∧
    child ∉ w'.topBlocks ∧ (∀ p, ¬ w'.Holds p child) ∧
    (∀ p slot', w'.SlotSound p slot') ∧ ∀ c, w'.ParentSound c ↔ c ≠ child

lemma connect_of_missing_both (hholder : holder ∉ w.ids) (hchild : child ∉ w.ids) (slot : Slot) :
    w.connect holder slot child = w := by
  rw [connect_of_missing_holder hholder, disconnect_of_not_mem hchild, setParent,
    modify_of_not_mem hchild]

lemma not_mem_topBlocks_of_parent? {c p : BlockId} (h : w.parent? c = some p) :
    c ∉ w.topBlocks := by
  intro htop
  have hnone := (mem_topBlocks_iff.mp htop).2
  rw [h] at hnone
  cases hnone

lemma not_holds_of_missing_parent {c p : BlockId} (hslots : ∀ k slot, w.SlotSound k slot)
    (hparent : w.parent? c = some p) (hp : p ∉ w.ids) (k : BlockId) : ¬ w.Holds k c := by
  rintro ⟨slot, hslot⟩
  obtain rfl : k = p := Option.some.inj ((hslots k slot c hslot).2.symm.trans hparent)
  exact hp (mem_ids_of_held? hslot)

lemma Linked.connectedInPart (h : w.Linked) (hmissing : holder ∉ w.ids ∨ child ∉ w.ids)
    (slot : Slot) : ConnectedInPart w (w.connect holder slot child) holder slot child := by
  have hgoneChild (hholder : holder ∈ w.ids) : child ∉ w.ids := hmissing.resolve_left (· hholder)
  have hgoneHolder (hchild : child ∈ w.ids) : holder ∉ w.ids := hmissing.resolve_right (· hchild)
  constructor
  case neither => exact fun hholder hchild => connect_of_missing_both hholder hchild slot
  case consistent_iff =>
    constructor
    · rintro ⟨hparents, hslots⟩
      refine ⟨fun hholder => ?_, fun hchild => ?_⟩
      · exact (slotSound_connect_missing_child h hholder (hgoneChild hholder) slot holder slot).mp
          (hslots holder slot) rfl
      · exact (parentSound_connect_missing_holder h (hgoneHolder hchild) hchild slot child).mp
          (hparents child) rfl
    · rintro ⟨hholder, hchild⟩
      rw [connect_of_missing_both hholder hchild]
      exact consistent_iff_linked.mpr h
  case missingChild =>
    intro hholder
    have hchild := hgoneChild hholder
    refine ⟨?_, parentSound_connect_missing_child h hholder hchild slot,
      slotSound_connect_missing_child h hholder hchild slot⟩
    rw [held?_connect_missing_child hholder hchild, if_pos ⟨rfl, rfl⟩]
  case missingHolder =>
    intro hchild
    have hholder := hgoneHolder hchild
    have hparent : (w.connect holder slot child).parent? child = some holder := by
      rw [parent?_connect_missing_holder hholder hchild, if_pos rfl]
    have hslots := slotSound_connect_missing_holder h hholder hchild slot
    exact ⟨hparent, not_mem_topBlocks_of_parent? hparent,
      not_holds_of_missing_parent hslots hparent (by rwa [ids_connect]), hslots,
      parentSound_connect_missing_holder h hholder hchild slot⟩

/-- If the holder or the child is missing, a connection to an input or after a block is made
in part. -/
theorem connect_missing_made_in_part (h : w.Consistent) (holder : BlockId) (input : String)
    (child : BlockId) (hmissing : holder ∉ w.ids ∨ child ∉ w.ids) :
    ConnectedInPart w (w.connectInput holder input child) holder (.input input) child ∧
      ConnectedInPart w (w.connectNext holder child) holder .next child := by
  have hlinked := consistent_iff_linked.mp h
  rw [connectInput_eq, connectNext_eq]
  exact ⟨hlinked.connectedInPart hmissing _, hlinked.connectedInPart hmissing _⟩

/-- A block that holds another. -/
def heldStep : Workspace :=
  ((({} : Workspace).addAs "s" "start").addAs "a" "step").connectInput "s" "DO" "a"

lemma heldStep_consistent : heldStep.Consistent := by
  rw [heldStep, connectInput_eq, consistent_iff_linked]
  exact ((Linked.empty.addAs (by decide) "start").addAs (by decide +kernel) "step").connect
    (by decide +kernel) (by decide +kernel) _

theorem heldStep_connect_missing :
    heldStep.Consistent ∧ "gone" ∉ heldStep.ids ∧
      (heldStep.connectInput "s" "DO" "gone").held? "s" (.input "DO") = some "gone" ∧
      ¬ (heldStep.connectInput "s" "DO" "gone").Consistent ∧
      (heldStep.connectNext "gone" "a").parent? "a" = some "gone" ∧
      (∀ p, ¬ (heldStep.connectNext "gone" "a").Holds p "a") ∧
      (heldStep.connectNext "gone" "lost").Consistent := by
  have hgone : "gone" ∉ heldStep.ids := by decide +kernel
  have hs : "s" ∈ heldStep.ids := by decide +kernel
  have ha : "a" ∈ heldStep.ids := by decide +kernel
  have hlost : "lost" ∉ heldStep.ids := by decide +kernel
  obtain ⟨hchild, -⟩ :=
    connect_missing_made_in_part heldStep_consistent "s" "DO" "gone" (.inr hgone)
  obtain ⟨-, hholder⟩ :=
    connect_missing_made_in_part heldStep_consistent "gone" "DO" "a" (.inl hgone)
  obtain ⟨-, hboth⟩ :=
    connect_missing_made_in_part heldStep_consistent "gone" "DO" "lost" (.inl hgone)
  refine ⟨heldStep_consistent, hgone, (hchild.missingChild hs).1, ?_,
    (hholder.missingHolder ha).1, (hholder.missingHolder ha).2.2.1, ?_⟩
  · exact fun hconsistent => (hchild.consistent_iff.mp hconsistent).1 hs
  · exact hboth.consistent_iff.mpr ⟨hgone, hlost⟩

/-- A single block that is plugged into a missing one has a parent that is not there, and no
block is left at the top. -/
theorem step_connect_ghost :
    let w := ({} : Workspace).addAs "a" "step"
    w.Consistent ∧ "ghost" ∉ w.ids ∧ "a" ∈ w.ids ∧
      (w.connectInput "ghost" "DO" "a").parent? "a" = some "ghost" ∧
      (w.connectInput "ghost" "DO" "a").topBlocks = [] ∧
      ¬ (w.connectInput "ghost" "DO" "a").Consistent := by
  intro w
  have hghost : "ghost" ∉ (w.connectInput "ghost" "DO" "a").ids := by decide +kernel
  have hparent : (w.connectInput "ghost" "DO" "a").parent? "a" = some "ghost" := by
    decide +kernel
  refine ⟨consistent_iff_linked.mpr (Linked.empty.addAs (by decide) "step"), by decide +kernel,
    by decide +kernel, hparent, by decide +kernel, fun hconsistent => ?_⟩
  exact hghost (hconsistent.1 "a" "ghost" hparent).1

end Workspace

end BlockProgram
