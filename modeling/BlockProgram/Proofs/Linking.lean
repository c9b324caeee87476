import BlockProgram.Proofs.Editing
import BlockProgram.Proofs.Numbering

/-!
# Links up and down

Each block knows its parent, and its parent holds it in one slot. Every edit keeps
this: pulling a block off empties the slot that held it, plugging one in frees the
block that was in its place, and deleting takes away a block together with all that
hangs on it, so that no link between what is removed and what is left is cut.
-/
namespace BlockProgram

namespace Block

def links (b : Block) : Table BlockId × Option BlockId × Option BlockId :=
  (b.inputs, b.next, b.parent)

/-- The block in a slot. -/
def slot? (b : Block) : Slot → Option BlockId
  | .input name => b.inputs.get? name
  | .next => b.next

/-- Puts a block into a slot. -/
def put (b : Block) (slot : Slot) (child : BlockId) : Block :=
  match slot with
  | .input name => { b with inputs := b.inputs.insert name child }
  | .next => { b with next := some child }

lemma slot?_put (b : Block) (slot slot' : Slot) (child : BlockId) :
    (b.put slot child).slot? slot' = if slot' = slot then some child else b.slot? slot' := by
  cases slot <;> cases slot' <;> simp [put, slot?]

lemma slot?_release (b : Block) (child : BlockId) (slot : Slot) :
    (b.release child).slot? slot =
      if b.slot? slot = some child then none else b.slot? slot := by
  cases slot with
  | input name =>
    cases h : b.inputs.get? name with
    | none => simp [release, slot?, h]
    | some c => by_cases hc : c = child <;> simp [release, slot?, h, hc]
  | next => rfl

lemma parent_put (b : Block) (slot : Slot) (child : BlockId) :
    (b.put slot child).parent = b.parent := by
  cases slot <;> rfl

end Block

namespace Workspace

lemma held?_eq (w : Workspace) (id : BlockId) (slot : Slot) :
    w.held? id slot = (w.get? id).bind (·.slot? slot) := by
  cases slot <;> rfl

/-- The links up are the links down, and no block is held twice. -/
structure Linked (w : Workspace) : Prop where
  up : ∀ p slot c, w.held? p slot = some c → w.parent? c = some p
  down : ∀ p c, w.parent? c = some p → ∃ slot, w.held? p slot = some c
  once : ∀ p slot slot' c, w.held? p slot = some c → w.held? p slot' = some c → slot = slot'

lemma mem_ids_of_parent? {w : Workspace} {c p : BlockId} (h : w.parent? c = some p) :
    c ∈ w.ids := by
  obtain ⟨b, hb, -⟩ := Option.bind_eq_some_iff.mp h
  exact (w.mem_ids_iff c).mpr (by simp [hb])

lemma mem_ids_of_held? {w : Workspace} {p c : BlockId} {slot : Slot}
    (h : w.held? p slot = some c) : p ∈ w.ids := by
  obtain ⟨b, hb, -⟩ := (w.holds_iff p c).mp ⟨slot, h⟩
  exact (w.mem_ids_iff p).mpr (by simp [hb])

/-! ### Edits that leave the links alone -/

lemma parent?_of_links {v w : Workspace} {k : BlockId}
    (h : (v.get? k).map Block.links = (w.get? k).map Block.links) : v.parent? k = w.parent? k := by
  unfold parent?
  cases hv : v.get? k <;> cases hw : w.get? k <;> simp_all [Block.links]

lemma held?_of_links {v w : Workspace} {k : BlockId}
    (h : (v.get? k).map Block.links = (w.get? k).map Block.links) (slot : Slot) :
    v.held? k slot = w.held? k slot := by
  cases slot <;> simp only [held?, target?, next?] <;>
    cases hv : v.get? k <;> cases hw : w.get? k <;> simp_all [Block.links]

namespace Linked

variable {v w : Workspace}

lemma congr (h : w.Linked) (hheld : ∀ k slot, v.held? k slot = w.held? k slot)
    (hparent : ∀ k, v.parent? k = w.parent? k) : v.Linked where
  up p slot c hc := by
    rw [hheld] at hc
    rw [hparent]
    exact h.up p slot c hc
  down p c hp := by
    rw [hparent] at hp
    obtain ⟨slot, hslot⟩ := h.down p c hp
    exact ⟨slot, by rw [hheld, hslot]⟩
  once p slot slot' c hc hc' := by
    rw [hheld] at hc hc'
    exact h.once p slot slot' c hc hc'

lemma modify (h : w.Linked) (id : BlockId) {f : Block → Block}
    (hf : ∀ b, (f b).links = b.links) : (w.modify id f).Linked :=
  h.congr (fun k slot => held?_of_links (map_get?_modify w id k hf) slot)
    fun k => parent?_of_links (map_get?_modify w id k hf)

lemma empty : ({} : Workspace).Linked where
  up p slot c h := by cases slot <;> cases h
  down p c h := by cases h
  once p slot slot' c h := by cases slot <;> cases h

/-- A new block has no links, and there were none to it. -/
lemma addAs (h : w.Linked) {id : BlockId} (hid : id ∉ w.ids) (type : String) :
    (w.addAs id type).Linked := by
  have hnone : w.get? id = none := by
    rw [mem_ids_iff] at hid
    simpa using hid
  refine h.congr (fun k slot => ?_) fun k => ?_
  · by_cases hk : k = id
    · subst hk
      cases slot with
      | input name =>
        simp only [held?, target?, get?_addAs, if_pos, hnone, Option.bind_some, Option.bind_none]
        exact Table.get?_empty name
      | next => simp [held?, next?, hnone]
    · cases slot <;> simp [held?, target?, next?, hk]
  · by_cases hk : k = id
    · subst hk
      simp [parent?, hnone]
    · simp [parent?, hk]

end Linked

lemma numbered_injective : Function.Injective numbered := by
  intro m n h
  have hnumber := congrArg (nameNumber? "b") h
  simpa only [numbered, nameNumber?_numbered, Option.some.injEq] using hnumber

/-- The search comes to the first number after the last one whose id is free, since it tries
one number more than there are blocks. -/
lemma freshNumber_isLeast (w : Workspace) :
    IsLeast {n | w.lastId < n ∧ numbered n ∉ w.ids} w.freshNumber := by
  have hfree (k : Nat) : (!w.blocks.contains (numbered (w.lastId + 1 + k))) = true ↔
      numbered (w.lastId + 1 + k) ∉ w.ids := by
    have hcontains : w.blocks.contains (numbered (w.lastId + 1 + k)) = true ↔
        numbered (w.lastId + 1 + k) ∈ w.ids :=
      w.blocks.contains_eq_true_iff (numbered (w.lastId + 1 + k))
    rw [← hcontains, Bool.not_eq_true', Bool.not_eq_true]
  have hnodup : ((List.range (w.size + 1)).map fun k => numbered (w.lastId + 1 + k)).Nodup := by
    refine List.Nodup.map ?_ List.nodup_range
    intro m n h
    exact Nat.add_left_cancel (numbered_injective h)
  have hids : w.ids.length = w.size := w.blocks.length_keys
  obtain ⟨k, hfind, hk⟩ := exists_find?_free hfree hnodup (by simp [hids])
  obtain ⟨-, -, hbelow⟩ := List.find?_range_eq_some.mp hfind
  have hfresh : w.freshNumber = w.lastId + 1 + k := by
    rw [freshNumber, List.find?_map]
    exact congrArg (fun found => (found.map (w.lastId + 1 + ·)).getD (w.lastId + 1)) hfind
  rw [hfresh]
  refine ⟨⟨by omega, hk⟩, fun n hn => ?_⟩
  obtain ⟨hlast, hn⟩ := hn
  by_contra hlt
  obtain ⟨j, rfl⟩ : ∃ j, n = w.lastId + 1 + j := ⟨n - (w.lastId + 1), by omega⟩
  have htaken := hbelow j (by omega)
  rw [(hfree j).mpr hn] at htaken
  exact absurd htaken (by decide)

theorem numbered_freshNumber_not_mem (w : Workspace) : numbered w.freshNumber ∉ w.ids :=
  w.freshNumber_isLeast.1.2

/-! ### Links after an edit -/

lemma held?_modify (w : Workspace) (id k : BlockId) (f : Block → Block) (slot : Slot) :
    (w.modify id f).held? k slot =
      if k = id then (w.get? k).bind fun b => (f b).slot? slot else w.held? k slot := by
  simp only [held?_eq, get?_modify]
  split
  · exact Option.bind_map
  · rfl

lemma parent?_modify (w : Workspace) (id k : BlockId) {f : Block → Block}
    (hf : ∀ b, (f b).parent = b.parent) : (w.modify id f).parent? k = w.parent? k := by
  simp only [parent?, get?_modify]
  split
  · cases w.get? k <;> simp [hf]
  · rfl

lemma held?_setParent (w : Workspace) (id k : BlockId) (parent : Option BlockId) (slot : Slot) :
    (w.setParent id parent).held? k slot = w.held? k slot := by
  rw [setParent, held?_modify]
  split
  · rw [held?_eq]
    cases slot <;> rfl
  · rfl

lemma parent?_setParent (w : Workspace) (id k : BlockId) (parent : Option BlockId) :
    (w.setParent id parent).parent? k =
      if k = id then (w.get? k).bind fun _ => parent else w.parent? k := by
  simp only [setParent, parent?, get?_modify]
  split
  · exact Option.bind_map
  · rfl

lemma held?_orphan (w : Workspace) (id? : Option BlockId) (k : BlockId) (slot : Slot) :
    (w.orphan id?).held? k slot = w.held? k slot := by
  cases id? with
  | none => rfl
  | some id => exact held?_setParent w id k none slot

lemma parent?_orphan (w : Workspace) (id? : Option BlockId) (k : BlockId) :
    (w.orphan id?).parent? k = if id? = some k then none else w.parent? k := by
  cases id? with
  | none => rfl
  | some id =>
    rw [orphan, parent?_setParent]
    by_cases hk : k = id
    · simp [hk]
    · simp [hk, Ne.symm hk]

/-! ### Pulling off -/

lemma parent?_disconnect (w : Workspace) (child k : BlockId) :
    (w.disconnect child).parent? k = if k = child then none else w.parent? k := by
  unfold disconnect
  split
  · next hnone =>
    split
    · next hk => rw [hk, hnone]
    · rfl
  · have hrelease (b : Block) : (b.release child).parent = b.parent := rfl
    rw [parent?_modify _ _ _ hrelease, parent?_setParent]
    simp

namespace Linked

variable {w : Workspace}

/-- Nobody but its parent holds a block, so that pulling it off empties every slot
that it is in. -/
lemma held?_disconnect (h : w.Linked) (child k : BlockId) (slot : Slot) :
    (w.disconnect child).held? k slot =
      if w.held? k slot = some child then none else w.held? k slot := by
  unfold Workspace.disconnect
  split
  · next hnone =>
    rw [if_neg]
    intro hheld
    rw [h.up k slot child hheld] at hnone
    cases hnone
  · next p hp =>
    rw [held?_modify]
    split
    · next hk =>
      subst hk
      have hget : ((w.setParent child none).get? k).bind (fun b => b.slot? slot) =
          w.held? k slot := by rw [← held?_eq, held?_setParent]
      cases hb : (w.setParent child none).get? k with
      | none =>
        rw [hb] at hget
        simp [← hget]
      | some b =>
        rw [hb] at hget
        rw [← hget]
        exact Block.slot?_release b child slot
    · next hk =>
      rw [held?_setParent, if_neg]
      intro hheld
      rw [h.up k slot child hheld] at hp
      exact hk (Option.some.inj hp)

theorem disconnect (h : w.Linked) (child : BlockId) : (w.disconnect child).Linked where
  up p slot c hc := by
    rw [h.held?_disconnect] at hc
    split at hc
    · cases hc
    · next hne =>
      have hchild : c ≠ child := by
        rintro rfl
        exact hne hc
      rw [parent?_disconnect, if_neg hchild]
      exact h.up p slot c hc
  down p c hp := by
    rw [parent?_disconnect] at hp
    split at hp
    · cases hp
    · next hne =>
      obtain ⟨slot, hslot⟩ := h.down p c hp
      refine ⟨slot, ?_⟩
      rw [h.held?_disconnect, if_neg (by simpa [hslot] using hne), hslot]
  once p slot slot' c hc hc' := by
    rw [h.held?_disconnect] at hc hc'
    split at hc
    · cases hc
    · split at hc'
      · cases hc'
      · exact h.once p slot slot' c hc hc'

end Linked

/-! ### Plugging in -/

/-- Plugs a block into a slot. -/
def connect (w : Workspace) (holder : BlockId) (slot : Slot) (child : BlockId) : Workspace :=
  let w := w.disconnect child
  ((w.modify holder (·.put slot child)).orphan (w.held? holder slot)).setParent child (some holder)

lemma connectInput_eq (w : Workspace) (parent : BlockId) (input : String) (child : BlockId) :
    w.connectInput parent input child = w.connect parent (.input input) child := rfl

lemma connectNext_eq (w : Workspace) (previous next : BlockId) :
    w.connectNext previous next = w.connect previous .next next := rfl

lemma ids_disconnect (w : Workspace) (child : BlockId) : (w.disconnect child).ids = w.ids := by
  unfold disconnect
  split
  · rfl
  · rw [ids_modify, setParent, ids_modify]

lemma ids_orphan (w : Workspace) (id? : Option BlockId) : (w.orphan id?).ids = w.ids := by
  cases id? with
  | none => rfl
  | some id => exact ids_modify w id _

lemma held?_connect {w : Workspace} {holder : BlockId} (hholder : holder ∈ w.ids) (slot : Slot)
    (child k : BlockId) (slot' : Slot) : (w.connect holder slot child).held? k slot' =
      if k = holder ∧ slot' = slot then some child else (w.disconnect child).held? k slot' := by
  rw [← ids_disconnect w child, mem_ids_iff, Option.isSome_iff_exists] at hholder
  obtain ⟨b, hb⟩ := hholder
  simp only [connect, held?_setParent, held?_orphan, held?_modify]
  by_cases hk : k = holder
  · subst hk
    simp [held?_eq, hb, Block.slot?_put]
  · simp [hk]

lemma parent?_connect {w : Workspace} (holder : BlockId) (slot : Slot) {child : BlockId}
    (hchild : child ∈ w.ids) (k : BlockId) : (w.connect holder slot child).parent? k =
      if k = child then some holder
      else if (w.disconnect child).held? holder slot = some k then none
      else (w.disconnect child).parent? k := by
  have hlive : child ∈ (((w.disconnect child).modify holder (·.put slot child)).orphan
      ((w.disconnect child).held? holder slot)).ids := by
    rwa [ids_orphan, ids_modify, ids_disconnect]
  rw [mem_ids_iff, Option.isSome_iff_exists] at hlive
  obtain ⟨b, hb⟩ := hlive
  rw [connect, parent?_setParent]
  split
  · next hk =>
    subst hk
    rw [hb]
    rfl
  · rw [parent?_orphan, parent?_modify _ _ _ fun b => b.parent_put slot child]

/-- The child leaves its old slot first, so that it is displaced by itself nowhere,
and whatever else was in the slot becomes free. -/
theorem Linked.connect {w : Workspace} (h : w.Linked) {holder child : BlockId}
    (hholder : holder ∈ w.ids) (hchild : child ∈ w.ids) (slot : Slot) :
    (w.connect holder slot child).Linked := by
  have h' := h.disconnect child
  have hfree (k : BlockId) (slot' : Slot) : (w.disconnect child).held? k slot' ≠ some child := by
    intro hheld
    have hparent := h'.up k slot' child hheld
    rw [parent?_disconnect, if_pos rfl] at hparent
    cases hparent
  refine ⟨fun p s c hc => ?_, fun p c hp => ?_, fun p s s' c hc hc' => ?_⟩
  · rw [held?_connect hholder] at hc
    rw [parent?_connect holder slot hchild]
    split at hc
    · next hplace =>
      rw [if_pos (Option.some.inj hc).symm, hplace.1]
    · next hplace =>
      have hne : c ≠ child := fun heq => hfree p s (heq ▸ hc)
      have hstay : (w.disconnect child).held? holder slot ≠ some c := by
        intro hslot
        obtain rfl : holder = p :=
          Option.some.inj ((h'.up _ _ _ hslot).symm.trans (h'.up _ _ _ hc))
        exact hplace ⟨rfl, h'.once _ _ _ _ hc hslot⟩
      rw [if_neg hne, if_neg hstay]
      exact h'.up p s c hc
  · rw [parent?_connect holder slot hchild] at hp
    split at hp
    · next hc =>
      cases hp
      exact ⟨slot, by rw [held?_connect hholder, if_pos ⟨rfl, rfl⟩, hc]⟩
    · split at hp
      · cases hp
      · next hstay =>
        obtain ⟨s, hs⟩ := h'.down p c hp
        refine ⟨s, ?_⟩
        rw [held?_connect hholder, if_neg, hs]
        rintro ⟨rfl, rfl⟩
        exact hstay hs
  · rw [held?_connect hholder] at hc hc'
    split at hc
    · next hplace =>
      cases hc
      split at hc'
      · next hplace' => rw [hplace.2, hplace'.2]
      · exact absurd hc' (hfree p s')
    · split at hc'
      · cases hc'
        exact absurd hc (hfree p s)
      · exact h'.once p s s' c hc hc'

/-! ### Deleting -/

/-- Pending blocks are removed if they are there. -/
lemma mem_removeAll_of_pending {blocks : Table Block} {pending : List BlockId} {k : BlockId}
    (hk : k ∈ pending) (hlive : blocks.get? k ≠ none) : k ∈ (removeAll blocks pending).2 := by
  fun_induction removeAll blocks pending with
  | case1 blocks => cases hk
  | case2 blocks id rest b hb left removed hrun ih =>
    rw [hrun] at ih
    by_cases hid : k = id
    · simp [hid]
    · have hrest : k ∈ rest := (List.mem_cons.mp hk).resolve_left hid
      exact List.mem_cons_of_mem _ (ih (by simp [hrest]) (by simpa [hid] using hlive))
  | case3 blocks id rest hb ih =>
    rcases List.mem_cons.mp hk with rfl | hrest
    · exact absurd hb hlive
    · exact ih hrest hlive

/-- With a block all blocks that it holds are removed. -/
lemma mem_removeAll_of_held {blocks : Table Block} {pending : List BlockId} {k x : BlockId}
    {b : Block} (hk : k ∈ (removeAll blocks pending).2) (hb : blocks.get? k = some b)
    (hx : x ∈ b.held) (hlive : blocks.get? x ≠ none) : x ∈ (removeAll blocks pending).2 := by
  fun_induction removeAll blocks pending with
  | case1 blocks => cases hk
  | case2 blocks id rest b' hb' left removed hrun ih =>
    by_cases hxid : x = id
    · simp [hxid]
    · have hlive' : (blocks.erase id).get? x ≠ none := by simpa [hxid] using hlive
      refine List.mem_cons_of_mem _ ?_
      by_cases hkid : k = id
      · subst hkid
        obtain rfl : b = b' := Option.some.inj (hb.symm.trans hb')
        have hmem : x ∈ (removeAll (blocks.erase k) (b.held ++ rest)).2 :=
          mem_removeAll_of_pending (by simp [hx]) hlive'
        rwa [hrun] at hmem
      · rw [hrun] at ih
        exact ih ((List.mem_cons.mp hk).resolve_left hkid) (by simpa [hkid] using hb) hlive'
  | case3 blocks id rest hb' ih => exact ih hk hb hlive

/-- A block is removed because it was pending at first, or with one that held it. -/
lemma pending_or_held_of_mem_removeAll {blocks : Table Block} {pending : List BlockId}
    {k : BlockId} (hk : k ∈ (removeAll blocks pending).2) :
    k ∈ pending ∨ ∃ j ∈ (removeAll blocks pending).2, ∃ b, blocks.get? j = some b ∧ k ∈ b.held := by
  fun_induction removeAll blocks pending with
  | case1 blocks => cases hk
  | case2 blocks id rest b hb left removed hrun ih =>
    rw [hrun] at ih
    rcases List.mem_cons.mp hk with rfl | hk
    · exact .inl (by simp)
    · rcases ih hk with hpending | ⟨j, hj, b', hb', hheld⟩
      · rcases List.mem_append.mp hpending with hheld | hrest
        · exact .inr ⟨id, by simp, b, hb, hheld⟩
        · exact .inl (List.mem_cons_of_mem _ hrest)
      · rw [Table.get?_erase] at hb'
        split at hb'
        · cases hb'
        · exact .inr ⟨j, List.mem_cons_of_mem _ hj, b', hb', hheld⟩
  | case3 blocks id rest hb ih =>
    exact (ih hk).imp_left (List.mem_cons_of_mem _)

lemma held?_delete (w : Workspace) (id k : BlockId) (slot : Slot) :
    (w.delete id).1.held? k slot =
      if k ∈ (w.delete id).2 then none else (w.disconnect id).held? k slot := by
  simp only [held?_eq, get?_delete]
  split <;> rfl

lemma parent?_delete (w : Workspace) (id k : BlockId) :
    (w.delete id).1.parent? k =
      if k ∈ (w.delete id).2 then none else (w.disconnect id).parent? k := by
  simp only [parent?, get?_delete]
  split <;> rfl

/-- A block and the block that holds it are removed together. -/
lemma Linked.mem_delete_iff {w : Workspace} (h : w.Linked) {id p c : BlockId} {slot : Slot}
    (hheld : (w.disconnect id).held? p slot = some c) :
    p ∈ (w.delete id).2 ↔ c ∈ (w.delete id).2 := by
  have h' := h.disconnect id
  have hparent := h'.up p slot c hheld
  obtain ⟨b, hb, hc⟩ := (holds_iff _ p c).mp ⟨slot, hheld⟩
  constructor
  · intro hp
    have hlive : (w.disconnect id).get? c ≠ none := by
      obtain ⟨b', hb', -⟩ := Option.bind_eq_some_iff.mp hparent
      simp [hb']
    exact mem_removeAll_of_held hp hb hc hlive
  · intro hremoved
    rcases pending_or_held_of_mem_removeAll hremoved with hpending | ⟨j, hj, b', hb', hheld'⟩
    · -- the block that is deleted has been pulled off
      obtain rfl := List.mem_singleton.mp hpending
      rw [parent?_disconnect, if_pos rfl] at hparent
      cases hparent
    · obtain ⟨slot', hslot'⟩ := (holds_iff (w.disconnect id) j c).mpr ⟨b', hb', hheld'⟩
      obtain rfl : p = j := Option.some.inj (hparent.symm.trans (h'.up j slot' c hslot'))
      exact hj

theorem Linked.delete {w : Workspace} (h : w.Linked) (id : BlockId) : (w.delete id).1.Linked := by
  have h' := h.disconnect id
  refine ⟨fun p s c hc => ?_, fun p c hp => ?_, fun p s s' c hc hc' => ?_⟩
  · rw [held?_delete] at hc
    split at hc
    · cases hc
    · next hp =>
      rw [parent?_delete, if_neg fun hremoved => hp ((h.mem_delete_iff hc).mpr hremoved)]
      exact h'.up p s c hc
  · rw [parent?_delete] at hp
    split at hp
    · cases hp
    · next hc =>
      obtain ⟨s, hs⟩ := h'.down p c hp
      refine ⟨s, ?_⟩
      rw [held?_delete, if_neg fun hremoved => hc ((h.mem_delete_iff hs).mp hremoved), hs]
  · rw [held?_delete] at hc hc'
    split at hc
    · cases hc
    · next hp =>
      rw [if_neg hp] at hc'
      exact h'.once p s s' c hc hc'

/-! ### Histories -/

/-- One edit or write; blocks are added under free ids and connected while they are
there. -/
inductive Change : Workspace → Workspace → Prop where
  | add (w : Workspace) (type : String) : Change w (w.add type).1
  | addAs {w : Workspace} {id : BlockId} (hid : id ∉ w.ids) (type : String) :
      Change w (w.addAs id type)
  | setField (w : Workspace) (id : BlockId) (name value : String) :
      Change w (w.setField id name value)
  | connectInput {w : Workspace} {parent child : BlockId} (hparent : parent ∈ w.ids)
      (input : String) (hchild : child ∈ w.ids) : Change w (w.connectInput parent input child)
  | connectNext {w : Workspace} {previous next : BlockId} (hprevious : previous ∈ w.ids)
      (hnext : next ∈ w.ids) : Change w (w.connectNext previous next)
  | disconnect (w : Workspace) (child : BlockId) : Change w (w.disconnect child)
  | delete (w : Workspace) (id : BlockId) : Change w (w.delete id).1
  | writeField (w : Workspace) (id : BlockId) (name value : String) :
      Change w (w.writeField id name value)
  | disable (w : Workspace) (id : BlockId) (reason : String) (on : Bool) :
      Change w (w.disable id reason on)
  | setWarning (w : Workspace) (id : BlockId) (key : String) (text : Option String) :
      Change w (w.setWarning id key text)

lemma Linked.change {w w' : Workspace} (h : w.Linked) (hchange : Change w w') : w'.Linked := by
  have hcount : w.count.Linked := h.congr (fun _ _ => rfl) fun _ => rfl
  cases hchange with
  | add type =>
    have hnumber : ({ w with lastId := w.freshNumber } : Workspace).Linked :=
      h.congr (fun _ _ => rfl) fun _ => rfl
    exact hnumber.addAs w.numbered_freshNumber_not_mem type
  | addAs hid type => exact h.addAs hid type
  | setField id name value => exact h.modify id fun _ => rfl
  | connectInput hparent input hchild =>
    rw [connectInput_eq]
    exact h.connect hparent hchild (.input input)
  | connectNext hprevious hnext =>
    rw [connectNext_eq]
    exact h.connect hprevious hnext .next
  | disconnect child => exact h.disconnect child
  | delete id => exact h.delete id
  | writeField id name value => exact hcount.modify id fun _ => rfl
  | disable id reason on => exact hcount.modify id fun _ => rfl
  | setWarning id key text => exact hcount.modify id fun _ => rfl

/-- The workspaces that changes lead to from the empty one. -/
def Built (w : Workspace) : Prop := Relation.ReflTransGen Change {} w

lemma Built.linked {w : Workspace} (h : w.Built) : w.Linked := by
  induction h with
  | refl => exact Linked.empty
  | tail _ hchange ih => exact ih.change hchange

/-- In a workspace that has been built, links lead to blocks that are there, a block is
in one slot of its parent, and no other block holds it. -/
theorem links_consistent {w : Workspace} (h : w.Built) :
    (∀ c p, w.parent? c = some p → p ∈ w.ids ∧ ∃! slot, w.held? p slot = some c) ∧
      ∀ p slot c, w.held? p slot = some c → c ∈ w.ids ∧ w.parent? c = some p := by
  have hlinked := h.linked
  refine ⟨fun c p hp => ?_, fun p slot c hc => ?_⟩
  · obtain ⟨slot, hslot⟩ := hlinked.down p c hp
    refine ⟨mem_ids_of_held? hslot, slot, hslot, fun slot' hslot' => ?_⟩
    exact hlinked.once p slot' slot c hslot' hslot
  · have hparent := hlinked.up p slot c hc
    exact ⟨mem_ids_of_parent? hparent, hparent⟩

/-- Two blocks; the first is plugged into itself, then pushed out by the second, and
then put after it, so that each holds the other. -/
def loopWorkspace : Workspace :=
  let w := (((({} : Workspace).add "t").1).add "t").1
  ((w.connectInput "b1" "A" "b1").connectInput "b1" "A" "b2").connectNext "b2" "b1"

theorem loopWorkspace_consistent :
    loopWorkspace.Built ∧ loopWorkspace.parent? "b1" = some "b2" ∧
      loopWorkspace.held? "b1" (.input "A") = some "b2" ∧
      "b2" ∈ loopWorkspace.ids ∧ (∃! slot, loopWorkspace.held? "b2" slot = some "b1") ∧
      loopWorkspace.parent? "b2" = some "b1" := by
  have hbuilt : loopWorkspace.Built :=
    ((((Relation.ReflTransGen.single (.add {} "t")).tail (.add _ "t")).tail
      (.connectInput (by decide +kernel) "A" (by decide +kernel))).tail
      (.connectInput (by decide +kernel) "A" (by decide +kernel))).tail
      (.connectNext (by decide +kernel) (by decide +kernel))
  have hup : loopWorkspace.parent? "b1" = some "b2" := by decide +kernel
  have hdown : loopWorkspace.held? "b1" (.input "A") = some "b2" := by decide +kernel
  obtain ⟨hparents, htargets⟩ := links_consistent hbuilt
  obtain ⟨hlive, hslot⟩ := hparents "b1" "b2" hup
  exact ⟨hbuilt, hup, hdown, hlive, hslot, (htargets "b1" (.input "A") "b2" hdown).2⟩

end Workspace

end BlockProgram
