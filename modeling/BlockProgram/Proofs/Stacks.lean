import BlockProgram.Proofs.Linking
import BlockProgram.Proofs.Trails

/-!
# The stack below a block

A block stands in the stack of another if links lead down to it from there, or,
what is the same in a workspace whose links are consistent, if the way up from it
passes there. Deleting a block takes away its stack and nothing else. None of this
needs the links to be free of circles.
-/
namespace BlockProgram

namespace Workspace

/-- The second block can be reached from the first through inputs and next links. -/
def InStack (w : Workspace) : BlockId → BlockId → Prop := Relation.ReflTransGen w.Holds

/-- The first block is the second or one of those above it. -/
def Above (w : Workspace) (t id : BlockId) : Prop :=
  Relation.ReflTransGen (fun c p => w.parent? c = some p) id t

/-! ### Up and down -/

namespace Linked

variable {w : Workspace}

lemma holds_iff_parent? (h : w.Linked) (p c : BlockId) :
    w.Holds p c ↔ w.parent? c = some p := by
  constructor
  · rintro ⟨slot, hslot⟩
    exact h.up p slot c hslot
  · exact h.down p c

theorem inStack_iff_above (h : w.Linked) (t id : BlockId) : w.InStack t id ↔ w.Above t id := by
  have hup : Function.swap w.Holds = fun c p => w.parent? c = some p := by
    funext c p
    exact propext (h.holds_iff_parent? p c)
  rw [InStack, Above, ← Relation.reflTransGen_swap, hup]

end Linked

/-- A block at the top is the root of just the blocks that it is above of. -/
theorem root_eq_iff_above {w : Workspace} {t : BlockId} (ht : w.parent? t = none) (id : BlockId) :
    w.root id = t ↔ w.Above t id := by
  have hdomain (c p : BlockId) (hp : w.parent? c = some p) : c ∈ w.ids := mem_ids_of_parent? hp
  exact Trail.last_follow_eq_iff hdomain w.blocks.length_keys ht

/-! ### What deleting removes -/

lemma live_of_mem_removeAll {blocks : Table Block} {pending : List BlockId} {k : BlockId}
    (hk : k ∈ (removeAll blocks pending).2) : k ∈ blocks.keys := by
  fun_induction removeAll blocks pending with
  | case1 blocks => cases hk
  | case2 blocks id rest b hb left removed hrun ih =>
    rw [hrun] at ih
    rcases List.mem_cons.mp hk with rfl | hk
    · exact (blocks.mem_keys_iff k).mpr (by simp [hb])
    · have herase := ih hk
      rw [Table.keys_erase] at herase
      exact List.mem_of_mem_filter herase
  | case3 blocks id rest hb ih => exact ih hk

lemma nodup_removeAll (blocks : Table Block) (pending : List BlockId) :
    (removeAll blocks pending).2.Nodup := by
  fun_induction removeAll blocks pending with
  | case1 blocks => exact List.nodup_nil
  | case2 blocks id rest b hb left removed hrun ih =>
    rw [hrun] at ih
    refine List.nodup_cons.mpr ⟨fun hid => ?_, ih⟩
    have hmem : id ∈ (removeAll (blocks.erase id) (b.held ++ rest)).2 := by rwa [hrun]
    have hkeys := live_of_mem_removeAll hmem
    simp at hkeys
  | case3 blocks id rest hb ih => exact ih

/-- What is left stays in order. -/
lemma keys_removeAll (blocks : Table Block) (pending : List BlockId) :
    (removeAll blocks pending).1.keys =
      blocks.keys.filter fun k => k ∉ (removeAll blocks pending).2 := by
  fun_induction removeAll blocks pending with
  | case1 blocks => simp
  | case2 blocks id rest b hb left removed hrun ih =>
    rw [hrun] at ih
    rw [ih, Table.keys_erase, List.filter_filter]
    refine List.filter_congr fun k _ => ?_
    by_cases hk : k = id <;> simp [hk]
  | case3 blocks id rest hb ih => exact ih

/-- Removal goes from block to block along links, starting from the pending ones. -/
lemma reached_of_mem_removeAll {blocks : Table Block} {pending : List BlockId} {k : BlockId}
    (hk : k ∈ (removeAll blocks pending).2) : ∃ p ∈ pending,
      Relation.ReflTransGen (fun a c => ∃ b, blocks.get? a = some b ∧ c ∈ b.held) p k := by
  fun_induction removeAll blocks pending with
  | case1 blocks => cases hk
  | case2 blocks id rest b hb left removed hrun ih =>
    rw [hrun] at ih
    rcases List.mem_cons.mp hk with rfl | hk
    · exact ⟨k, List.mem_cons_self, .refl⟩
    · obtain ⟨p, hp, hreach⟩ := ih hk
      have hreach' : Relation.ReflTransGen (fun a c => ∃ b, blocks.get? a = some b ∧ c ∈ b.held)
          p k := by
        refine Relation.ReflTransGen.mono ?_ _ _ hreach
        rintro a c ⟨b', hb', hc⟩
        rw [Table.get?_erase] at hb'
        split at hb'
        · cases hb'
        · exact ⟨b', hb', hc⟩
      rcases List.mem_append.mp hp with hheld | hrest
      · exact ⟨id, List.mem_cons_self, hreach'.head ⟨b, hb, hheld⟩⟩
      · exact ⟨p, List.mem_cons_of_mem _ hrest, hreach'⟩
  | case3 blocks id rest hb ih =>
    obtain ⟨p, hp, hreach⟩ := ih hk
    exact ⟨p, List.mem_cons_of_mem _ hp, hreach⟩

lemma mem_delete_self {w : Workspace} {t : BlockId} (ht : t ∈ w.ids) : t ∈ (w.delete t).2 := by
  rw [← ids_disconnect w t, mem_ids_iff, Option.isSome_iff_ne_none] at ht
  exact mem_removeAll_of_pending List.mem_cons_self ht

namespace Linked

variable {w : Workspace} {t : BlockId}

lemma holds_disconnect_iff (h : w.Linked) (t p c : BlockId) :
    (w.disconnect t).Holds p c ↔ w.Holds p c ∧ c ≠ t := by
  constructor
  · rintro ⟨slot, hslot⟩
    rw [h.held?_disconnect] at hslot
    split at hslot
    · cases hslot
    · next hne =>
      refine ⟨⟨slot, hslot⟩, ?_⟩
      rintro rfl
      exact hne hslot
  · rintro ⟨⟨slot, hslot⟩, hne⟩
    refine ⟨slot, ?_⟩
    rw [h.held?_disconnect, if_neg (by simpa [hslot] using hne), hslot]

/-- Pulling a block off changes nothing below it. -/
lemma inStack_disconnect_iff (h : w.Linked) (t id : BlockId) :
    (w.disconnect t).InStack t id ↔ w.InStack t id := by
  constructor
  · exact Relation.ReflTransGen.mono (fun p c hpc => ((h.holds_disconnect_iff t p c).mp hpc).1) _ _
  · intro hid
    induction hid with
    | refl => exact .refl
    | @tail p c _ hpc ih =>
      by_cases hc : c = t
      · -- the way has come back to where it started
        rw [hc]
        exact .refl
      · exact ih.tail ((h.holds_disconnect_iff t p c).mpr ⟨hpc, hc⟩)

theorem mem_delete_iff_inStack (h : w.Linked) (ht : t ∈ w.ids) (k : BlockId) :
    k ∈ (w.delete t).2 ↔ w.InStack t k := by
  have h' := h.disconnect t
  rw [← h.inStack_disconnect_iff]
  constructor
  · intro hk
    obtain ⟨p, hp, hreach⟩ := reached_of_mem_removeAll hk
    obtain rfl := List.mem_singleton.mp hp
    exact Relation.ReflTransGen.mono (fun a c hc => (holds_iff _ a c).mpr hc) _ _ hreach
  · intro hk
    induction hk with
    | refl => exact mem_delete_self ht
    | tail _ hpc ih =>
      obtain ⟨slot, hslot⟩ := hpc
      exact (h.mem_delete_iff hslot).mp ih

end Linked

/-! ### What deleting leaves -/

theorem nodup_delete (w : Workspace) (t : BlockId) : (w.delete t).2.Nodup :=
  nodup_removeAll _ _

theorem ids_delete (w : Workspace) (t : BlockId) :
    (w.delete t).1.ids = w.ids.filter fun k => k ∉ (w.delete t).2 := by
  rw [← ids_disconnect w t]
  exact keys_removeAll _ _

lemma not_mem_delete_of_mem_ids {w : Workspace} {t k : BlockId} (hk : k ∈ (w.delete t).1.ids) :
    k ∉ (w.delete t).2 := by
  rw [ids_delete, List.mem_filter] at hk
  simpa using hk.2

/-- Only the block itself and its parent see that it is pulled off. -/
lemma get?_disconnect {w : Workspace} {t k : BlockId} (hk : k ≠ t) :
    (w.disconnect t).get? k =
      if w.parent? t = some k then (w.get? k).map (·.release t) else w.get? k := by
  unfold disconnect
  split
  · next hnone => simp [hnone]
  · next p hp =>
    have hset : (w.setParent t none).get? k = w.get? k := by simp [setParent, hk]
    rw [get?_modify, hset, hp]
    simp only [Option.some.injEq, eq_comm]

namespace Linked

variable {w : Workspace} {t : BlockId}

/-- A block that is left and did not hold the deleted one is as it was. -/
theorem get?_delete_of_not_parent (h : w.Linked) (ht : t ∈ w.ids) {k : BlockId}
    (hk : k ∈ (w.delete t).1.ids) (hparent : w.parent? t ≠ some k) :
    (w.delete t).1.get? k = w.get? k := by
  have hleft := not_mem_delete_of_mem_ids hk
  have hne : k ≠ t := by
    rintro rfl
    exact hleft ((h.mem_delete_iff_inStack ht k).mpr .refl)
  rw [get?_delete, if_neg hleft, get?_disconnect hne, if_neg hparent]

/-- The block that held the deleted one loses that link and nothing else. -/
theorem get?_delete_parent (h : w.Linked) (ht : t ∈ w.ids) {p : BlockId}
    (hp : p ∈ (w.delete t).1.ids) (hparent : w.parent? t = some p) :
    ∃ old new slot, w.get? p = some old ∧ (w.delete t).1.get? p = some new ∧
      { new with inputs := old.inputs, next := old.next } = old ∧ old.slot? slot = some t ∧
      ∀ slot', new.slot? slot' = if slot' = slot then none else old.slot? slot' := by
  have hleft := not_mem_delete_of_mem_ids hp
  have hne : p ≠ t := by
    rintro rfl
    exact hleft ((h.mem_delete_iff_inStack ht p).mpr .refl)
  obtain ⟨slot, hslot⟩ := h.down p t hparent
  obtain ⟨old, hold, hheld⟩ := Option.bind_eq_some_iff.mp ((held?_eq w p slot).symm.trans hslot)
  refine ⟨old, old.release t, slot, hold, ?_, rfl, hheld, fun slot' => ?_⟩
  · rw [get?_delete, if_neg hleft, get?_disconnect hne, if_pos hparent, hold, Option.map_some]
  · rw [Block.slot?_release]
    by_cases hslot' : slot' = slot
    · rw [if_pos hslot', hslot', if_pos hheld]
    · rw [if_neg hslot', if_neg]
      intro hagain
      exact hslot' (h.once p slot' slot t (by rw [held?_eq, hold]; exact hagain) hslot)

end Linked

/-- In a workspace that has been built, deleting a block removes, each once, the blocks
whose way up passes it. These are the blocks that its links lead to and, if it is at the
top, those of which it is the root. All others stay as they are and in order, except that
the parent of the deleted block loses its link to it. -/
theorem delete_removes_stack {w : Workspace} (h : w.Built) {t : BlockId} (ht : t ∈ w.ids) :
    (w.delete t).2.Nodup ∧
      (∀ b, b ∈ (w.delete t).2 ↔ w.Above t b) ∧
      (∀ b, b ∈ (w.delete t).2 ↔ w.InStack t b) ∧
      (w.parent? t = none → ∀ b, b ∈ (w.delete t).2 ↔ w.root b = t) ∧
      (w.delete t).1.ids = w.ids.filter (fun b => b ∉ (w.delete t).2) ∧
      (∀ b ∈ (w.delete t).1.ids, w.parent? t ≠ some b → (w.delete t).1.get? b = w.get? b) ∧
      ∀ p ∈ (w.delete t).1.ids, w.parent? t = some p →
        ∃ old new slot, w.get? p = some old ∧ (w.delete t).1.get? p = some new ∧
          { new with inputs := old.inputs, next := old.next } = old ∧ old.slot? slot = some t ∧
          ∀ slot', new.slot? slot' = if slot' = slot then none else old.slot? slot' := by
  have hlinked := h.linked
  have hdown (b : BlockId) : b ∈ (w.delete t).2 ↔ w.InStack t b :=
    hlinked.mem_delete_iff_inStack ht b
  have hup (b : BlockId) : b ∈ (w.delete t).2 ↔ w.Above t b :=
    (hdown b).trans (hlinked.inStack_iff_above t b)
  refine ⟨nodup_delete w t, hup, hdown, fun htop b => ?_, ids_delete w t, fun b hb => ?_,
    fun p hp => ?_⟩
  · exact (hup b).trans (root_eq_iff_above htop b).symm
  · exact hlinked.get?_delete_of_not_parent ht hb
  · exact hlinked.get?_delete_parent ht hp

/-- Five blocks: `b2` is plugged into `b1`, `b3` stands after it and holds `b4`; `b5`
stands alone. -/
def nestedWorkspace : Workspace :=
  let w := ((((({} : Workspace).add "t").1.add "t").1.add "t").1.add "t").1
  ((((w.add "t").1.connectInput "b1" "DO" "b2").connectNext "b2" "b3").connectInput "b3" "X" "b4")

theorem nestedWorkspace_delete :
    nestedWorkspace.Built ∧ "b2" ∈ nestedWorkspace.ids ∧
      "b4" ∈ (nestedWorkspace.delete "b2").2 ∧
      (nestedWorkspace.delete "b2").1.get? "b5" = nestedWorkspace.get? "b5" ∧
      (∃ slot, nestedWorkspace.held? "b1" slot = some "b2" ∧
        (nestedWorkspace.delete "b2").1.held? "b1" slot = none) := by
  have hbuilt : nestedWorkspace.Built :=
    (((((((Relation.ReflTransGen.single (.add {} "t")).tail (.add _ "t")).tail
      (.add _ "t")).tail (.add _ "t")).tail (.add _ "t")).tail
      (.connectInput (by decide +kernel) "DO" (by decide +kernel))).tail
      (.connectNext (by decide +kernel) (by decide +kernel))).tail
      (.connectInput (by decide +kernel) "X" (by decide +kernel))
  have hlive : "b2" ∈ nestedWorkspace.ids := by decide +kernel
  obtain ⟨-, hup, -, -, hids, hsame, hparent⟩ := delete_removes_stack hbuilt hlive
  have hbelow : nestedWorkspace.Above "b2" "b4" :=
    (Relation.ReflTransGen.single (b := "b3") (by decide +kernel)).tail (by decide +kernel)
  have hleft (b : BlockId) (hb : b ∈ nestedWorkspace.ids)
      (htop : nestedWorkspace.parent? b = none) (hne : b ≠ "b2") :
      b ∈ (nestedWorkspace.delete "b2").1.ids := by
    rw [hids, List.mem_filter]
    refine ⟨hb, decide_eq_true fun hremoved => ?_⟩
    rcases Relation.ReflTransGen.cases_head ((hup b).mp hremoved) with heq | ⟨p, hp, -⟩
    · exact hne heq
    · rw [htop] at hp
      cases hp
  have hfirst := hleft "b1" (by decide +kernel) (by decide +kernel) (by decide +kernel)
  have hlast := hleft "b5" (by decide +kernel) (by decide +kernel) (by decide +kernel)
  obtain ⟨old, new, slot, hold, hnew, -, hheld, hslots⟩ :=
    hparent "b1" hfirst (by decide +kernel)
  refine ⟨hbuilt, hlive, (hup "b4").mpr hbelow, hsame "b5" hlast (by decide +kernel), slot, ?_, ?_⟩
  · rw [held?_eq, hold, Option.bind_some, hheld]
  · rw [held?_eq, hnew, Option.bind_some, hslots, if_pos rfl]

end Workspace

end BlockProgram
