import BlockProgram.Workspace.Mark
import Mathlib.Tactic

/-!
# What edits change and what they leave alone

A block is looked at through a view. Connecting and disconnecting blocks is not
seen by a view that ignores links, a write is not seen by a view that ignores
what is written, and deleting takes blocks away without changing the others.
Links are looked at slot by slot.
-/
namespace BlockProgram

namespace Table

variable {α : Type}

lemma lookup_eq_some_of_mem {entries : List (String × α)} {key : String} {value : α}
    (hn : (entries.map Prod.fst).Nodup) (h : (key, value) ∈ entries) :
    entries.lookup key = some value := by
  obtain ⟨before, after, rfl⟩ := List.append_of_mem h
  refine List.lookup_eq_some_iff.mpr ⟨before, after, rfl, ?_⟩
  intro e he
  rw [List.map_append, List.map_cons] at hn
  have hne := (List.nodup_append.mp hn).2.2 e.1 (List.mem_map_of_mem he) key (by simp)
  simpa using Ne.symm hne

lemma mem_of_lookup_eq_some {entries : List (String × α)} {key : String} {value : α}
    (h : entries.lookup key = some value) : (key, value) ∈ entries := by
  obtain ⟨l₁, l₂, rfl, _⟩ := List.lookup_eq_some_iff.mp h
  simp

theorem get?_eq_some_iff (t : Table α) (key : String) (value : α) :
    t.get? key = some value ↔ (key, value) ∈ t.entries :=
  ⟨mem_of_lookup_eq_some, lookup_eq_some_of_mem t.nodup⟩

@[simp] theorem get?_filterValues (t : Table α) (p : α → Bool) (key : String) :
    (t.filterValues p).get? key = (t.get? key).filter p := by
  ext value
  rw [get?_eq_some_iff, Option.filter_eq_some_iff, get?_eq_some_iff]
  exact List.mem_filter

theorem mem_values_iff (t : Table α) (value : α) :
    value ∈ t.values ↔ ∃ key, t.get? key = some value := by
  simp only [get?_eq_some_iff, values, List.mem_map, Prod.exists, exists_eq_right]

lemma mem_of_get?_foldl_insert {entries : List (String × α)} {t : Table α} {key : String}
    {value : α}
    (h : (entries.foldl (fun t e => t.insert e.1 e.2) t).get? key = some value) :
    (key, value) ∈ entries ∨ t.get? key = some value := by
  induction entries generalizing t with
  | nil => exact .inr h
  | cons e rest ih =>
    rcases ih h with hrest | hget
    · exact .inl (List.mem_cons_of_mem _ hrest)
    · rw [get?_insert] at hget
      split at hget
      · next hkey =>
        cases hget
        exact .inl (by simp [hkey])
      · exact .inr hget

end Table

/-- A place of a block that may hold another block: an input, or the place after
the block. -/
inductive Slot where
  | input (name : String)
  | next
  deriving DecidableEq

namespace Workspace

/-- The block in a slot of a block. -/
def held? (w : Workspace) (id : BlockId) : Slot → Option BlockId
  | .input name => w.target? id name
  | .next => w.next? id

/-- The second block is in some slot of the first. -/
def Holds (w : Workspace) (holder id : BlockId) : Prop := ∃ slot, w.held? holder slot = some id

theorem holds_iff (w : Workspace) (holder id : BlockId) :
    w.Holds holder id ↔ ∃ b, w.get? holder = some b ∧ id ∈ b.held := by
  have hheld (b : Block) :
      id ∈ b.held ↔ (∃ name, b.inputs.get? name = some id) ∨ b.next = some id := by
    simp [Block.held, Table.mem_values_iff, or_comm]
  constructor
  · rintro ⟨slot, hslot⟩
    cases slot with
    | input name =>
      obtain ⟨b, hb, hname⟩ := Option.bind_eq_some_iff.mp hslot
      exact ⟨b, hb, (hheld b).mpr (.inl ⟨name, hname⟩)⟩
    | next =>
      obtain ⟨b, hb, hnext⟩ := Option.bind_eq_some_iff.mp hslot
      exact ⟨b, hb, (hheld b).mpr (.inr hnext)⟩
  · rintro ⟨b, hb, hid⟩
    rcases (hheld b).mp hid with ⟨name, hname⟩ | hnext
    · exact ⟨.input name, by simp [held?, target?, hb, hname]⟩
    · exact ⟨.next, by simp [held?, next?, hb, hnext]⟩

lemma mem_ids_of_next? (w : Workspace) {a b : BlockId} (h : w.next? a = some b) : a ∈ w.ids := by
  obtain ⟨block, hblock, -⟩ := Option.bind_eq_some_iff.mp h
  exact (w.mem_ids_iff a).mpr (by simp [hblock])

/-- Links never lead round when each of them leads to a block of higher rank. -/
theorem acyclic_of_rank {w : Workspace} (rank : BlockId → Nat)
    (h : ∀ a b, w.Holds a b → rank a < rank b) (id : BlockId) :
    ¬ Relation.TransGen w.Holds id id := by
  intro hround
  have hlt : ∀ b, Relation.TransGen w.Holds id b → rank id < rank b := by
    intro b hb
    induction hb with
    | single hab => exact h _ _ hab
    | tail _ hbc ih => exact ih.trans (h _ _ hbc)
  exact Nat.lt_irrefl _ (hlt id hround)

/-! ### Views -/

section Views

variable {β : Type} {π : Block → β}

lemma map_get?_modify (w : Workspace) (id k : BlockId) {f : Block → Block}
    (hf : ∀ b, π (f b) = π b) : ((w.modify id f).get? k).map π = (w.get? k).map π := by
  rw [get?_modify]
  split
  · rw [Option.map_map]
    congr 1
    funext b
    exact hf b
  · rfl

/-- The view does not tell apart blocks that are connected in different ways. -/
def IgnoresLinks (π : Block → β) : Prop :=
  ∀ (b : Block) (inputs : Table BlockId) (next parent : Option BlockId),
    π { b with inputs, next, parent } = π b

lemma map_get?_setParent (hπ : IgnoresLinks π) (w : Workspace) (id k : BlockId)
    (parent : Option BlockId) : ((w.setParent id parent).get? k).map π = (w.get? k).map π :=
  map_get?_modify w id k fun b => hπ b b.inputs b.next parent

lemma map_get?_disconnect (hπ : IgnoresLinks π) (w : Workspace) (child k : BlockId) :
    ((w.disconnect child).get? k).map π = (w.get? k).map π := by
  unfold disconnect
  split
  · rfl
  · have hr (b : Block) : π (b.release child) = π b := hπ b _ _ b.parent
    rw [map_get?_modify _ _ _ hr, map_get?_setParent hπ]

lemma map_get?_orphan (hπ : IgnoresLinks π) (w : Workspace) (id? : Option BlockId) (k : BlockId) :
    ((w.orphan id?).get? k).map π = (w.get? k).map π := by
  cases id? with
  | none => rfl
  | some id => exact map_get?_setParent hπ w id k none

theorem map_get?_connectInput (hπ : IgnoresLinks π) (w : Workspace) (parent : BlockId)
    (input : String) (child k : BlockId) :
    ((w.connectInput parent input child).get? k).map π = (w.get? k).map π := by
  unfold connectInput
  rw [map_get?_setParent hπ, map_get?_orphan hπ,
    map_get?_modify _ _ _ fun b => hπ b _ b.next b.parent, map_get?_disconnect hπ]

theorem map_get?_connectNext (hπ : IgnoresLinks π) (w : Workspace) (previous next k : BlockId) :
    ((w.connectNext previous next).get? k).map π = (w.get? k).map π := by
  unfold connectNext
  rw [map_get?_setParent hπ, map_get?_orphan hπ,
    map_get?_modify _ _ _ fun b => hπ b b.inputs _ b.parent, map_get?_disconnect hπ]

end Views

/-! ### Single edits -/

@[simp] theorem get?_setField (w : Workspace) (id k : BlockId) (name value : String) :
    (w.setField id name value).get? k =
      if k = id then (w.get? k).map fun b => { b with fields := b.fields.insert name value }
      else w.get? k :=
  get?_modify w id k _

@[simp] theorem get?_addAs (w : Workspace) (id k : BlockId) (type : String) :
    (w.addAs id type).get? k = if k = id then some { type } else w.get? k :=
  Table.get?_insert w.blocks id k _

@[simp] theorem get?_count (w : Workspace) (k : BlockId) : w.count.get? k = w.get? k := rfl

/-! ### Deletion -/

/-- What is left of the blocks is as it was. -/
lemma get?_removeAll (blocks : Table Block) (pending : List BlockId) (k : BlockId) :
    (removeAll blocks pending).1.get? k =
      if k ∈ (removeAll blocks pending).2 then none else blocks.get? k := by
  fun_induction removeAll blocks pending with
  | case1 blocks => simp
  | case2 blocks id rest b hb left removed hrun ih =>
    rw [hrun] at ih
    simp only [Table.get?_erase] at ih
    simp only [List.mem_cons]
    by_cases hk : k = id
    · rw [ih, if_pos hk]
      simp [hk]
    · simpa [hk] using ih
  | case3 blocks id rest hb ih => exact ih

theorem get?_delete (w : Workspace) (id k : BlockId) :
    (w.delete id).1.get? k = if k ∈ (w.delete id).2 then none else (w.disconnect id).get? k :=
  get?_removeAll (w.disconnect id).blocks [id] k

end Workspace

end BlockProgram
