import BlockProgram.Instance.Options
import BlockProgram.Proofs.Dangling
import BlockProgram.Proofs.Stacks

/-!
# Generated ids are given out once

A block that comes without an id gets the next numbered one that is free. Other blocks come
with ids of their own, numbered ones among them, and blocks are deleted, so an id may be free
again after it was taken. The count only goes on: what was generated has a number up to the
last one, and the next number lies above it. An id that outlives its block, such as that in a
reference, therefore never comes to mean another block whose id was generated.
-/
namespace BlockProgram

/-- What may be done to a workspace, with any ids. -/
inductive Edit where
  | add (type : String)
  | addAs (id : BlockId) (type : String)
  | setField (id : BlockId) (name value : String)
  | connectInput (parent : BlockId) (input : String) (child : BlockId)
  | connectNext (previous next : BlockId)
  | disconnect (child : BlockId)
  | delete (id : BlockId)
  | writeField (id : BlockId) (name value : String)
  | disable (id : BlockId) (reason : String) (on : Bool)
  | setWarning (id : BlockId) (key : String) (text : Option String)

namespace Workspace

def edit (w : Workspace) : Edit → Workspace
  | .add type => (w.add type).1
  | .addAs id type => w.addAs id type
  | .setField id name value => w.setField id name value
  | .connectInput parent input child => w.connectInput parent input child
  | .connectNext previous next => w.connectNext previous next
  | .disconnect child => w.disconnect child
  | .delete id => (w.delete id).1
  | .writeField id name value => w.writeField id name value
  | .disable id reason on => w.disable id reason on
  | .setWarning id key text => w.setWarning id key text

/-- The id that an edit generates. -/
def generated? (w : Workspace) : Edit → Option BlockId
  | .add type => some (w.add type).2
  | _ => none

/-- The id of the block that an edit adds. -/
def added? (w : Workspace) : Edit → Option BlockId
  | .addAs id _ => some id
  | e => w.generated? e

/-! ### The search for a free id -/

/-- How a block is added under a fresh id: the count goes up by one until it comes to an id
that is free. -/
inductive Adds (type : String) : Workspace → Workspace × BlockId → Prop where
  | free {w : Workspace} (hfree : numbered (w.lastId + 1) ∉ w.ids) :
      Adds type w ({ w with lastId := w.lastId + 1 }.addAs (numbered (w.lastId + 1)) type,
        numbered (w.lastId + 1))
  | taken {w : Workspace} {result : Workspace × BlockId}
      (htaken : numbered (w.lastId + 1) ∈ w.ids)
      (rest : Adds type { w with lastId := w.lastId + 1 } result) : Adds type w result

variable {w : Workspace}

lemma lastId_lt_freshNumber (w : Workspace) : w.lastId < w.freshNumber := w.freshNumber_isLeast.1.1

lemma freshNumber_of_free (hfree : numbered (w.lastId + 1) ∉ w.ids) :
    w.freshNumber = w.lastId + 1 := by
  refine w.freshNumber_isLeast.unique ⟨⟨by omega, hfree⟩, fun n hn => ?_⟩
  exact hn.1

/-- A number that is taken may be counted before the search starts. -/
lemma freshNumber_of_taken (htaken : numbered (w.lastId + 1) ∈ w.ids) :
    { w with lastId := w.lastId + 1 }.freshNumber = w.freshNumber := by
  obtain ⟨⟨hlast, hfree⟩, hleast⟩ := w.freshNumber_isLeast
  have hne : w.freshNumber ≠ w.lastId + 1 := by
    intro heq
    rw [heq] at hfree
    exact hfree htaken
  refine (freshNumber_isLeast _).unique ⟨⟨?_, hfree⟩, fun n hn => hleast ⟨?_, hn.2⟩⟩
  · show w.lastId + 1 < w.freshNumber
    omega
  · have hn' : w.lastId + 1 < n := hn.1
    show w.lastId < n
    omega

lemma add_of_free (hfree : numbered (w.lastId + 1) ∉ w.ids) (type : String) :
    w.add type = ({ w with lastId := w.lastId + 1 }.addAs (numbered (w.lastId + 1)) type,
      numbered (w.lastId + 1)) := by
  rw [add, freshNumber_of_free hfree]

lemma add_of_taken (htaken : numbered (w.lastId + 1) ∈ w.ids) (type : String) :
    w.add type = { w with lastId := w.lastId + 1 }.add type := by
  rw [add, add, freshNumber_of_taken htaken]

/-- The search ends, since every number it tries brings it closer to the free one. -/
lemma adds_add (type : String) (w : Workspace) : Adds type w (w.add type) := by
  -- counting on changes the workspace but not the free number, so the gap is what shrinks
  induction hgap : w.freshNumber - w.lastId generalizing w with
  | zero =>
    have hlast := w.lastId_lt_freshNumber
    omega
  | succ gap ih =>
    by_cases htaken : numbered (w.lastId + 1) ∈ w.ids
    · rw [add_of_taken htaken]
      refine .taken htaken (ih _ ?_)
      rw [freshNumber_of_taken htaken]
      show w.freshNumber - (w.lastId + 1) = gap
      omega
    · rw [add_of_free htaken]
      exact .free htaken

/-- Adding a block comes to an end, and only to one. -/
theorem adds_iff (type : String) (w : Workspace) (result : Workspace × BlockId) :
    Adds type w result ↔ result = w.add type := by
  constructor
  · intro h
    induction h with
    | free hfree => exact (add_of_free hfree type).symm
    | taken htaken _ ih => exact ih.trans (add_of_taken htaken type).symm
  · rintro rfl
    exact adds_add type w

/-! ### What one edit does to ids -/

lemma ids_add (w : Workspace) (type : String) :
    (w.add type).1.ids = w.ids ++ [(w.add type).2] :=
  (w.blocks.keys_insert (numbered w.freshNumber) { type }).trans
    (if_neg w.numbered_freshNumber_not_mem)

lemma get?_add_of_mem {k : BlockId} (hk : k ∈ w.ids) (type : String) :
    (w.add type).1.get? k = w.get? k := by
  have hne : k ≠ numbered w.freshNumber := by
    rintro rfl
    exact w.numbered_freshNumber_not_mem hk
  exact (get?_addAs _ _ k type).trans (if_neg hne)

lemma mem_ids_addAs (w : Workspace) (id : BlockId) (type : String) (k : BlockId) :
    k ∈ (w.addAs id type).ids ↔ k = id ∨ k ∈ w.ids := by
  rw [mem_ids_iff, mem_ids_iff, get?_addAs]
  split <;> simp [*]

lemma lastId_disconnect (w : Workspace) (child : BlockId) :
    (w.disconnect child).lastId = w.lastId := by
  unfold disconnect
  split <;> rfl

lemma lastId_connect (w : Workspace) (holder : BlockId) (slot : Slot) (child : BlockId) :
    (w.connect holder slot child).lastId = w.lastId := by
  rw [← lastId_disconnect w child, connect]
  cases (w.disconnect child).held? holder slot <;> rfl

/-- An edit adds a block under a generated id or a given one, or it adds none; then it leaves
the count alone. -/
lemma edit_cases (w : Workspace) (e : Edit) :
    (∃ type, e = .add type) ∨ (∃ id type, e = .addAs id type) ∨
      w.generated? e = none ∧ w.added? e = none ∧ (w.edit e).lastId = w.lastId ∧
        (w.edit e).ids ⊆ w.ids := by
  have hsame {w' : Workspace} (hids : w'.ids = w.ids) : w'.ids ⊆ w.ids :=
    hids ▸ List.Subset.refl _
  cases e with
  | add type => exact .inl ⟨type, rfl⟩
  | addAs id type => exact .inr (.inl ⟨id, type, rfl⟩)
  | setField id name value => exact .inr (.inr ⟨rfl, rfl, rfl, hsame (ids_modify w id _)⟩)
  | connectInput parent input child =>
    refine .inr (.inr ⟨rfl, rfl, lastId_connect w parent (.input input) child, ?_⟩)
    exact hsame (ids_connect w parent (.input input) child)
  | connectNext previous next =>
    refine .inr (.inr ⟨rfl, rfl, lastId_connect w previous .next next, ?_⟩)
    exact hsame (ids_connect w previous .next next)
  | disconnect child =>
    exact .inr (.inr ⟨rfl, rfl, lastId_disconnect w child, hsame (ids_disconnect w child)⟩)
  | delete id =>
    refine .inr (.inr ⟨rfl, rfl, lastId_disconnect w id, ?_⟩)
    show (w.delete id).1.ids ⊆ w.ids
    rw [ids_delete]
    exact List.filter_subset_self _
  | writeField id name value => exact .inr (.inr ⟨rfl, rfl, rfl, hsame (ids_modify w.count id _)⟩)
  | disable id reason on => exact .inr (.inr ⟨rfl, rfl, rfl, hsame (ids_modify w.count id _)⟩)
  | setWarning id key text => exact .inr (.inr ⟨rfl, rfl, rfl, hsame (ids_modify w.count id _)⟩)

lemma mem_ids_edit_of_added? {e : Edit} {id : BlockId} (h : w.added? e = some id) :
    id ∈ (w.edit e).ids := by
  obtain ⟨type, rfl⟩ | ⟨id', type, rfl⟩ | ⟨-, hnone, -⟩ := w.edit_cases e
  · cases h
    exact w.ids_add type ▸ List.mem_concat_self
  · cases h
    exact (w.mem_ids_addAs id type id).mpr (.inl rfl)
  · rw [hnone] at h
    cases h

/-- A block that an edit did not add was there before. -/
lemma mem_ids_of_mem_ids_edit {e : Edit} {id : BlockId} (h : id ∈ (w.edit e).ids)
    (hadded : w.added? e ≠ some id) : id ∈ w.ids := by
  obtain ⟨type, rfl⟩ | ⟨id', type, rfl⟩ | ⟨-, -, -, hids⟩ := w.edit_cases e
  · have hid : id ∈ w.ids ++ [(w.add type).2] := w.ids_add type ▸ h
    rcases List.mem_append.mp hid with hid | hid
    · exact hid
    · exact absurd (congrArg some (List.mem_singleton.mp hid).symm) hadded
  · rcases (w.mem_ids_addAs id' type id).mp h with rfl | hid
    · exact absurd rfl hadded
    · exact hid
  · exact hids h

end Workspace

/-- A reference that resolves has the id of a block that is there. -/
lemma InstanceIndex.mem_ids_of_resolve? {x : InstanceIndex} {w : Workspace} {value : String}
    {r : Reference} (hr : Reference.decode? value = some r)
    (h : (x.resolve? w value).isSome = true) : r.block ∈ w.ids := by
  obtain ⟨code, h⟩ := Option.isSome_iff_exists.mp h
  obtain ⟨r', hr', h⟩ := Option.bind_eq_some_iff.mp h
  obtain rfl : r = r' := Option.some.inj (hr.symm.trans hr')
  obtain ⟨type, htype, -⟩ := Option.bind_eq_some_iff.mp h
  exact Workspace.mem_ids_of_type? htype

/-! ### Workspaces with their past -/

/-- How a block came to be there: how many edits there were before the one that added it, and
whether that one generated its id. -/
structure Origin where
  time : Nat
  generated : Bool
  deriving DecidableEq

/-- A workspace, the number of edits that led to it, the ids that these generated, last first,
and where the block that now has an id comes from. -/
structure History where
  workspace : Workspace := {}
  time : Nat := 0
  generated : List BlockId := []
  origin? : BlockId → Option Origin := fun _ => none

namespace History

def edit (h : History) (e : Edit) : History where
  workspace := h.workspace.edit e
  time := h.time + 1
  generated := (h.workspace.generated? e).toList ++ h.generated
  origin? id :=
    if h.workspace.added? e = some id then some ⟨h.time, (h.workspace.generated? e).isSome⟩
    else if id ∈ (h.workspace.edit e).ids then h.origin? id
    else none

def run (h : History) (edits : List Edit) : History := edits.foldl edit h

/-- The reference is to the block of that origin, which now has the id. -/
def Denotes (h : History) (r : Reference) (o : Origin) : Prop := h.origin? r.block = some o

instance (h : History) (r : Reference) (o : Origin) : Decidable (h.Denotes r o) :=
  inferInstanceAs (Decidable (h.origin? r.block = some o))

/-- What was generated has a number up to the last one, and just the blocks that are there
have an origin. -/
structure Tracked (h : History) : Prop where
  counted : ∀ id ∈ h.generated, ∃ n ≤ h.workspace.lastId, id = Workspace.numbered n
  live : ∀ id, (h.origin? id).isSome = true ↔ id ∈ h.workspace.ids

namespace Tracked

variable {h : History} {id : BlockId} {o : Origin}

lemma start : ({} : History).Tracked where
  counted id hid := by cases hid
  live id := by
    constructor
    · intro hsome
      cases hsome
    · intro hid
      cases hid

/-- The next id to be generated is a new one. -/
lemma not_mem_generated (ht : h.Tracked) (type : String) :
    (h.workspace.add type).2 ∉ h.generated := by
  intro hid
  obtain ⟨n, hn, heq⟩ := ht.counted _ hid
  have hnumber : h.workspace.freshNumber = n := Workspace.numbered_injective heq
  have hlast := h.workspace.lastId_lt_freshNumber
  omega

lemma edit (ht : h.Tracked) (e : Edit) : (h.edit e).Tracked where
  counted id hid := by
    obtain ⟨type, rfl⟩ | ⟨id', type, rfl⟩ | ⟨hnone, -, hlast, -⟩ := h.workspace.edit_cases e
    · rcases List.mem_cons.mp hid with rfl | hid
      · exact ⟨h.workspace.freshNumber, le_rfl, rfl⟩
      · obtain ⟨n, hn, rfl⟩ := ht.counted id hid
        exact ⟨n, hn.trans h.workspace.lastId_lt_freshNumber.le, rfl⟩
    · exact ht.counted id hid
    · rw [History.edit, hnone] at hid
      obtain ⟨n, hn, rfl⟩ := ht.counted id hid
      exact ⟨n, hn.trans hlast.ge, rfl⟩
  live id := by
    simp only [History.edit]
    by_cases hadded : h.workspace.added? e = some id
    · simp [hadded, Workspace.mem_ids_edit_of_added? hadded]
    · by_cases hid : id ∈ (h.workspace.edit e).ids
      · simpa [hadded, hid] using (ht.live id).mpr (Workspace.mem_ids_of_mem_ids_edit hid hadded)
      · simp [hadded, hid]

lemma run (ht : h.Tracked) (edits : List Edit) : (h.run edits).Tracked := by
  induction edits generalizing h with
  | nil => exact ht
  | cons e rest ih => exact ih (ht.edit e)

/-- The block that has an id had it before, or has it from the edit; then by choice, if the
id was generated earlier. -/
lemma origin?_edit (ht : h.Tracked) {e : Edit} (ho : (h.edit e).origin? id = some o) :
    h.origin? id = some o ∨ h.time ≤ o.time ∧ (id ∈ h.generated → o.generated = false) := by
  simp only [History.edit] at ho
  split at ho
  · next hadded =>
    cases ho
    refine .inr ⟨le_rfl, fun hid => ?_⟩
    obtain ⟨type, rfl⟩ | ⟨id', type, rfl⟩ | ⟨-, hnone, -⟩ := h.workspace.edit_cases e
    · -- a generated id is not one of the earlier ones
      cases hadded
      exact absurd hid (ht.not_mem_generated type)
    · rfl
    · rw [hnone] at hadded
      cases hadded
  · split at ho
    · exact .inl ho
    · cases ho

lemma origin?_run (ht : h.Tracked) {later : List Edit} (ho : (h.run later).origin? id = some o) :
    h.origin? id = some o ∨ h.time ≤ o.time ∧ (id ∈ h.generated → o.generated = false) := by
  induction later generalizing h with
  | nil => exact .inl ho
  | cons e rest ih =>
    rcases ih (ht.edit e) ho with hbefore | ⟨htime, hchosen⟩
    · exact ht.origin?_edit hbefore
    · refine .inr ⟨(Nat.le_succ h.time).trans htime, fun hid => hchosen ?_⟩
      exact List.mem_append_right _ hid

end Tracked

/-- After any edits, adding a block without an id comes to an end. It gives an id that no block
has and that was not generated before, and it leaves the blocks as they are and in order. So a
reference to a block that is gone, whose id was generated, can only come to denote a block that
was given this id on purpose; as long as there is none, it does not resolve. -/
theorem generated_ids_never_reused (edits : List Edit) :
    let h := ({} : History).run edits
    let w := h.workspace
    (∀ type,
      (∀ result, w.Adds type result ↔ result = w.add type) ∧
      (w.add type).2 ∉ w.ids ∧ (w.add type).2 ∉ h.generated ∧
      (w.add type).1.ids = w.ids ++ [(w.add type).2] ∧
      ∀ k ∈ w.ids, (w.add type).1.get? k = w.get? k) ∧
    ∀ r : Reference, r.block ∈ h.generated → r.block ∉ w.ids → ∀ later,
      (∀ o, (h.run later).Denotes r o → h.time ≤ o.time ∧ o.generated = false) ∧
      ∀ (x : InstanceIndex) value, Reference.decode? value = some r →
        (x.resolve? (h.run later).workspace value).isSome = true →
          ∃ o, (h.run later).Denotes r o := by
  intro h w
  have ht : h.Tracked := Tracked.start.run edits
  refine ⟨fun type => ?_, fun r hgenerated hgone later => ⟨fun o ho => ?_, ?_⟩⟩
  · exact ⟨Workspace.adds_iff type w, w.numbered_freshNumber_not_mem, ht.not_mem_generated type,
      w.ids_add type, fun k hk => Workspace.get?_add_of_mem hk type⟩
  · rcases ht.origin?_run ho with hbefore | ⟨htime, hchosen⟩
    · exact absurd ((ht.live r.block).mp (by rw [hbefore]; rfl)) hgone
    · exact ⟨htime, hchosen hgenerated⟩
  · intro x value hr hresolves
    have hlive := InstanceIndex.mem_ids_of_resolve? hr hresolves
    exact Option.isSome_iff_exists.mp (((ht.run later).live r.block).mpr hlive)

/-- Two blocks get generated ids, with a chosen one between that looks the same, and are then
deleted together. -/
def freeingEdits : List Edit :=
  [.add "motor", .addAs "b2" "plug", .add "motor", .connectNext "b1" "b3", .delete "b1"]

theorem freeingEdits_not_reused :
    let h := ({} : History).run freeingEdits
    let r : Reference := ⟨"motor", "b1", "left"⟩
    h.generated = ["b3", "b1"] ∧ "b1" ∉ h.workspace.ids ∧ (h.workspace.add "motor").2 = "b4" ∧
      "b4" ∉ h.generated ∧ (h.run [.addAs "b1" "motor"]).Denotes r ⟨5, false⟩ ∧
      ∀ later o, (h.run later).Denotes r o → h.time ≤ o.time ∧ o.generated = false := by
  intro h r
  let before := ({} : History).run freeingEdits.dropLast
  obtain ⟨hadd, hdenotes⟩ := generated_ids_never_reused freeingEdits
  have hgenerated : h.generated = ["b3", "b1"] := by decide +kernel
  have hgone : "b1" ∉ h.workspace.ids := by
    intro hid
    exact Workspace.not_mem_delete_of_mem_ids hid
      (Workspace.mem_delete_self (w := before.workspace) (by decide +kernel))
  have hnumber : Workspace.numbered (h.workspace.lastId + 1) = "b4" := by decide +kernel
  have hfree : Workspace.numbered (h.workspace.lastId + 1) ∉ h.workspace.ids := by
    rw [hnumber]
    intro hid
    have hbefore : "b4" ∈ before.workspace.ids :=
      Workspace.mem_ids_of_mem_ids_edit (e := .delete "b1") hid (by decide +kernel)
    exact absurd hbefore (by decide +kernel)
  have hnext : (h.workspace.add "motor").2 = "b4" := by
    rw [Workspace.add_of_free hfree]
    exact hnumber
  refine ⟨hgenerated, hgone, hnext, hnext ▸ (hadd "motor").2.2.1, by decide +kernel, ?_⟩
  intro later
  exact (hdenotes r (by rw [hgenerated]; decide) hgone later).1

end History

end BlockProgram
