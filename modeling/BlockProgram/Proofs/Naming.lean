import BlockProgram.Proofs.Indexing
import BlockProgram.Proofs.Numbering
import BlockProgram.Proofs.Passes

/-!
# Names of instances over a session

New blocks may come with names that others have, and a field may be set to
anything. The blocks whose names have not been looked at since are pending; the
invariant is that the instances outside of the pending ones have names of their
own. An edit makes blocks pending, and the event that announces it settles them,
one after the other and each against all blocks.
-/
namespace BlockProgram

/-! ### Types and fields -/

namespace Workspace

/-- The part of a block that naming reads. -/
def content (b : Block) : String × Table String := (b.type, b.fields)

/-- Every block of `w'` is one of `w`, with the same type and fields. -/
def Within (w' w : Workspace) : Prop :=
  ∀ id type, w'.type? id = some type →
    w.type? id = some type ∧ ∀ name, w'.field? id name = w.field? id name

lemma within_of_content {w w' : Workspace} {id : BlockId}
    (h : (w'.get? id).map content = (w.get? id).map content) :
    w'.type? id = w.type? id ∧ ∀ name, w'.field? id name = w.field? id name := by
  unfold type? field?
  cases hb' : w'.get? id with
  | none =>
    cases hb : w.get? id with
    | none => exact ⟨rfl, fun _ => rfl⟩
    | some b => rw [hb', hb] at h; cases h
  | some b' =>
    cases hb : w.get? id with
    | none => rw [hb', hb] at h; cases h
    | some b =>
      rw [hb', hb, Option.map_some, Option.map_some, Option.some.injEq] at h
      have htype : b'.type = b.type := congrArg Prod.fst h
      have hfields : b'.fields = b.fields := congrArg Prod.snd h
      exact ⟨by simp [htype], fun name => by simp [hfields]⟩

lemma Within.of_content {w w' : Workspace}
    (h : ∀ id, (w'.get? id).map content = (w.get? id).map content) : Within w' w := by
  intro id type htype
  obtain ⟨ht, hf⟩ := within_of_content (h id)
  exact ⟨ht ▸ htype, hf⟩

lemma ignoresLinks_content : IgnoresLinks content := fun _ _ _ _ => rfl

theorem within_delete (w : Workspace) (id : BlockId) : Within (w.delete id).1 w := by
  intro k type htype
  have hget := get?_delete w id k
  split at hget
  · rw [type?, hget] at htype
    cases htype
  · have hcontent := map_get?_disconnect ignoresLinks_content w id k
    rw [← hget] at hcontent
    obtain ⟨ht, hf⟩ := within_of_content hcontent
    exact ⟨ht ▸ htype, hf⟩

@[simp] theorem type?_setField (w : Workspace) (id k : BlockId) (name value : String) :
    (w.setField id name value).type? k = w.type? k := by
  unfold type?
  exact map_get?_modify w id k fun b => rfl

lemma field?_setField_self {w : Workspace} {id : BlockId} {type : String}
    (h : w.type? id = some type) (name value : String) :
    (w.setField id name value).field? id name = some value := by
  obtain ⟨b, hb, _⟩ := Option.map_eq_some_iff.mp h
  simp [field?, hb]

lemma field?_setField_of_ne (w : Workspace) {id k : BlockId} {name field : String}
    (value : String) (h : k ≠ id ∨ field ≠ name) :
    (w.setField id name value).field? k field = w.field? k field := by
  unfold field?
  rw [get?_setField]
  split
  · next hk =>
    have hf := h.resolve_left (not_not_intro hk)
    cases w.get? k with
    | none => rfl
    | some b => simp [hf]
  · rfl

end Workspace

open Workspace

/-! ### What naming does to a block -/

namespace InstanceIndex

lemma constructorOf?_eq_some_iff (x : InstanceIndex) (w : Workspace) (id : BlockId)
    (type : String) (c : Constructor) :
    x.constructorOf? w id = some (type, c) ↔ w.type? id = some type ∧ x.get? type = some c := by
  simp only [constructorOf?, Option.bind_eq_some_iff, Option.map_eq_some_iff, Prod.mk.injEq]
  constructor
  · rintro ⟨type', ht, c', hc, rfl, rfl⟩
    exact ⟨ht, hc⟩
  · rintro ⟨ht, hc⟩
    exact ⟨type, ht, c, hc, rfl, rfl⟩

/-- A name that a block of a type may have: no other block of the type has it, and
it does not stand for having none. -/
structure Suits (x : InstanceIndex) (w : Workspace) (id : BlockId) (type : String)
    (c : Constructor) (name : String) : Prop where
  free : ∀ other, other ≠ id → w.type? other = some type → w.field? other c.nameField ≠ some name
  assigned : ¬ IsNumeral x.unassignedSuffix → name ≠ x.unassigned c

theorem suits_freshName (x : InstanceIndex) (w : Workspace) (id : BlockId) (type : String)
    (c : Constructor) : x.Suits w id type c (freshName w type c) where
  free _ _ htype hname := freshName_ne htype hname rfl
  assigned h := freshName_ne_of_not_numeral h w type c

/-- Either nothing is written, because the block is no instance or has a name, or
a fresh name is. -/
lemma autoName_cases (x : InstanceIndex) (w : Workspace) (id : BlockId) :
    (x.autoName w id = (w, none) ∧ ∀ type c, x.constructorOf? w id = some (type, c) →
      ∃ name, w.field? id c.nameField = some name ∧ name ≠ x.unassigned c) ∨
    ∃ type c, x.constructorOf? w id = some (type, c) ∧
      x.autoName w id =
        (w.writeField id c.nameField (freshName w type c), some (freshName w type c)) := by
  unfold autoName
  cases hc : x.constructorOf? w id with
  | none => exact .inl ⟨rfl, fun _ _ h => by cases h⟩
  | some e =>
    obtain ⟨type, c⟩ := e
    dsimp only
    split
    · next hkeep =>
      refine .inl ⟨rfl, ?_⟩
      rintro type' c' ⟨rfl, rfl⟩
      rw [Bool.and_eq_true, Option.isSome_iff_exists, bne_iff_ne] at hkeep
      obtain ⟨⟨name, hname⟩, hne⟩ := hkeep
      exact ⟨name, hname, fun h => hne (by rw [hname, h])⟩
    · exact .inr ⟨type, c, rfl, rfl⟩

lemma isTaken_eq_false_iff (w : Workspace) (id : BlockId) (type : String) (c : Constructor)
    (name : String) :
    isTaken w id type c name = false ↔ ∀ other, other ≠ id → w.type? other = some type →
      w.field? other c.nameField ≠ some name := by
  simp only [isTaken, List.any_eq_false, Prod.forall, mem_named_iff, Bool.and_eq_true,
    bne_iff_ne, beq_iff_eq, not_and]
  constructor
  · intro h other hne htype hname
    exact h other name ⟨htype, hname⟩ hne rfl
  · rintro h other name' ⟨htype, hname⟩ hne rfl
    exact h other hne htype hname

/-- All that settling a name can do. It does nothing if the block is no instance or has a name
of its own. Otherwise it writes a name, which is a fresh one or the previous one, and that
only if another instance has the present one. -/
lemma settleName_outcome (x : InstanceIndex) (w : Workspace) (id : BlockId)
    (previous : Option String) :
    (x.settleName w id previous = (w, .unchanged) ∧
      ∀ type c, x.constructorOf? w id = some (type, c) →
        ∃ name, w.field? id c.nameField = some name ∧ name ≠ x.unassigned c ∧
          isTaken w id type c name = false) ∨
    ∃ type c name, x.constructorOf? w id = some (type, c) ∧
      (x.settleName w id previous = (w.writeField id c.nameField name, .assigned name) ∧
          name = freshName w type c ∨
        x.settleName w id previous = (w.writeField id c.nameField name, .reverted name) ∧
          previous = some name ∧ ∃ current, w.field? id c.nameField = some current ∧
            isTaken w id type c current = true) := by
  unfold settleName
  obtain ⟨hauto, hnamed⟩ | ⟨type, c, hc, hauto⟩ := x.autoName_cases w id
  · rw [hauto]
    dsimp only
    cases hc : x.constructorOf? w id with
    | none => exact .inl ⟨rfl, fun _ _ h => by cases h⟩
    | some e =>
      obtain ⟨type, c⟩ := e
      obtain ⟨current, hcurrent, hassigned⟩ := hnamed type c hc
      simp only [hcurrent]
      cases htaken : isTaken w id type c current with
      | false =>
        refine .inl ⟨rfl, ?_⟩
        rintro type' c' ⟨rfl, rfl⟩
        exact ⟨current, hcurrent, hassigned, htaken⟩
      | true =>
        right
        simp only [Bool.not_true, Bool.false_eq_true, if_false]
        split
        · next name hname =>
          obtain ⟨hprevious, -⟩ := Option.filter_eq_some_iff.mp hname
          exact ⟨type, c, name, rfl, .inr ⟨rfl, hprevious, current, hcurrent, htaken⟩⟩
        · exact ⟨type, c, _, rfl, .inl ⟨rfl, rfl⟩⟩
  · rw [hauto]
    exact .inr ⟨type, c, _, hc, .inl ⟨rfl, rfl⟩⟩

/-- A settled block is left alone, because it is no instance or its name suits it,
or it is given a suitable name, if the previous one was suitable. -/
lemma settleName_cases (x : InstanceIndex) (w : Workspace) (id : BlockId)
    (previous : Option String)
    (hprevious : ∀ type c name, x.constructorOf? w id = some (type, c) → previous = some name →
      x.Suits w id type c name) :
    ((x.settleName w id previous).1 = w ∧ ∀ type c, x.constructorOf? w id = some (type, c) →
      ∃ name, w.field? id c.nameField = some name ∧ x.Suits w id type c name) ∨
    ∃ type c name, x.constructorOf? w id = some (type, c) ∧ x.Suits w id type c name ∧
      (x.settleName w id previous).1 = w.writeField id c.nameField name := by
  obtain ⟨hkept, hnamed⟩ | ⟨type, c, name, hc, ⟨hwritten, rfl⟩ | ⟨hwritten, hold, -⟩⟩ :=
    x.settleName_outcome w id previous
  · refine .inl ⟨by rw [hkept], fun type c hc => ?_⟩
    obtain ⟨name, hname, hassigned, htaken⟩ := hnamed type c hc
    exact ⟨name, hname, (isTaken_eq_false_iff w id type c name).mp htaken, fun _ => hassigned⟩
  · exact .inr ⟨type, c, _, hc, x.suits_freshName w id type c, by rw [hwritten]⟩
  · exact .inr ⟨type, c, name, hc, hprevious type c name hc hold, by rw [hwritten]⟩

/-! ### Settled names -/

/-- Apart from the pending blocks, every instance has a name, no two instances of
one type have the same, and none has the name that stands for none. -/
structure Settled (x : InstanceIndex) (w : Workspace) (pending : List BlockId) : Prop where
  named : ∀ {id type c}, id ∉ pending → w.type? id = some type → x.get? type = some c →
    ∃ name, w.field? id c.nameField = some name
  distinct : ∀ {id other type c name}, id ∉ pending → other ∉ pending → other ≠ id →
    w.type? id = some type → w.type? other = some type → x.get? type = some c →
    w.field? id c.nameField = some name → w.field? other c.nameField ≠ some name
  assigned : ∀ {id type c}, id ∉ pending → w.type? id = some type → x.get? type = some c →
    ¬ IsNumeral x.unassignedSuffix → w.field? id c.nameField ≠ some (x.unassigned c)

namespace Settled

variable {x : InstanceIndex} {w w' : Workspace} {pending pending' : List BlockId}

lemma mono (h : Settled x w pending) (hsub : pending ⊆ pending') : Settled x w pending' where
  named hid := h.named fun hmem => hid (hsub hmem)
  distinct hid hother := h.distinct (fun hmem => hid (hsub hmem)) fun hmem => hother (hsub hmem)
  assigned hid := h.assigned fun hmem => hid (hsub hmem)

/-- Only the types of blocks that are not pending matter, and their name fields. -/
lemma transfer (h : Settled x w pending)
    (hw : ∀ id type, id ∉ pending → w'.type? id = some type → w.type? id = some type ∧
      ∀ c, x.get? type = some c → w'.field? id c.nameField = w.field? id c.nameField) :
    Settled x w' pending where
  named hid htype hc := by
    obtain ⟨htype', hfield⟩ := hw _ _ hid htype
    rw [hfield _ hc]
    exact h.named hid htype' hc
  distinct hid hother hne htype htype' hc hname := by
    obtain ⟨ht, hf⟩ := hw _ _ hid htype
    obtain ⟨ht', hf'⟩ := hw _ _ hother htype'
    rw [hf _ hc] at hname
    rw [hf' _ hc]
    exact h.distinct hid hother hne ht ht' hc hname
  assigned hid htype hc := by
    obtain ⟨htype', hfield⟩ := hw _ _ hid htype
    rw [hfield _ hc]
    exact h.assigned hid htype' hc

lemma within (h : Settled x w pending) (hw : Within w' w) : Settled x w' pending :=
  h.transfer fun id type _ htype =>
    ⟨(hw id type htype).1, fun c _ => (hw id type htype).2 c.nameField⟩

/-- A block whose name suits it is pending no longer. -/
lemma settle {id : BlockId} (h : Settled x w (id :: pending))
    (hid : ∀ type c, w.type? id = some type → x.get? type = some c →
      ∃ name, w.field? id c.nameField = some name ∧ x.Suits w id type c name) :
    Settled x w pending where
  named {k type c} hk htype hc := by
    by_cases heq : k = id
    · subst heq
      obtain ⟨name, hname, _⟩ := hid type c htype hc
      exact ⟨name, hname⟩
    · exact h.named (by simp [heq, hk]) htype hc
  distinct {k other type c name} hk hother hne htype htype' hc hname hname' := by
    by_cases heq : k = id
    · subst heq
      obtain ⟨name', hn, hs⟩ := hid type c htype hc
      rw [hn, Option.some.injEq] at hname
      exact hs.free other hne htype' (hname ▸ hname')
    · by_cases heq' : other = id
      · subst heq'
        obtain ⟨name', hn, hs⟩ := hid type c htype' hc
        rw [hn, Option.some.injEq] at hname'
        exact hs.free k (Ne.symm hne) htype (hname' ▸ hname)
      · exact h.distinct (by simp [heq, hk]) (by simp [heq', hother]) hne htype htype' hc hname
          hname'
  assigned {k type c} hk htype hc hsuffix := by
    by_cases heq : k = id
    · subst heq
      obtain ⟨name, hname, hs⟩ := hid type c htype hc
      rw [hname]
      exact fun h => hs.assigned hsuffix (Option.some.inj h)
    · exact h.assigned (by simp [heq, hk]) htype hc hsuffix

/-- A field that is set matters only if it is the name field of an instance that
is not pending. -/
lemma setField {id : BlockId} {field : String} (h : Settled x w pending) (value : String)
    (hid : id ∉ pending → ∀ type c, x.constructorOf? w id = some (type, c) →
      c.nameField ≠ field) :
    Settled x (w.setField id field value) pending := by
  refine h.transfer fun k type hk htype => ?_
  rw [type?_setField] at htype
  refine ⟨htype, fun c hc => field?_setField_of_ne w value ?_⟩
  by_cases heq : k = id
  · subst heq
    exact .inr (hid hk type c ((constructorOf?_eq_some_iff x w k type c).mpr ⟨htype, hc⟩))
  · exact .inl heq

/-- Writing a suitable name settles a block. -/
lemma writeField {id : BlockId} {type : String} {c : Constructor} {name : String}
    (h : Settled x w (id :: pending)) (hc : x.constructorOf? w id = some (type, c))
    (hs : x.Suits w id type c name) : Settled x (w.writeField id c.nameField name) pending := by
  obtain ⟨htype, hc⟩ := (constructorOf?_eq_some_iff x w id type c).mp hc
  have hwritten : Settled x (w.setField id c.nameField name) pending := by
    refine (h.setField name (by simp)).settle fun type' c' htype' hc' => ?_
    rw [type?_setField, htype, Option.some.injEq] at htype'
    subst htype'
    rw [hc, Option.some.injEq] at hc'
    subst hc'
    refine ⟨name, field?_setField_self htype _ _, fun other hne ht => ?_, hs.assigned⟩
    rw [type?_setField] at ht
    rw [field?_setField_of_ne w name (.inl hne)]
    exact hs.free other hne ht
  exact hwritten.within (Within.of_content fun _ => rfl)

theorem autoName (h : Settled x w pending) (id : BlockId) :
    Settled x (x.autoName w id).1 pending := by
  obtain ⟨hauto, -⟩ | ⟨type, c, hc, hauto⟩ := x.autoName_cases w id
  · rw [hauto]
    exact h
  · rw [hauto]
    exact (h.mono (List.subset_cons_self id pending)).writeField hc (x.suits_freshName w id type c)

theorem settleName {id : BlockId} (h : Settled x w (id :: pending)) (previous : Option String)
    (hprevious : ∀ type c name, x.constructorOf? w id = some (type, c) → previous = some name →
      x.Suits w id type c name) :
    Settled x (x.settleName w id previous).1 pending := by
  obtain ⟨hkept, hnamed⟩ | ⟨type, c, name, hc, hs, hwritten⟩ :=
    x.settleName_cases w id previous hprevious
  · rw [hkept]
    exact h.settle fun type c htype hc =>
      hnamed type c ((constructorOf?_eq_some_iff x w id type c).mpr ⟨htype, hc⟩)
  · rw [hwritten]
    exact h.writeField hc hs

/-- The blocks of a new batch are settled one after the other. -/
theorem nameCreated {ids : List BlockId} (h : Settled x w ids) :
    Settled x (Session.nameCreated x w ids).1 [] := by
  induction ids generalizing w with
  | nil => exact h
  | cons id rest ih =>
    rw [Session.nameCreated]
    split
    · exact ih (h.settleName none fun _ _ _ _ hnone => by cases hnone)
    · next hid =>
      -- A block that is no instance cannot be in the way of others.
      refine ih (h.settle fun type c htype hc => absurd ?_ hid)
      rw [InstanceIndex.isConstructor,
        (constructorOf?_eq_some_iff x w id type c).mpr ⟨htype, hc⟩, Option.isSome_some]

/-- The old name of a block, as it was before it was set to something else, suits
the block still. -/
lemma suits_old (h : Settled x w []) {id : BlockId} {field value name : String} {type : String}
    {c : Constructor} (hc : x.constructorOf? w id = some (type, c)) (hfield : c.nameField = field)
    (hold : w.field? id field = some name) :
    x.Suits (w.setField id field value) id type c name := by
  obtain ⟨htype, hc⟩ := (constructorOf?_eq_some_iff x w id type c).mp hc
  subst hfield
  constructor
  · intro other hne ht
    rw [type?_setField] at ht
    rw [field?_setField_of_ne w value (.inl hne)]
    exact h.distinct (by simp) (by simp) hne htype ht hc hold
  · intro hsuffix hname
    exact h.assigned (by simp) htype hc hsuffix (hname ▸ hold)

theorem nameChanged (h : Settled x w []) (id : BlockId) (field value : String) :
    Settled x (Session.nameChanged x (w.setField id field value) id field (w.field? id field)).1
      [] := by
  have hpending : Settled x (w.setField id field value) [id] :=
    (h.mono (List.nil_subset _)).setField value (by simp)
  have hsame : x.constructorOf? (w.setField id field value) id = x.constructorOf? w id := by
    rw [InstanceIndex.constructorOf?, type?_setField, InstanceIndex.constructorOf?]
  unfold Session.nameChanged
  rw [hsame]
  split
  · next hnone => exact h.setField value fun _ type c hc => by rw [hc] at hnone; cases hnone
  · next type c hc =>
    split
    · next hfield =>
      refine hpending.settleName _ fun type' c' name hc' hold => ?_
      rw [hsame, hc, Option.some.injEq, Prod.mk.injEq] at hc'
      obtain ⟨rfl, rfl⟩ := hc'
      exact h.suits_old hc hfield hold
    · next hfield =>
      have hkept : Settled x (w.setField id field value) [] := by
        refine h.setField value fun _ type' c' hc' => ?_
        rw [hc, Option.some.injEq, Prod.mk.injEq] at hc'
        exact hc'.2 ▸ hfield
      have hauto := hkept.autoName id
      split <;> next heq => rwa [heq] at hauto

theorem nameMoved (h : Settled x w []) (id : BlockId) :
    Settled x (Session.nameMoved x w id).1 [] := by
  have hauto := h.autoName id
  unfold Session.nameMoved
  split <;> next heq => rwa [heq] at hauto

end Settled

end InstanceIndex

end BlockProgram
