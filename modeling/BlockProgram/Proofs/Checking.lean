import BlockProgram.Proofs.Naming

/-!
# What the check of selections settles

The check goes through the dropdowns of all blocks and writes one warning at a time.
Whether a selection is wrong depends on types and fields, which it does not write. So
after the check every dropdown has the warning that its selection deserves, provided
that no two dropdowns of a block share a name, and a check that finds it so writes
nothing.
-/
namespace BlockProgram

/-! ### Workspaces with the same content -/

namespace Workspace

/-- The same blocks, in the same order and with the same types and fields. -/
structure SameContent (w' w : Workspace) : Prop where
  ids : w'.ids = w.ids
  type : w'.type? = w.type?
  field : w'.field? = w.field?

namespace SameContent

variable {w w' w'' : Workspace}

lemma of_content (hids : w'.ids = w.ids)
    (h : ∀ id, (w'.get? id).map content = (w.get? id).map content) : SameContent w' w where
  ids := hids
  type := funext fun id => (within_of_content (h id)).1
  field := funext₂ fun id => (within_of_content (h id)).2

lemma refl (w : Workspace) : SameContent w w := ⟨rfl, rfl, rfl⟩

lemma trans (h : SameContent w'' w') (h' : SameContent w' w) : SameContent w'' w :=
  ⟨h.ids.trans h'.ids, h.type.trans h'.type, h.field.trans h'.field⟩

lemma named (h : SameContent w' w) : w'.named = w.named := by
  funext type c
  rw [Workspace.named, Workspace.named, ofType, ofType, h.ids, h.type, h.field]

lemma constructorOf? (h : SameContent w' w) (x : InstanceIndex) :
    x.constructorOf? w' = x.constructorOf? w := by
  funext id
  rw [InstanceIndex.constructorOf?, InstanceIndex.constructorOf?, h.type]

lemma fault? (h : SameContent w' w) (x : InstanceIndex) : x.fault? w' = x.fault? w := by
  funext system value
  rw [InstanceIndex.fault?, InstanceIndex.fault?, InstanceIndex.resolve?, InstanceIndex.resolve?,
    InstanceIndex.isKnown, InstanceIndex.isKnown, h.named, h.type, h.field]

lemma fieldsOf (h : SameContent w' w) (v : Vocabulary) :
    InstanceIndex.fieldsOf v w' = InstanceIndex.fieldsOf v w := by
  funext id
  rw [InstanceIndex.fieldsOf, InstanceIndex.fieldsOf, h.type]

end SameContent

lemma warning?_setWarning {w : Workspace} {id : BlockId} (hid : id ∈ w.ids) (k : BlockId)
    (key key' : String) (text : Option String) :
    (w.setWarning id key text).warning? k key' =
      if k = id ∧ key' = key then text else w.warning? k key' := by
  obtain ⟨b, hb⟩ := Option.isSome_iff_exists.mp ((mem_ids_iff w id).mp hid)
  simp only [warning?, setWarning, get?_modify, get?_count]
  by_cases hk : k = id
  · subst hk
    cases text <;> by_cases hkey : key' = key <;> simp [hb, hkey]
  · simp [hk]

end Workspace

/-- The dropdowns over instances are arguments, with some left out. -/
lemma Definition.sublist_instanceFields (d : Definition) :
    (d.instanceFields.map Prod.fst).Sublist (d.args.map Argument.name) := by
  unfold instanceFields
  induction d.args with
  | nil => exact .slnil
  | cons a rest ih =>
    rw [List.map_cons, List.filterMap_cons]
    split
    · exact ih.cons _
    · next e he =>
      have hname : e.1 = a.name := by
        split at he
        · cases he; rfl
        · cases he
      rw [List.map_cons, hname]
      exact ih.cons_cons _

namespace InstanceIndex

open Workspace

/-! ### One dropdown -/

/-- What is wrong with the selection in a dropdown, given by its field and system. -/
def faultIn? (x : InstanceIndex) (w : Workspace) (id : BlockId) (e : String × String) :
    Option SelectionFault :=
  x.fault? w e.2 ((w.field? id e.1).getD "")

lemma faultIn?_congr {w w' : Workspace} (h : SameContent w' w) (x : InstanceIndex) :
    x.faultIn? w' = x.faultIn? w := by
  funext id e
  rw [faultIn?, faultIn?, h.fault?, h.field]

variable (x : InstanceIndex)

lemma sameContent_checkField (w : Workspace) (id : BlockId) (field system : String) :
    SameContent (x.checkField w id field system).1 w := by
  refine .of_content ?_ fun k => map_get?_checkField (fun _ _ => rfl) x w id k field system
  unfold checkField
  dsimp only
  split
  · exact ids_modify w.count id _
  · rfl

/-- The check of a dropdown sets its warning and no other. -/
lemma warning?_checkField {w : Workspace} {id : BlockId} (hid : id ∈ w.ids) (e : String × String)
    (k : BlockId) (key : String) :
    (x.checkField w id e.1 e.2).1.warning? k key =
      if k = id ∧ key = e.1 then (x.faultIn? w id e).map SelectionFault.message
      else w.warning? k key := by
  unfold checkField
  dsimp only
  split
  · exact warning?_setWarning hid k e.1 key _
  · next hsame =>
    rw [bne_iff_ne, not_not] at hsame
    split
    · next heq => rw [heq.1, heq.2, hsame, faultIn?]
    · rfl

/-! ### One block -/

lemma sameContent_checkFields (id : BlockId) (r : Workspace × Nat)
    (fields : List (String × String)) : SameContent (x.checkFields id r fields).1 r.1 := by
  induction fields generalizing r with
  | nil => exact .refl r.1
  | cons e rest ih => exact (ih _).trans (x.sameContent_checkField r.1 id e.1 e.2)

/-- The warnings of other blocks, and those under other names, are left alone. -/
lemma warning?_checkFields_of_not_mem {id : BlockId} {r : Workspace × Nat} (hid : id ∈ r.1.ids)
    (fields : List (String × String)) {k : BlockId} {key : String}
    (h : k ≠ id ∨ key ∉ fields.map Prod.fst) :
    (x.checkFields id r fields).1.warning? k key = r.1.warning? k key := by
  induction fields generalizing r with
  | nil => rfl
  | cons e rest ih =>
    have hids := (x.sameContent_checkField r.1 id e.1 e.2).ids
    rw [List.map_cons, List.mem_cons, not_or] at h
    rw [checkFields, ih (hids ▸ hid) (h.imp_right And.right), warning?_checkField x hid, if_neg]
    rintro ⟨hk, hkey⟩
    exact h.elim (· hk) (·.1 hkey)

/-- The fields have different names, so that no warning is written over by a later one. -/
lemma warning?_checkFields_of_mem {id : BlockId} {r : Workspace × Nat} (hid : id ∈ r.1.ids)
    {fields : List (String × String)} (hnodup : (fields.map Prod.fst).Nodup)
    {e : String × String} (he : e ∈ fields) :
    (x.checkFields id r fields).1.warning? id e.1 =
      (x.faultIn? r.1 id e).map SelectionFault.message := by
  induction fields generalizing r with
  | nil => cases he
  | cons e' rest ih =>
    have hsame := x.sameContent_checkField r.1 id e'.1 e'.2
    have hid' := hsame.ids ▸ hid
    obtain ⟨hnot, hrest⟩ := List.nodup_cons.mp (List.map_cons ▸ hnodup)
    rw [checkFields]
    rcases List.mem_cons.mp he with rfl | he
    · rw [warning?_checkFields_of_not_mem x hid' rest (.inr hnot), warning?_checkField x hid,
        if_pos ⟨rfl, rfl⟩]
    · rw [ih hid' hrest he, faultIn?_congr hsame]

lemma checkFields_of_warned {id : BlockId} {w : Workspace} (invalid : Nat)
    {fields : List (String × String)}
    (h : ∀ e ∈ fields, w.warning? id e.1 = (x.faultIn? w id e).map SelectionFault.message) :
    (x.checkFields id (w, invalid) fields).1 = w := by
  induction fields generalizing invalid with
  | nil => rfl
  | cons e rest ih =>
    rw [List.forall_mem_cons] at h
    have hkept : x.checkField w id e.1 e.2 = (w, (x.faultIn? w id e).isNone) := by
      unfold checkField
      dsimp only
      rw [if_neg, faultIn?, Option.isNone_map]
      rw [bne_iff_ne, not_not]
      exact h.1
    rw [checkFields, hkept, ih _ h.2]

lemma invalid_checkFields (id : BlockId) (r : Workspace × Nat) (fields : List (String × String)) :
    (x.checkFields id r fields).2 =
      r.2 + fields.countP fun e => (x.faultIn? r.1 id e).isSome := by
  induction fields generalizing r with
  | nil => rfl
  | cons e rest ih =>
    have hvalid : (x.checkField r.1 id e.1 e.2).2 = (x.faultIn? r.1 id e).isNone := by
      rw [checkField, faultIn?, Option.isNone_map]
    rw [checkFields, ih, faultIn?_congr (x.sameContent_checkField r.1 id e.1 e.2), hvalid,
      List.countP_cons]
    cases x.faultIn? r.1 id e with
    | none => simp
    | some fault => simp; omega

/-! ### All blocks -/

variable (v : Vocabulary)

/-- Every dropdown over instances has the warning that its selection deserves. -/
def Warned (w : Workspace) : Prop :=
  ∀ id ∈ w.ids, ∀ e ∈ fieldsOf v w id,
    w.warning? id e.1 = (x.faultIn? w id e).map SelectionFault.message

lemma nodup_fieldsOf {v : Vocabulary} (hv : v.Sound) (w : Workspace) (id : BlockId) :
    ((fieldsOf v w id).map Prod.fst).Nodup := by
  unfold fieldsOf
  split
  · next d hd =>
    obtain ⟨type, -, hd⟩ := Option.bind_eq_some_iff.mp hd
    exact (hv type d hd).distinct.sublist d.sublist_instanceFields
  · exact List.nodup_nil

lemma sameContent_foldl_checkFields (pending : List BlockId) (r : Workspace × Nat) :
    SameContent (pending.foldl (fun r id => x.checkFields id r (fieldsOf v r.1 id)) r).1 r.1 := by
  induction pending generalizing r with
  | nil => exact .refl r.1
  | cons id rest ih => exact (ih _).trans (x.sameContent_checkFields id r _)

theorem sameContent_checkAll (w : Workspace) : SameContent (x.checkAll v w).1 w :=
  x.sameContent_foldl_checkFields v w.ids (w, 0)

lemma warning?_foldl_checkFields_of_not_mem {pending : List BlockId} {r : Workspace × Nat}
    (hpending : pending ⊆ r.1.ids) {k : BlockId} (hk : k ∉ pending) (key : String) :
    (pending.foldl (fun r id => x.checkFields id r (fieldsOf v r.1 id)) r).1.warning? k key =
      r.1.warning? k key := by
  induction pending generalizing r with
  | nil => rfl
  | cons id rest ih =>
    obtain ⟨hid, hrest⟩ := List.cons_subset.mp hpending
    rw [List.mem_cons, not_or] at hk
    have hids := (x.sameContent_checkFields id r (fieldsOf v r.1 id)).ids
    rw [List.foldl_cons, ih (hids ▸ hrest) hk.2,
      warning?_checkFields_of_not_mem x hid _ (.inl hk.1)]

lemma warning?_foldl_checkFields_of_mem {v : Vocabulary} (hv : v.Sound) {pending : List BlockId}
    {r : Workspace × Nat} (hpending : pending ⊆ r.1.ids) {k : BlockId} (hk : k ∈ pending)
    {e : String × String} (he : e ∈ fieldsOf v r.1 k) :
    (pending.foldl (fun r id => x.checkFields id r (fieldsOf v r.1 id)) r).1.warning? k e.1 =
      (x.faultIn? r.1 k e).map SelectionFault.message := by
  induction pending generalizing r with
  | nil => cases hk
  | cons id rest ih =>
    obtain ⟨hid, hrest⟩ := List.cons_subset.mp hpending
    have hsame := x.sameContent_checkFields id r (fieldsOf v r.1 id)
    have hrest' := hsame.ids ▸ hrest
    rw [List.foldl_cons]
    by_cases hlater : k ∈ rest
    · have he' : e ∈ fieldsOf v (x.checkFields id r (fieldsOf v r.1 id)).1 k := by
        rwa [hsame.fieldsOf]
      rw [ih hrest' hlater he', faultIn?_congr hsame]
    · obtain rfl : k = id := (List.mem_cons.mp hk).resolve_right hlater
      rw [warning?_foldl_checkFields_of_not_mem x v hrest' hlater,
        warning?_checkFields_of_mem x hid (nodup_fieldsOf hv r.1 k) he]

/-- After the check the warnings are right. -/
theorem warned_checkAll {v : Vocabulary} (hv : v.Sound) (w : Workspace) :
    x.Warned v (x.checkAll v w).1 := by
  intro id hid e he
  have hsame := x.sameContent_checkAll v w
  rw [hsame.ids] at hid
  rw [hsame.fieldsOf] at he
  rw [faultIn?_congr hsame]
  exact warning?_foldl_checkFields_of_mem x hv (List.Subset.refl _) hid he

/-- Where the warnings are right, the check writes nothing. -/
theorem checkAll_of_warned {v : Vocabulary} {w : Workspace} (h : x.Warned v w) :
    (x.checkAll v w).1 = w := by
  have hfold (pending : List BlockId) (hpending : pending ⊆ w.ids) (invalid : Nat) :
      (pending.foldl (fun r id => x.checkFields id r (fieldsOf v r.1 id)) (w, invalid)).1 = w := by
    induction pending generalizing invalid with
    | nil => rfl
    | cons id rest ih =>
      obtain ⟨hid, hrest⟩ := List.cons_subset.mp hpending
      have hkept : x.checkFields id (w, invalid) (fieldsOf v w id) =
          (w, (x.checkFields id (w, invalid) (fieldsOf v w id)).2) :=
        Prod.ext (x.checkFields_of_warned invalid (h id hid)) rfl
      rw [List.foldl_cons, hkept, ih hrest]
  exact hfold w.ids (List.Subset.refl _) 0

/-- The number of dropdowns whose selection is wrong. -/
def wrongSelections (w : Workspace) : Nat :=
  (w.ids.map fun id => (fieldsOf v w id).countP fun e => (x.faultIn? w id e).isSome).sum

lemma wrongSelections_congr {w w' : Workspace} (h : SameContent w' w) :
    x.wrongSelections v w' = x.wrongSelections v w := by
  rw [wrongSelections, wrongSelections, h.ids, h.fieldsOf, faultIn?_congr h]

/-- The check counts the wrong selections of all blocks. -/
theorem invalid_checkAll (w : Workspace) : (x.checkAll v w).2 = x.wrongSelections v w := by
  have hfold (pending : List BlockId) (r : Workspace × Nat) (hr : SameContent r.1 w) :
      (pending.foldl (fun r id => x.checkFields id r (fieldsOf v r.1 id)) r).2 =
        r.2 + (pending.map fun id =>
          (fieldsOf v w id).countP fun e => (x.faultIn? w id e).isSome).sum := by
    induction pending generalizing r with
    | nil => rfl
    | cons id rest ih =>
      have hnext := (x.sameContent_checkFields id r (fieldsOf v r.1 id)).trans hr
      rw [List.foldl_cons, ih _ hnext, invalid_checkFields, hr.fieldsOf, faultIn?_congr hr,
        List.map_cons, List.sum_cons, Nat.add_assoc]
  rw [checkAll, hfold w.ids (w, 0) (.refl w), Nat.zero_add, wrongSelections]

end InstanceIndex

end BlockProgram
