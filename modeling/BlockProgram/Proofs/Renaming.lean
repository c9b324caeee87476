import BlockProgram.Proofs.Accepting
import BlockProgram.Proofs.DeadCode
import BlockProgram.Proofs.Listing
import BlockProgram.Proofs.Marking

/-!
# References outlive renamings

A reference names the block that provides a virtual instance, and not the name that the block
gives to its own. A renaming leaves every block its type, and takes a name from no block that
has one, so the same references resolve before and after it, and a dropdown offers the same
ones. What a reference resolves to has the new name in the place of the old.
-/
namespace BlockProgram

open Workspace

/-- The name of an instance stands in a field that is called by an identifier. -/
lemma Definition.IsRead.isName_nameField {d : Definition} (h : d.IsRead) {c : Constructor}
    (hc : d.constructs = some c) : Text.isName c.nameField = true := by
  obtain ⟨a, ha, hname, -⟩ := h.sound.nameField c hc
  obtain ⟨path, j, hj⟩ := h
  rw [← hname]
  exact (args_of_ofJson hj a ha).1

namespace Vocabulary

variable {v : Vocabulary} {w : Workspace} {p : BlockId} {type : String} {c : Constructor}

lemma hasVirtual_setField (field value system : String) (r : Reference) :
    v.HasVirtual (w.setField p field value) system r ↔ v.HasVirtual w system r := by
  simp [HasVirtual]

/-- A renaming changes one name. -/
lemma instanceName?_rename (htype : w.type? p = some type) (hc : v.constructor? type = some c)
    (new : String) (id : BlockId) :
    v.instanceName? (w.setField p c.nameField new) id =
      if id = p then some new else v.instanceName? w id := by
  split
  · next hid =>
    subst hid
    rw [instanceName?_eq (by rwa [type?_setField]) hc, field?_setField_self htype]
  · next hid =>
    rw [instanceName?, instanceName?, type?_setField]
    cases (w.type? id).bind v.constructor? with
    | none => rfl
    | some c' => exact field?_setField_of_ne w new (.inl hid)

/-- What has a name keeps one. -/
lemma isSome_instanceName?_rename (htype : w.type? p = some type)
    (hc : v.constructor? type = some c) {old : String} (hold : w.field? p c.nameField = some old)
    (new : String) (id : BlockId) :
    (v.instanceName? (w.setField p c.nameField new) id).isSome =
      (v.instanceName? w id).isSome := by
  rw [instanceName?_rename htype hc]
  split
  · next hid =>
    subst hid
    rw [instanceName?_eq htype hc, hold, Option.isSome_some, Option.isSome_some]
  · rfl

end Vocabulary

namespace InstanceIndex

variable {v : Vocabulary} {x : InstanceIndex} {w : Workspace} {value : String}

/-- Whichever way a reference is written, it resolves to the same. -/
lemma resolve?_of_decode? {r : Reference} (h : Reference.decode? value = some r) :
    x.resolve? w value = x.resolve? w (Reference.encode r) := by
  simp [resolve?, h, Reference.decode?_encode]

/-- A reference resolves to the connection with the name for its placeholder. -/
lemma resolve?_eq_replaceAll (hv : v.KeyedByType) (hread : v.IsRead) {r : Reference}
    {type name code : String} {c : Constructor} (hr : Reference.decode? value = some r)
    (htype : w.type? r.block = some type) (hc : v.constructor? type = some c)
    (hname : v.instanceName? w r.block = some name)
    (hcode : (x.rebuild v).resolve? w value = some code) :
    ∃ part ∈ c.virtuals, part.name = r.name ∧
      code = Text.replaceAll ("$[" ++ c.nameField ++ "]") name part.connection := by
  obtain ⟨r', hr', -, system, htype', c', hc', part, hprovides, hpart, -⟩ :=
    (isSome_resolve?_rebuild_iff hv x w value).mp (Option.isSome_iff_exists.mpr ⟨code, hcode⟩)
  obtain rfl : r = r' := Option.some.inj (hr.symm.trans hr')
  obtain rfl : type = r.type := Option.some.inj (htype.symm.trans htype')
  obtain rfl : c = c' := Option.some.inj (hc.symm.trans hc')
  obtain ⟨d, hd, hconstructs⟩ := Option.bind_eq_some_iff.mp hc
  have hfield := (hread r.type d hd).isName_nameField hconstructs
  have hexpand := resolve?_encode (x := x) hv hread hc hprovides htype hname
  rw [hpart, ← resolve?_of_decode? hr, hcode, Template.expand_single hfield] at hexpand
  exact ⟨part, hprovides, hpart, Option.some.inj hexpand⟩

/-- Where no name looks like a reference, the references on offer are those to virtual
instances of the system whose block has a name. -/
lemma mem_values_choices_iff_of_decode? (hv : v.KeyedByType)
    (hplain : ∀ id name, v.instanceName? w id = some name → Reference.decode? name = none)
    (hvalue : (Reference.decode? value).isSome = true) (hchosen : value ≠ x.noInstance.value)
    (system : String) :
    value ∈ ((x.rebuild v).choices w system none none).map Choice.value ↔
      ∃ r, value = Reference.encode r ∧ (v.instanceName? w r.block).isSome = true ∧
        v.HasVirtual w system r := by
  rw [mem_values_choices_iff hv]
  constructor
  · rintro (⟨label, hlists⟩ | ⟨rfl, -⟩)
    · generalize ho : (⟨label, value⟩ : Choice) = o at hlists
      cases hlists with
      | offered offers =>
        cases offers with
        | plain _ _ hname =>
          cases ho
          rw [hplain _ _ hname] at hvalue
          cases hvalue
        | virtual hc hprovides hsystem htype hname =>
          cases ho
          exact ⟨_, rfl, by rw [hname]; rfl, htype, _, hc, _, hprovides, rfl, hsystem⟩
      | stored kept => simp at kept
    · exact absurd rfl hchosen
  · rintro ⟨r, rfl, hname, htype, c, hc, part, hprovides, hpart, hsystem⟩
    obtain ⟨name, hname⟩ := Option.isSome_iff_exists.mp hname
    obtain ⟨type, block, partName⟩ := r
    cases hpart
    exact .inl ⟨_, .offered (.virtual hc hprovides hsystem htype hname)⟩

end InstanceIndex

/-- Let a block with an instance be renamed to what does not look like a reference. The same
references resolve as before, and those to virtual instances of other blocks to the same code.
Those to the block's own resolve to their connection with the new name for its placeholder.
Where no name looks like a reference, the same references are on offer, apart from the value
that stands for none. -/
theorem virtual_survives_rename {v : Vocabulary} (hv : v.Built) (hread : v.IsRead)
    (x : InstanceIndex) {w : Workspace} {p : BlockId} {type old : String} {c : Constructor}
    (htype : w.type? p = some type) (hc : v.constructor? type = some c)
    (hold : w.field? p c.nameField = some old) {new : String}
    (hnew : Reference.decode? new = none) :
    let w' := w.setField p c.nameField new
    let resolve := (x.rebuild v).resolve?
    let offered := fun (w : Workspace) (system : String) =>
      ((x.rebuild v).choices w system none none).map Choice.value
    (∀ value,
      (resolve w' value).isSome = (resolve w value).isSome ∧
      ((∀ r, Reference.decode? value = some r → r.block ≠ p) →
        resolve w' value = resolve w value) ∧
      (∀ r, Reference.decode? value = some r → r.block = p → ∀ code,
        resolve w' value = some code → ∃ part ∈ c.virtuals, part.name = r.name ∧
          code = Text.replaceAll ("$[" ++ c.nameField ++ "]") new part.connection)) ∧
    ((∀ id name, v.instanceName? w id = some name → Reference.decode? name = none) →
      ∀ system value, (Reference.decode? value).isSome = true → value ≠ x.noInstance.value →
        (value ∈ offered w' system ↔ value ∈ offered w system)) := by
  intro w' resolve offered
  have hkeyed := hv.keyedByType
  have hnamed := Vocabulary.isSome_instanceName?_rename htype hc hold new
  refine ⟨fun value => ⟨?_, fun hother => ?_, fun r hr hblock code hcode => ?_⟩,
    fun hplain system value hvalue hchosen => ?_⟩
  · rw [Bool.eq_iff_iff, InstanceIndex.isSome_resolve?_rebuild_iff hkeyed,
      InstanceIndex.isSome_resolve?_rebuild_iff hkeyed]
    simp only [w', hnamed, Vocabulary.hasVirtual_setField]
  · refine (x.rebuild v).resolve?_congr fun r hr => ?_
    rw [get?_setField, if_neg (hother r hr)]
  · subst hblock
    have htype' : w'.type? r.block = some type := by rwa [type?_setField]
    refine InstanceIndex.resolve?_eq_replaceAll hkeyed hread hr htype' hc ?_ hcode
    rw [Vocabulary.instanceName?_rename htype hc, if_pos rfl]
  · have hplain' : ∀ id name, v.instanceName? w' id = some name →
        Reference.decode? name = none := by
      intro id name hname
      rw [Vocabulary.instanceName?_rename htype hc] at hname
      split at hname
      · cases hname
        exact hnew
      · exact hplain id name hname
    rw [InstanceIndex.mem_values_choices_iff_of_decode? hkeyed hplain' hvalue hchosen,
      InstanceIndex.mem_values_choices_iff_of_decode? hkeyed hplain hvalue hchosen]
    simp only [w', hnamed, Vocabulary.hasVirtual_setField]

/-- The motor is renamed while the plug may be put into its port. What looks like the
placeholder in the new name is not replaced again. -/
theorem plugWorkspace_rename_motor :
    let x := InstanceIndex.ofSettings {}
    let left := Reference.encode ⟨"motor", "m", "left"⟩
    let renamed := plugWorkspace.setField "m" "NAME" "b$[NAME]"
    (x.rebuild plugVocabulary).resolve? plugWorkspace left = some "a.left" ∧
      (x.rebuild plugVocabulary).resolve? renamed left = some "b$[NAME].left" ∧
      left ∈ ((x.rebuild plugVocabulary).choices renamed "port" none none).map Choice.value := by
  intro x left renamed
  have hbuilt : plugVocabulary.Built := Vocabulary.built_load _ _
  have hread : plugVocabulary.IsRead := Vocabulary.isRead_load _ _
  have hmotor : plugWorkspace.type? "m" = some "motor" := by decide +kernel
  have hname : plugWorkspace.field? "m" "NAME" = some "a" := by decide +kernel
  have hnew : Reference.decode? "b$[NAME]" = none := by decide +kernel
  obtain ⟨hresolve, hoffered⟩ := virtual_survives_rename hbuilt hread x hmotor
    plugVocabulary_constructs_motor hname hnew
  have hbefore : (x.rebuild plugVocabulary).resolve? plugWorkspace left = some "a.left" := by
    have hinstance := Vocabulary.instanceName?_eq hmotor plugVocabulary_constructs_motor
    refine (InstanceIndex.resolve?_encode hbuilt.keyedByType hread plugVocabulary_constructs_motor
      (List.mem_singleton_self _) hmotor (hinstance.trans hname)).trans ?_
    decide +kernel
  obtain ⟨hsome, -, hcode⟩ := hresolve left
  rw [hbefore] at hsome
  obtain ⟨code, hafter⟩ := Option.isSome_iff_exists.mp hsome
  obtain ⟨part, hprovides, -, rfl⟩ := hcode _ (Reference.decode?_encode _) rfl code hafter
  cases List.mem_singleton.mp hprovides
  refine ⟨hbefore, hafter.trans (by decide +kernel), ?_⟩
  have hdecodes : (Reference.decode? left).isSome = true := by rw [Reference.decode?_encode]; rfl
  exact (hoffered plugWorkspace_names_plain "port" left hdecodes (by decide +kernel)).mpr
    ((InstanceIndex.mem_values_choices_iff hbuilt.keyedByType).mpr (.inl
      ⟨_, .offered plugWorkspace_offers_left⟩))

/-- Motors are constructed by one type, and provided by none. -/
lemma plugVocabulary_lists_motor_iff {x : InstanceIndex} {w : Workspace} {o : Choice} :
    x.Lists plugVocabulary w "motor" none none o ↔ ∃ id name, w.type? id = some "motor" ∧
      w.field? id "NAME" = some name ∧ name ≠ "" ∧ name ≠ "motor_" ++ x.unassignedSuffix ∧
        o = ⟨name, name⟩ := by
  have hmotor : ∀ type c, plugVocabulary.constructor? type = some c →
      (c.system = "motor" → type = "motor") ∧ ∀ part ∈ c.virtuals, part.instanceOf ≠ "motor" := by
    intro type c hc
    have hall : ∀ type ∈ plugVocabulary.types.keys, ∀ c ∈ plugVocabulary.constructor? type,
        (c.system = "motor" → type = "motor") ∧ ∀ part ∈ c.virtuals, part.instanceOf ≠ "motor" := by
      decide +kernel
    exact hall type (Vocabulary.mem_keys_of_constructor? hc) c hc
  constructor
  · rintro (hoffers | ⟨hkept, -, -⟩)
    · cases hoffers with
      | plain hconstructs htype hname hgiven hassigned =>
        obtain rfl := (hmotor _ _ hconstructs.declared).1 hconstructs.system_eq
        cases hconstructs.declared.symm.trans plugVocabulary_constructs_motor
        rw [Vocabulary.instanceName?_eq htype plugVocabulary_constructs_motor] at hname
        exact ⟨_, _, htype, hname, hgiven, hassigned, rfl⟩
      | virtual hc hprovides hsystem _ _ => exact absurd hsystem ((hmotor _ _ hc).2 _ hprovides)
    · simp at hkept
  · rintro ⟨id, name, htype, hname, hgiven, hassigned, rfl⟩
    have hconstructs : plugVocabulary.Constructs "motor" "motor" _ := {
      declared := plugVocabulary_constructs_motor
      system_eq := rfl
      least := fun type c hc hsystem => (hmotor type c hc).1 hsystem ▸ String.le_refl _ }
    rw [← Vocabulary.instanceName?_eq htype plugVocabulary_constructs_motor] at hname
    exact .offered (.plain hconstructs htype hname hgiven hassigned)

/-- The value that stands for none may be a reference itself. It is on offer while the motor has
no name of its own, and not any more once it has one. -/
theorem none_not_offered_after_rename :
    let left := Reference.encode ⟨"motor", "m", "left"⟩
    let x := InstanceIndex.ofSettings { noInstance := ⟨"none", left⟩ }
    let w := plugWorkspace.setField "m" "NAME" "motor_?"
    let offered := fun (w : Workspace) (system : String) =>
      ((x.rebuild plugVocabulary).choices w system none none).map Choice.value
    (plugVocabulary.Built ∧ plugVocabulary.IsRead ∧ w.type? "m" = some "motor" ∧
      (plugVocabulary.constructor? "motor").map Constructor.nameField = some "NAME" ∧
      w.field? "m" "NAME" = some "motor_?" ∧ Reference.decode? "a" = none ∧
      (∀ id name, plugVocabulary.instanceName? w id = some name →
        Reference.decode? name = none) ∧
      (Reference.decode? left).isSome = true) ∧
    left ∈ offered w "motor" ∧ left ∉ offered (w.setField "m" "NAME" "a") "motor" := by
  intro left x w offered
  have hbuilt : plugVocabulary.Built := Vocabulary.built_load _ _
  have hmotor : plugWorkspace.type? "m" = some "motor" := by decide +kernel
  have htype : w.type? "m" = some "motor" := by rwa [type?_setField]
  have hunique : ∀ id, plugWorkspace.type? id = some "motor" → id = "m" := by
    intro id hid
    have hall : ∀ id ∈ plugWorkspace.ids, plugWorkspace.type? id = some "motor" → id = "m" := by
      decide +kernel
    exact hall id (mem_ids_of_type? hid) hid
  refine ⟨⟨hbuilt, Vocabulary.isRead_load _ _, htype, by rw [plugVocabulary_constructs_motor]; rfl,
    field?_setField_self hmotor _ _, by decide +kernel, fun id name hname => ?_, ?_⟩, ?_, ?_⟩
  · rw [Vocabulary.instanceName?_rename hmotor plugVocabulary_constructs_motor] at hname
    split at hname
    · cases hname
      decide +kernel
    · exact plugWorkspace_names_plain id name hname
  · rw [Reference.decode?_encode]
    rfl
  · refine (InstanceIndex.mem_values_choices_iff hbuilt.keyedByType).mpr (.inr ⟨rfl, ?_⟩)
    intro o hlists
    obtain ⟨id, name, hid, hname, -, hassigned, -⟩ := plugVocabulary_lists_motor_iff.mp hlists
    rw [type?_setField] at hid
    obtain rfl := hunique id hid
    rw [field?_setField_self hmotor] at hname
    cases hname
    exact hassigned rfl
  · intro hoffered
    have hlisted : x.Lists plugVocabulary (w.setField "m" "NAME" "a") "motor" none none
        ⟨"a", "a"⟩ := plugVocabulary_lists_motor_iff.mpr ⟨"m", "a", by rwa [type?_setField],
      field?_setField_self htype _ _, by decide, by decide, rfl⟩
    rcases (InstanceIndex.mem_values_choices_iff hbuilt.keyedByType).mp hoffered with
      ⟨label, hlists⟩ | ⟨-, hnone⟩
    · obtain ⟨id, name, hid, hname, -, -, heq⟩ := plugVocabulary_lists_motor_iff.mp hlists
      rw [type?_setField, type?_setField] at hid
      obtain rfl := hunique id hid
      rw [field?_setField_self htype] at hname
      cases hname
      have hvalue : left = "a" := congrArg Choice.value heq
      exact absurd hvalue (by decide +kernel)
    · exact hnone _ hlisted

end BlockProgram
