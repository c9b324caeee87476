import BlockProgram.Code.Field
import BlockProgram.Proofs.Checking
import BlockProgram.Proofs.References
import BlockProgram.Proofs.Selecting

/-!
# What a dropdown offers

A dropdown over the instances of a system offers their names, and references to the virtual
instances of the system. Each choice says by this what code it stands for. Selecting it
changes no name, since the name of an instance stands in a text field and a dropdown is none.
So a choice that is selected still stands for the same code: the check accepts it and the
generator writes the code.
-/
namespace BlockProgram

open Workspace

/-! ### What choices stand for -/

namespace InstanceIndex

/-- The choices for a system, each with the code it stands for: the name of an instance that
has been given one stands for itself, and a reference to a virtual instance stands for its
connection, filled in with the name of the instance that provides it. -/
inductive Offers (x : InstanceIndex) (v : Vocabulary) (w : Workspace) (system : String) :
    Choice → String → Prop
  | plain {type : String} {c : Constructor} {id : BlockId} {name : String}
      (constructs : v.Constructs system type c) (block : w.type? id = some type)
      (named : v.instanceName? w id = some name) (given : name ≠ "")
      (assigned : name ≠ x.unassigned c) : Offers x v w system ⟨name, name⟩ name
  | virtual {type : String} {c : Constructor} {id : BlockId} {name : String} {part : Virtual}
      (declared : v.constructor? type = some c) (provides : part ∈ c.virtuals)
      (instanceOf : part.instanceOf = system) (block : w.type? id = some type)
      (named : v.instanceName? w id = some name) :
      Offers x v w system ⟨name ++ "." ++ part.name, Reference.encode ⟨type, id, part.name⟩⟩
        (Template.expand part.connection fun field => if field = c.nameField then some name
          else none)

end InstanceIndex

lemma Vocabulary.instanceName?_eq {v : Vocabulary} {w : Workspace} {id : BlockId} {type : String}
    {c : Constructor} (htype : w.type? id = some type) (hc : v.constructor? type = some c) :
    v.instanceName? w id = w.field? id c.nameField := by
  simp [instanceName?, htype, hc]

lemma Vocabulary.mem_keys_of_constructor? {v : Vocabulary} {type : String} {c : Constructor}
    (hc : v.constructor? type = some c) : type ∈ v.types.keys := by
  obtain ⟨d, hd, -⟩ := Option.bind_eq_some_iff.mp hc
  obtain ⟨r, hr, -⟩ := Option.bind_eq_some_iff.mp hd
  rw [Table.mem_keys_iff, ← Vocabulary.get?, hr]
  rfl

/-! ### The list of choices -/

namespace Choice

lemma mem_of_mem_distinct {o : Choice} {seen : List String} {choices : List Choice}
    (h : o ∈ distinct seen choices) : o ∈ choices := by
  induction choices generalizing seen with
  | nil => cases h
  | cons c rest ih =>
    rw [distinct] at h
    split at h
    · exact List.mem_cons_of_mem _ (ih h)
    · rcases List.mem_cons.mp h with rfl | h
      · exact List.mem_cons_self
      · exact List.mem_cons_of_mem _ (ih h)

/-- No value is lost. -/
lemma mem_values_distinct {o : Choice} (seen : List String) {choices : List Choice}
    (h : o ∈ choices) : o.value ∈ seen ∨ o.value ∈ (distinct seen choices).map Choice.value := by
  induction choices generalizing seen with
  | nil => cases h
  | cons c rest ih =>
    rw [distinct]
    split
    · next hseen =>
      rcases List.mem_cons.mp h with rfl | h
      · exact .inl (by simpa using hseen)
      · exact ih seen h
    · rw [List.map_cons, List.mem_cons]
      rcases List.mem_cons.mp h with rfl | h
      · exact .inr (.inl rfl)
      · rcases ih (c.value :: seen) h with hseen | hlater
        · rcases List.mem_cons.mp hseen with heq | hseen
          · exact .inr (.inl heq)
          · exact .inl hseen
        · exact .inr (.inr hlater)

end Choice

namespace InstanceIndex

section Listing

variable {x : InstanceIndex} {w : Workspace} {system : String} {o : Choice}

/-- All that a dropdown may offer, before values that repeat are dropped. -/
def listing (x : InstanceIndex) (w : Workspace) (system : String)
    (current restoring : Option String) : List Choice :=
  x.plainChoices w system ++ x.virtualChoices w system ++
    x.storedChoices w (current.toList ++ restoring.toList)

/-- A dropdown offers the choice of none if there is nothing else, and what there is in
order if there is something. -/
lemma choices_cases (x : InstanceIndex) (w : Workspace) (system : String)
    (current restoring : Option String) :
    (x.listing w system current restoring = [] ∧
        x.choices w system current restoring = [x.noInstance]) ∨
      x.listing w system current restoring ≠ [] ∧ x.choices w system current restoring =
        (Choice.distinct [] (x.listing w system current restoring)).mergeSort
          fun a b => Text.naturalLe a.label b.label := by
  rw [choices, ← listing]
  cases x.listing w system current restoring with
  | nil => exact .inl ⟨rfl, by simp [Choice.distinct]⟩
  | cons o rest =>
    refine .inr ⟨List.cons_ne_nil _ _, if_neg ?_⟩
    simp [Choice.distinct, List.isEmpty_iff, ← List.length_eq_zero_iff]

lemma mem_listing_none_iff : o ∈ x.listing w system none none ↔
    o ∈ x.plainChoices w system ∨ o ∈ x.virtualChoices w system := by
  simp [listing, storedChoices]

/-- With nothing stored, a dropdown offers what the index lists, or the choice of none. -/
lemma mem_choices_cases (h : o ∈ x.choices w system none none) :
    o = x.noInstance ∨ o ∈ x.plainChoices w system ∨ o ∈ x.virtualChoices w system := by
  rw [← mem_listing_none_iff]
  rcases x.choices_cases w system none none with ⟨-, heq⟩ | ⟨-, heq⟩
  · exact .inl (List.mem_singleton.mp (heq ▸ h))
  · exact .inr (Choice.mem_of_mem_distinct (List.mem_mergeSort.mp (heq ▸ h)))

lemma mem_values_choices_of_mem_listing {current restoring : Option String}
    (h : o ∈ x.listing w system current restoring) :
    o.value ∈ (x.choices w system current restoring).map Choice.value := by
  rcases x.choices_cases w system current restoring with ⟨hnil, -⟩ | ⟨-, heq⟩
  · rw [hnil] at h
    cases h
  · obtain hseen | hvalue := Choice.mem_values_distinct [] h
    · cases hseen
    · rw [heq]
      exact ((List.mergeSort_perm _ _).map Choice.value).mem_iff.mpr hvalue

lemma mem_values_choices (h : o ∈ x.plainChoices w system ∨ o ∈ x.virtualChoices w system) :
    o.value ∈ (x.choices w system none none).map Choice.value :=
  mem_values_choices_of_mem_listing (mem_listing_none_iff.mpr h)

end Listing

section Rebuilt

variable {v : Vocabulary} (hv : v.KeyedByType) {x : InstanceIndex} {w : Workspace}
  {system : String} {o : Choice}
include hv

lemma exists_offers_of_mem_plainChoices (h : o ∈ (x.rebuild v).plainChoices w system) :
    ∃ code, x.Offers v w system o code := by
  unfold plainChoices at h
  split at h
  · cases h
  next type c hfound =>
  have hc := (constructor?_rebuild_eq_some_iff x hv system type c).mp hfound
  obtain ⟨⟨id, name⟩, hmem, rfl⟩ := List.mem_map.mp h
  obtain ⟨hnamed, hgiven⟩ := List.mem_filter.mp hmem
  obtain ⟨htype, hname⟩ := (w.mem_named_iff type c id name).mp hnamed
  rw [← Vocabulary.instanceName?_eq htype hc.declared] at hname
  simp only [Bool.and_eq_true, Bool.not_eq_true', bne_iff_ne, ne_eq] at hgiven
  exact ⟨name, .plain hc htype hname (by simpa using hgiven.1) hgiven.2⟩

lemma exists_offers_of_mem_virtualChoices (h : o ∈ (x.rebuild v).virtualChoices w system) :
    ∃ code, x.Offers v w system o code := by
  obtain ⟨⟨type, c⟩, hprovider, h⟩ := List.mem_flatMap.mp h
  have hc := (mem_constructorsOf_iff hv type c).mp (List.mem_filter.mp hprovider).1
  obtain ⟨⟨id, name⟩, hnamed, h⟩ := List.mem_flatMap.mp h
  obtain ⟨htype, hname⟩ := (w.mem_named_iff type c id name).mp hnamed
  rw [← Vocabulary.instanceName?_eq htype hc] at hname
  obtain ⟨part, hpart, rfl⟩ := List.mem_map.mp h
  obtain ⟨hprovides, hsystem⟩ := List.mem_filter.mp hpart
  exact ⟨_, .virtual hc hprovides (by simpa using hsystem) htype hname⟩

/-- The index lists whatever stands for a code. -/
lemma Offers.mem_listed {code : String} (ho : x.Offers v w system o code) :
    o ∈ (x.rebuild v).plainChoices w system ∨ o ∈ (x.rebuild v).virtualChoices w system := by
  cases ho with
  | @plain type c id _ hc htype hname hgiven hassigned =>
    left
    rw [Vocabulary.instanceName?_eq htype hc.declared] at hname
    have hfound := (constructor?_rebuild_eq_some_iff x hv system type c).mpr hc
    have hassigned' : code ≠ (x.rebuild v).unassigned c := hassigned
    rw [plainChoices, hfound]
    refine List.mem_map.mpr ⟨(id, code), List.mem_filter.mpr ⟨?_, ?_⟩, rfl⟩
    · exact (w.mem_named_iff type c id code).mpr ⟨htype, hname⟩
    · simp [hgiven, hassigned']
  | @virtual type c id name part hc hprovides hsystem htype hname =>
    right
    rw [Vocabulary.instanceName?_eq htype hc] at hname
    refine List.mem_flatMap.mpr ⟨(type, c), List.mem_filter.mpr ⟨?_, ?_⟩, ?_⟩
    · exact (mem_constructorsOf_iff hv type c).mpr hc
    · exact List.any_eq_true.mpr ⟨part, hprovides, by simpa using hsystem⟩
    · refine List.mem_flatMap.mpr ⟨(id, name), ?_, ?_⟩
      · exact (w.mem_named_iff type c id name).mpr ⟨htype, hname⟩
      · exact List.mem_map.mpr
          ⟨part, List.mem_filter.mpr ⟨hprovides, by simpa using hsystem⟩, rfl⟩

end Rebuilt

end InstanceIndex

/-! ### Selecting changes no name -/

/-- The name of an instance does not stand in a dropdown. -/
lemma Definition.Sound.name_ne_nameField {d : Definition} (h : d.Sound) {a : Argument}
    {system : String} {c : Constructor} (ha : a ∈ d.args) (hkind : a.kind = .instances system)
    (hc : d.constructs = some c) : a.name ≠ c.nameField := by
  intro heq
  obtain ⟨a', ha', hname, initial, htext⟩ := h.nameField c hc
  obtain rfl : a = a' := List.inj_on_of_nodup_map h.distinct ha ha' (heq.trans hname.symm)
  rw [hkind] at htext
  cases htext

section Selecting

variable {v : Vocabulary} (hread : v.IsRead) {w : Workspace} {id : BlockId} {type : String}
  {d : Definition} {a : Argument} {system : String} (htype : w.type? id = some type)
  (hd : v.definition? type = some d) (ha : a ∈ d.args) (hkind : a.kind = .instances system)
include hread htype hd ha hkind

lemma Vocabulary.instanceName?_setField (value : String) :
    v.instanceName? (w.setField id a.name value) = v.instanceName? w := by
  funext other
  rw [instanceName?, instanceName?, Workspace.type?_setField]
  cases hc : (w.type? other).bind v.constructor? with
  | none => rfl
  | some c =>
    refine w.field?_setField_of_ne value ?_
    by_cases hother : other = id
    · rw [hother, htype] at hc
      have hconstructs : d.constructs = some c := by simpa [constructor?, hd] using hc
      exact .inr ((hread type d hd).sound.name_ne_nameField ha hkind hconstructs).symm
    · exact .inl hother

/-- A choice stands for the same code before and after something is selected. -/
lemma InstanceIndex.Offers.setField {x : InstanceIndex} {system' code : String} {o : Choice}
    (ho : x.Offers v w system' o code) (value : String) :
    x.Offers v (w.setField id a.name value) system' o code := by
  have hnames := Vocabulary.instanceName?_setField hread htype hd ha hkind value
  cases ho with
  | plain hc htype' hname hgiven hassigned =>
    exact .plain hc (by rwa [Workspace.type?_setField]) (by rwa [hnames]) hgiven hassigned
  | virtual hc hprovides hsystem htype' hname =>
    exact .virtual hc hprovides hsystem (by rwa [Workspace.type?_setField]) (by rwa [hnames])

end Selecting

/-! ### What stands for a code is accepted and gives it -/

namespace InstanceIndex

variable {v : Vocabulary} {x : InstanceIndex} {w : Workspace}

/-- A reference gives the connection of the very virtual instance it was made for. -/
lemma resolve?_encode (hv : v.KeyedByType) (hread : v.IsRead) {type name : String}
    {c : Constructor} {id : BlockId} {part : Virtual} (hc : v.constructor? type = some c)
    (hprovides : part ∈ c.virtuals) (htype : w.type? id = some type)
    (hname : v.instanceName? w id = some name) :
    (x.rebuild v).resolve? w (Reference.encode ⟨type, id, part.name⟩) =
      some (Template.expand part.connection fun field => if field = c.nameField then some name
        else none) := by
  rw [Vocabulary.instanceName?_eq htype hc] at hname
  obtain ⟨d, hd, hconstructs⟩ := Option.bind_eq_some_iff.mp hc
  have hnodup := (hread type d hd).nodup_virtuals hconstructs
  have hfind : c.virtuals.find? (·.name == part.name) = some part := by
    cases hfound : c.virtuals.find? (·.name == part.name) with
    | none => exact absurd (List.find?_eq_none.mp hfound part hprovides) (by simp)
    | some other =>
      have hsame : other.name = part.name := by simpa using List.find?_some hfound
      rw [List.inj_on_of_nodup_map hnodup (List.mem_of_find?_eq_some hfound) hprovides hsame]
  simp [resolve?, Reference.decode?_encode, htype, get?_rebuild x hv, hc, hfind, hname]

variable {system code : String} {o : Choice} (ho : x.Offers v w system o code)
  (hplain : ∀ id name, v.instanceName? w id = some name → Reference.decode? name = none)
include ho hplain

lemma Offers.fault?_eq_none (hv : v.KeyedByType) (hvalue : o.value ≠ x.noInstance.value) :
    (x.rebuild v).fault? w system o.value = none := by
  rw [fault?_rebuild_eq_none_iff hv]
  cases ho with
  | @plain type c id _ hc htype hname hgiven _ =>
    refine ⟨hgiven, hvalue, .inl ⟨hplain id code hname, type, c, id, hc, htype, ?_⟩⟩
    rwa [← Vocabulary.instanceName?_eq htype hc.declared]
  | @virtual type c id name part hc hprovides hsystem htype hname =>
    have hdecode := Reference.decode?_encode ⟨type, id, part.name⟩
    have hgiven : Reference.encode ⟨type, id, part.name⟩ ≠ "" := by
      intro hempty
      rw [hempty] at hdecode
      cases hdecode
    exact ⟨hgiven, hvalue, .inr ⟨_, hdecode, by simp [hname], system, htype, c, hc, part,
      hprovides, rfl, hsystem⟩⟩

lemma Offers.instanceCode_eq (hv : v.KeyedByType) (hread : v.IsRead) (settings : Settings) :
    Generator.instanceCode ⟨settings, v, x.rebuild v, w⟩ o.value = code := by
  cases ho with
  | @plain type c id _ hc htype hname _ _ =>
    simp [Generator.instanceCode, resolve?, hplain id code hname]
  | virtual hc hprovides _ htype hname =>
    simp [Generator.instanceCode, resolve?_encode hv hread hc hprovides htype hname]

end InstanceIndex

/-- Every choice that a dropdown offers, except that of none, stands for a code. Whatever
stands for a code is on offer. When it is selected, the check accepts it and leaves no
warning, and the field gives the code. -/
theorem offered_choice_compiles {v : Vocabulary} (hv : v.Built) (hread : v.IsRead)
    (x : InstanceIndex) (settings : Settings) {w : Workspace} {id : BlockId} {type : String}
    {d : Definition} {a : Argument} {system : String} (htype : w.type? id = some type)
    (hd : v.definition? type = some d) (ha : a ∈ d.args) (hkind : a.kind = .instances system)
    (hplain : ∀ other name, v.instanceName? w other = some name →
      Reference.decode? name = none) :
    (∀ o ∈ (x.rebuild v).choices w system none none, o.value ≠ x.noInstance.value →
      ∃ code, x.Offers v w system o code) ∧
    ∀ o code, x.Offers v w system o code →
      o.value ∈ ((x.rebuild v).choices w system none none).map Choice.value ∧
      (o.value ≠ x.noInstance.value →
        ∃ w', (x.rebuild v).checkField (w.setField id a.name o.value) id a.name system =
            (w', true) ∧
          w'.warning? id a.name = none ∧
          Generator.fieldCode ⟨settings, v, x.rebuild v, w.setField id a.name o.value⟩ id a =
            code) := by
  have hkeyed := hv.keyedByType
  refine ⟨fun o ho hvalue => ?_, fun o code ho => ⟨?_, fun hvalue => ?_⟩⟩
  · rcases InstanceIndex.mem_choices_cases ho with rfl | hlisted | hlisted
    · exact absurd rfl hvalue
    · exact InstanceIndex.exists_offers_of_mem_plainChoices hkeyed hlisted
    · exact InstanceIndex.exists_offers_of_mem_virtualChoices hkeyed hlisted
  · exact InstanceIndex.mem_values_choices (ho.mem_listed hkeyed)
  · let selected := w.setField id a.name o.value
    have hfield : selected.field? id a.name = some o.value := field?_setField_self htype _ _
    have hlive : id ∈ selected.ids :=
      mem_ids_of_type? ((w.type?_setField id id a.name o.value).trans htype)
    have hstands := ho.setField hread htype hd ha hkind o.value
    have hnames : ∀ other name, v.instanceName? selected other = some name →
        Reference.decode? name = none := by
      intro other name hname
      rw [Vocabulary.instanceName?_setField hread htype hd ha hkind] at hname
      exact hplain other name hname
    have hfault : (x.rebuild v).fault? selected system o.value = none :=
      hstands.fault?_eq_none hnames hkeyed hvalue
    refine ⟨_, Prod.ext rfl ?_, ?_, ?_⟩
    · exact ((x.rebuild v).checkField_eq_true_iff _ _ _ _).mpr ⟨_, hfield, hfault⟩
    · have hwarning := (x.rebuild v).warning?_checkField hlive (a.name, system) id a.name
      rw [if_pos ⟨rfl, rfl⟩, InstanceIndex.faultIn?, hfield] at hwarning
      exact hwarning.trans (congrArg (Option.map SelectionFault.message) hfault)
    · simp only [Generator.fieldCode, hkind]
      rw [hfield]
      exact hstands.instanceCode_eq hnames hkeyed hread settings

/-! ### Plugs for two ports -/

/-- Motors provide a port each, and there are ports on their own. A plug is put into a port. -/
def plugLibrary : Source where
  name := "ports.json"
  content := .mkObject [
    ("category", .string "ports"),
    ("contents", .array [
      .mkObject [
        ("type", .string "motor"),
        ("args", .array [.mkObject [("name", .string "NAME"), ("type", .string "field_input")]]),
        ("constructs", .mkObject [("system", .string "motor"), ("virtualInstances", .array [
          .mkObject [("instanceOf", .string "port"), ("name", .string "left"),
            ("connection", .string "$[NAME].left")]])])],
      .mkObject [
        ("type", .string "port"),
        ("args", .array [.mkObject [("name", .string "NAME"), ("type", .string "field_input")]]),
        ("constructs", .string "port")],
      .mkObject [
        ("type", .string "plug"), ("code", .string "plug($[PORT]);"),
        ("args", .array [.mkObject [("name", .string "PORT"),
          ("type", .string "field_dropdown"), ("instanceOf", .string "port")]])]])]

def plugVocabulary : Vocabulary := ((Session.new {} {}).load [plugLibrary]).1.vocabulary

/-- A motor `a`, a port `b`, and a plug. -/
def plugWorkspace : Workspace :=
  let w := (({} : Workspace).addAs "m" "motor").setField "m" "NAME" "a"
  let w := (w.addAs "o" "port").setField "o" "NAME" "b"
  w.addAs "p" "plug"

/-- Ports are constructed by one type, and by none before it. -/
lemma plugVocabulary_constructs_port :
    plugVocabulary.Constructs "port" "port" ⟨"port", "port_", "NAME", []⟩ where
  declared := by decide +kernel
  system_eq := rfl
  least := by
    intro type c hc hsystem
    have hall : ∀ type ∈ plugVocabulary.types.keys, ∀ c ∈ plugVocabulary.constructor? type,
        c.system = "port" → "port" ≤ type := by decide +kernel
    exact hall type (Vocabulary.mem_keys_of_constructor? hc) c hc hsystem

lemma plugWorkspace_names_plain (id : BlockId) (name : String)
    (h : plugVocabulary.instanceName? plugWorkspace id = some name) :
    Reference.decode? name = none := by
  have hall : ∀ id ∈ plugWorkspace.ids, ∀ name ∈ plugVocabulary.instanceName? plugWorkspace id,
      Reference.decode? name = none := by decide +kernel
  refine hall id ?_ name h
  obtain ⟨c, hc, -⟩ := Option.bind_eq_some_iff.mp h
  obtain ⟨type, htype, -⟩ := Option.bind_eq_some_iff.mp hc
  exact mem_ids_of_type? htype

lemma plugVocabulary_constructs_motor : plugVocabulary.constructor? "motor" =
    some ⟨"motor", "motor_", "NAME", [⟨"port", "left", "$[NAME].left"⟩]⟩ := by decide +kernel

lemma plugWorkspace_offers_left :
    (InstanceIndex.ofSettings {}).Offers plugVocabulary plugWorkspace "port"
      ⟨"a.left", Reference.encode ⟨"motor", "m", "left"⟩⟩ "a.left" := by
  have hmotor : plugWorkspace.type? "m" = some "motor" := by decide +kernel
  have hname : plugVocabulary.instanceName? plugWorkspace "m" = some "a" := by
    rw [Vocabulary.instanceName?_eq hmotor plugVocabulary_constructs_motor]
    decide +kernel
  have hcode : Template.expand "$[NAME].left" (fun field => if field = "NAME" then some "a"
      else none) = "a.left" := by decide +kernel
  have hoffers := InstanceIndex.Offers.virtual (x := .ofSettings {})
    plugVocabulary_constructs_motor (List.mem_singleton_self _) rfl hmotor hname
  rwa [hcode] at hoffers

/-- The plug can be put into the port `b` and into that of the motor. -/
theorem plugWorkspace_offers_ports :
    ∃ a : Argument, a.name = "PORT" ∧
      ∀ e ∈ [("b", "b"), (Reference.encode ⟨"motor", "m", "left"⟩, "a.left")],
        e.1 ∈ (((InstanceIndex.ofSettings {}).rebuild plugVocabulary).choices plugWorkspace "port"
            none none).map Choice.value ∧
          ∃ w', ((InstanceIndex.ofSettings {}).rebuild plugVocabulary).checkField
              (plugWorkspace.setField "p" "PORT" e.1) "p" "PORT" "port" = (w', true) ∧
            w'.warning? "p" "PORT" = none ∧
            Generator.fieldCode ⟨{}, plugVocabulary,
              (InstanceIndex.ofSettings {}).rebuild plugVocabulary,
              plugWorkspace.setField "p" "PORT" e.1⟩ "p" a = e.2 := by
  have hfields : (plugVocabulary.definition? "plug").map Definition.instanceFields =
      some [("PORT", "port")] := by decide +kernel
  obtain ⟨d, hd, hfields⟩ := Option.map_eq_some_iff.mp hfields
  obtain ⟨a, ha, hdropdown⟩ := List.mem_filterMap.mp (hfields ▸ List.mem_singleton_self _)
  split at hdropdown
  · next system hkind =>
    obtain ⟨hname, rfl⟩ := Prod.mk.inj (Option.some.inj hdropdown)
    have hplug : plugWorkspace.type? "p" = some "plug" := by decide +kernel
    obtain ⟨-, hoffers⟩ := offered_choice_compiles (Vocabulary.built_load _ _)
      (Vocabulary.isRead_load _ _) (InstanceIndex.ofSettings {}) {} hplug hd ha hkind
      plugWorkspace_names_plain
    rw [hname] at hoffers
    refine ⟨a, hname, List.forall_mem_cons.mpr ⟨?_, List.forall_mem_singleton.mpr ?_⟩⟩
    · have hport : plugWorkspace.type? "o" = some "port" := by decide +kernel
      have hb : plugVocabulary.instanceName? plugWorkspace "o" = some "b" := by
        rw [Vocabulary.instanceName?_eq hport plugVocabulary_constructs_port.declared]
        decide +kernel
      obtain ⟨hlisted, hselected⟩ := hoffers _ _ (.plain plugVocabulary_constructs_port hport hb
        (by decide) (by decide))
      exact ⟨hlisted, hselected (by decide)⟩
    · obtain ⟨hlisted, hselected⟩ := hoffers _ _ plugWorkspace_offers_left
      exact ⟨hlisted, hselected (by decide +kernel)⟩
  · cases hdropdown

end BlockProgram
