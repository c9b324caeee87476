import BlockProgram.Proofs.Indexing
import BlockProgram.Proofs.Numbering

/-!
# What an accepted selection stands for

A dropdown over the instances of a system holds a name or a reference. A name is
accepted just when the constructor of the system has an instance with that name. A
reference is accepted when its block provides the virtual instance it names; of which
system that is, is not looked at.
-/
namespace BlockProgram

/-! ### Instances of a system -/

namespace Vocabulary

/-- The name of the instance that a block constructs. -/
def instanceName? (v : Vocabulary) (w : Workspace) (id : BlockId) : Option String :=
  ((w.type? id).bind v.constructor?).bind fun c => w.field? id c.nameField

/-- Some block constructs an instance of the system under the name. -/
def HasInstance (v : Vocabulary) (w : Workspace) (system name : String) : Prop :=
  ∃ type c id, v.Constructs system type c ∧ w.type? id = some type ∧
    w.field? id c.nameField = some name

/-- The reference leads to a block of its type, and the type declares a virtual instance
of the system under its name. -/
def HasVirtual (v : Vocabulary) (w : Workspace) (system : String) (r : Reference) : Prop :=
  w.type? r.block = some r.type ∧ ∃ c, v.constructor? r.type = some c ∧
    ∃ virtual ∈ c.virtuals, virtual.name = r.name ∧ virtual.instanceOf = system

/-- The value stands for an instance of the system, by its name or by reference. -/
def Denotes (v : Vocabulary) (w : Workspace) (system value : String) : Prop :=
  v.HasInstance w system value ∨
    ∃ r, Reference.decode? value = some r ∧ v.HasVirtual w system r

end Vocabulary

/-! ### What is accepted -/

namespace InstanceIndex

/-- A check accepts a selection if there is one and nothing is wrong with it. -/
lemma checkField_eq_true_iff (x : InstanceIndex) (w : Workspace) (id : BlockId)
    (field system : String) : (x.checkField w id field system).2 = true ↔
      ∃ value, w.field? id field = some value ∧ x.fault? w system value = none := by
  unfold checkField
  cases w.field? id field with
  | none => simp [fault?]
  | some value => simp

section Rebuilt

variable {v : Vocabulary} (hv : v.KeyedByType) (x : InstanceIndex) (w : Workspace)
include hv

lemma isKnown_rebuild_iff (system name : String) :
    (x.rebuild v).isKnown w system name = true ↔ v.HasInstance w system name := by
  unfold isKnown
  cases hfind : (x.rebuild v).constructor? system with
  | none =>
    simp only [Bool.false_eq_true, false_iff]
    rintro ⟨type, c, id, hc, -⟩
    rw [← constructor?_rebuild_eq_some_iff x hv, hfind] at hc
    cases hc
  | some e =>
    obtain ⟨type, c⟩ := e
    have hc := (constructor?_rebuild_eq_some_iff x hv system type c).mp hfind
    simp only [List.any_eq_true, Prod.exists, Workspace.mem_named_iff, beq_iff_eq]
    constructor
    · rintro ⟨id, name', ⟨htype, hname⟩, rfl⟩
      exact ⟨type, c, id, hc, htype, hname⟩
    · rintro ⟨type', c', id, hc', htype, hname⟩
      obtain ⟨rfl, rfl⟩ := hc.unique hc'
      exact ⟨id, name, ⟨htype, hname⟩, rfl⟩

/-- A reference resolves when its block is there, has a name, and provides what is referred
to, of whatever system that is. -/
lemma isSome_resolve?_rebuild_iff (value : String) :
    ((x.rebuild v).resolve? w value).isSome = true ↔ ∃ r, Reference.decode? value = some r ∧
      (v.instanceName? w r.block).isSome = true ∧ ∃ system, v.HasVirtual w system r := by
  constructor
  · intro h
    obtain ⟨code, h⟩ := Option.isSome_iff_exists.mp h
    obtain ⟨r, hr, h⟩ := Option.bind_eq_some_iff.mp h
    obtain ⟨type, htype, h⟩ := Option.bind_eq_some_iff.mp h
    split at h
    · cases h
    next hsame =>
    obtain rfl : type = r.type := by simpa using hsame
    obtain ⟨c, hc, h⟩ := Option.bind_eq_some_iff.mp h
    obtain ⟨virtual, hfind, h⟩ := Option.bind_eq_some_iff.mp h
    obtain ⟨name, hname, -⟩ := Option.bind_eq_some_iff.mp h
    rw [get?_rebuild x hv] at hc
    refine ⟨r, hr, by simp [Vocabulary.instanceName?, htype, hc, hname], virtual.instanceOf,
      htype, c, hc, virtual, List.mem_of_find?_eq_some hfind, ?_, rfl⟩
    simpa using List.find?_some hfind
  · rintro ⟨r, hr, hname, system, htype, c, hc, virtual, hmem, hvirtual, -⟩
    obtain ⟨found, hfound⟩ : ∃ found, c.virtuals.find? (·.name == r.name) = some found := by
      rw [← Option.isSome_iff_exists, List.find?_isSome]
      exact ⟨virtual, hmem, by simp [hvirtual]⟩
    obtain ⟨name, hname⟩ : ∃ name, w.field? r.block c.nameField = some name := by
      rw [← Option.isSome_iff_exists]
      simpa [Vocabulary.instanceName?, htype, hc] using hname
    simp [resolve?, hr, htype, get?_rebuild x hv, hc, hfound, hname]

lemma fault?_rebuild_eq_none_iff (system value : String) :
    (x.rebuild v).fault? w system value = none ↔ value ≠ "" ∧ value ≠ x.noInstance.value ∧
      ((Reference.decode? value = none ∧ v.HasInstance w system value) ∨
        ∃ r, Reference.decode? value = some r ∧ (v.instanceName? w r.block).isSome = true ∧
          ∃ provided, v.HasVirtual w provided r) := by
  have hchoice : (x.rebuild v).noInstance = x.noInstance := rfl
  unfold fault?
  rw [hchoice]
  by_cases hnothing : (value.isEmpty || value == x.noInstance.value) = true
  · rw [if_pos hnothing]
    simp only [Bool.or_eq_true, String.isEmpty_iff, beq_iff_eq] at hnothing
    simp only [reduceCtorEq, false_iff]
    rintro ⟨hempty, hnone, -⟩
    exact hnothing.elim hempty hnone
  · rw [if_neg hnothing]
    simp only [Bool.or_eq_true, String.isEmpty_iff, beq_iff_eq, not_or] at hnothing
    simp only [ne_eq, hnothing.1, hnothing.2, not_false_eq_true, true_and]
    cases hr : Reference.decode? value with
    | none =>
      rw [if_neg (by simp)]
      simp [isKnown_rebuild_iff hv]
    | some r =>
      rw [if_pos (by simp)]
      simp [isSome_resolve?_rebuild_iff hv, hr]

end Rebuilt

end InstanceIndex

/-- A selection is accepted for a system if and only if it is the name of an instance of the
system, or a reference to a virtual instance, of any system, that a block with a name
provides. Hence it stands for an instance of the system, unless it is a reference to a
virtual instance of another one. -/
theorem selection_accepted_iff {v : Vocabulary} (hv : v.Built) (x : InstanceIndex)
    (w : Workspace) (id : BlockId) (field system : String) :
    (((x.rebuild v).checkField w id field system).2 = true ↔
      ∃ value, w.field? id field = some value ∧ value ≠ "" ∧ value ≠ x.noInstance.value ∧
        ((Reference.decode? value = none ∧ v.HasInstance w system value) ∨
          ∃ r, Reference.decode? value = some r ∧ (v.instanceName? w r.block).isSome = true ∧
            ∃ provided, v.HasVirtual w provided r)) ∧
    (((x.rebuild v).checkField w id field system).2 = true →
      ∃ value, w.field? id field = some value ∧ (v.Denotes w system value ∨
        ∃ r provided, Reference.decode? value = some r ∧ provided ≠ system ∧
          v.HasVirtual w provided r)) := by
  have hiff := (x.rebuild v).checkField_eq_true_iff w id field system
  simp only [InstanceIndex.fault?_rebuild_eq_none_iff hv.keyedByType] at hiff
  refine ⟨hiff, fun haccepted => ?_⟩
  obtain ⟨value, hvalue, -, -, hname | ⟨r, hr, -, provided, hvirtual⟩⟩ := hiff.mp haccepted
  · exact ⟨value, hvalue, .inl (.inl hname.2)⟩
  · by_cases hsystem : provided = system
    · exact ⟨value, hvalue, .inl (.inr ⟨r, hr, hsystem ▸ hvirtual⟩)⟩
    · exact ⟨value, hvalue, .inr ⟨r, provided, hr, hsystem, hvirtual⟩⟩

/-! ### A port where a lamp is wanted -/

/-- Motors provide a port each. One block uses a port, another uses a lamp. -/
def portVocabulary : Vocabulary :=
  (Vocabulary.registerAll "ports" [] {} [
    { type := "motor", args := [⟨"NAME", .text ""⟩],
      constructs := some ⟨"motor", "motor_", "NAME", [⟨"port", "left", "$[NAME].left"⟩]⟩ },
    { type := "lamp", args := [⟨"NAME", .text ""⟩],
      constructs := some ⟨"lamp", "lamp_", "NAME", []⟩ },
    { type := "plug", args := [⟨"PORT", .instances "port"⟩], previous := true },
    { type := "glow", args := [⟨"LAMP", .instances "lamp"⟩], previous := true }]).1

/-- A motor, and two blocks that both refer to its port. -/
def portWorkspace : Workspace :=
  let left := Reference.encode ⟨"motor", "m", "left"⟩
  let w := (((({} : Workspace).addAs "m" "motor").addAs "p" "plug").addAs "g" "glow")
  ((w.setField "m" "NAME" "a").setField "p" "PORT" left).setField "g" "LAMP" left

lemma built_portVocabulary : portVocabulary.Built :=
  Vocabulary.registerAll_induction (fun hv _ hreg => hv.register hreg) "ports" [] .empty
    fun _ _ => trivial

lemma decode?_port : Reference.decode? (Reference.encode ⟨"motor", "m", "left"⟩) =
    some ⟨"motor", "m", "left"⟩ := by decide +kernel

/-- What the reference leads to is a port and nothing else. -/
lemma portWorkspace_hasVirtual_iff (system : String) :
    portVocabulary.HasVirtual portWorkspace system ⟨"motor", "m", "left"⟩ ↔ system = "port" := by
  have htype : portWorkspace.type? "m" = some "motor" := by decide +kernel
  have hmotor : portVocabulary.constructor? "motor" =
      some ⟨"motor", "motor_", "NAME", [⟨"port", "left", "$[NAME].left"⟩]⟩ := by decide +kernel
  simp [Vocabulary.HasVirtual, htype, hmotor, eq_comm]

theorem portWorkspace_accepts_port :
    (((InstanceIndex.ofSettings {}).rebuild portVocabulary).checkField portWorkspace "p" "PORT"
        "port").2 = true ∧
      ∃ value, portWorkspace.field? "p" "PORT" = some value ∧
        portVocabulary.Denotes portWorkspace "port" value := by
  obtain ⟨hiff, hsound⟩ := selection_accepted_iff built_portVocabulary
    (InstanceIndex.ofSettings {}) portWorkspace "p" "PORT" "port"
  have haccepted := hiff.mpr ⟨Reference.encode ⟨"motor", "m", "left"⟩, by decide +kernel,
    by decide +kernel, by decide +kernel, .inr ⟨_, decode?_port, by decide +kernel, "port",
      (portWorkspace_hasVirtual_iff "port").mpr rfl⟩⟩
  refine ⟨haccepted, ?_⟩
  obtain ⟨value, hvalue, hdenotes | ⟨r, provided, hr, hne, hvirtual⟩⟩ := hsound haccepted
  · exact ⟨value, hvalue, hdenotes⟩
  · have hport : portWorkspace.field? "p" "PORT" =
        some (Reference.encode ⟨"motor", "m", "left"⟩) := by decide +kernel
    cases hport.symm.trans hvalue
    cases decode?_port.symm.trans hr
    exact absurd ((portWorkspace_hasVirtual_iff provided).mp hvirtual) hne

/-- There is no lamp, but the port of the motor is accepted as one. -/
theorem portWorkspace_accepts_port_as_lamp :
    (((InstanceIndex.ofSettings {}).rebuild portVocabulary).checkField portWorkspace "g" "LAMP"
        "lamp").2 = true ∧
      ¬ ∃ value, portWorkspace.field? "g" "LAMP" = some value ∧
        portVocabulary.Denotes portWorkspace "lamp" value := by
  have hkeyed := built_portVocabulary.keyedByType
  have hfield : portWorkspace.field? "g" "LAMP" =
      some (Reference.encode ⟨"motor", "m", "left"⟩) := by decide +kernel
  constructor
  · rw [InstanceIndex.checkField_eq_true_iff]
    refine ⟨_, hfield, (InstanceIndex.fault?_rebuild_eq_none_iff hkeyed _ _ _ _).mpr ?_⟩
    exact ⟨by decide +kernel, by decide +kernel, .inr ⟨_, decode?_port, by decide +kernel, "port",
      (portWorkspace_hasVirtual_iff "port").mpr rfl⟩⟩
  · rintro ⟨value, hvalue, ⟨type, c, id, hc, htype, -⟩ | ⟨r, hr, hvirtual⟩⟩
    · have hall : ∀ id ∈ portWorkspace.ids, ∀ type ∈ portWorkspace.type? id,
          ∀ c ∈ portVocabulary.constructor? type, c.system ≠ "lamp" := by decide +kernel
      obtain ⟨b, hb, -⟩ := Option.map_eq_some_iff.mp htype
      have hlive : id ∈ portWorkspace.ids := (portWorkspace.mem_ids_iff id).mpr (by simp [hb])
      exact hall id hlive type htype c hc.declared hc.system_eq
    · cases hfield.symm.trans hvalue
      cases decode?_port.symm.trans hr
      have := (portWorkspace_hasVirtual_iff "lamp").mp hvirtual
      simp at this

end BlockProgram
