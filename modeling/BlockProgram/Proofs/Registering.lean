import BlockProgram.Proofs.Reading
import BlockProgram.Vocabulary

/-!
# Registering what has been read

A vocabulary checks once more what the reading of a definition has checked, and one
thing that it has not: that a dropdown over instances names its system. So of the
definitions that have been read only those with a nameless system are rejected, and
a document with one is taken in up to there.
-/
namespace BlockProgram

namespace Definition

variable {d : Definition}

/-- Every dropdown over instances names its system. -/
def NamesSystems (d : Definition) : Prop := ∀ field ∈ d.instanceFields, field.2 ≠ ""

/-- The field for the name of a constructor is found, and it is a text field. -/
lemma Sound.any_isText (h : d.Sound) {c : Constructor} (hc : d.constructs = some c) :
    (d.argument? c.nameField).any (·.kind.isText) = true := by
  obtain ⟨a, ha, hname, initial, hkind⟩ := h.nameField c hc
  obtain ⟨found, hfound⟩ : ∃ found, d.argument? c.nameField = some found := by
    rw [← Option.isSome_iff_exists, argument?, List.find?_isSome]
    exact ⟨a, ha, by simpa using hname⟩
  have hsame : found = a := List.inj_on_of_nodup_map h.distinct (List.mem_of_find?_eq_some hfound)
    ha ((by simpa using List.find?_some hfound : found.name = c.nameField).trans hname.symm)
  rw [hfound, hsame, Option.any_some, hkind]
  rfl

/-- The only check that a sound definition can fail is that of its dropdowns. -/
lemma Sound.rejection?_eq (h : d.Sound) : d.rejection? =
    (d.instanceFields.find? (·.2.isEmpty)).map fun field => .namelessSystem d.type field.1 := by
  have htype : d.type.isEmpty = false := by
    rw [Bool.eq_false_iff, Ne, String.isEmpty_iff]
    exact h.type.1
  have halone : (d.output.isSome && (d.previous || d.next)) = false := by
    cases houtput : d.output.isSome with
    | false => rfl
    | true => simp [h.alone houtput]
  have hstart : (d.programStart && d.kind != .root) = false := by
    cases hs : d.programStart with
    | false => rfl
    | true => simp [h.start hs]
  have hnamed : (d.constructs.bind fun c =>
      if (d.argument? c.nameField).any (·.kind.isText) then none
      else some (Rejection.nameFieldNotText d.type c.nameField)) = none := by
    cases hc : d.constructs with
    | none => rfl
    | some c => rw [Option.bind_some, if_pos (h.any_isText hc)]
  unfold rejection?
  rw [htype, halone, hstart]
  simp only [Bool.false_eq_true, if_false, hnamed, Option.none_or]

/-- A sound definition is rejected for a dropdown without a system, if it has one. -/
lemma Sound.rejection?_cases (h : d.Sound) :
    (d.rejection? = none ∧ d.NamesSystems) ∨
      ∃ field, (field, "") ∈ d.instanceFields ∧
        d.rejection? = some (.namelessSystem d.type field) := by
  rw [h.rejection?_eq]
  cases hfind : d.instanceFields.find? (·.2.isEmpty) with
  | none =>
    refine .inl ⟨rfl, fun field hfield hempty => ?_⟩
    have hnot := List.find?_eq_none.mp hfind field hfield
    rw [hempty] at hnot
    exact hnot rfl
  | some field =>
    have hempty : field.2 = "" := by
      have := List.find?_some hfind
      simpa using this
    refine .inr ⟨field.1, ?_, rfl⟩
    rw [← hempty]
    exact List.mem_of_find?_eq_some hfind

end Definition

namespace Vocabulary

variable {d : Definition} {library : String} {imports : List String}

lemma register_cases (v : Vocabulary) (h : d.Sound) :
    (d.NamesSystems ∧ ∃ v', v.register library imports d = .ok v') ∨
      ∃ field, (field, "") ∈ d.instanceFields ∧
        v.register library imports d =
          .error (.rejected library (.namelessSystem d.type field)) := by
  unfold register
  rcases h.rejection?_cases with ⟨hnone, hnames⟩ | ⟨field, hfield, hsome⟩
  · rw [hnone]
    exact .inl ⟨hnames, _, rfl⟩
  · rw [hsome]
    exact .inr ⟨field, hfield, rfl⟩

/-- Sound definitions are registered up to the first with a nameless system. -/
lemma registerAll_cases (v : Vocabulary) {ds : List Definition} (h : ∀ d ∈ ds, d.Sound) :
    ((∀ d ∈ ds, d.NamesSystems) ∧ (registerAll library imports v ds).2 = none) ∨
      ∃ done d rest field, ds = done ++ d :: rest ∧ (∀ d' ∈ done, d'.NamesSystems) ∧
        (field, "") ∈ d.instanceFields ∧ registerAll library imports v ds =
          ((registerAll library imports v done).1,
            some (.rejected library (.namelessSystem d.type field))) := by
  induction ds generalizing v with
  | nil => exact .inl ⟨by simp, rfl⟩
  | cons d rest ih =>
    rw [List.forall_mem_cons] at h
    rcases register_cases v h.1 with ⟨hnames, v', hreg⟩ | ⟨field, hfield, hreg⟩
    · have hcons (more : List Definition) : registerAll library imports v (d :: more) =
          registerAll library imports v' more := by rw [registerAll, hreg]
      rcases ih v' h.2 with ⟨hall, hnone⟩ | ⟨done, d', rest', field, rfl, hdone, hfield, heq⟩
      · exact .inl ⟨List.forall_mem_cons.mpr ⟨hnames, hall⟩, by rw [hcons, hnone]⟩
      · refine .inr ⟨d :: done, d', rest', field, rfl, List.forall_mem_cons.mpr ⟨hnames, hdone⟩,
          hfield, ?_⟩
        rw [hcons, hcons, heq]
    · exact .inr ⟨[], d, rest, field, rfl, by simp, hfield, by simp only [registerAll, hreg]⟩

end Vocabulary

/-- A definition that has been read is registered if and only if all its dropdowns over
instances name their systems, and a document that has been read is registered as a whole
if and only if this holds of all its blocks. Otherwise a dropdown without a system is what
is reported, and just the blocks before it are registered. -/
theorem read_registers_iff_namesSystems (v : Vocabulary) :
    (∀ path j d library imports, Definition.ofJson path j = .ok d →
      ((∃ v', v.register library imports d = .ok v') ↔ d.NamesSystems) ∧
      ∀ failure, v.register library imports d = .error failure →
        ∃ field, (field, "") ∈ d.instanceFields ∧
          failure = .rejected library (.namelessSystem d.type field)) ∧
    ∀ source j doc, Document.ofJson source j = .ok doc →
      ((v.registerDocument doc).2 = none ↔ ∀ d ∈ doc.blocks, d.NamesSystems) ∧
      ∀ failure, (v.registerDocument doc).2 = some failure →
        ∃ done d rest field, doc.blocks = done ++ d :: rest ∧ (∀ d' ∈ done, d'.NamesSystems) ∧
          (field, "") ∈ d.instanceFields ∧
          failure = .rejected doc.category (.namelessSystem d.type field) ∧
          (v.registerDocument doc).1 =
            (Vocabulary.registerAll doc.category doc.imports v done).1 := by
  refine ⟨fun path j d library imports h => ?_, fun source j doc h => ?_⟩
  · rcases v.register_cases (Definition.sound_of_ofJson h) with
      ⟨hnames, v', hreg⟩ | ⟨field, hfield, hreg⟩
    · refine ⟨iff_of_true ⟨v', hreg⟩ hnames, fun failure hfailure => ?_⟩
      rw [hreg] at hfailure
      cases hfailure
    · refine ⟨iff_of_false ?_ fun hnames => hnames _ hfield rfl, fun failure hfailure => ?_⟩
      · rintro ⟨v', hok⟩
        rw [hreg] at hok
        cases hok
      · rw [hreg] at hfailure
        cases hfailure
        exact ⟨field, hfield, rfl⟩
  · unfold Vocabulary.registerDocument
    rcases v.registerAll_cases (Document.sound_of_ofJson h) with
      ⟨hall, hnone⟩ | ⟨done, d, rest, field, hblocks, hdone, hfield, heq⟩
    · refine ⟨iff_of_true hnone hall, fun failure hfailure => ?_⟩
      rw [hnone] at hfailure
      cases hfailure
    · have hbad : d ∈ doc.blocks := by simp [hblocks]
      rw [heq]
      refine ⟨iff_of_false (by simp) fun hall => hall d hbad _ hfield rfl,
        fun failure hfailure => ?_⟩
      cases hfailure
      exact ⟨done, d, rest, field, hblocks, hdone, hfield, rfl, rfl⟩

/-- A block with a dropdown over the instances of a system. -/
def pickBlock (system : String) : Json :=
  .object [("args", .array [.object [("instanceOf", .string system), ("name", .string "WHO"),
      ("type", .string "field_dropdown")]]),
    ("code", .string "pick($[WHO]);"), ("message", .string "pick $[WHO]"),
    ("previous", .bool true), ("type", .string "pick")]

/-- A library of a plain block and one with a dropdown. -/
def pickDocument (system : String) : Json :=
  .object [("category", .string "core"), ("contents", .array [
    .object [("code", .string "step();"), ("previous", .bool true), ("type", .string "step")],
    pickBlock system])]

theorem pickDocument_registers :
    (∃ d v', Definition.ofJson {} (pickBlock "motor") = .ok d ∧
        ({} : Vocabulary).register "core" [] d = .ok v') ∧
      ∃ doc, Document.ofJson "core.json" (pickDocument "motor") = .ok doc ∧
        (({} : Vocabulary).registerDocument doc).2 = none := by
  obtain ⟨hblocks, hdocuments⟩ := read_registers_iff_namesSystems {}
  have hnames {d : Definition} (h : d.instanceFields ⊆ [("WHO", "motor")]) : d.NamesSystems := by
    intro field hfield
    rw [List.mem_singleton.mp (h hfield)]
    decide
  obtain ⟨d, hd, hfields⟩ : ∃ d, Definition.ofJson {} (pickBlock "motor") = .ok d ∧
      d.instanceFields = [("WHO", "motor")] := exists_ok_of_map (by decide +kernel)
  obtain ⟨doc, hdoc, hsystems⟩ : ∃ doc,
      Document.ofJson "core.json" (pickDocument "motor") = .ok doc ∧
      doc.blocks.map Definition.instanceFields = [[], [("WHO", "motor")]] :=
    exists_ok_of_map (by decide +kernel)
  obtain ⟨v', hv'⟩ := (hblocks {} _ d "core" [] hd).1.mpr (hnames (by simp [hfields]))
  refine ⟨⟨d, v', hd, hv'⟩, doc, hdoc, (hdocuments _ _ doc hdoc).1.mpr fun d' hd' => hnames ?_⟩
  have hmem : d'.instanceFields ∈ [[], [("WHO", "motor")]] := by
    rw [← hsystems]
    exact List.mem_map_of_mem hd'
  rcases List.mem_pair.mp hmem with heq | heq <;> simp [heq]

/-- A dropdown with an empty system is read but not registered, and leaves its document
registered in part. -/
theorem pickDocument_nameless_rejected :
    (∃ d, Definition.ofJson {} (pickBlock "") = .ok d ∧ ∀ (v : Vocabulary) (library : String),
        v.register library [] d = .error (.rejected library (.namelessSystem "pick" "WHO"))) ∧
      ∃ doc, Document.ofJson "core.json" (pickDocument "") = .ok doc ∧
        ((({} : Vocabulary).registerDocument doc).2.bind Failure.complaint?,
          (({} : Vocabulary).registerDocument doc).1.types.keys) =
        (some ⟨"core", "pick.WHO", "instance dropdown names no system"⟩, ["step"]) := by
  obtain ⟨d, hd, hrejection⟩ : ∃ d, Definition.ofJson {} (pickBlock "") = .ok d ∧
      d.rejection? = some (.namelessSystem "pick" "WHO") := exists_ok_of_map (by decide +kernel)
  refine ⟨⟨d, hd, fun v library => by rw [Vocabulary.register, hrejection]⟩, ?_⟩
  exact exists_ok_of_map (by decide +kernel)

end BlockProgram
