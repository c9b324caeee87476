import BlockProgram.Library.Shape
import BlockProgram.Proofs.Accepting

/-!
# Connections of shapes

A shape has its own keys, which follow from the definition, and those that are handed on. The
keys for connections to statements mean nothing in a definition, so that they are handed on like
any other: a shape can be connected although its definition is not, and a value then has an
output and a connection to statements as well. The output itself is always that of the
definition.
-/
namespace BlockProgram

def Json.HasKey (j : Json) (key : String) : Prop := (j.get? key).isSome = true

instance (j : Json) (key : String) : Decidable (j.HasKey key) :=
  inferInstanceAs (Decidable ((j.get? key).isSome = true))

lemma Json.hasKey_mkObject_iff (members : List (String × Json)) (key : String) :
    (mkObject members).HasKey key ↔ key ∈ members.map Prod.fst := by
  rw [HasKey, get?_mkObject, Table.lookup_isSome_iff, List.map_reverse, List.mem_reverse]

namespace Definition

/-- The keys of the shape's own members. -/
def shapeKeys (d : Definition) : List String :=
  ["type", "message0", "args0"] ++ (if d.previous then ["previousStatement"] else []) ++
  (if d.next then ["nextStatement"] else []) ++ (if d.output.isSome then ["output"] else []) ++
  (d.style.map fun s => s.member.1).toList ++ (if d.tooltip.isSome then ["tooltip"] else []) ++
  (if d.helpUrl.isSome then ["helpUrl"] else []) ++
  (if d.inputsInline.isSome then ["inputsInline"] else [])

lemma map_fst_member {α : Type} (key : String) (f : α → Json) (x : Option α) :
    (Json.member key f x).map Prod.fst = if x.isSome then [key] else [] := by
  cases x <;> rfl

lemma map_fst_shapeMembers (d : Definition) : d.shapeMembers.map Prod.fst = d.shapeKeys := by
  have hflag (b : Bool) (key : String) :
      (if b then [(key, Json.null)] else []).map Prod.fst = if b then [key] else [] := by
    cases b <;> rfl
  have hstyle : (d.style.map Style.member).toList.map Prod.fst =
      (d.style.map fun s => s.member.1).toList := by
    cases d.style <;> rfl
  simp only [shapeMembers, shapeKeys, List.map_append, map_fst_member, hflag, hstyle]
  rfl

/-- A shape has its own keys and those that are handed on. -/
lemma hasKey_shape_iff (d : Definition) (key : String) :
    d.shape.HasKey key ↔ key ∈ d.shapeKeys ∨ key ∈ d.extra.map Prod.fst := by
  rw [shape, Json.hasKey_mkObject_iff, List.map_append, List.mem_append, map_fst_shapeMembers]
  refine or_congr_right' fun hown => ⟨fun hmem => ?_, fun hmem => ?_⟩
  · obtain ⟨m, hm, rfl⟩ := List.mem_map.mp hmem
    exact List.mem_map_of_mem (List.mem_of_mem_filter hm)
  · obtain ⟨m, hm, rfl⟩ := List.mem_map.mp hmem
    refine List.mem_map_of_mem (List.mem_filter.mpr ⟨hm, ?_⟩)
    rw [Bool.not_eq_true', List.any_eq_false]
    intro own hmember hsame
    rw [← map_fst_shapeMembers, ← eq_of_beq hsame] at hown
    exact hown (List.mem_map_of_mem hmember)

/-- The shape's own keys have the connections of the definition. -/
lemma connections_mem_shapeKeys (d : Definition) :
    ("previousStatement" ∈ d.shapeKeys ↔ d.previous = true) ∧
      ("nextStatement" ∈ d.shapeKeys ↔ d.next = true) ∧
      ("output" ∈ d.shapeKeys ↔ d.output.isSome = true) := by
  have hstyle (key : String) (hcolour : key ≠ "colour") (hnamed : key ≠ "style") :
      key ∉ (d.style.map fun s => s.member.1).toList := by
    obtain hnone | ⟨_ | _, hsome⟩ := Option.eq_none_or_eq_some d.style <;>
      simp [Style.member, *]
  simp [shapeKeys, hstyle, -Option.mem_toList]

lemma kind_eq_value_iff (d : Definition) : d.kind = .value ↔ d.output.isSome = true := by
  unfold kind
  split
  · next houtput => simp [houtput]
  · next houtput => split <;> simp [houtput]

variable {path : Path} {j : Json} {d : Definition}

/-- Beside its own keys a shape has those of the value that mean nothing in a definition. -/
lemma hasKey_shape_of_ofJson (h : Definition.ofJson path j = .ok d) (key : String) :
    d.shape.HasKey key ↔ key ∈ d.shapeKeys ∨ key ∉ keys ∧ j.HasKey key := by
  rw [hasKey_shape_iff, ← Table.lookup_isSome_iff, lookup_extra_of_ofJson h, Json.HasKey]
  by_cases hkey : key ∈ keys <;> simp [hkey]

/-- The shape of a definition that is read has the output of the definition, and it has each
connection to statements that the definition or the value it is read from has. There is an output
together with one of these exactly if the definition is a value and the value it is read from has
a connection to statements by the shape's name for it. -/
theorem shape_connects_iff (h : Definition.ofJson path j = .ok d) :
    (d.shape.HasKey "previousStatement" ↔
      d.previous = true ∨ j.HasKey "previousStatement") ∧
    (d.shape.HasKey "nextStatement" ↔ d.next = true ∨ j.HasKey "nextStatement") ∧
    (d.shape.HasKey "output" ↔ d.kind = .value) ∧
    (d.shape.HasKey "output" ∧
        (d.shape.HasKey "previousStatement" ∨ d.shape.HasKey "nextStatement") ↔
      d.kind = .value ∧ (j.HasKey "previousStatement" ∨ j.HasKey "nextStatement")) := by
  obtain ⟨hpreviousKey, hnextKey, houtputKey⟩ := d.connections_mem_shapeKeys
  have hprevious : d.shape.HasKey "previousStatement" ↔
      d.previous = true ∨ j.HasKey "previousStatement" := by
    rw [hasKey_shape_of_ofJson h, hpreviousKey, and_iff_right (by decide)]
  have hnext : d.shape.HasKey "nextStatement" ↔ d.next = true ∨ j.HasKey "nextStatement" := by
    rw [hasKey_shape_of_ofJson h, hnextKey, and_iff_right (by decide)]
  have houtput : d.shape.HasKey "output" ↔ d.kind = .value := by
    rw [hasKey_shape_of_ofJson h, houtputKey, kind_eq_value_iff]
    exact or_iff_left fun hhanded => hhanded.1 (by decide)
  refine ⟨hprevious, hnext, houtput, ?_⟩
  rw [hprevious, hnext, houtput]
  refine and_congr_right fun hvalue => ?_
  -- A value has no connection to statements of its own.
  obtain ⟨hnot, hnotNext⟩ := (wellFormed_of_ofJson h).alone ((kind_eq_value_iff d).mp hvalue)
  simp [hnot, hnotNext]

/-- A block that is followed by others, and follows others by the shape's name for it. -/
def stepBlock : Json :=
  .mkObject [("type", .string "step"), ("next", .bool true), ("previousStatement", .string "Step")]

theorem stepBlock_connects :
    ∃ d, Definition.ofJson {} stepBlock = .ok d ∧ d.kind = .root ∧
      d.shape.HasKey "previousStatement" ∧ d.shape.HasKey "nextStatement" ∧
      ¬ d.shape.HasKey "output" := by
  obtain ⟨d, hd, hfacts⟩ : ∃ d, Definition.ofJson {} stepBlock = .ok d ∧
      (d.next, d.kind) = (true, .root) := exists_ok_of_map (by decide +kernel)
  obtain ⟨hnext, hkind⟩ := Prod.mk.inj hfacts
  obtain ⟨hprevious, hfollowed, houtput, -⟩ := shape_connects_iff hd
  refine ⟨d, hd, hkind, hprevious.mpr (Or.inr (by decide)), hfollowed.mpr (Or.inl hnext), ?_⟩
  rw [houtput, hkind]
  decide

/-- A value that follows others by the shape's name for it. -/
def gaugeBlock : Json :=
  .mkObject [("type", .string "gauge"), ("output", .bool true), ("previousStatement", .null)]

/-- The shape has both an output and a connection that its definition does not have. -/
theorem gaugeBlock_output_and_previous :
    ∃ d, Definition.ofJson {} gaugeBlock = .ok d ∧ d.previous = false ∧
      d.kind = .value ∧ d.shape.HasKey "output" ∧ d.shape.HasKey "previousStatement" := by
  obtain ⟨d, hd, hfacts⟩ : ∃ d, Definition.ofJson {} gaugeBlock = .ok d ∧
      (d.previous, d.kind, decide (d.shape.HasKey "output"),
        decide (d.shape.HasKey "previousStatement")) = (false, .value, true, true) :=
    exists_ok_of_map (by decide +kernel)
  simp only [Prod.mk.injEq, decide_eq_true_eq] at hfacts
  exact ⟨d, hd, hfacts⟩

end Definition

end BlockProgram
