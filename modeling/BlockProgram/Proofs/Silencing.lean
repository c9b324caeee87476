import BlockProgram.Proofs.DeadCode

/-!
# Disabled blocks are silent

A generator skips disabled blocks at the top, in chains, in inputs and where it looks for
imports. What such a block holds in its fields and inputs therefore has no part in the
program, nor in the failure to generate one. Two things of it remain in use: the block after
it, since a chain goes on behind a disabled block, and the name of the instance that it
constructs, since other blocks may refer to it.
-/
namespace BlockProgram

/-- The workspaces differ at most within disabled blocks and in warnings. Disabled blocks, too,
have the same type and the same block after them, and construct instances of the same name. -/
structure Workspace.SameOutsideDisabled (x : InstanceIndex) (w w' : Workspace) : Prop where
  ids : w'.ids = w.ids
  topBlocks : w'.topBlocks = w.topBlocks
  type : ∀ id, w'.type? id = w.type? id
  next : ∀ id, w'.next? id = w.next? id
  disabled : ∀ id, w'.isDisabled id = w.isDisabled id
  field : ∀ id name, w.isDisabled id = false → w'.field? id name = w.field? id name
  target : ∀ id input, w.isDisabled id = false → w'.target? id input = w.target? id input
  instanceName : ∀ id type c, w.type? id = some type → x.get? type = some c →
    w'.field? id c.nameField = w.field? id c.nameField

namespace Generator

open Generation Workspace

variable {g : Generator} {w' : Workspace}

/-- References may lead to disabled blocks, but they only ask for the name of the instance. -/
lemma agrees_of_sameOutsideDisabled
    (hdeclared : ∀ type kind code, g.vocabulary.get? type ≠ some (.hosted kind code))
    (h : SameOutsideDisabled g.instances g.workspace w') :
    Agrees g { g with workspace := w' } fun _ => True where
  settings := rfl
  vocabulary := rfl
  declared := hdeclared
  closed _ _ _ _ := trivial
  type id _ := h.type id
  disabled id _ := h.disabled id
  next id _ := h.next id
  target id input _ henabled := h.target id input henabled
  field id _ a _ henabled _ _ := by
    refine fieldCode_congr (h.field id a.name henabled) fun system value _ _ => ?_
    exact g.instances.resolve?_of_provider (fun r _ => h.type r.block)
      fun r c _ htype hc => h.instanceName r.block r.type c htype hc

lemma imports_of_sameOutsideDisabled (h : SameOutsideDisabled g.instances g.workspace w') :
    ({ g with workspace := w' } : Generator).imports = g.imports := by
  have htype : w'.type? = g.workspace.type? := funext h.type
  have hdisabled : w'.isDisabled = g.workspace.isDisabled := funext h.disabled
  rw [imports, imports, h.ids, htype, hdisabled]

lemma program_of_sameOutsideDisabled
    (hdeclared : ∀ type kind code, g.vocabulary.get? type ≠ some (.hosted kind code))
    (h : SameOutsideDisabled g.instances g.workspace w') :
    g.program.Same ({ g with workspace := w' } : Generator).program [] := by
  have hagrees := agrees_of_sameOutsideDisabled hdeclared h
  refine hagrees.programFrom_same (imports_of_sameOutsideDisabled h) ?_
  have htops : ({ g with workspace := w' } : Generator).workspace.topBlocks = _ := h.topBlocks
  rw [htops]
  exact hagrees.topCodes_same (fun _ _ => trivial) fun k => hagrees.block_same

/-- What disabled blocks hold changes neither the program nor the failure to generate one.
The vocabulary has no host scripts, which may look at anything. -/
theorem program_ignores_disabled (settings : Settings) {v : Vocabulary} (x : InstanceIndex)
    (hdeclared : ∀ type kind code, v.get? type ≠ some (.hosted kind code)) {w w' : Workspace}
    (h : SameOutsideDisabled x w w') :
    (Generator.mk settings v x w').program.start [] =
      (Generator.mk settings v x w).program.start [] := by
  have hsame := program_of_sameOutsideDisabled (g := ⟨settings, v, x, w⟩) hdeclared h
  exact hsame.1.symm

/-- The motors as an index knows them. -/
def motorIndex : InstanceIndex where
  unassignedSuffix := "?"
  noInstance := ⟨"none", ""⟩
  constructors := .ofList
    [("motor", ⟨"motor", "motor_", "NAME", [⟨"port", "left", "$[NAME].left"⟩]⟩)]

/-- Below the start stand a disabled motor and a block that uses its left port. -/
def pausedWorkspace : Workspace where
  blocks := .ofList [
    ("s", { type := "start", inputs := .ofList [("DO", "m")] }),
    ("m", { type := "motor", fields := .ofList [("NAME", "a")], next := some "u",
            parent := some "s", disabled := ["MANUAL"] }),
    ("u", { type := "use", fields := .ofList [("PORT", "[\"motor\",\"m\",\"left\"]")],
            parent := some "m" })]

/-- The motor has one more field and a warning, and into its inputs are plugged a block that is
not there and the motor itself. -/
def crowdedWorkspace : Workspace :=
  pausedWorkspace.modify "m" fun b =>
    { b with
      fields := b.fields.insert "SPEED" "9"
      inputs := .ofList [("A", "l"), ("B", "m")]
      warnings := .ofList [("NAME", "taken")] }

theorem pausedWorkspace_crowded :
    SameOutsideDisabled motorIndex pausedWorkspace crowdedWorkspace ∧
      ((Generator.mk {} motorVocabulary motorIndex crowdedWorkspace).program.start []).1.toOption =
        some "  use(a.left);\n" := by
  have hdeclared := Vocabulary.get?_ne_hosted (v := motorVocabulary) (by decide +kernel)
  have hget (k : BlockId) (hk : k ≠ "m") : crowdedWorkspace.get? k = pausedWorkspace.get? k := by
    rw [crowdedWorkspace, get?_modify, if_neg hk]
  have hm : pausedWorkspace.isDisabled "m" = true := by decide +kernel
  have hne (k : BlockId) (hk : pausedWorkspace.isDisabled k = false) : k ≠ "m" := by
    rintro rfl
    rw [hm] at hk
    cases hk
  have hsame : SameOutsideDisabled motorIndex pausedWorkspace crowdedWorkspace := by
    refine ⟨rfl, by decide +kernel, fun k => ?_, fun k => ?_, fun k => ?_, fun k name hk => ?_,
      fun k input hk => ?_, fun k type c htype hc => ?_⟩
    · exact map_get?_modify pausedWorkspace "m" k fun _ => rfl
    · by_cases hk : k = "m"
      · rw [hk]
        decide +kernel
      · rw [next?, next?, hget k hk]
    · by_cases hk : k = "m"
      · rw [hk]
        decide +kernel
      · rw [isDisabled, isDisabled, hget k hk]
    · rw [field?, field?, hget k (hne k hk)]
    · rw [target?, target?, hget k (hne k hk)]
    · by_cases hk : k = "m"
      · have hmotor : ∀ type ∈ pausedWorkspace.type? "m", ∀ c ∈ motorIndex.get? type,
            crowdedWorkspace.field? "m" c.nameField = pausedWorkspace.field? "m" c.nameField := by
          decide +kernel
        rw [hk] at htype ⊢
        exact hmotor type htype c hc
      · rw [field?, field?, hget k hk]
  refine ⟨hsame, ?_⟩
  rw [program_ignores_disabled {} motorIndex hdeclared hsame]
  decide +kernel

end Generator

end BlockProgram
