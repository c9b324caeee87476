import BlockProgram.Proofs.Generating
import BlockProgram.Proofs.Placing
import BlockProgram.Session

/-!
# Well-connected workspaces compile

Generation can fail because of a missing block, a block type without code, a value
among statements or the other way round, or a way round in the links. If none of
these is there, no guard can stop it: the busy blocks all lead to the block at
hand, so the block is not among them.
-/
namespace BlockProgram

namespace Definition

/-- The names of the inputs for values. -/
def valueInputs (d : Definition) : List String :=
  d.args.filterMap fun a => match a.kind with
    | .value _ _ => some a.name
    | _ => none

/-- The names of the inputs for statements. -/
def statementInputs (d : Definition) : List String :=
  d.args.filterMap fun a => match a.kind with
    | .statement _ => some a.name
    | _ => none

lemma mem_valueInputs {d : Definition} {a : Argument} {check : Option String} {order : Precedence}
    (ha : a ∈ d.args) (hkind : a.kind = .value check order) : a.name ∈ d.valueInputs :=
  List.mem_filterMap.mpr ⟨a, ha, by simp [hkind]⟩

lemma mem_statementInputs {d : Definition} {a : Argument} {check : Option String}
    (ha : a ∈ d.args) (hkind : a.kind = .statement check) : a.name ∈ d.statementInputs :=
  List.mem_filterMap.mpr ⟨a, ha, by simp [hkind]⟩

end Definition

namespace Vocabulary

/-- The definition of the type of a block. -/
def definitionOf? (v : Vocabulary) (w : Workspace) (id : BlockId) : Option Definition :=
  (w.type? id).bind v.definition?

/-- The kind of the type of a block. -/
def kindOf? (v : Vocabulary) (w : Workspace) (id : BlockId) : Option BlockKind :=
  ((w.type? id).bind v.get?).map Registration.kind

lemma declared_of_definitionOf? {v : Vocabulary} {w : Workspace} {id : BlockId} {d : Definition}
    (h : v.definitionOf? w id = some d) :
    ∃ type library imports, w.type? id = some type ∧
      v.get? type = some (.declared library imports d) := by
  obtain ⟨type, htype, hd⟩ := Option.bind_eq_some_iff.mp h
  obtain ⟨r, hr, hrd⟩ := Option.bind_eq_some_iff.mp hd
  cases r with
  | declared library imports d' =>
    cases hrd
    exact ⟨type, library, imports, htype, hr⟩
  | hosted kind code => cases hrd

lemma kindOf?_of_definitionOf? {v : Vocabulary} {w : Workspace} {id : BlockId} {d : Definition}
    (h : v.definitionOf? w id = some d) : v.kindOf? w id = some d.kind := by
  obtain ⟨type, library, imports, htype, hget⟩ := declared_of_definitionOf? h
  simp [kindOf?, htype, hget, Registration.kind]

end Vocabulary

namespace Workspace

/-- The second block stands somewhere in the chain that starts with the first. -/
def InChain (w : Workspace) : BlockId → BlockId → Prop :=
  Relation.ReflTransGen fun a b => w.next? a = some b

/-- Enabled blocks have code, links lead to blocks and never round, value inputs
hold values, and there is no value in the chain of a statement input or of a root. -/
structure WellConnected (v : Vocabulary) (w : Workspace) : Prop where
  templates : ∀ id ∈ w.ids, w.isDisabled id = false →
    ∃ d code, v.definitionOf? w id = some d ∧ d.code = some code
  live : ∀ holder id, w.Holds holder id → id ∈ w.ids
  acyclic : ∀ id, ¬ Relation.TransGen w.Holds id id
  operands : ∀ id d input target, w.isDisabled id = false → v.definitionOf? w id = some d →
    input ∈ d.valueInputs → w.target? id input = some target → w.isDisabled target = false →
    v.kindOf? w target = some .value
  bodies : ∀ id d input first k, w.isDisabled id = false → v.definitionOf? w id = some d →
    input ∈ d.statementInputs → w.target? id input = some first → w.InChain first k →
    w.isDisabled k = false → v.kindOf? w k ≠ some .value
  roots : ∀ id k, id ∈ w.topBlocks → w.isDisabled id = false → v.kindOf? w id = some .root →
    w.InChain id k → w.isDisabled k = false → v.kindOf? w k ≠ some .value

lemma InChain.holds {w : Workspace} {first k : BlockId} (h : w.InChain first k) :
    Relation.ReflTransGen w.Holds first k :=
  Relation.ReflTransGen.mono (fun _ _ hnext => ⟨.next, hnext⟩) _ _ h

namespace WellConnected

variable {v : Vocabulary} {w : Workspace}

lemma acyclic_next (h : WellConnected v w) (id : BlockId) :
    ¬ Relation.TransGen (fun a b => w.next? a = some b) id id :=
  fun hround => h.acyclic id (Relation.TransGen.mono (fun _ _ hnext => ⟨.next, hnext⟩) _ _ hround)

lemma live_of_transGen (h : WellConnected v w) {a b : BlockId}
    (hab : Relation.TransGen w.Holds a b) : b ∈ w.ids := by
  obtain ⟨c, _, hcb⟩ := Relation.TransGen.tail'_iff.mp hab
  exact h.live c b hcb

lemma live_of_inChain (h : WellConnected v w) {first k : BlockId} (hfirst : first ∈ w.ids)
    (hk : w.InChain first k) : k ∈ w.ids := by
  rcases Relation.reflTransGen_iff_eq_or_transGen.mp hk.holds with rfl | htrans
  · exact hfirst
  · exact h.live_of_transGen htrans

end WellConnected

end Workspace

/-! ### Code of the right kind -/

/-- A value for a value block, and a statement for any other. -/
def BlockKind.Fits (kind : BlockKind) (code : Code) : Prop :=
  (kind = .value ∧ ∃ text inner, code = .value text inner) ∨
    (kind ≠ .value ∧ ∃ text, code = .statement text)

namespace Generator

open Generation Workspace

variable {g : Generator}

lemma fits_finish (d : Definition) (text : String) : d.kind.Fits (finish d text) := by
  unfold finish
  cases hkind : d.kind with
  | value => exact .inl ⟨rfl, text, d.order, rfl⟩
  | statement => exact .inr ⟨by simp, text, rfl⟩
  | root => exact .inr ⟨by simp, _, rfl⟩

/-- The code of a block is there, and of its kind, once all enabled blocks below it
have code of theirs. -/
lemma codeOf_yields (h : WellConnected g.vocabulary g.workspace) {id : BlockId}
    (hid : id ∈ g.workspace.ids) (henabled : g.workspace.isDisabled id = false)
    {block : BlockId → Generation Code} {busy : List BlockId}
    (hblock : ∀ k, Relation.TransGen g.workspace.Holds id k → g.workspace.isDisabled k = false →
      (block k).Yields busy fun code =>
        ∃ kind, g.vocabulary.kindOf? g.workspace k = some kind ∧ kind.Fits code) :
    (g.codeOf block id).Yields busy fun code =>
      ∃ kind, g.vocabulary.kindOf? g.workspace id = some kind ∧ kind.Fits code := by
  obtain ⟨d, code, hd, hcode⟩ := h.templates id hid henabled
  obtain ⟨type, library, imports, htype, hget⟩ := Vocabulary.declared_of_definitionOf? hd
  simp only [codeOf, htype, hget, hcode]
  have hfragments : (g.fragments block id code d.args).Yields busy fun _ => True := by
    refine Yields.mono (fragments_yields (P := fun _ _ => True) fun a ha _ => ?_) fun _ _ => trivial
    unfold fragment
    split
    · next check order hkind =>
      refine operand_yields (fun _ => trivial) fun target htarget hen => ?_
      have hvalue := h.operands id d a.name target henabled hd (Definition.mem_valueInputs ha hkind)
        htarget hen
      refine (hblock target (.single ⟨.input a.name, htarget⟩) hen).mono ?_
      rintro code ⟨kind, hk, hfits⟩
      rw [hvalue, Option.some.injEq] at hk
      subst hk
      rcases hfits with ⟨_, text, inner, rfl⟩ | ⟨hne, _⟩
      · exact ⟨text, inner, rfl, trivial⟩
      · exact absurd rfl hne
    · next check hkind =>
      refine body_yields fun first hfirst => chain_yields h.acyclic_next fun k hk hen => ?_
      have hstatement := h.bodies id d a.name first k henabled hd
        (Definition.mem_statementInputs ha hkind) hfirst hk hen
      have hbelow : Relation.TransGen g.workspace.Holds id k :=
        .head' ⟨.input a.name, hfirst⟩ (InChain.holds hk)
      refine (hblock k hbelow hen).mono ?_
      rintro code ⟨kind, hkk, hfits⟩
      rcases hfits with ⟨rfl, _⟩ | ⟨_, text, rfl⟩
      · exact absurd hkk hstatement
      · exact ⟨text, rfl⟩
    · exact .pure trivial
  refine hfragments.bind fun filled _ => .pure ?_
  exact ⟨d.kind, Vocabulary.kindOf?_of_definitionOf? hd, fits_finish d _⟩

/-- Every busy block leads to the block at hand, which therefore is none of them. -/
theorem blockWithin_wellConnected (h : WellConnected g.vocabulary g.workspace) {depth : Nat}
    {busy : List BlockId} {id : BlockId} (hroom : Room g.workspace depth busy)
    (hbusy : ∀ b ∈ busy, Relation.TransGen g.workspace.Holds b id)
    (hid : id ∈ g.workspace.ids) (henabled : g.workspace.isDisabled id = false) :
    (g.blockWithin depth id).Yields busy fun code =>
      ∃ kind, g.vocabulary.kindOf? g.workspace id = some kind ∧ kind.Fits code := by
  induction depth generalizing busy id with
  | zero => exact absurd hroom.pos (Nat.lt_irrefl 0)
  | succ depth ih =>
    refine blockWithin_yields hroom (fun hmem => h.acyclic id (hbusy id hmem)) hid ?_
    rintro below heq hroom'
    obtain rfl : depth = below := Nat.succ.inj heq
    refine codeOf_yields h hid henabled fun k hk hen => ?_
    refine ih hroom' (fun b hb => ?_) (h.live_of_transGen hk) hen
    rcases List.mem_cons.mp hb with rfl | hb
    · exact hk
    · exact (hbusy b hb).trans hk

theorem block_wellConnected (h : WellConnected g.vocabulary g.workspace) {id : BlockId}
    (hid : id ∈ g.workspace.ids) (henabled : g.workspace.isDisabled id = false) :
    (g.block id).Yields [] fun code =>
      ∃ kind, g.vocabulary.kindOf? g.workspace id = some kind ∧ kind.Fits code :=
  blockWithin_wellConnected h (Room.start g.workspace) (fun _ hb => by cases hb) hid henabled

/-! ### Programs -/

lemma topCode_yields (h : WellConnected g.vocabulary g.workspace) {id : BlockId}
    (hid : id ∈ g.workspace.topBlocks) : (g.topCode g.block id).Yields [] fun _ => True := by
  have hlive : id ∈ g.workspace.ids := (Workspace.mem_topBlocks_iff.mp hid).1
  unfold topCode
  split
  · exact .pure trivial
  · next henabled =>
    have hen : g.workspace.isDisabled id = false := by simpa using henabled
    obtain ⟨d, code, hd, -⟩ := h.templates id hlive hen
    obtain ⟨type, library, imports, htype, hget⟩ := Vocabulary.declared_of_definitionOf? hd
    have hkind := Vocabulary.kindOf?_of_definitionOf? hd
    simp only [htype, hget]
    split
    · next hroot =>
      change d.kind = .root at hroot
      rw [hroot] at hkind
      have hchain : (g.chain g.block id).Yields [] fun _ => True := by
        refine chain_yields h.acyclic_next fun k hk henk => ?_
        refine (block_wellConnected h (h.live_of_inChain hlive hk) henk).mono ?_
        rintro code ⟨kind, hkk, hfits⟩
        rcases hfits with ⟨rfl, _⟩ | ⟨_, text, rfl⟩
        · exact absurd hkk (h.roots id k hid hen hkind hk henk)
        · exact ⟨text, rfl⟩
      rw [map_eq_pure_bind]
      exact hchain.bind fun _ _ => .pure trivial
    · exact .pure trivial

lemma topCodes_yields (h : WellConnected g.vocabulary g.workspace) {ids : List BlockId}
    (hids : ids ⊆ g.workspace.topBlocks) :
    (g.topCodes g.block ids).Yields [] fun _ => True := by
  induction ids with
  | nil => exact .pure trivial
  | cons id rest ih =>
    refine (topCode_yields h (hids (by simp))).bind fun text _ => ?_
    exact (ih fun k hk => hids (List.mem_cons_of_mem _ hk)).bind fun more _ => .pure trivial

theorem program_yields (h : WellConnected g.vocabulary g.workspace) :
    g.program.Yields [] fun _ => True := by
  unfold program programFrom
  exact (topCodes_yields h (List.Subset.refl _)).bind fun roots _ => .pure trivial

end Generator

/-- A well-connected workspace compiles, whatever the settings and the contents of
the fields are, with a vocabulary alone or in a session that has loaded it. -/
theorem wellConnected_compiles (v : Vocabulary) (w : Workspace) (h : w.WellConnected v) :
    (∀ settings, ∃ program, compile settings v w = .ok program) ∧
      ∀ s : Session, s.vocabulary = v → ∃ program, s.compile w = .ok program := by
  have hall (g : Generator) (hv : g.vocabulary = v) (hw : g.workspace = w) :
      ∃ program, (g.program.start []).1 = .ok program := by
    subst hv hw
    obtain ⟨program, hrun, -⟩ := Generator.program_yields h
    exact ⟨program, by rw [hrun]⟩
  exact ⟨fun settings => hall _ rfl rfl, fun s hs => hall (s.generator w) hs rfl⟩

/-! ### A small program -/

def printVocabulary : Vocabulary where
  types := .ofList [
    ("start", .declared "core" []
      { type := "start", args := [⟨"DO", .statement none⟩], code := some "$[DO]" }),
    ("print", .declared "core" []
      { type := "print", args := [⟨"X", .value none .outermost⟩], code := some "print($[X]);",
        previous := true, next := true }),
    ("one", .declared "core" [] { type := "one", code := some "1", output := some ⟨none⟩ })]

/-- A start with two prints in its chain and, between them, a disabled block of a
type that nobody knows. -/
def printWorkspace : Workspace where
  blocks := .ofList [
    ("start", { type := "start", inputs := .ofList [("DO", "first")] }),
    ("first", { type := "print", inputs := .ofList [("X", "one")], next := some "off",
                parent := some "start" }),
    ("one", { type := "one", parent := some "first" }),
    ("off", { type := "unknown", disabled := ["MANUAL"], next := some "second",
              parent := some "first" }),
    ("second", { type := "print", parent := some "off" })]

lemma mem_of_inChain {w : Workspace} {chain : List BlockId}
    (hclosed : ∀ a ∈ chain, ∀ b ∈ w.next? a, b ∈ chain) {first k : BlockId}
    (hfirst : first ∈ chain) (hk : w.InChain first k) : k ∈ chain := by
  induction hk with
  | refl => exact hfirst
  | tail _ hnext ih => exact hclosed _ ih _ hnext

theorem printWorkspace_compiles :
    printWorkspace.WellConnected printVocabulary ∧
      ∃ program, compile {} printVocabulary printWorkspace = .ok program := by
  have hlive {id : BlockId} {d : Definition}
      (h : printVocabulary.definitionOf? printWorkspace id = some d) :
      id ∈ ["start", "first", "one", "off", "second"] := by
    obtain ⟨type, _, _, htype, -⟩ := Vocabulary.declared_of_definitionOf? h
    obtain ⟨b, hb, -⟩ := Option.map_eq_some_iff.mp htype
    exact (printWorkspace.mem_ids_iff id).mpr (by simp [hb])
  have hlinks (a b : BlockId) (h : printWorkspace.Holds a b) : b ∈ printWorkspace.ids ∧
      printWorkspace.ids.idxOf a < printWorkspace.ids.idxOf b := by
    obtain ⟨block, hget, hb⟩ := (printWorkspace.holds_iff a b).mp h
    have hmem := (Table.get?_eq_some_iff _ _ _).mp hget
    have hall : ∀ e ∈ printWorkspace.blocks.entries, ∀ b ∈ e.2.held, b ∈ printWorkspace.ids ∧
        printWorkspace.ids.idxOf e.1 < printWorkspace.ids.idxOf b := by decide
    exact hall (a, block) hmem b hb
  have hconnected : printWorkspace.WellConnected printVocabulary := by
    refine ⟨?_, fun a b h => (hlinks a b h).1,
      Workspace.acyclic_of_rank printWorkspace.ids.idxOf fun a b h => (hlinks a b h).2, ?_, ?_, ?_⟩
    · intro id hid henabled
      change id ∈ ["start", "first", "one", "off", "second"] at hid
      fin_cases hid
      all_goals first | exact ⟨_, _, rfl, rfl⟩ | cases henabled
    · intro id d input target _ hd hinput htarget _
      have hid := hlive hd
      fin_cases hid <;> cases hd <;> fin_cases hinput <;> cases htarget
      decide
    · intro id d input first k _ hd hinput hfirst hk _
      have hid := hlive hd
      fin_cases hid <;> cases hd <;> fin_cases hinput
      cases hfirst
      have hmem : k ∈ ["first", "off", "second"] :=
        mem_of_inChain (by decide) (by simp) hk
      fin_cases hmem <;> decide
    · intro id k hid _ _ hk _
      change id ∈ ["start"] at hid
      have hmem : k ∈ ["start"] := mem_of_inChain (by decide) hid hk
      fin_cases hmem
      decide
  exact ⟨hconnected, (wellConnected_compiles printVocabulary printWorkspace hconnected).1 {}⟩

end BlockProgram
