import BlockProgram.Proofs.Generating
import BlockProgram.Proofs.Loading

/-!
# Code does not depend on wording

A definition has texts that only the user sees: its message, its tooltip, the labels of
its dropdowns, and members that are handed on to the editor. Code is generated from the
rest. So two vocabularies that differ in these texts only yield the same code for every
block, and the same program for every workspace, a failure included.
-/
namespace BlockProgram

/-! ### Without the texts for the user -/

def Choice.bare (c : Choice) : Choice := { c with label := "" }

def ArgumentKind.bare : ArgumentKind → ArgumentKind
  | .choice choices => .choice (choices.map Choice.bare)
  | kind => kind

def Argument.bare (a : Argument) : Argument := { a with kind := a.kind.bare }

def Definition.bare (d : Definition) : Definition :=
  { d with message := "", args := d.args.map Argument.bare, tooltip := none, extra := [] }

def Registration.bare : Registration → Registration
  | .declared library imports d => .declared library imports d.bare
  | .hosted kind code => .hosted kind code

namespace Vocabulary

/-- Both know the same types, and differ in texts for the user only. -/
def SameButTexts (v v' : Vocabulary) : Prop :=
  ∀ type, (v.get? type).map Registration.bare = (v'.get? type).map Registration.bare

lemma SameButTexts.of_get? {v v' : Vocabulary} (h : ∀ type, v.get? type = v'.get? type) :
    v.SameButTexts v' := by
  intro type
  rw [h]

variable {v v' : Vocabulary}

/-- What does not look at the texts is the same for both. -/
lemma SameButTexts.view_eq {β : Type} (h : v.SameButTexts v') (view : Option Registration → β)
    (hview : ∀ found, view (found.map Registration.bare) = view found) (type : String) :
    view (v.get? type) = view (v'.get? type) := by
  rw [← hview, h type, hview]

lemma SameButTexts.map_kind (h : v.SameButTexts v') (type : String) :
    (v.get? type).map Registration.kind = (v'.get? type).map Registration.kind := by
  refine h.view_eq (·.map Registration.kind) (fun found => ?_) type
  rw [Option.map_map]
  congr 1
  funext r
  cases r <;> rfl

lemma SameButTexts.constructor?_eq (h : v.SameButTexts v') (type : String) :
    v.constructor? type = v'.constructor? type := by
  refine h.view_eq (fun found => (found.bind (·.definition?)).bind Definition.constructs)
    (fun found => ?_) type
  cases found with
  | none => rfl
  | some r => cases r <;> rfl

lemma SameButTexts.importsFor_eq (h : v.SameButTexts v') (types : List String) :
    v.importsFor types = v'.importsFor types := by
  have himports (type : String) : ((v.get? type).map Registration.imports).getD [] =
      ((v'.get? type).map Registration.imports).getD [] := by
    refine h.view_eq (fun found => (found.map Registration.imports).getD []) (fun found => ?_) type
    cases found with
    | none => rfl
    | some r => cases r <;> rfl
  simp only [importsFor, himports]

end Vocabulary

lemma InstanceIndex.rebuild_congr (x : InstanceIndex) {v v' : Vocabulary} (hv : v.KeyedByType)
    (hv' : v'.KeyedByType) (h : v.SameButTexts v') : x.rebuild v = x.rebuild v' := by
  rw [rebuild, rebuild, constructorsOf_congr hv hv' h.constructor?_eq]

namespace Generator

variable (g : Generator) (block : BlockId → Generation Code) (id : BlockId)

lemma fragment_bare (a : Argument) : g.fragment block id a.bare = g.fragment block id a := by
  obtain ⟨name, kind⟩ := a
  cases kind with
  | choice choices => cases choices <;> rfl
  | _ => rfl

lemma fragments_bare (template : String) (args : List Argument) :
    g.fragments block id template (args.map Argument.bare) =
      g.fragments block id template args := by
  induction args with
  | nil => rfl
  | cons a rest ih =>
    rw [List.map_cons, fragments, fragments, ih, fragment_bare]
    rfl

/-- The code of a template is the same when the texts for the user are left out. -/
lemma template_bare (d : Definition) (code : String) :
    g.template block id d.bare code = g.template block id d code := by
  rw [template_eq, template_eq, Definition.bare, fragments_bare]
  rfl

/-! ### Generators with different vocabularies -/

/-- The generator with another vocabulary. -/
def withVocabulary (v : Vocabulary) : Generator := { g with vocabulary := v }

variable (v : Vocabulary)

lemma links_withVocabulary (ids : List BlockId) :
    (g.withVocabulary v).links block ids = g.links block ids := by
  induction ids with
  | nil => rfl
  | cons id rest ih =>
    rw [links, links, ih]
    rfl

lemma chain_withVocabulary (first : BlockId) :
    (g.withVocabulary v).chain block first = g.chain block first := by
  rw [chain, chain, links_withVocabulary]
  rfl

lemma body_withVocabulary (input : String) :
    (g.withVocabulary v).body block id input = g.body block id input := by
  rw [body, body]
  simp only [chain_withVocabulary]
  rfl

lemma fragment_withVocabulary (a : Argument) :
    (g.withVocabulary v).fragment block id a = g.fragment block id a := by
  rw [fragment, fragment, body_withVocabulary]
  rfl

lemma fragments_withVocabulary (template : String) (args : List Argument) :
    (g.withVocabulary v).fragments block id template args =
      g.fragments block id template args := by
  induction args with
  | nil => rfl
  | cons a rest ih => rw [fragments, fragments, ih, fragment_withVocabulary]

/-- The code of a block of a type, when this is what the type is registered as. -/
def codeBy (type : String) : Option Registration → Generation Code
  | none => throw (.unknownType type)
  | some (.hosted _ code) => g.perform block (code g.settings g.workspace id)
  | some (.declared _ _ d) => match d.code with
    | none => throw (.noTemplate type)
    | some code => g.template block id d code

lemma codeOf_eq_codeBy {type : String} (h : g.workspace.type? id = some type) :
    g.codeOf block id = g.codeBy block id type (g.vocabulary.get? type) := by
  rw [codeOf, h]
  rfl

lemma codeBy_bare (type : String) (found : Option Registration) :
    g.codeBy block id type (found.map Registration.bare) = g.codeBy block id type found := by
  cases found with
  | none => rfl
  | some r =>
    cases r with
    | hosted kind code => rfl
    | declared library imports d =>
      simp only [Option.map_some, Registration.bare, codeBy, template_bare]
      rfl

variable {g} {v} (h : g.vocabulary.SameButTexts v)
include h

lemma topCode_withVocabulary : (g.withVocabulary v).topCode block id = g.topCode block id := by
  rw [topCode, topCode, chain_withVocabulary]
  cases htype : g.workspace.type? id with
  | none => simp only [withVocabulary, htype]
  | some type =>
    have hkind := h.map_kind type
    simp only [withVocabulary, htype]
    cases hold : g.vocabulary.get? type with
    | none =>
      rw [hold, Option.map_none, eq_comm, Option.map_eq_none_iff] at hkind
      rw [hkind]
    | some r =>
      rw [hold, Option.map_some, eq_comm, Option.map_eq_some_iff] at hkind
      obtain ⟨r', hr', hkind⟩ := hkind
      simp only [hr', hkind]

lemma topCodes_withVocabulary (ids : List BlockId) :
    (g.withVocabulary v).topCodes block ids = g.topCodes block ids := by
  induction ids with
  | nil => rfl
  | cons id rest ih => rw [topCodes, topCodes, ih, topCode_withVocabulary block id h]

lemma programFrom_withVocabulary : (g.withVocabulary v).programFrom block = g.programFrom block := by
  have himports : (g.withVocabulary v).importText = g.importText := by
    rw [importText, importText, imports, imports, h.importsFor_eq]
    rfl
  rw [programFrom, programFrom, topCodes_withVocabulary block h, himports]
  rfl

/-- A script may ask for the program, but not for the texts. -/
lemma perform_withVocabulary (script : Script) :
    (g.withVocabulary v).perform block script = g.perform block script := by
  induction script with
  | done code => rfl
  | fail failure => rfl
  | block id next ih => simp only [perform, ih]
  | value id input order next ih =>
    simp only [perform, ih]
    rfl
  | statement id input next ih => simp only [perform, ih, body_withVocabulary]
  | chain id next ih => simp only [perform, ih, chain_withVocabulary]
  | field id arg next ih => exact ih _
  | program next ih => simp only [perform, ih, programFrom_withVocabulary block h]

lemma codeBy_withVocabulary (type : String) (found : Option Registration) :
    (g.withVocabulary v).codeBy block id type found = g.codeBy block id type found := by
  unfold codeBy
  split
  · rfl
  · exact perform_withVocabulary block h _
  · split
    · rfl
    · rw [template, template, fragments_withVocabulary]

lemma codeOf_withVocabulary : (g.withVocabulary v).codeOf block id = g.codeOf block id := by
  cases htype : g.workspace.type? id with
  | none => simp only [codeOf, withVocabulary, htype]
  | some type =>
    rw [codeOf_eq_codeBy g block id htype, codeOf_eq_codeBy (g.withVocabulary v) block id htype,
      codeBy_withVocabulary _ _ h]
    exact (h.view_eq (g.codeBy block id type) (codeBy_bare g block id type) type).symm

lemma blockWithin_withVocabulary (depth : Nat) :
    (g.withVocabulary v).blockWithin depth = g.blockWithin depth := by
  induction depth with
  | zero => rfl
  | succ depth ih =>
    funext id
    rw [blockWithin, blockWithin, ih, codeOf_withVocabulary _ _ h]

/-- Vocabularies that differ in texts for the user yield the same code for a block. -/
theorem block_withVocabulary : (g.withVocabulary v).block = g.block := by
  funext id
  rw [block, block, blockWithin_withVocabulary h]
  rfl

/-- Vocabularies that differ in texts for the user yield the same program. -/
theorem program_withVocabulary : (g.withVocabulary v).program = g.program := by
  rw [program, program, block_withVocabulary h, programFrom_withVocabulary _ h]

end Generator

namespace Session

/-- Sessions with the same settings and constructors whose vocabularies differ in texts for
the user only compile alike. -/
theorem compile_congr {s t : Session} (hsettings : t.settings = s.settings)
    (hinstances : t.instances = s.instances) (hv : s.vocabulary.SameButTexts t.vocabulary)
    (w : Workspace) : t.compile w = s.compile w ∧ ∀ id, t.generate w id = s.generate w id := by
  have hgenerator : t.generator w = (s.generator w).withVocabulary t.vocabulary := by
    rw [generator, hsettings, hinstances]
    rfl
  have hsame : (s.generator w).vocabulary.SameButTexts t.vocabulary := hv
  refine ⟨?_, fun id => ?_⟩
  · rw [compile, hgenerator, Generator.program_withVocabulary hsame, compile]
  · rw [generate, hgenerator, Generator.block_withVocabulary hsame, generate]

/-- Sessions with the same settings that load documents which differ in texts for the user
only find the same constructors and compile alike. -/
theorem load_congr {s t : Session} (hsettings : t.settings = s.settings)
    (hinstances : t.instances = s.instances) {sources sources' : List Source}
    {docs docs' : List Document} (hdocs : List.Forall₂ (LoadsAs s.catalog) sources docs)
    (hdocs' : List.Forall₂ (LoadsAs t.catalog) sources' docs')
    (hsame : (Vocabulary.ofDocuments docs).SameButTexts (.ofDocuments docs')) :
    let loaded := (s.load sources).1
    let loaded' := (t.load sources').1
    loaded'.instances = loaded.instances ∧ ∀ w, loaded'.compile w = loaded.compile w ∧
      ∀ id, loaded'.generate w id = loaded.generate w id := by
  intro loaded loaded'
  have hloaded : s.load sources = _ := s.load_of_loadsAs hdocs
  have hloaded' : t.load sources' = _ := t.load_of_loadsAs hdocs'
  have hvocabularies : loaded.vocabulary.SameButTexts loaded'.vocabulary := by
    simpa only [loaded, loaded', hloaded, hloaded'] using hsame
  have hindexes : loaded'.instances = loaded.instances := by
    have hrebuild := s.instances.rebuild_congr (Vocabulary.keyedByType_load s sources)
      (Vocabulary.keyedByType_load t sources') hvocabularies
    simpa only [loaded, loaded', hloaded, hloaded', hinstances] using hrebuild.symm
  have hkept : loaded'.settings = loaded.settings := by
    simpa only [loaded, loaded', hloaded, hloaded'] using hsettings
  exact ⟨hindexes, compile_congr hkept hindexes hvocabularies⟩

end Session

end BlockProgram
