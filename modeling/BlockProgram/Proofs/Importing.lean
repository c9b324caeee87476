import BlockProgram.Proofs.Keeping
import BlockProgram.Proofs.Showing

/-!
# The imports of a program

A program imports what the libraries of its enabled blocks ask for. A block belongs to the
last document that defines its type, and brings the imports of that document along, not
those of other documents of the category or of earlier definitions. The lines stand between
the header and the code of the root blocks, in the order of their code points and each once.
-/
namespace BlockProgram

/-! ### Ascending texts -/

lemma mem_insertSorted {s t : String} {sorted : List String} :
    t ∈ insertSorted s sorted ↔ t = s ∨ t ∈ sorted := by
  induction sorted with
  | nil => simp [insertSorted]
  | cons first rest ih =>
    unfold insertSorted
    split
    · simp
    · split
      · next heq => simp [heq]
      · rw [List.mem_cons, ih, List.mem_cons]
        exact or_left_comm

lemma pairwise_insertSorted (s : String) {sorted : List String} (h : sorted.Pairwise (· < ·)) :
    (insertSorted s sorted).Pairwise (· < ·) := by
  induction sorted with
  | nil => simp [insertSorted]
  | cons first rest ih =>
    obtain ⟨hfirst, hrest⟩ := List.pairwise_cons.mp h
    unfold insertSorted
    split
    · next hlt =>
      refine List.pairwise_cons.mpr ⟨List.forall_mem_cons.mpr ⟨hlt, fun t ht => ?_⟩, h⟩
      exact String.lt_trans hlt (hfirst t ht)
    · next hnot =>
      split
      · exact h
      · next hne =>
        refine List.pairwise_cons.mpr ⟨fun t ht => ?_, ih hrest⟩
        rcases mem_insertSorted.mp ht with rfl | ht
        · exact Std.lt_of_le_of_ne (String.not_lt.mp hnot) (Ne.symm hne)
        · exact hfirst t ht

lemma mem_foldl_insertSorted {t : String} {lines sorted : List String} :
    t ∈ lines.foldl (fun sorted s => insertSorted s sorted) sorted ↔ t ∈ lines ∨ t ∈ sorted := by
  induction lines generalizing sorted with
  | nil => simp
  | cons line rest ih =>
    rw [List.foldl_cons, ih, mem_insertSorted, List.mem_cons, or_assoc]
    exact or_left_comm

lemma pairwise_foldl_insertSorted (lines : List String) {sorted : List String}
    (h : sorted.Pairwise (· < ·)) :
    (lines.foldl (fun sorted s => insertSorted s sorted) sorted).Pairwise (· < ·) := by
  induction lines generalizing sorted with
  | nil => exact h
  | cons line rest ih => exact ih (pairwise_insertSorted line h)

/-! ### Imports of types -/

namespace Vocabulary

lemma pairwise_importsFor (v : Vocabulary) (types : List String) :
    (v.importsFor types).Pairwise (· < ·) :=
  pairwise_foldl_insertSorted _ .nil

lemma mem_importsFor_iff {v : Vocabulary} {types : List String} {line : String} :
    line ∈ v.importsFor types ↔ ∃ type ∈ types, ∃ r, v.get? type = some r ∧ line ∈ r.imports := by
  rw [importsFor, mem_foldl_insertSorted, List.mem_flatMap]
  simp only [List.not_mem_nil, or_false]
  refine exists_congr fun type => and_congr_right fun _ => ?_
  cases v.get? type <;> simp

/-- The imports of a type are those of the last document that defines it. -/
lemma mem_importsFor_ofDocuments_iff {docs : List Document}
    (hdocs : ∀ doc ∈ docs, (doc.blocks.map Definition.type).Nodup) {types : List String}
    {line : String} :
    line ∈ (ofDocuments docs).importsFor types ↔
      ∃ type ∈ types, ∃ doc, LastDefining docs type doc ∧ line ∈ doc.imports := by
  rw [mem_importsFor_iff]
  refine exists_congr fun type => and_congr_right fun _ => ?_
  simp only [get?_ofDocuments_iff_lastDefining hdocs]
  constructor
  · rintro ⟨r, ⟨doc, hlast, d, hd, htype, rfl⟩, hline⟩
    exact ⟨doc, hlast, hline⟩
  · rintro ⟨doc, hlast, hline⟩
    obtain ⟨d, hd, htype⟩ := hlast.defines
    exact ⟨_, ⟨doc, hlast, d, hd, htype, rfl⟩, hline⟩

end Vocabulary

/-! ### Imports of programs -/

/-- Some enabled block has a type of which the document has the last definition. -/
def Workspace.Uses (w : Workspace) (docs : List Document) (doc : Document) : Prop :=
  ∃ id ∈ w.ids, w.isDisabled id = false ∧
    ∃ type, w.type? id = some type ∧ Vocabulary.LastDefining docs type doc

namespace Generator

/-- Between the header and the code of the root blocks the code has the given lines, and an
empty line after them if there are any. The lines ascend, and they are the imports of the
documents in use. -/
structure HasImports (g : Generator) (docs : List Document) (lines : List String)
    (code : String) : Prop where
  layout : ∃ roots, ((g.topCodes g.block g.workspace.topBlocks).start []).1 = .ok roots ∧
    code = g.headerText ++ (String.join (lines.map (· ++ "\n")) ++
      if lines = [] then "" else "\n") ++ "\n".intercalate roots
  ascending : lines.Pairwise (· < ·)
  mem_iff : ∀ line, line ∈ lines ↔ ∃ doc, g.workspace.Uses docs doc ∧ line ∈ doc.imports

variable {g : Generator}

lemma importText_eq (g : Generator) : g.importText =
    String.join (g.imports.map (· ++ "\n")) ++ if g.imports = [] then "" else "\n" := by
  unfold importText
  cases g.imports with
  | nil => rfl
  | cons line rest => rfl

lemma mem_imports_iff {docs : List Document}
    (hdocs : ∀ doc ∈ docs, (doc.blocks.map Definition.type).Nodup)
    (hg : g.vocabulary = .ofDocuments docs) {line : String} :
    line ∈ g.imports ↔ ∃ doc, g.workspace.Uses docs doc ∧ line ∈ doc.imports := by
  rw [imports, hg, Vocabulary.mem_importsFor_ofDocuments_iff hdocs]
  constructor
  · rintro ⟨type, htype, doc, hlast, hline⟩
    obtain ⟨id, hid, htype⟩ := List.mem_filterMap.mp htype
    obtain ⟨hlive, henabled⟩ := List.mem_filter.mp hid
    exact ⟨doc, ⟨id, hlive, by simpa using henabled, type, htype, hlast⟩, hline⟩
  · rintro ⟨doc, ⟨id, hlive, henabled, type, htype, hlast⟩, hline⟩
    have hid : id ∈ g.workspace.ids.filter fun id => !g.workspace.isDisabled id :=
      List.mem_filter.mpr ⟨hlive, by simp [henabled]⟩
    exact ⟨type, List.mem_filterMap.mpr ⟨id, hid, htype⟩, doc, hlast, hline⟩

lemma hasImports_of_program {docs : List Document}
    (hdocs : ∀ doc ∈ docs, (doc.blocks.map Definition.type).Nodup)
    (hg : g.vocabulary = .ofDocuments docs) {code : String}
    (h : (g.program.start []).1 = .ok code) : g.HasImports docs g.imports code where
  layout := by
    obtain ⟨roots, after, hroots, hcode⟩ := Generation.exists_of_bind_eq_ok h
    cases hcode
    exact ⟨roots, by rw [hroots], by rw [importText_eq]⟩
  ascending := Vocabulary.pairwise_importsFor _ _
  mem_iff _ := mem_imports_iff hdocs hg

end Generator

namespace Session

open Palette

/-- Once libraries are loaded, every program that is compiled, by the session or with other
settings, has just the imports of the documents in use. -/
theorem compiled_imports_exact (s : Session) {sources : List Source}
    (hload : (s.load sources).2 = none) :
    let loaded := (s.load sources).1
    ∃ docs, List.Forall₂ (Reads s.catalog) sources docs ∧
      (∀ w code, loaded.compile w = .ok code →
        ∃ lines, (loaded.generator w).HasImports docs lines code) ∧
      ∀ settings w code, BlockProgram.compile settings loaded.vocabulary w = .ok code →
        ∃ lines, (Generator.mk settings loaded.vocabulary
          ((InstanceIndex.ofSettings settings).rebuild loaded.vocabulary) w).HasImports
            docs lines code := by
  obtain ⟨docs, hdocs⟩ := loadsAs_of_load hload
  have hnodup : ∀ doc ∈ docs, (doc.blocks.map Definition.type).Nodup := by
    intro doc hdoc
    obtain ⟨source, -, hread, -⟩ := exists_source hdocs hdoc
    exact Document.nodup_types_of_ofJson hread
  have hvocabulary : (s.load sources).1.vocabulary = .ofDocuments docs := by
    rw [s.load_of_loadsAs hdocs]
  refine ⟨docs, hdocs.imp fun _ _ hloads => hloads.1, fun w code hcode => ?_,
    fun settings w code hcode => ?_⟩
  · exact ⟨_, Generator.hasImports_of_program hnodup hvocabulary hcode⟩
  · exact ⟨_, Generator.hasImports_of_program hnodup hvocabulary hcode⟩

/-- Three libraries, two of one category. The last defines a block of the second once more,
with other imports. -/
def spinSources : List Source :=
  [⟨"core.json", .mkObject [("category", .string "core"), ("contents", .array [
      .mkObject [("type", .string "start"), ("code", .string "main();")]])]⟩,
    ⟨"old.json", .mkObject [("category", .string "motors"),
      ("imports", .array [.string "import old;", .string "import core;"]),
      ("contents", .array [plainBlock "spin" [], plainBlock "stop" []])]⟩,
    ⟨"new.json", .mkObject [("category", .string "motors"),
      ("imports", .array [.string "import spin;", .string "import core;"]),
      ("contents", .array [plainBlock "spin" []])]⟩]

/-- A root, a loose block of the type that is defined twice, and a disabled one. -/
def spinWorkspace : Workspace where
  blocks := .ofList [("s", { type := "start" }), ("a", { type := "spin" }),
    ("b", { type := "stop", disabled := ["MANUAL"] })]

theorem spinSources_imports :
    ((new {} {}).load spinSources).2 = none ∧
      ∃ docs lines, List.Forall₂ (Reads {}) spinSources docs ∧
        (((new {} {}).load spinSources).1.generator spinWorkspace).HasImports docs lines
          "import core;\nimport spin;\n\nmain();\n" := by
  have hload : ((new {} {}).load spinSources).2 = none :=
    Option.isNone_iff_eq_none.mp (by decide +kernel)
  have hcode : (((new {} {}).load spinSources).1.compile spinWorkspace).toOption.map id =
      some "import core;\nimport spin;\n\nmain();\n" := by decide +kernel
  obtain ⟨code, hcode, rfl⟩ := exists_ok_of_map hcode
  obtain ⟨docs, hdocs, hsession, -⟩ := compiled_imports_exact (new {} {}) hload
  obtain ⟨lines, hlines⟩ := hsession spinWorkspace _ hcode
  exact ⟨hload, docs, lines, hdocs, hlines⟩

end Session

end BlockProgram
