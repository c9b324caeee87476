import BlockProgram.Proofs.Wording

/-!
# The order of loading

Of two definitions of one type the later counts, so the order of loading matters as soon
as two sources define the same type. Where no two do, it does not: every order loads, the
same definitions are registered, and the index of constructors, which is taken in the
order of the types, is the same.
-/
namespace BlockProgram

open Palette

/-- The block types that the document of a source defines. -/
def Source.types (catalog : Catalog) (source : Source) : List String :=
  match Document.ofJson source.name (catalog.localize source.content) with
  | .ok doc => doc.blocks.map Definition.type
  | .error _ => []

/-- No block type is defined by two of the sources. -/
def DefinedOnce (catalog : Catalog) (sources : List Source) : Prop :=
  sources.Pairwise fun a b => ∀ type ∈ a.types catalog, type ∉ b.types catalog

instance (catalog : Catalog) (sources : List Source) : Decidable (DefinedOnce catalog sources) :=
  inferInstanceAs (Decidable (List.Pairwise _ _))

lemma LoadsAs.types_eq {catalog : Catalog} {source : Source} {doc : Document}
    (h : LoadsAs catalog source doc) : source.types catalog = doc.blocks.map Definition.type := by
  have hread : Document.ofJson source.name (catalog.localize source.content) = .ok doc := h.1
  rw [Source.types, hread]

/-- Sources that define no type twice register no type twice. -/
lemma DefinedOnce.nodup_registrations {catalog : Catalog} {sources : List Source}
    {docs : List Document} (honce : DefinedOnce catalog sources)
    (h : List.Forall₂ (LoadsAs catalog) sources docs) :
    ((docs.flatMap Document.registrations).map Prod.fst).Nodup := by
  induction h with
  | nil => simp
  | @cons source doc sources docs hdoc hdocs ih =>
    obtain ⟨hfirst, hrest⟩ := List.pairwise_cons.mp honce
    rw [List.flatMap_cons, List.map_append, Document.map_fst_registrations]
    refine List.nodup_append.mpr ⟨Document.nodup_types_of_ofJson hdoc.1, ih hrest, ?_⟩
    rintro type htype _ hlater rfl
    rw [List.map_flatMap, List.mem_flatMap] at hlater
    obtain ⟨doc', hdoc', htype'⟩ := hlater
    obtain ⟨source', hsource', hloads'⟩ := exists_source hdocs hdoc'
    refine hfirst source' hsource' type ?_ ?_
    · rwa [hdoc.types_eq]
    · rwa [hloads'.types_eq, ← Document.map_fst_registrations]

namespace Vocabulary

lemma get?_ofDocuments_eq_some_iff {docs : List Document}
    (h : ((docs.flatMap Document.registrations).map Prod.fst).Nodup) (type : String)
    (r : Registration) :
    (ofDocuments docs).get? type = some r ↔ (type, r) ∈ docs.flatMap Document.registrations := by
  rw [get?, Table.get?_eq_some_iff]
  exact iff_of_eq (congrArg _ (Table.entries_ofList h))

theorem get?_ofDocuments_of_perm {docs docs' : List Document} (hperm : docs'.Perm docs)
    (h : ((docs.flatMap Document.registrations).map Prod.fst).Nodup) (type : String) :
    (ofDocuments docs').get? type = (ofDocuments docs).get? type := by
  have hregistrations := hperm.flatMap_right Document.registrations
  have h' := (hregistrations.map Prod.fst).nodup_iff.mpr h
  ext r
  rw [get?_ofDocuments_eq_some_iff h, get?_ofDocuments_eq_some_iff h', hregistrations.mem_iff]

end Vocabulary

namespace Session

/-- If sources load and no two of them define one block type, they load in any other order
too, with the same registration for every type and the same index of constructors, and so
every workspace compiles the same and every dropdown offers the same. -/
theorem load_order_irrelevant (s : Session) {sources sources' : List Source}
    (hperm : sources'.Perm sources) (hload : (s.load sources).2 = none)
    (honce : DefinedOnce s.catalog sources) :
    let loaded := (s.load sources).1
    let reordered := (s.load sources').1
    (s.load sources').2 = none ∧
      (∀ type, reordered.vocabulary.get? type = loaded.vocabulary.get? type) ∧
      reordered.instances = loaded.instances ∧
      (∀ w, reordered.compile w = loaded.compile w) ∧
      ∀ w id field restoring,
        reordered.choices w id field restoring = loaded.choices w id field restoring := by
  intro loaded reordered
  obtain ⟨docs, hdocs⟩ := loadsAs_of_load hload
  obtain ⟨docs', hdocs', hpermuted⟩ := List.perm_comp_forall₂ hperm hdocs
  have hdefined := Vocabulary.get?_ofDocuments_of_perm hpermuted (honce.nodup_registrations hdocs)
  have hget (type : String) : reordered.vocabulary.get? type = loaded.vocabulary.get? type := by
    simpa only [loaded, reordered, s.load_of_loadsAs hdocs, s.load_of_loadsAs hdocs']
      using hdefined type
  have hsame : (Vocabulary.ofDocuments docs).SameButTexts (.ofDocuments docs') :=
    .of_get? fun type => (hdefined type).symm
  obtain ⟨hinstances, hcompile⟩ := load_congr rfl rfl hdocs hdocs' hsame
  refine ⟨by rw [s.load_of_loadsAs hdocs'], hget, hinstances, fun w => (hcompile w).1,
    fun w id field restoring => ?_⟩
  simp only [choices, Vocabulary.definition?, hget]
  rw [hinstances]

/-- A second library of the category "key" with another type that constructs stores. -/
def lockLibrary : Source where
  name := "lock.json"
  content := .mkObject [
    ("category", .string "key"), ("imports", .array [.string "use lock;"]),
    ("contents", .array [.mkObject [
      ("type", .string "lock"), ("code", .string "lock($[NAME]);"),
      ("args", .array [.mkObject [("name", .string "NAME"), ("type", .string "field_input")]]),
      ("constructs", .string "store")]])]

theorem reordered_libraries_compile :
    let s := new {} {}
    let loaded := (s.load [keyLibrary, stepLibrary, lockLibrary]).1
    let reordered := (s.load [lockLibrary, keyLibrary, stepLibrary]).1
    loaded.vocabulary.types.keys = ["open", "step", "lock"] ∧
      reordered.vocabulary.types.keys = ["lock", "open", "step"] ∧
      reordered.instances = loaded.instances ∧
      ∀ w, reordered.compile w = loaded.compile w := by
  intro s loaded reordered
  have hperm : ([lockLibrary] ++ [keyLibrary, stepLibrary]).Perm
      ([keyLibrary, stepLibrary] ++ [lockLibrary]) := List.perm_append_comm
  obtain ⟨-, -, hinstances, hcompile, -⟩ :=
    s.load_order_irrelevant hperm (Option.isNone_iff_eq_none.mp (by decide +kernel))
      (by decide +kernel)
  exact ⟨by decide +kernel, by decide +kernel, hinstances, hcompile⟩

end Session

end BlockProgram
