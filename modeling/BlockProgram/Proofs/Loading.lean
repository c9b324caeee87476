import BlockProgram.Proofs.Merging
import BlockProgram.Proofs.Refreshing

/-!
# What a load registers

A load goes through its sources in order and stops at the first that fails. The
sources before it have been registered in full by then, in place of all that the
session knew before, and those after it are not looked at. So what a session knows
after a failed load is what it would know if it had never done anything but load the
sources before the failing one.
-/
namespace BlockProgram

namespace Document

/-- What the blocks of a document are registered as, by type. -/
def registrations (doc : Document) : List (String × Registration) :=
  doc.blocks.map fun d => (d.type, .declared doc.category doc.imports d)

@[simp] lemma map_fst_registrations (doc : Document) :
    doc.registrations.map Prod.fst = doc.blocks.map Definition.type := by
  simp [registrations]

/-- None of the blocks is rejected by a vocabulary. -/
def Admissible (doc : Document) : Prop := ∀ d ∈ doc.blocks, d.rejection? = none

end Document

/-! ### Vocabularies -/

namespace Vocabulary

/-- The vocabulary with more registrations, of which the later ones replace the earlier. -/
def enter (v : Vocabulary) (entries : List (String × Registration)) : Vocabulary :=
  ⟨entries.foldl (fun types e => types.insert e.1 e.2) v.types⟩

@[simp] lemma enter_nil (v : Vocabulary) : v.enter [] = v := rfl

lemma enter_append (v : Vocabulary) (entries more : List (String × Registration)) :
    v.enter (entries ++ more) = (v.enter entries).enter more := by
  simp [enter]

/-- Of the registrations of one type the last counts. -/
theorem get?_enter (v : Vocabulary) (entries : List (String × Registration)) (type : String) :
    (v.enter entries).get? type = (entries.reverse.lookup type).or (v.get? type) := by
  induction entries generalizing v with
  | nil => simp
  | cons e rest ih =>
    have hfirst : (v.enter [e]).get? type = ([e].lookup type).or (v.get? type) := by
      show (v.types.insert e.1 e.2).get? type = _
      rw [Table.get?_insert, List.lookup_cons]
      by_cases htype : type = e.1
      · simp [htype]
      · have hne : (type == e.1) = false := by simpa using htype
        simp [htype, hne, get?]
    rw [← List.singleton_append, enter_append, ih, hfirst, List.reverse_append,
      List.reverse_singleton, List.lookup_append, Option.or_assoc]

lemma registerAll_of_admitted (library : String) (imports : List String) (v : Vocabulary)
    {ds : List Definition} (h : ∀ d ∈ ds, d.rejection? = none) :
    registerAll library imports v ds =
      (v.enter (ds.map fun d => (d.type, .declared library imports d)), none) := by
  induction ds generalizing v with
  | nil => rfl
  | cons d rest ih =>
    rw [List.forall_mem_cons] at h
    rw [registerAll, register, h.1]
    exact ih _ h.2

lemma admitted_of_registerAll {library : String} {imports : List String} {v : Vocabulary}
    {ds : List Definition} (h : (registerAll library imports v ds).2 = none) :
    ∀ d ∈ ds, d.rejection? = none := by
  induction ds generalizing v with
  | nil => simp
  | cons d rest ih =>
    rw [registerAll, register] at h
    cases hd : d.rejection? with
    | some rejection => simp [hd] at h
    | none =>
      rw [hd] at h
      exact List.forall_mem_cons.mpr ⟨hd, ih h⟩

/-- Whether a document can be registered does not depend on what is known already. -/
lemma registerDocument_eq_none_iff (v : Vocabulary) (doc : Document) :
    (v.registerDocument doc).2 = none ↔ doc.Admissible := by
  refine ⟨admitted_of_registerAll, fun h => ?_⟩
  rw [registerDocument, registerAll_of_admitted _ _ v h]

lemma registerDocument_of_admissible (v : Vocabulary) {doc : Document} (h : doc.Admissible) :
    v.registerDocument doc = (v.enter doc.registrations, none) :=
  registerAll_of_admitted _ _ v h

/-- What is known of documents that are loaded one after the other. -/
def ofDocuments (docs : List Document) : Vocabulary :=
  ({} : Vocabulary).enter (docs.flatMap Document.registrations)

lemma get?_ofDocuments (docs : List Document) (type : String) :
    (ofDocuments docs).get? type =
      (docs.flatMap Document.registrations).reverse.lookup type := by
  have hnone : ({} : Vocabulary).get? type = none := rfl
  rw [ofDocuments, get?_enter, hnone, Option.or_none]

lemma mem_registrations_of_get? {docs : List Document} {type : String} {r : Registration}
    (h : (ofDocuments docs).get? type = some r) : ∃ doc ∈ docs, (type, r) ∈ doc.registrations := by
  rw [get?_ofDocuments] at h
  simpa using Table.mem_of_lookup_eq_some h

end Vocabulary

/-! ### Sources -/

open Palette

/-- The source holds a document that can be registered. -/
def LoadsAs (catalog : Catalog) (source : Source) (doc : Document) : Prop :=
  Reads catalog source doc ∧ doc.Admissible

/-- The source can be localized, read and registered. -/
def Source.Loads (catalog : Catalog) (source : Source) : Prop :=
  ∃ doc, Reads catalog source doc ∧ (({} : Vocabulary).registerDocument doc).2 = none

lemma exists_loadsAs {catalog : Catalog} {sources : List Source}
    (h : ∀ source ∈ sources, source.Loads catalog) :
    ∃ docs, List.Forall₂ (LoadsAs catalog) sources docs := by
  induction sources with
  | nil => exact ⟨[], .nil⟩
  | cons source rest ih =>
    rw [List.forall_mem_cons] at h
    obtain ⟨doc, hread, hregister⟩ := h.1
    obtain ⟨docs, hdocs⟩ := ih h.2
    exact ⟨doc :: docs, .cons ⟨hread, (Vocabulary.registerDocument_eq_none_iff {} doc).mp hregister⟩
      hdocs⟩

lemma exists_source {catalog : Catalog} {sources : List Source} {docs : List Document}
    (h : List.Forall₂ (LoadsAs catalog) sources docs) {doc : Document} (hdoc : doc ∈ docs) :
    ∃ source ∈ sources, LoadsAs catalog source doc := by
  induction h with
  | nil => cases hdoc
  | @cons source first sources docs hfirst _ ih =>
    rcases List.mem_cons.mp hdoc with rfl | hdoc
    · exact ⟨source, by simp, hfirst⟩
    · obtain ⟨source', hmem, hloads⟩ := ih hdoc
      exact ⟨source', List.mem_cons_of_mem _ hmem, hloads⟩

namespace Loaded

variable {catalog : Catalog} {v : Vocabulary} {sections : Table Section} {index : Nat}

lemma addSource_of_loadsAs {source : Source} {doc : Document} (h : LoadsAs catalog source doc) :
    addSource catalog v sections index source =
      ⟨v.enter doc.registrations, .ok (addDocument sections doc index)⟩ := by
  have hread : Document.ofJson source.name (catalog.localize source.content) = .ok doc := h.1
  simp only [addSource, hread, v.registerDocument_of_admissible h.2]

/-- Sources that load are gone through before any other. -/
theorem addSources_append (v : Vocabulary) (sections : Table Section) (index : Nat)
    {sources : List Source} {docs : List Document}
    (h : List.Forall₂ (LoadsAs catalog) sources docs) (rest : List Source) :
    addSources catalog v sections index (sources ++ rest) =
      addSources catalog (v.enter (docs.flatMap Document.registrations))
        (addDocuments sections index docs) (index + docs.length) rest := by
  induction h generalizing v sections index with
  | nil => rfl
  | @cons source doc sources docs hdoc _ ih =>
    rw [List.cons_append, addSources, addSource_of_loadsAs hdoc]
    dsimp only
    rw [ih, List.flatMap_cons, Vocabulary.enter_append, addDocuments, List.length_cons,
      Nat.add_right_comm, Nat.add_assoc]

lemma loadsAs_of_addSources {sources : List Source} {result : Table Section}
    (h : (addSources catalog v sections index sources).sections = .ok result) :
    ∃ docs, List.Forall₂ (LoadsAs catalog) sources docs := by
  obtain ⟨docs, hdocs, -⟩ := addSources_ok h
  refine ⟨docs, hdocs.imp fun source doc hdoc => ?_⟩
  obtain ⟨hread, v, hregister⟩ := hdoc
  exact ⟨hread, (v.registerDocument_eq_none_iff doc).mp hregister⟩

end Loaded

lemma Palette.assemble_of_loadsAs {catalog : Catalog} {sources : List Source}
    {docs : List Document} (h : List.Forall₂ (LoadsAs catalog) sources docs) :
    assemble catalog {} sources =
      (.ofDocuments docs, .ok (ofSections (addDocuments {} 0 docs))) := by
  have hload := Loaded.addSources_append {} {} 0 h []
  rw [List.append_nil] at hload
  rw [assemble, hload]
  rfl

lemma Palette.loadsAs_of_assemble {catalog : Catalog} {v : Vocabulary} {sources : List Source}
    {p : Palette} (h : (assemble catalog v sources).2 = .ok p) :
    ∃ docs, List.Forall₂ (LoadsAs catalog) sources docs := by
  obtain ⟨sections, hsections, -⟩ := map_eq_ok.mp h
  exact Loaded.loadsAs_of_addSources hsections

namespace Session

theorem load_of_loadsAs (s : Session) {sources : List Source} {docs : List Document}
    (h : List.Forall₂ (LoadsAs s.catalog) sources docs) :
    s.load sources =
      ({ s with
          vocabulary := .ofDocuments docs
          instances := s.instances.rebuild (.ofDocuments docs)
          palette := ofSections (addDocuments {} 0 docs) }, none) := by
  simp only [load, assemble_of_loadsAs h]

lemma loadsAs_of_load {s : Session} {sources : List Source} (h : (s.load sources).2 = none) :
    ∃ docs, List.Forall₂ (LoadsAs s.catalog) sources docs := by
  unfold load at h
  dsimp only at h
  split at h
  · next p hp => exact loadsAs_of_assemble hp
  · cases h

/-- A document that is refused ends the load; the sources before it stay registered. -/
theorem load_of_refused (s : Session) {before after : List Source} {docs : List Document}
    {source : Source} {refusal : Refusal} (h : List.Forall₂ (LoadsAs s.catalog) before docs)
    (hrefused : Document.ofJson source.name (s.catalog.localize source.content) = .error refusal) :
    s.load (before ++ source :: after) =
      ({ s with
          vocabulary := .ofDocuments docs
          instances := s.instances.rebuild (.ofDocuments docs)
          palette := {} }, some (.refused source.name refusal)) := by
  have hstop : assemble s.catalog {} (before ++ source :: after) =
      (.ofDocuments docs, .error (.refused source.name refusal)) := by
    rw [assemble, Loaded.addSources_append {} {} 0 h, Loaded.addSources, Loaded.addSource, hrefused]
    rfl
  simp only [load, hstop]

/-- The session has come about by loads, events and changes of the vocabulary. -/
def Reached (s : Session) : Prop :=
  ∃ settings catalog actions, (new settings catalog).run actions = s

lemma Reached.clear_instances {s : Session} (h : s.Reached) :
    s.instances.clear = .ofSettings s.settings := by
  obtain ⟨settings, catalog, actions, rfl⟩ := h
  exact ((Indexed.new settings catalog).run actions).texts

/-- Let all sources before one load, and let that one be refused. Whatever the session has
been through, the load reports the refusal, leaves the vocabulary and the index of a new
session that has loaded just the sources before, so that every registration is of one of
these, and leaves no palette. -/
theorem failed_load_keeps_prefix {s : Session} (hs : s.Reached) {before : List Source}
    {source : Source} {refusal : Refusal}
    (hbefore : ∀ earlier ∈ before, earlier.Loads s.catalog)
    (hrefused : Document.ofJson source.name (s.catalog.localize source.content) = .error refusal)
    (after : List Source) :
    let failed := s.load (before ++ source :: after)
    let fresh := (new s.settings s.catalog).load before
    failed.2 = some (.refused source.name refusal) ∧
      fresh.2 = none ∧
      failed.1.vocabulary = fresh.1.vocabulary ∧
      failed.1.instances = fresh.1.instances ∧
      (∀ type r, failed.1.vocabulary.get? type = some r → ∃ earlier ∈ before, ∃ doc,
        Reads s.catalog earlier doc ∧ (type, r) ∈ doc.registrations) ∧
      failed.1.palette.categories = [] := by
  obtain ⟨docs, hdocs⟩ := exists_loadsAs hbefore
  have hfresh : (new s.settings s.catalog).load before = _ :=
    load_of_loadsAs (new s.settings s.catalog) hdocs
  rw [s.load_of_refused hdocs hrefused, hfresh]
  refine ⟨rfl, rfl, rfl, ?_, fun type r hr => ?_, rfl⟩
  · show s.instances.clear.rebuild _ = _
    rw [hs.clear_instances]
    rfl
  · obtain ⟨doc, hdoc, hmem⟩ := Vocabulary.mem_registrations_of_get? hr
    obtain ⟨earlier, hearlier, hloads⟩ := exists_source hdocs hdoc
    exact ⟨earlier, hearlier, doc, hloads.1, hmem⟩

/-- A library whose message has a placeholder for which there is no argument. -/
def brokenLibrary : Source where
  name := "broken.json"
  content := .mkObject [
    ("category", .string "broken"),
    ("contents", .array [.mkObject [("type", .string "go"), ("message", .string "go $[A]")]])]

/-- A library of one plain block. -/
def stepLibrary : Source where
  name := "step.json"
  content := .mkObject [
    ("category", .string "core"),
    ("contents", .array [.mkObject [("type", .string "step"), ("code", .string "step();")]])]

/-- A session that knew other blocks fails to load the second of three sources. -/
theorem keyActions_failed_load :
    let s := (new {} {}).run (.load [stepLibrary] :: keyActions)
    let failed := s.load [keyLibrary, brokenLibrary, stepLibrary]
    s.vocabulary.types.keys = ["open", "step"] ∧
      failed.2.bind Failure.complaint? = some ⟨"broken.json", "contents[0].message",
        "placeholder `$[A]` has no matching argument"⟩ ∧
      failed.1.vocabulary.types.keys = ["open"] ∧
      failed.1.instances = ((new s.settings {}).load [keyLibrary]).1.instances ∧
      failed.1.palette.categories = [] := by
  intro s failed
  have hloads : ∀ earlier ∈ [keyLibrary], earlier.Loads s.catalog := by
    intro earlier hearlier
    rw [List.mem_singleton.mp hearlier]
    obtain ⟨doc, hread, hregister⟩ : ∃ doc,
        Document.ofJson keyLibrary.name (({} : Catalog).localize keyLibrary.content) = .ok doc ∧
          (({} : Vocabulary).registerDocument doc).2.isNone = true :=
      exists_ok_of_map (by decide +kernel)
    exact ⟨doc, hread, Option.isNone_iff_eq_none.mp hregister⟩
  cases hbroken : Document.ofJson brokenLibrary.name (s.catalog.localize brokenLibrary.content) with
  | ok doc =>
    have hnone : (Document.ofJson brokenLibrary.name
        (({} : Catalog).localize brokenLibrary.content)).toOption.isSome = false := by
      decide +kernel
    change Document.ofJson _ (({} : Catalog).localize _) = _ at hbroken
    rw [hbroken] at hnone
    cases hnone
  | error refusal =>
    have hreached : s.Reached := ⟨_, _, _, rfl⟩
    obtain ⟨-, -, hvocabulary, hinstances, -, hpalette⟩ :=
      failed_load_keeps_prefix hreached hloads hbroken [stepLibrary]
    refine ⟨by decide +kernel, by decide +kernel, ?_, hinstances, hpalette⟩
    have hkeys : ((new s.settings {}).load [keyLibrary]).1.vocabulary.types.keys = ["open"] := by
      decide +kernel
    exact (congrArg (·.types.keys) hvocabulary).trans hkeys

end Session

end BlockProgram
