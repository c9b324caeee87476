import BlockProgram.Proofs.Loading
import BlockProgram.Proofs.Nesting

/-!
# Blocks that are shown

A category shows a block as soon as one of its documents does, while the vocabulary has
the definition of the last document that defines the type. So every block that is shown is
registered, but with a hidden definition if a later document hides what an earlier one has
shown. That is the only way in which the two come apart.
-/
namespace BlockProgram

namespace Document

def Defines (doc : Document) (type : String) : Prop := ∃ d ∈ doc.blocks, d.type = type

def Shows (doc : Document) (type : String) : Prop :=
  ∃ d ∈ doc.blocks, d.type = type ∧ d.hidden = false

def Hides (doc : Document) (type : String) : Prop :=
  ∃ d ∈ doc.blocks, d.type = type ∧ d.hidden = true

instance (doc : Document) (type : String) : Decidable (doc.Hides type) :=
  inferInstanceAs (Decidable (∃ d ∈ doc.blocks, _))

variable {doc : Document} {type : String}

lemma Shows.defines (h : doc.Shows type) : doc.Defines type := by
  obtain ⟨d, hd, htype, -⟩ := h
  exact ⟨d, hd, htype⟩

lemma Shows.not_hides (h : doc.Shows type) (hdoc : (doc.blocks.map Definition.type).Nodup) :
    ¬ doc.Hides type := by
  rintro ⟨d', hd', htype', hhidden'⟩
  obtain ⟨d, hd, htype, hhidden⟩ := h
  have heq : d = d' := List.inj_on_of_nodup_map hdoc hd hd' (htype.trans htype'.symm)
  rw [heq, hhidden'] at hhidden
  cases hhidden

end Document

/-! ### The definition that counts -/

namespace Vocabulary

variable {docs : List Document} {type : String} {d : Definition}

/-- Later documents count before the first. -/
lemma get?_ofDocuments_cons (doc : Document) (docs : List Document) (type : String) :
    (ofDocuments (doc :: docs)).get? type =
      ((ofDocuments docs).get? type).or (doc.registrations.reverse.lookup type) := by
  rw [get?_ofDocuments, get?_ofDocuments, List.flatMap_cons, List.reverse_append,
    List.lookup_append]

lemma lookup_registrations_eq_none_iff {doc : Document} :
    doc.registrations.reverse.lookup type = none ↔ ¬ doc.Defines type := by
  rw [List.lookup_eq_none_iff, Document.registrations]
  constructor
  · rintro h ⟨d, hd, rfl⟩
    simpa using h _ (List.mem_reverse.mpr (List.mem_map_of_mem hd))
  · intro h e he
    obtain ⟨d, hd, rfl⟩ := List.mem_map.mp (List.mem_reverse.mp he)
    rw [bne_iff_ne]
    exact fun htype => h ⟨d, hd, htype.symm⟩

lemma get?_ofDocuments_eq_none_iff :
    (ofDocuments docs).get? type = none ↔ ∀ doc ∈ docs, ¬ doc.Defines type := by
  induction docs with
  | nil => exact iff_of_true rfl (by simp)
  | cons doc rest ih =>
    rw [get?_ofDocuments_cons, Option.or_eq_none_iff, ih, lookup_registrations_eq_none_iff,
      List.forall_mem_cons, and_comm]

lemma lookup_registrations_eq_some_iff {doc : Document}
    (hdoc : (doc.blocks.map Definition.type).Nodup) {r : Registration} :
    doc.registrations.reverse.lookup type = some r ↔
      ∃ d ∈ doc.blocks, d.type = type ∧ r = .declared doc.category doc.imports d := by
  have hnodup : (doc.registrations.reverse.map Prod.fst).Nodup := by
    rwa [List.map_reverse, List.nodup_reverse, Document.map_fst_registrations]
  have hmem : (type, r) ∈ doc.registrations.reverse ↔
      ∃ d ∈ doc.blocks, d.type = type ∧ r = .declared doc.category doc.imports d := by
    simp [Document.registrations, eq_comm]
  rw [← hmem]
  exact ⟨Table.mem_of_lookup_eq_some, Table.lookup_eq_some_of_mem hnodup⟩

/-- The document is the last one that defines the type. -/
def LastDefining (docs : List Document) (type : String) (doc : Document) : Prop :=
  ∃ before after, docs = before ++ doc :: after ∧ doc.Defines type ∧
    ∀ later ∈ after, ¬ later.Defines type

lemma LastDefining.defines {doc : Document} (h : LastDefining docs type doc) :
    doc.Defines type := by
  obtain ⟨before, after, -, hdefines, -⟩ := h
  exact hdefines

lemma lastDefining_cons_iff {first doc : Document} :
    LastDefining (first :: docs) type doc ↔ LastDefining docs type doc ∨
      doc = first ∧ doc.Defines type ∧ ∀ later ∈ docs, ¬ later.Defines type := by
  constructor
  · rintro ⟨before, after, heq, hdoc, hafter⟩
    cases before with
    | nil =>
      cases heq
      exact .inr ⟨rfl, hdoc, hafter⟩
    | cons first before =>
      cases heq
      exact .inl ⟨before, after, rfl, hdoc, hafter⟩
  · rintro (⟨before, after, rfl, hdoc, hafter⟩ | ⟨rfl, hdoc, hafter⟩)
    · exact ⟨first :: before, after, rfl, hdoc, hafter⟩
    · exact ⟨[], docs, rfl, hdoc, hafter⟩

/-- A type is registered as the last document that defines it has it. -/
theorem get?_ofDocuments_iff_lastDefining {r : Registration}
    (hdocs : ∀ doc ∈ docs, (doc.blocks.map Definition.type).Nodup) :
    (ofDocuments docs).get? type = some r ↔ ∃ doc, LastDefining docs type doc ∧
      ∃ d ∈ doc.blocks, d.type = type ∧ r = .declared doc.category doc.imports d := by
  induction docs with
  | nil => simp [LastDefining, ofDocuments, get?, Table.get?]
  | cons first rest ih =>
    rw [List.forall_mem_cons] at hdocs
    simp only [get?_ofDocuments_cons, Option.or_eq_some_iff, ih hdocs.2,
      get?_ofDocuments_eq_none_iff, lookup_registrations_eq_some_iff hdocs.1,
      lastDefining_cons_iff, or_and_right, exists_or]
    refine or_congr Iff.rfl ⟨?_, ?_⟩
    · rintro ⟨hnone, d, hd, htype, rfl⟩
      exact ⟨first, ⟨rfl, ⟨d, hd, htype⟩, hnone⟩, d, hd, htype, rfl⟩
    · rintro ⟨doc, ⟨rfl, -, hnone⟩, hdefinition⟩
      exact ⟨hnone, hdefinition⟩

lemma exists_lastDefining (h : ∃ doc ∈ docs, doc.Defines type) :
    ∃ doc, LastDefining docs type doc := by
  induction docs with
  | nil =>
    obtain ⟨doc, hdoc, -⟩ := h
    cases hdoc
  | cons first rest ih =>
    by_cases hrest : ∃ later ∈ rest, later.Defines type
    · obtain ⟨doc, hdoc⟩ := ih hrest
      exact ⟨doc, lastDefining_cons_iff.mpr (.inl hdoc)⟩
    · have hnone : ∀ later ∈ rest, ¬ later.Defines type := by simpa using hrest
      have hfirst : first.Defines type := by simpa [hrest] using h
      exact ⟨first, lastDefining_cons_iff.mpr (.inr ⟨rfl, hfirst, hnone⟩)⟩

/-- The definition of a type is that of the last document that defines it. -/
theorem definition?_ofDocuments_eq_some_iff
    (hdocs : ∀ doc ∈ docs, (doc.blocks.map Definition.type).Nodup) :
    (ofDocuments docs).definition? type = some d ↔
      ∃ doc, LastDefining docs type doc ∧ d ∈ doc.blocks ∧ d.type = type := by
  rw [definition?, Option.bind_eq_some_iff]
  simp only [get?_ofDocuments_iff_lastDefining hdocs]
  constructor
  · rintro ⟨r, ⟨doc, hlast, d', hd', htype, rfl⟩, hd⟩
    cases hd
    exact ⟨doc, hlast, hd', htype⟩
  · rintro ⟨doc, hlast, hd, htype⟩
    exact ⟨_, ⟨doc, hlast, d, hd, htype, rfl⟩, rfl⟩

end Vocabulary

/-! ### What categories list -/

namespace Palette

lemma mem_entries_ofDocument_iff (doc : Document) (index : Nat) (type : String) :
    Entry.block type ∈ (Section.ofDocument doc index).entries ↔ doc.Shows type := by
  simp only [Section.ofDocument, List.mem_filterMap, Document.Shows, Document.blocks]
  constructor
  · rintro ⟨item, hitem, hentry⟩
    cases item with
    | block d =>
      cases hhidden : d.hidden <;> simp [Entry.ofItem?, hhidden] at hentry
      exact ⟨d, ⟨.block d, hitem, rfl⟩, hentry, hhidden⟩
    | label text => cases hentry
    | separator gap => cases hentry
  · rintro ⟨d, ⟨item, hitem, hblock⟩, rfl, hhidden⟩
    cases item with
    | block d' =>
      cases hblock
      exact ⟨.block d, hitem, by simp [Entry.ofItem?, hhidden]⟩
    | label text => cases hblock
    | separator gap => cases hblock

lemma Section.mem_of_mem_push {entries : List Entry} {e e' : Entry}
    (h : e ∈ Section.push entries e') : e ∈ entries ∨ e = e' := by
  unfold Section.push at h
  split at h
  · simpa using h
  · split at h
    · exact .inl h
    · simpa using h

lemma Section.mem_of_mem_foldl_push {entries later : List Entry} {e : Entry}
    (h : e ∈ later.foldl Section.push entries) : e ∈ entries ∨ e ∈ later := by
  induction later generalizing entries with
  | nil => exact .inl h
  | cons first rest ih =>
    rcases ih h with h | h
    · rcases mem_of_mem_push h with h | rfl
      · exact .inl h
      · exact .inr List.mem_cons_self
    · exact .inr (List.mem_cons_of_mem _ h)

lemma Section.mem_of_mem_merge {s : Section} {later : List Entry} {e : Entry}
    (h : e ∈ (s.merge later).entries) : e ∈ s.entries ∨ e ∈ later := by
  unfold Section.merge at h
  split at h
  · exact .inl h
  · exact mem_of_mem_foldl_push h

/-- The category shows the block. -/
def Lists (sections : Table Section) (id type : String) : Prop :=
  ∃ s, sections.get? id = some s ∧ Entry.block type ∈ s.entries

lemma Lists.of_addDocument {sections : Table Section} {doc : Document} {index : Nat}
    {id type : String} (h : Lists (addDocument sections doc index) id type) :
    Lists sections id type ∨ doc.category = id ∧ doc.Shows type := by
  obtain ⟨s, hs, htype⟩ := h
  rw [addDocument] at hs
  split at hs
  · rw [Table.get?_modify] at hs
    split at hs
    · next hid =>
      obtain ⟨old, hold, rfl⟩ := Option.map_eq_some_iff.mp hs
      rcases Section.mem_of_mem_merge htype with htype | htype
      · exact .inl ⟨old, hold, htype⟩
      · exact .inr ⟨hid.symm, (mem_entries_ofDocument_iff doc index type).mp htype⟩
    · exact .inl ⟨s, hs, htype⟩
  · rw [Table.get?_insert] at hs
    split at hs
    · next hid =>
      cases hs
      exact .inr ⟨hid.symm, (mem_entries_ofDocument_iff doc index type).mp htype⟩
    · exact .inl ⟨s, hs, htype⟩

lemma Lists.of_addDocuments {sections : Table Section} {index : Nat} {docs : List Document}
    {id type : String} (h : Lists (addDocuments sections index docs) id type) :
    Lists sections id type ∨ ∃ doc ∈ docs, doc.category = id ∧ doc.Shows type := by
  induction docs generalizing sections index with
  | nil => exact .inl h
  | cons doc rest ih =>
    rcases ih h with h | ⟨doc', hdoc', hshows⟩
    · rcases h.of_addDocument with h | hshows
      · exact .inl h
      · exact .inr ⟨doc, List.mem_cons_self, hshows⟩
    · exact .inr ⟨doc', List.mem_cons_of_mem _ hdoc', hshows⟩

/-- Stand-ins show nothing. -/
lemma Lists.of_addParents {sections : Table Section} {id type : String}
    (h : Lists (addParents sections) id type) : Lists sections id type := by
  obtain ⟨s, hs, htype⟩ := h
  rw [get?_addParents, Option.or_eq_some_iff] at hs
  rcases hs with hs | ⟨-, hs⟩
  · exact ⟨s, hs, htype⟩
  · obtain ⟨child, -, rfl⟩ := Option.map_eq_some_iff.mp hs
    cases htype

/-- A palette shows what the categories list from which it is made. -/
lemma shown_iff_lists {docs : List Document} {id type : String} :
    (∃ c ∈ (ofSections (addDocuments {} 0 docs)).all,
      c.head.id = id ∧ Entry.block type ∈ c.head.entries) ↔ Lists (sectionsOf docs) id type := by
  have hall := closed_sectionsOf docs
  constructor
  · rintro ⟨c, hc, rfl, htype⟩
    obtain ⟨s, hs, rfl⟩ := (mem_all_iff hall rfl).mp hc
    rw [head_subtree] at htype ⊢
    exact ⟨s, hall.get?_of_mem_values hs, htype⟩
  · rintro ⟨s, hs, htype⟩
    have hmem := ((sectionsOf docs).mem_values_iff s).mpr ⟨id, hs⟩
    refine ⟨subtree (sectionsOf docs) s, (mem_all_iff hall rfl).mpr ⟨s, hmem, rfl⟩, ?_⟩
    rw [head_subtree]
    exact ⟨hall.keyed hs, htype⟩

/-- What is shown in a category, a document of the category shows. -/
lemma exists_shows {docs : List Document} {id type : String}
    (h : Lists (sectionsOf docs) id type) : ∃ doc ∈ docs, doc.category = id ∧ doc.Shows type := by
  rcases h.of_addParents.of_addDocuments with ⟨_, hnone, -⟩ | hshows
  · cases hnone
  · exact hshows

/-- A document of the category shows the block, and a later one, the last that defines
the type, hides it. -/
def HiddenLater (docs : List Document) (category type : String) : Prop :=
  ∃ before later after, docs = before ++ later :: after ∧
    (∃ doc ∈ before, doc.category = category ∧ doc.Shows type) ∧
    later.Hides type ∧ ∀ doc ∈ after, ¬ doc.Defines type

lemma hidden_iff {docs : List Document}
    (hdocs : ∀ doc ∈ docs, (doc.blocks.map Definition.type).Nodup) {category type : String}
    {d : Definition} (hd : (Vocabulary.ofDocuments docs).definition? type = some d)
    (hshows : ∃ doc ∈ docs, doc.category = category ∧ doc.Shows type) :
    d.hidden = true ↔ HiddenLater docs category type := by
  constructor
  · intro hhidden
    obtain ⟨later, ⟨before, after, rfl, -, hafter⟩, hmem, htype⟩ :=
      (Vocabulary.definition?_ofDocuments_eq_some_iff hdocs).mp hd
    have hhides : later.Hides type := ⟨d, hmem, htype, hhidden⟩
    obtain ⟨doc, hdoc, hcategory, hshows⟩ := hshows
    refine ⟨before, later, after, rfl, ⟨doc, ?_, hcategory, hshows⟩, hhides, hafter⟩
    -- the document that shows the block can be neither the last one nor after it
    rcases List.mem_append.mp hdoc with hbefore | hrest
    · exact hbefore
    · rcases List.mem_cons.mp hrest with rfl | hlater
      · exact absurd hhides (hshows.not_hides (hdocs doc hdoc))
      · exact absurd hshows.defines (hafter doc hlater)
  · rintro ⟨before, later, after, rfl, -, ⟨d', hd', htype, hhidden⟩, hafter⟩
    have hlast : Vocabulary.LastDefining (before ++ later :: after) type later :=
      ⟨before, after, rfl, ⟨d', hd', htype⟩, hafter⟩
    rw [(Vocabulary.definition?_ofDocuments_eq_some_iff hdocs).mpr ⟨later, hlast, hd', htype⟩] at hd
    cases hd
    exact hhidden

/-- A block that an assembled palette shows is registered with a definition. That one is
hidden just if a document of the category shows the block and a later one hides it. -/
theorem shown_block_registered {catalog : Catalog} {sources : List Source} {p : Palette}
    (h : (assemble catalog {} sources).2 = .ok p) :
    ∃ docs, List.Forall₂ (Reads catalog) sources docs ∧
      ∀ c ∈ p.all, ∀ type, Entry.block type ∈ c.head.entries →
        ∃ d, (assemble catalog {} sources).1.definition? type = some d ∧
          (d.hidden = true ↔ HiddenLater docs c.head.id type) := by
  obtain ⟨docs, hdocs⟩ := loadsAs_of_assemble h
  have hnodup : ∀ doc ∈ docs, (doc.blocks.map Definition.type).Nodup := by
    intro doc hdoc
    obtain ⟨source, -, hread, -⟩ := exists_source hdocs hdoc
    exact Document.nodup_types_of_ofJson hread
  rw [assemble_of_loadsAs hdocs] at h ⊢
  cases h
  refine ⟨docs, hdocs.imp fun _ _ hloads => hloads.1, fun c hc type htype => ?_⟩
  obtain ⟨doc, hdoc, hcategory, hshows⟩ :=
    exists_shows (shown_iff_lists.mp ⟨c, hc, rfl, htype⟩)
  obtain ⟨last, hlast⟩ := Vocabulary.exists_lastDefining ⟨doc, hdoc, hshows.defines⟩
  obtain ⟨d, hmem, htype⟩ := hlast.defines
  have hd := (Vocabulary.definition?_ofDocuments_eq_some_iff hnodup).mpr ⟨last, hlast, hmem, htype⟩
  exact ⟨d, hd, hidden_iff hnodup hd ⟨doc, hdoc, hcategory, hshows⟩⟩

/-- A statement block without arguments. -/
def plainBlock (type : String) (more : List (String × Json)) : Json :=
  .object ([("type", .string type), ("previous", .bool true), ("next", .bool true),
    ("code", .string (type ++ "();"))] ++ more)

/-- A library of two blocks, and one that hides the first of them. -/
def quietedSources : List Source :=
  [⟨"motion.json", .mkObject [("category", .string "motion"),
      ("contents", .array [plainBlock "spin" [], plainBlock "stop" []])]⟩,
    ⟨"quiet.json", .mkObject [("category", .string "quiet"),
      ("contents", .array [plainBlock "spin" [("hidden", .bool true)]])]⟩]

lemma quietedSources_shown (type : String) (htype : type ∈ ["spin", "stop"]) :
    ∃ p, (assemble {} {} quietedSources).2 = .ok p ∧
      ∃ c ∈ p.all, c.head.id = "motion" ∧ Entry.block type ∈ c.head.entries := by
  have hload : (Loaded.addSources {} {} {} 0 quietedSources).sections.toOption.map Table.keys =
      some ["motion", "quiet"] := by decide +kernel
  obtain ⟨sections, hsections, -⟩ := exists_ok_of_map hload
  obtain ⟨docs, hdocs⟩ := Loaded.loadsAs_of_addSources hsections
  rw [assemble_of_loadsAs hdocs]
  refine ⟨_, rfl, shown_iff_lists.mpr ?_⟩
  obtain rfl := eq_documents_of_reads (hdocs.imp fun _ _ hloads => hloads.1)
  have hentries : ((sectionsOf (documents {} quietedSources)).get? "motion").map Section.entries =
      some [.block "spin", .block "stop"] := by decide +kernel
  obtain ⟨s, hs, hblocks⟩ := Option.map_eq_some_iff.mp hentries
  refine ⟨s, hs, ?_⟩
  rw [hblocks]
  simpa using htype

theorem quietedSources_registered :
    ∃ p, (assemble {} {} quietedSources).2 = .ok p ∧
      (∃ c ∈ p.all, c.head.id = "motion" ∧ Entry.block "stop" ∈ c.head.entries) ∧
      ∃ d, (assemble {} {} quietedSources).1.definition? "stop" = some d ∧ d.hidden = false := by
  obtain ⟨p, hp, c, hc, hid, hstop⟩ := quietedSources_shown "stop" (by decide)
  obtain ⟨docs, hdocs, hshown⟩ := shown_block_registered hp
  obtain ⟨d, hd, hhidden⟩ := hshown c hc "stop" hstop
  refine ⟨p, hp, ⟨c, hc, hid, hstop⟩, d, hd, ?_⟩
  rw [← Bool.not_eq_true, hhidden]
  rintro ⟨before, later, after, heq, -, hhides, -⟩
  have hnone : ∀ doc ∈ documents {} quietedSources, ¬ doc.Hides "stop" := by decide +kernel
  obtain rfl := eq_documents_of_reads hdocs
  exact hnone later (heq ▸ by simp) hhides

/-- The palette still shows the block that the second library hides. -/
theorem quietedSources_spin_shown :
    ∃ p, (assemble {} {} quietedSources).2 = .ok p ∧
      (∃ c ∈ p.all, Entry.block "spin" ∈ c.head.entries) ∧
      ∃ d, (assemble {} {} quietedSources).1.definition? "spin" = some d ∧ d.hidden = true := by
  obtain ⟨p, hp, c, hc, -, hspin⟩ := quietedSources_shown "spin" (by decide)
  have hdefinition : ((assemble {} {} quietedSources).1.definition? "spin").map
      Definition.hidden = some true := by decide +kernel
  exact ⟨p, hp, ⟨c, hc, hspin⟩, Option.map_eq_some_iff.mp hdefinition⟩

end Palette

end BlockProgram
