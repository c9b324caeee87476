import BlockProgram.Palette
import BlockProgram.Proofs.Editing
import BlockProgram.Proofs.Reading

/-!
# Categories of the documents

What is known of a category before nesting. The first document of a category decides
how it looks and which parent it has; later documents add entries. A parent that no
document defines is stood in for by a category without a parent.
-/
namespace BlockProgram

/-- An entry put where there is none leaves those that are there. -/
lemma Table.get?_insertNew {α : Type} (t : Table α) (key id : String) (value : α) :
    (if t.contains key then t else t.insert key value).get? id =
      (t.get? id).or (if key = id then some value else none) := by
  by_cases hid : key = id
  · subst hid
    cases hold : t.get? key with
    | none => simp [Table.contains, hold]
    | some old => simp [Table.contains, hold]
  · rw [if_neg hid, Option.or_none]
    split
    · rfl
    · rw [Table.get?_insert, if_neg (Ne.symm hid)]

namespace Palette

/-! ### Documents one after the other -/

/-- Adds documents in order, of which the first has the given position. -/
def addDocuments : Table Section → Nat → List Document → Table Section
  | sections, _, [] => sections
  | sections, index, doc :: rest => addDocuments (addDocument sections doc index) (index + 1) rest

/-- The document that a source holds. -/
def Reads (catalog : Catalog) (source : Source) (doc : Document) : Prop :=
  Document.ofJson source.name (catalog.localize source.content) = .ok doc

/-- What the sources hold that hold a document at all. -/
def documents (catalog : Catalog) (sources : List Source) : List Document :=
  sources.filterMap fun source =>
    (Document.ofJson source.name (catalog.localize source.content)).toOption

lemma eq_documents_of_reads {catalog : Catalog} {sources : List Source} {docs : List Document}
    (h : List.Forall₂ (Reads catalog) sources docs) : docs = documents catalog sources := by
  induction h with
  | nil => rfl
  | @cons source doc sources docs hdoc _ ih =>
    rw [Reads] at hdoc
    simp only [documents, List.filterMap_cons, hdoc, Except.toOption]
    rw [ih, documents]
    rfl

lemma addSource_ok {catalog : Catalog} {v : Vocabulary} {sections result : Table Section}
    {index : Nat} {source : Source}
    (h : (Loaded.addSource catalog v sections index source).sections = .ok result) :
    ∃ doc, Reads catalog source doc ∧ (v.registerDocument doc).2 = none ∧
      result = addDocument sections doc index := by
  unfold Loaded.addSource at h
  split at h
  · cases h
  · next doc hdoc =>
    split at h
    · cases h
    · next v' hregister =>
      cases h
      exact ⟨doc, hdoc, by rw [hregister], rfl⟩

/-- A load that succeeds has read and registered every source, and adds up their documents. -/
lemma addSources_ok {catalog : Catalog} {v : Vocabulary} {sections result : Table Section}
    {index : Nat} {sources : List Source}
    (h : (Loaded.addSources catalog v sections index sources).sections = .ok result) :
    ∃ docs, List.Forall₂ (fun source doc => Reads catalog source doc ∧
        ∃ v : Vocabulary, (v.registerDocument doc).2 = none) sources docs ∧
      result = addDocuments sections index docs := by
  induction sources generalizing v sections index with
  | nil =>
    cases h
    exact ⟨[], .nil, rfl⟩
  | cons source rest ih =>
    rw [Loaded.addSources] at h
    split at h
    · next sections' hone =>
      obtain ⟨doc, hdoc, hregister, rfl⟩ := addSource_ok hone
      obtain ⟨docs, hdocs, rfl⟩ := ih h
      exact ⟨doc :: docs, .cons ⟨hdoc, v, hregister⟩ hdocs, rfl⟩
    · cases h

section Views

variable {β : Type} {π : Section → β}

/-- The view does not tell apart categories with different entries. -/
def IgnoresEntries (π : Section → β) : Prop :=
  ∀ (s : Section) (entries : List Entry), π { s with entries } = π s

variable (hπ : IgnoresEntries π)
include hπ

lemma view_merge (s : Section) (later : List Entry) : π (s.merge later) = π s := by
  unfold Section.merge
  split
  · rfl
  · exact hπ s _

/-- A document is seen in its category if that is new. -/
lemma map_get?_addDocument (sections : Table Section) (doc : Document) (index : Nat)
    (id : String) : ((addDocument sections doc index).get? id).map π =
      ((sections.get? id).map π).or
        (if doc.category = id then some (π (Section.ofDocument doc index)) else none) := by
  let new := Section.ofDocument doc index
  have hmerge : ((addDocument sections doc index).get? id).map π =
      ((if sections.contains new.id then sections else sections.insert new.id new).get? id).map
        π := by
    rw [addDocument]
    split
    · rw [Table.get?_modify]
      split
      · rw [Option.map_map]
        exact congrArg (Option.map · _) (funext fun s => view_merge hπ s _)
      · rfl
    · rfl
  rw [hmerge, Table.get?_insertNew, Option.map_or, apply_ite (Option.map π)]
  rfl

/-- Of the documents of a category the first is seen. -/
theorem map_get?_addDocuments {f : Document → β}
    (hf : ∀ doc index, π (Section.ofDocument doc index) = f doc) (sections : Table Section)
    (index : Nat) (docs : List Document) (id : String) :
    ((addDocuments sections index docs).get? id).map π =
      ((sections.get? id).map π).or ((docs.find? (·.category == id)).map f) := by
  induction docs generalizing sections index with
  | nil => simp [addDocuments]
  | cons doc rest ih =>
    rw [addDocuments, ih, map_get?_addDocument hπ, hf, Option.or_assoc]
    congr 1
    by_cases hid : doc.category = id
    · simp [hid]
    · simp [hid]

end Views

/-! ### Parents -/

/-- Adds a stand-in for the parent of a category, if that is missing. -/
def addParent (all : Table Section) (s : Section) : Table Section :=
  match s.parent with
  | some parent =>
    if all.contains parent then all else all.insert parent (.standIn parent s.loadIndex)
  | none => all

lemma get?_addParent (all : Table Section) (s : Section) (id : String) :
    (addParent all s).get? id = (all.get? id).or
      (if s.parent = some id then some (.standIn id s.loadIndex) else none) := by
  unfold addParent
  cases s.parent with
  | none => simp
  | some parent =>
    dsimp only
    rw [Table.get?_insertNew]
    by_cases hid : parent = id
    · simp [hid]
    · simp [hid]

lemma get?_foldl_addParent (all : Table Section) (children : List Section) (id : String) :
    (children.foldl addParent all).get? id = (all.get? id).or
      ((children.find? (·.parent == some id)).map fun s => .standIn id s.loadIndex) := by
  induction children generalizing all with
  | nil => simp
  | cons s rest ih =>
    rw [List.foldl_cons, ih, get?_addParent, Option.or_assoc]
    congr 1
    by_cases hid : s.parent = some id
    · simp [hid]
    · simp [hid]

/-- A category that is not known itself is stood in for if it is the parent of one. -/
theorem get?_addParents (sections : Table Section) (id : String) :
    (addParents sections).get? id = (sections.get? id).or
      ((sections.values.find? (·.parent == some id)).map fun s => .standIn id s.loadIndex) :=
  get?_foldl_addParent sections sections.values id

/-- Stand-ins have no parents. -/
lemma parent?_addParents (sections : Table Section) (id : String) :
    parent? (addParents sections) id = parent? sections id := by
  rw [parent?, get?_addParents, parent?]
  cases sections.get? id with
  | some s => rfl
  | none =>
    rw [Option.none_or]
    cases sections.values.find? (·.parent == some id) with
    | none => rfl
    | some s => rfl

lemma mem_keys_addParents_iff (sections : Table Section) (id : String) :
    id ∈ (addParents sections).keys ↔
      id ∈ sections.keys ∨ ∃ s ∈ sections.values, s.parent = some id := by
  simp only [Table.mem_keys_iff, get?_addParents, Option.isSome_or, Option.isSome_map,
    List.find?_isSome, Bool.or_eq_true, beq_iff_eq]

/-- Every category stands under its own name, and its parent is a category too. -/
structure Closed (all : Table Section) : Prop where
  keyed : ∀ {id s}, all.get? id = some s → s.id = id
  parents : ∀ {id parent}, parent? all id = some parent → parent ∈ all.keys

lemma closed_addParents {sections : Table Section}
    (hkeyed : ∀ {id s}, sections.get? id = some s → s.id = id) : Closed (addParents sections) where
  keyed {id s} hs := by
    rw [get?_addParents, Option.or_eq_some_iff] at hs
    rcases hs with hs | ⟨-, hs⟩
    · exact hkeyed hs
    · obtain ⟨child, -, rfl⟩ := Option.map_eq_some_iff.mp hs
      rfl
  parents {id parent} hparent := by
    rw [parent?_addParents, parent?, Option.bind_eq_some_iff] at hparent
    obtain ⟨s, hs, hparent⟩ := hparent
    exact (mem_keys_addParents_iff sections parent).mpr
      (.inr ⟨s, (sections.mem_values_iff s).mpr ⟨id, hs⟩, hparent⟩)

/-! ### What the documents declare -/

/-- The parent that the first document of a category gives it. -/
def declaredParent? (docs : List Document) (id : String) : Option String :=
  (docs.find? (·.category == id)).bind (·.parent)

/-- The identifier is the category of a document or the declared parent of one. -/
def Known (docs : List Document) (id : String) : Prop :=
  (∃ doc ∈ docs, doc.category = id) ∨ ∃ child, declaredParent? docs child = some id

/-- All categories of the documents and their parents, before nesting. -/
def sectionsOf (docs : List Document) : Table Section := addParents (addDocuments {} 0 docs)

lemma map_get?_addDocuments_empty (docs : List Document) (id : String) :
    ((addDocuments {} 0 docs).get? id).map (fun s => (s.id, s.parent)) =
      (docs.find? (·.category == id)).map fun doc => (doc.category, doc.parent) :=
  map_get?_addDocuments (fun _ _ => rfl) (fun _ _ => rfl) {} 0 docs id

lemma parent?_addDocuments_empty (docs : List Document) (id : String) :
    parent? (addDocuments {} 0 docs) id = declaredParent? docs id := by
  have hview := congrArg (·.bind Prod.snd) (map_get?_addDocuments_empty docs id)
  rw [Option.bind_map, Option.bind_map] at hview
  exact hview

lemma parent?_sectionsOf (docs : List Document) (id : String) :
    parent? (sectionsOf docs) id = declaredParent? docs id :=
  (parent?_addParents _ id).trans (parent?_addDocuments_empty docs id)

lemma closed_sectionsOf (docs : List Document) : Closed (sectionsOf docs) := by
  refine closed_addParents fun {id s} hs => ?_
  have hview := map_get?_addDocuments_empty docs id
  rw [hs, Option.map_some, eq_comm, Option.map_eq_some_iff] at hview
  obtain ⟨doc, hdoc, hid⟩ := hview
  have hcategory : doc.category = id := by simpa using List.find?_some hdoc
  rw [← (Prod.mk.inj hid).1, hcategory]

lemma mem_keys_sectionsOf_iff (docs : List Document) (id : String) :
    id ∈ (sectionsOf docs).keys ↔ Known docs id := by
  have hkeys : id ∈ (addDocuments {} 0 docs).keys ↔ ∃ doc ∈ docs, doc.category = id := by
    have hview := congrArg Option.isSome (map_get?_addDocuments_empty docs id)
    simp only [Option.isSome_map] at hview
    rw [Table.mem_keys_iff, hview, List.find?_isSome]
    simp only [beq_iff_eq]
  rw [sectionsOf, mem_keys_addParents_iff, hkeys, Known]
  refine or_congr_right ?_
  simp only [← parent?_addDocuments_empty, parent?, Option.bind_eq_some_iff,
    Table.mem_values_iff]
  constructor
  · rintro ⟨s, ⟨child, hs⟩, hparent⟩
    exact ⟨child, s, hs, hparent⟩
  · rintro ⟨child, s, hs, hparent⟩
    exact ⟨s, ⟨child, hs⟩, hparent⟩

instance (docs : List Document) (id : String) : Decidable (Known docs id) :=
  decidable_of_iff _ (mem_keys_sectionsOf_iff docs id)

/-- A palette is made of the documents that its sources hold. -/
theorem assemble_ok {catalog : Catalog} {v : Vocabulary} {sources : List Source} {p : Palette}
    (h : (assemble catalog v sources).2 = .ok p) :
    ∃ docs, List.Forall₂ (Reads catalog) sources docs ∧
      p.categories =
        (level (sectionsOf docs) none).map (nest (sectionsOf docs) (sectionsOf docs).size) := by
  obtain ⟨sections, hsections, rfl⟩ := map_eq_ok.mp h
  obtain ⟨docs, hdocs, rfl⟩ := addSources_ok hsections
  exact ⟨docs, hdocs.imp fun _ _ hdoc => hdoc.1, rfl⟩

end Palette

end BlockProgram
