import BlockProgram.Proofs.Nesting
import BlockProgram.Proofs.Repeats

/-!
# What a category shows of its documents

A category shows all that its first document shows. Of what the later documents show it adds
what is new where it stands: every separator, and a block or a label that has not come before.
Since no document has two blocks of one type, the blocks of the category are those of all its
documents, each where it comes first.
-/
namespace BlockProgram

namespace Document

/-- What a document shows of its items, in order. -/
def entries (doc : Document) : List Palette.Entry :=
  doc.body.items.filterMap Palette.Entry.ofItem?

/-- The types of the blocks that a document does not hide, in order. -/
def visibleTypes (doc : Document) : List String :=
  (doc.blocks.filter fun d => !d.hidden).map Definition.type

end Document

namespace Palette

/-! ### Entries that are new -/

namespace Entry

def type? : Entry → Option String
  | .block type => some type
  | _ => none

def isSeparator : Entry → Bool
  | .separator _ => true
  | _ => false

/-- After the given entries the entry has something to add. -/
def isNew (before : List Entry) (e : Entry) : Bool := e.isSeparator || !before.contains e

/-- Of the entries that come after those present, the ones that are new where they stand. -/
def additions (present later : List Entry) : List Entry :=
  (later.zipIdx.filter fun e => e.1.isNew (present ++ later.take e.2)).map Prod.fst

lemma isNew_eq_true_iff {before : List Entry} {e : Entry} :
    e.isNew before = true ↔ e.isSeparator = true ∨ e ∉ before := by
  simp [isNew]

lemma additions_concat (present later : List Entry) (e : Entry) :
    additions present (later ++ [e]) =
      additions present later ++ if e.isNew (present ++ later) then [e] else [] := by
  have hearlier : (later.zipIdx.filter fun x => x.1.isNew (present ++ (later ++ [e]).take x.2)) =
      later.zipIdx.filter fun x => x.1.isNew (present ++ later.take x.2) := by
    refine List.filter_congr fun x hx => ?_
    have hlt : x.2 < later.length := by simpa using List.snd_lt_of_mem_zipIdx hx
    rw [List.take_append_of_le_length hlt.le]
  rw [additions, List.zipIdx_append, List.filter_append, hearlier, List.map_append, ← additions]
  by_cases hnew : e.isNew (present ++ later) = true <;> simp [hnew]

/-- What is not added is there already. -/
lemma mem_append_additions_iff (present later : List Entry) (x : Entry) :
    x ∈ present ++ additions present later ↔ x ∈ present ++ later := by
  induction later using List.reverseRecOn with
  | nil => simp [additions]
  | append_singleton later e ih =>
    rw [additions_concat, ← List.append_assoc, List.mem_append, ih, ← List.append_assoc,
      List.mem_append (s := present ++ later)]
    by_cases hnew : e.isNew (present ++ later) = true
    · simp [hnew]
    · have hold : e ∈ present ++ later := by
        rw [isNew_eq_true_iff, not_or, not_not] at hnew
        exact hnew.2
      have hstays : x = e → x ∈ present ++ later := fun heq => heq ▸ hold
      simpa [hnew] using hstays

lemma isNew_append_additions (present later : List Entry) (e : Entry) :
    e.isNew (present ++ additions present later) = e.isNew (present ++ later) := by
  rw [Bool.eq_iff_iff, isNew_eq_true_iff, isNew_eq_true_iff, mem_append_additions_iff]

lemma push_eq (entries : List Entry) (e : Entry) :
    Section.push entries e = if e.isNew entries then entries ++ [e] else entries := by
  cases e <;> simp [Section.push, isNew, isSeparator]

/-- Putting entries in one by one adds those that are new where they stand. -/
theorem foldl_push (present later : List Entry) :
    later.foldl Section.push present = present ++ additions present later := by
  induction later using List.reverseRecOn with
  | nil => simp [additions]
  | append_singleton later e ih =>
    rw [List.foldl_append, List.foldl_cons, List.foldl_nil, ih, push_eq, isNew_append_additions,
      additions_concat]
    by_cases hnew : e.isNew (present ++ later) = true <;> simp [hnew]

lemma mem_types_iff (entries : List Entry) (type : String) :
    type ∈ entries.filterMap type? ↔ .block type ∈ entries := by
  rw [List.mem_filterMap]
  constructor
  · intro ⟨e, he, htype⟩
    cases e <;> simp_all [type?]
  · intro hblock
    exact ⟨_, hblock, rfl⟩

/-- The blocks among the entries are those of the present and the later ones, each where it
comes first. -/
lemma types_append_additions {present : List Entry} (h : (present.filterMap type?).Nodup)
    (later : List Entry) : (present ++ additions present later).filterMap type? =
      ((present ++ later).filterMap type?).eraseDups := by
  induction later using List.reverseRecOn with
  | nil => simp [additions, eraseDups_of_nodup h]
  | append_singleton later e ih =>
    rw [additions_concat, ← List.append_assoc, List.filterMap_append, ih, ← List.append_assoc,
      List.filterMap_append (l := present ++ later)]
    cases e with
    | block type =>
      have hnew : (Entry.block type).isNew (present ++ later) = true ↔
          type ∉ (present ++ later).filterMap type? := by
        rw [isNew_eq_true_iff, mem_types_iff]
        simp [isSeparator]
      rw [List.filterMap_cons_some (by rfl), List.filterMap_nil, eraseDups_concat]
      by_cases hmem : type ∈ (present ++ later).filterMap type?
      · rw [if_neg (mt hnew.mp (not_not.mpr hmem)), if_pos hmem, List.filterMap_nil]
      · rw [if_pos (hnew.mpr hmem), if_neg hmem]
        simp [type?]
    | label text => split <;> simp [List.filterMap_cons, type?]
    | separator gap => split <;> simp [List.filterMap_cons, type?]

end Entry

/-! ### Documents of one category -/

lemma Section.blockTypes_eq (s : Section) : s.blockTypes = s.entries.filterMap Entry.type? := rfl

/-- The blocks that a document shows are those that it does not hide. -/
lemma filterMap_type?_entries (doc : Document) :
    doc.entries.filterMap Entry.type? = doc.visibleTypes := by
  rw [Document.entries, Document.visibleTypes, Document.blocks]
  induction doc.body.items with
  | nil => rfl
  | cons item rest ih =>
    cases item with
    | block d =>
      cases hhidden : d.hidden <;>
        simp [Entry.ofItem?, Entry.type?, Item.block?, hhidden, ih]
    | label text => simp [List.filterMap_cons, Entry.ofItem?, Entry.type?, Item.block?, ih]
    | separator gap => simp [List.filterMap_cons, Entry.ofItem?, Entry.type?, Item.block?, ih]

namespace Section

lemma merge_nil (s : Section) : s.merge [] = s := by
  simp [merge]

lemma merge_merge (s : Section) (first second : List Entry) :
    (s.merge first).merge second = s.merge (first ++ second) := by
  by_cases hcustom : s.custom.isSome = true <;> simp [merge, hcustom]

end Section

variable {sections : Table Section} {docs : List Document} {id : String} {s : Section}

lemma get?_addDocument_of_some (h : sections.get? id = some s) (doc : Document) (index : Nat) :
    (addDocument sections doc index).get? id =
      some (if doc.category = id then s.merge doc.entries else s) := by
  have hid : (Section.ofDocument doc index).id = doc.category := rfl
  have hentries : (Section.ofDocument doc index).entries = doc.entries := rfl
  by_cases hcategory : doc.category = id
  · have hknown : sections.contains doc.category = true := by
      rw [hcategory, Table.contains, h, Option.isSome_some]
    rw [addDocument, hid, if_pos hknown, Table.get?_modify, if_pos hcategory.symm, h, hentries,
      Option.map_some, if_pos hcategory]
  · rw [addDocument, if_neg hcategory]
    split <;> simp [hid, Ne.symm hcategory, h]

/-- Once a category is there, the documents of it are merged into it. -/
lemma get?_addDocuments_of_some (h : sections.get? id = some s) (index : Nat)
    (docs : List Document) : (addDocuments sections index docs).get? id =
      some (s.merge ((docs.filter (·.category == id)).flatMap Document.entries)) := by
  induction docs generalizing sections index s with
  | nil => simp [addDocuments, h, Section.merge_nil]
  | cons doc rest ih =>
    rw [addDocuments, ih (get?_addDocument_of_some h doc index)]
    by_cases hcategory : doc.category = id <;> simp [hcategory, Section.merge_merge]

lemma get?_addDocument_of_none (h : sections.get? id = none) (doc : Document) (index : Nat) :
    (addDocument sections doc index).get? id =
      if doc.category = id then some (.ofDocument doc index) else none := by
  have hid : (Section.ofDocument doc index).id = doc.category := rfl
  by_cases hcategory : doc.category = id
  · have hnew : ¬ sections.contains doc.category = true := by
      rw [hcategory, Table.contains, h, Option.isSome_none]
      exact Bool.false_ne_true
    rw [addDocument, hid, if_neg hnew, Table.get?_insert, if_pos hcategory.symm, if_pos hcategory]
  · rw [addDocument, if_neg hcategory]
    split <;> simp [hid, Ne.symm hcategory, h]

/-- The first document of a category opens it, and the later ones are merged into it. -/
theorem get?_addDocuments_of_none (h : sections.get? id = none) (index : Nat)
    {docs later : List Document} {first : Document}
    (hdocs : docs.filter (·.category == id) = first :: later) :
    (addDocuments sections index docs).get? id =
      some ((Section.ofDocument first (index + docs.findIdx (·.category == id))).merge
        (later.flatMap Document.entries)) := by
  induction docs generalizing sections index with
  | nil => simp at hdocs
  | cons doc rest ih =>
    have hstep := get?_addDocument_of_none h doc index
    by_cases hcategory : doc.category = id
    · simp only [hcategory, List.filter_cons, beq_self_eq_true, if_true, List.cons.injEq] at hdocs
      obtain ⟨rfl, hlater⟩ := hdocs
      rw [if_pos hcategory] at hstep
      rw [addDocuments, get?_addDocuments_of_some hstep, hlater]
      simp [List.findIdx_cons, hcategory]
    · have hrest : rest.filter (·.category == id) = first :: later := by
        simpa [hcategory] using hdocs
      have hindex : (doc :: rest).findIdx (·.category == id) =
          rest.findIdx (·.category == id) + 1 := by
        rw [List.findIdx_cons, beq_false_of_ne hcategory, cond_false]
      rw [if_neg hcategory] at hstep
      rw [addDocuments, ih hstep (index + 1) hrest, hindex, Nat.add_right_comm, Nat.add_assoc]

/-- A category as its documents make it. -/
lemma get?_sectionsOf {docs later : List Document} {first : Document}
    (hdocs : docs.filter (·.category == id) = first :: later) :
    (sectionsOf docs).get? id =
      some ((Section.ofDocument first (docs.findIdx (·.category == id))).merge
        (later.flatMap Document.entries)) := by
  have hnone : (({} : Table Section)).get? id = none := rfl
  rw [sectionsOf, get?_addParents, get?_addDocuments_of_none hnone 0 hdocs, Nat.zero_add,
    Option.some_or]

/-! ### Categories in the palette -/

lemma category?_eq_some {all : Table Section} (hall : Closed all) {p : Palette}
    (hp : p.categories = (level all none).map (nest all all.size)) (hs : all.get? id = some s) :
    p.category? id = some (subtree all s) := by
  have hmem : subtree all s ∈ p.all :=
    (mem_all_iff hall hp).mpr ⟨s, (all.mem_values_iff s).mpr ⟨id, hs⟩, rfl⟩
  have hid : (subtree all s).head.id = id := by rw [head_subtree, hall.keyed hs]
  obtain ⟨c, hc⟩ := Option.isSome_iff_exists.mp
    ((isSome_category?_iff p id).mpr (List.mem_map.mpr ⟨_, hmem, hid⟩))
  have hsame : c.head.id = id := by simpa using List.find?_some hc
  rw [hc, List.inj_on_of_nodup_map (nodup_ids_all hall hp) (List.mem_of_find?_eq_some hc) hmem
    (hsame.trans hid.symm)]

lemma toJsonAll_eq_map (categories : List Category) :
    toJsonAll categories = categories.map Category.toJson := by
  induction categories with
  | nil => rfl
  | cons c rest ih => rw [toJsonAll, ih, List.map_cons]

/-- The editor is told of the entries first, and then of the categories in the category. -/
lemma get?_contents_toJson (c : Category) : c.toJson.get? "contents" =
    some (.array (c.head.entries.map Entry.toJson ++ c.children.map Category.toJson)) := by
  obtain ⟨head, children⟩ := c
  rw [Category.toJson, Json.get?_mkObject, List.reverse_append, List.reverse_singleton,
    List.singleton_append, Json.lookup_cons_eq_ite, if_pos rfl, toJsonAll_eq_map]
  rfl

/-- No document that is read shows a block twice. -/
lemma nodup_visibleTypes {catalog : Catalog} {sources : List Source} {doc : Document}
    (h : doc ∈ documents catalog sources) : doc.visibleTypes.Nodup := by
  obtain ⟨source, -, hsource⟩ := List.mem_filterMap.mp h
  have hread : ∃ j, Document.ofJson source.name j = .ok doc := by
    refine ⟨catalog.localize source.content, ?_⟩
    cases hresult : Document.ofJson source.name (catalog.localize source.content) with
    | error refusal => simp [hresult, Except.toOption] at hsource
    | ok doc' => simpa [hresult, Except.toOption] using hsource
  obtain ⟨j, hj⟩ := hread
  exact (Document.nodup_types_of_ofJson hj).sublist (List.filter_sublist.map _)

namespace Section

variable {doc : Document} {items : List Item} (hbody : doc.body = .contents items)
include hbody

/-- A category that shows entries keeps those of its first document, and gets the new ones
of the later documents. -/
lemma entries_merge_ofDocument (index : Nat) (later : List Entry) :
    ((ofDocument doc index).merge later).entries =
      doc.entries ++ Entry.additions doc.entries later := by
  have hcustom : (ofDocument doc index).custom = none := by simp [ofDocument, hbody]
  have hentries : (ofDocument doc index).entries = doc.entries := rfl
  simp [merge, hcustom, hentries, Entry.foldl_push]

lemma blockTypes_merge_ofDocument (index : Nat) (hnodup : doc.visibleTypes.Nodup)
    (later : List Document) :
    ((ofDocument doc index).merge (later.flatMap Document.entries)).blockTypes =
      ((doc :: later).flatMap Document.visibleTypes).eraseDups := by
  rw [blockTypes_eq, entries_merge_ofDocument hbody, Entry.types_append_additions]
  · simp only [List.filterMap_append, List.filterMap_flatMap, filterMap_type?_entries,
      List.flatMap_cons]
  · rwa [filterMap_type?_entries]

end Section

/-- A category that the editor fills in shows no entries, whatever the later documents say. -/
lemma Section.entries_merge_ofDocument_of_custom {doc : Document} {name : String}
    (hbody : doc.body = .custom name) (index : Nat) (later : List Entry) :
    ((ofDocument doc index).merge later).entries = [] := by
  simp [merge, ofDocument, hbody, Body.items]

/-- An assembled palette has a category for the documents of each category. The first of them
decides how it looks. If that one has contents, the category shows its entries, followed by
those of the later documents that are new where they stand, and so each block that one of them
shows, where it comes first. If the first is filled in by the editor, the category shows none.
The categories nested in it come after its entries. -/
theorem category_gathers_documents {catalog : Catalog} {v : Vocabulary} {sources : List Source}
    {p : Palette} (h : (assemble catalog v sources).2 = .ok p) :
    ∃ docs, List.Forall₂ (Reads catalog) sources docs ∧
      ∀ id first later, docs.filter (·.category == id) = first :: later →
        ∃ c, p.category? id = some c ∧
          c.head.name = first.name ∧ c.head.style = first.style ∧
          c.head.description = first.description ∧ c.head.docsUrl = first.docsUrl ∧
          c.head.priority = first.priority ∧
          (∀ items, first.body = .contents items →
            c.head.blockTypes = ((first :: later).flatMap Document.visibleTypes).eraseDups ∧
            c.head.entries = first.entries ++
              Entry.additions first.entries (later.flatMap Document.entries)) ∧
          (∀ name, first.body = .custom name → c.head.entries = []) ∧
          c.toJson.get? "contents" = some (.array
            (c.head.entries.map Entry.toJson ++ c.children.map Category.toJson)) := by
  obtain ⟨docs, hdocs, hp⟩ := assemble_ok h
  refine ⟨docs, hdocs, fun id first later hcategory => ?_⟩
  have hfirst : first ∈ documents catalog sources := by
    have hmem : first ∈ docs.filter (·.category == id) := by simp [hcategory]
    rw [← eq_documents_of_reads hdocs]
    exact List.mem_of_mem_filter hmem
  have hsection := get?_sectionsOf hcategory
  refine ⟨_, category?_eq_some (closed_sectionsOf docs) hp hsection, ?_⟩
  rw [head_subtree]
  refine ⟨view_merge (fun _ _ => rfl) _ _, view_merge (fun _ _ => rfl) _ _,
    view_merge (fun _ _ => rfl) _ _, view_merge (fun _ _ => rfl) _ _,
    view_merge (fun _ _ => rfl) _ _, fun items hbody => ?_, fun name hbody => ?_, ?_⟩
  · exact ⟨Section.blockTypes_merge_ofDocument hbody _ (nodup_visibleTypes hfirst) later,
      Section.entries_merge_ofDocument hbody _ _⟩
  · exact Section.entries_merge_ofDocument_of_custom hbody _ _
  · rw [get?_contents_toJson, head_subtree]

/-- Two libraries of one category with a block and a label in common, and one nested in it. -/
def drivingSources : List Source :=
  [⟨"drive.json", .mkObject [("category", .string "drive"), ("name", .string "Drive"),
      ("contents", .array [
        .mkObject [("kind", .string "label"), ("text", .string "Wheels")],
        .mkObject [("type", .string "turn")],
        .mkObject [("type", .string "coast"), ("hidden", .bool true)]])]⟩,
    ⟨"gears.json", .mkObject [("category", .string "gears"), ("parent", .string "drive"),
      ("contents", .array [])]⟩,
    ⟨"more.json", .mkObject [("category", .string "drive"), ("name", .string "More"),
      ("contents", .array [
        .mkObject [("kind", .string "sep")],
        .mkObject [("type", .string "stop")],
        .mkObject [("kind", .string "label"), ("text", .string "Wheels")],
        .mkObject [("type", .string "turn")],
        .mkObject [("kind", .string "sep")],
        .mkObject [("type", .string "coast")]])]⟩]

theorem drivingSources_gathered :
    ∃ p c, (assemble {} {} drivingSources).2 = .ok p ∧ p.category? "drive" = some c ∧
      c.head.name = "Drive" ∧ c.head.blockTypes = ["turn", "stop", "coast"] ∧
      c.head.entries = [.label "Wheels", .block "turn", .separator none, .block "stop",
        .separator none, .block "coast"] := by
  have hload : (Loaded.addSources {} {} {} 0 drivingSources).sections.toOption.map Table.keys =
      some ["drive", "gears"] := by decide +kernel
  obtain ⟨sections, hsections, -⟩ := exists_ok_of_map hload
  have hassemble : (assemble {} {} drivingSources).2 = .ok (ofSections sections) :=
    map_eq_ok.mpr ⟨sections, hsections, rfl⟩
  obtain ⟨docs, hdocs, hgathers⟩ := category_gathers_documents hassemble
  obtain rfl := eq_documents_of_reads hdocs
  have hview : ((documents {} drivingSources).filter (·.category == "drive")).map
      (fun doc => (doc.name, doc.entries, doc.visibleTypes)) =
      [("Drive", [.label "Wheels", .block "turn"], ["turn"]),
        ("More", [.separator none, .block "stop", .label "Wheels", .block "turn",
          .separator none, .block "coast"], ["stop", "turn", "coast"])] := by decide +kernel
  obtain ⟨first, later, hdrive, hfirst, hlater⟩ := List.map_eq_cons_iff.mp hview
  obtain ⟨second, rfl, hsecond⟩ := List.map_eq_singleton_iff.mp hlater
  simp only [Prod.mk.injEq] at hfirst hsecond
  obtain ⟨c, hc, hname, -, -, -, -, hcontents, -, -⟩ := hgathers "drive" first [second] hdrive
  cases hbody : first.body with
  | custom name => simp [Document.entries, hbody, Body.items] at hfirst
  | contents items =>
    obtain ⟨htypes, hentries⟩ := hcontents items hbody
    refine ⟨_, c, hassemble, hc, hname.trans hfirst.1, ?_, ?_⟩
    · rw [htypes]
      simp only [List.flatMap_cons, List.flatMap_nil, hfirst, hsecond]
      decide
    · rw [hentries]
      simp only [List.flatMap_cons, List.flatMap_nil, hfirst, hsecond]
      decide

end Palette

end BlockProgram
