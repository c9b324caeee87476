import BlockProgram.Proofs.Gathering
import Mathlib.Data.Prod.Lex

/-!
# The order of categories

Categories shown side by side are ordered by a key: those with a priority come first, by
priority, and then the position decides at which they were loaded. A parent that no document
defines has the position of the category that declares it first. The two have one position but
never stand side by side, because the category is then shown in its parent. So the keys of
siblings are different and their order is strict.
-/
namespace BlockProgram

namespace Palette

variable {docs : List Document} {all : Table Section}

/-! ### Keys -/

/-- The key by which a category is ordered among those beside it. -/
def Section.key (s : Section) : Bool ×ₗ Int ×ₗ Nat :=
  toLex (s.priority.isNone, toLex (s.priority.getD 0, s.loadIndex))

lemma before_eq_true_iff (a b : Section) : before a b = true ↔ a.key ≤ b.key := by
  unfold before Section.key
  rw [Prod.Lex.toLex_le_toLex, Prod.Lex.toLex_le_toLex]
  cases a.priority <;> cases b.priority <;> simp

lemma pairwise_level (all : Table Section) (host : Option String) :
    (level all host).Pairwise fun a b => a.key ≤ b.key := by
  have htrans (a b c : Section) (hab : before a b = true) (hbc : before b c = true) :
      before a c = true := by
    rw [before_eq_true_iff] at *
    exact le_trans hab hbc
  have htotal (a b : Section) : (before a b || before b a) = true := by
    rw [Bool.or_eq_true, before_eq_true_iff, before_eq_true_iff]
    exact le_total a.key b.key
  have hsorted := List.pairwise_mergeSort htrans htotal
    (all.values.filter fun s => host? all s == host)
  exact hsorted.imp fun h => (before_eq_true_iff _ _).mp h

/-! ### Positions -/

/-- The priority that the first document of a category gives it. -/
def declaredPriority? (docs : List Document) (id : String) : Option Int :=
  (docs.find? (·.category == id)).bind (·.priority)

/-- The category through which one comes into the palette: itself if a document defines it,
otherwise the first that declares it as its parent. -/
def originOf (docs : List Document) (id : String) : String :=
  if docs.any (·.category == id) then id
  else ((docs.map (·.category)).find? fun child => declaredParent? docs child == some id).getD id

/-- The position of the first document of the category through which one comes in. -/
def loadIndexOf (docs : List Document) (id : String) : Nat :=
  docs.findIdx (·.category == originOf docs id)

/-- The key of a category, as the documents have it. -/
def rank (docs : List Document) (id : String) : Bool ×ₗ Int ×ₗ Nat :=
  toLex ((declaredPriority? docs id).isNone,
    toLex ((declaredPriority? docs id).getD 0, loadIndexOf docs id))

lemma addDocuments_concat (sections : Table Section) (index : Nat) (docs : List Document)
    (doc : Document) : addDocuments sections index (docs ++ [doc]) =
      addDocument (addDocuments sections index docs) doc (index + docs.length) := by
  induction docs generalizing sections index with
  | nil => rfl
  | cons first rest ih =>
    rw [List.cons_append, addDocuments, ih, addDocuments, List.length_cons, Nat.add_right_comm,
      Nat.add_assoc]

lemma keys_addDocument (sections : Table Section) (doc : Document) (index : Nat) :
    (addDocument sections doc index).keys =
      sections.keys ++ if doc.category ∈ sections.keys then [] else [doc.category] := by
  have hid : (Section.ofDocument doc index).id = doc.category := rfl
  by_cases hmem : doc.category ∈ sections.keys
  · simp [addDocument, hid, hmem]
  · simp [addDocument, hid, hmem]

/-- Categories stand in the order of their first documents. -/
lemma keys_addDocuments (docs : List Document) :
    (addDocuments {} 0 docs).keys = (docs.map (·.category)).eraseDups := by
  induction docs using List.reverseRecOn with
  | nil => rfl
  | append_singleton docs doc ih =>
    rw [addDocuments_concat, keys_addDocument, ih, List.map_append, List.map_singleton,
      eraseDups_concat]
    simp only [List.mem_eraseDups]

lemma get?_sectionsOf_of_get? {id : String} {s : Section}
    (h : (addDocuments {} 0 docs).get? id = some s) : (sectionsOf docs).get? id = some s := by
  rw [sectionsOf, get?_addParents, h, Option.some_or]

/-- The first category that declares a parent is that of the first document that does. -/
lemma map_id_find?_parent (docs : List Document) (id : String) :
    ((addDocuments {} 0 docs).values.find? (·.parent == some id)).map (·.id) =
      (docs.map (·.category)).find? fun child => declaredParent? docs child == some id := by
  have hkeyed {id : String} {s : Section} (hs : (addDocuments {} 0 docs).get? id = some s) :
      s.id = id := (closed_sectionsOf docs).keyed (get?_sectionsOf_of_get? hs)
  have hparent (s : Section) (hs : s ∈ (addDocuments {} 0 docs).values) :
      (s.parent == some id) = (declaredParent? docs s.id == some id) := by
    obtain ⟨key, hget⟩ := (Table.mem_values_iff _ s).mp hs
    rw [← parent?_addDocuments_empty, parent?, hkeyed hget, hget, Option.bind_some]
  rw [List.find?_congr hparent, ← find?_eraseDups, ← keys_addDocuments,
    ← map_id_values_of_keyed hkeyed, List.find?_map]
  rfl

lemma exists_first {id : String} (h : ∃ doc ∈ docs, doc.category = id) :
    ∃ first later, docs.filter (·.category == id) = first :: later ∧
      docs.find? (·.category == id) = some first := by
  obtain ⟨first, hfirst⟩ : ∃ first, docs.find? (·.category == id) = some first := by
    rw [← Option.isSome_iff_exists, List.find?_isSome]
    simpa using h
  have hhead : (docs.filter (·.category == id)).head? = some first := by
    rw [List.head?_filter, hfirst]
  obtain ⟨later, hlater⟩ := List.head?_eq_some_iff.mp hhead
  exact ⟨first, later, hlater, hfirst⟩

lemma exists_category_of_declaredParent? {child parent : String}
    (h : declaredParent? docs child = some parent) : ∃ doc ∈ docs, doc.category = child := by
  obtain ⟨doc, hdoc, -⟩ := Option.bind_eq_some_iff.mp h
  exact ⟨doc, List.mem_of_find?_eq_some hdoc, by simpa using List.find?_some hdoc⟩

lemma declaredParent?_eq_none {id : String} (h : ¬ ∃ doc ∈ docs, doc.category = id) :
    declaredParent? docs id = none := by
  rw [Option.eq_none_iff_forall_ne_some]
  intro parent hparent
  exact h (exists_category_of_declaredParent? hparent)

lemma originOf_of_exists {id : String} (h : ∃ doc ∈ docs, doc.category = id) :
    originOf docs id = id := by
  rw [originOf, if_pos (by simpa using h)]

/-- A parent that no document defines comes in through a category that declares it. -/
lemma declaredParent?_originOf {id : String} (hid : Known docs id)
    (h : ¬ ∃ doc ∈ docs, doc.category = id) :
    declaredParent? docs (originOf docs id) = some id := by
  obtain ⟨child, hchild⟩ := hid.resolve_left h
  obtain ⟨doc, hdoc, rfl⟩ := exists_category_of_declaredParent? hchild
  obtain ⟨found, hfound⟩ : ∃ found, (docs.map (·.category)).find?
      (fun child => declaredParent? docs child == some id) = some found := by
    rw [← Option.isSome_iff_exists, List.find?_isSome]
    exact ⟨doc.category, List.mem_map_of_mem hdoc, by simpa using hchild⟩
  rw [originOf, if_neg (by simpa using h), hfound, Option.getD_some]
  simpa using List.find?_some hfound

lemma exists_category_originOf {id : String} (hid : Known docs id) :
    ∃ doc ∈ docs, doc.category = originOf docs id := by
  by_cases h : ∃ doc ∈ docs, doc.category = id
  · rwa [originOf_of_exists h]
  · exact exists_category_of_declaredParent? (declaredParent?_originOf hid h)

/-! ### Categories have the keys that the documents give them -/

/-- A category that documents define has the priority and the position of the first. -/
lemma key_of_exists {id : String} {s : Section} (hid : ∃ doc ∈ docs, doc.category = id)
    (hs : (sectionsOf docs).get? id = some s) :
    s.priority = declaredPriority? docs id ∧ s.loadIndex = docs.findIdx (·.category == id) := by
  obtain ⟨first, later, hfilter, hfirst⟩ := exists_first hid
  rw [get?_sectionsOf hfilter, Option.some.injEq] at hs
  rw [← hs, declaredPriority?, hfirst, Option.bind_some]
  exact ⟨view_merge (fun _ _ => rfl) _ _, view_merge (fun _ _ => rfl) _ _⟩

/-- A parent that is stood in for has no priority, and the position of the category through
which it comes in. -/
lemma key_of_not_exists {id : String} {s : Section} (hid : ¬ ∃ doc ∈ docs, doc.category = id)
    (hs : (sectionsOf docs).get? id = some s) :
    s.priority = declaredPriority? docs id ∧ s.loadIndex = loadIndexOf docs id := by
  have hnew : (addDocuments {} 0 docs).get? id = none := by
    rw [Table.get?_eq_none_iff, keys_addDocuments, List.mem_eraseDups]
    simpa using hid
  rw [sectionsOf, get?_addParents, hnew, Option.none_or, Option.map_eq_some_iff] at hs
  obtain ⟨child, hchild, rfl⟩ := hs
  have hfind := map_id_find?_parent docs id
  rw [hchild, Option.map_some] at hfind
  have horigin : originOf docs id = child.id := by
    rw [originOf, if_neg (by simpa using hid), ← hfind, Option.getD_some]
  have hdeclares : declaredParent? docs child.id = some id := by
    simpa using List.find?_some hfind.symm
  obtain ⟨key, hget⟩ := (Table.mem_values_iff _ child).mp (List.mem_of_find?_eq_some hchild)
  have hsection := get?_sectionsOf_of_get? hget
  rw [← (closed_sectionsOf docs).keyed hsection] at hsection
  obtain ⟨-, hindex⟩ := key_of_exists (exists_category_of_declaredParent? hdeclares) hsection
  constructor
  · rw [declaredPriority?, List.find?_eq_none.mpr (by simpa using hid)]
    rfl
  · rw [loadIndexOf, horigin, ← hindex]
    rfl

lemma key_of_get? {id : String} {s : Section} (hs : (sectionsOf docs).get? id = some s) :
    s.priority = declaredPriority? docs id ∧ s.loadIndex = loadIndexOf docs id := by
  by_cases hid : ∃ doc ∈ docs, doc.category = id
  · rw [loadIndexOf, originOf_of_exists hid]
    exact key_of_exists hid hs
  · exact key_of_not_exists hid hs

lemma key_eq_rank {s : Section} (hs : s ∈ (sectionsOf docs).values) : s.key = rank docs s.id := by
  obtain ⟨hpriority, hindex⟩ := key_of_get? ((closed_sectionsOf docs).get?_of_mem_values hs)
  rw [Section.key, hpriority, hindex, rank]

/-! ### Siblings -/

/-- The first documents of two categories stand at different positions. -/
lemma eq_of_findIdx_eq {a b : String} (ha : ∃ doc ∈ docs, doc.category = a)
    (h : docs.findIdx (·.category == a) = docs.findIdx (·.category == b)) : a = b := by
  have hlt : docs.findIdx (·.category == a) < docs.length :=
    List.findIdx_lt_length_of_exists (by simpa using ha)
  have hfirst := List.findIdx_getElem (w := hlt)
  have hsecond := List.findIdx_getElem (w := h ▸ hlt)
  simp only [← h] at hsecond
  exact (eq_of_beq hfirst).symm.trans (eq_of_beq hsecond)

/-- A parent that no document defines stands at the top, with the category that declares it
in it. -/
lemma hostOf?_of_declares {child parent : String}
    (hchild : declaredParent? docs child = some parent)
    (hparent : ¬ ∃ doc ∈ docs, doc.category = parent) :
    hostOf? (sectionsOf docs) child = some parent ∧ hostOf? (sectionsOf docs) parent = none := by
  have hall := closed_sectionsOf docs
  have hnone := declaredParent?_eq_none hparent
  rw [hall.hostOf?_eq_some_iff, hall.hostOf?_eq_none_iff, funext (parent?_sectionsOf docs)]
  refine ⟨⟨hchild, fun hround => ?_⟩, .inl hnone⟩
  obtain ⟨next, hnext, hback⟩ := Relation.TransGen.head'_iff.mp hround
  rw [hchild, Option.some.injEq] at hnext
  subst hnext
  rcases Relation.ReflTransGen.cases_head hback with rfl | ⟨above, habove, -⟩
  · simp [hnone] at hchild
  · simp [hnone] at habove

lemma eq_of_originOf_eq {a b : String} (ha : Known docs a) (hb : Known docs b)
    (hhost : hostOf? (sectionsOf docs) a = hostOf? (sectionsOf docs) b)
    (horigin : originOf docs a = originOf docs b) : a = b := by
  by_cases hdoca : ∃ doc ∈ docs, doc.category = a
  · by_cases hdocb : ∃ doc ∈ docs, doc.category = b
    · rwa [originOf_of_exists hdoca, originOf_of_exists hdocb] at horigin
    · have hdeclares := declaredParent?_originOf hb hdocb
      rw [← horigin, originOf_of_exists hdoca] at hdeclares
      obtain ⟨hin, htop⟩ := hostOf?_of_declares hdeclares hdocb
      simp [hin, htop] at hhost
  · have hdeclares := declaredParent?_originOf ha hdoca
    by_cases hdocb : ∃ doc ∈ docs, doc.category = b
    · rw [horigin, originOf_of_exists hdocb] at hdeclares
      obtain ⟨hin, htop⟩ := hostOf?_of_declares hdeclares hdoca
      simp [hin, htop] at hhost
    · rw [horigin, declaredParent?_originOf hb hdocb, Option.some.injEq] at hdeclares
      exact hdeclares.symm

/-- Categories that are shown side by side have different keys. -/
lemma rank_lt_of_mem_level {host : Option String} {a b : Section}
    (ha : a ∈ level (sectionsOf docs) host) (hb : b ∈ level (sectionsOf docs) host)
    (hne : a ≠ b) (hle : a.key ≤ b.key) : rank docs a.id < rank docs b.id := by
  have hall := closed_sectionsOf docs
  obtain ⟨hav, hahost⟩ := hall.mem_level_iff.mp ha
  obtain ⟨hbv, hbhost⟩ := hall.mem_level_iff.mp hb
  have hknown {s : Section} (hs : s ∈ (sectionsOf docs).values) : Known docs s.id := by
    rw [← mem_keys_sectionsOf_iff, ← hall.map_id_values]
    exact List.mem_map_of_mem hs
  rw [key_eq_rank hav, key_eq_rank hbv] at hle
  refine lt_of_le_of_ne hle fun heq => hne (hall.eq_of_id_eq hav hbv ?_)
  have hindex : loadIndexOf docs a.id = loadIndexOf docs b.id := congrArg (·.2.2) heq
  exact eq_of_originOf_eq (hknown hav) (hknown hbv) (hahost.trans hbhost.symm)
    (eq_of_findIdx_eq (exists_category_originOf (hknown hav)) hindex)

lemma pairwise_rank_level (docs : List Document) (host : Option String) :
    ((level (sectionsOf docs) host).map fun s => rank docs s.id).Pairwise (· < ·) := by
  rw [List.pairwise_map]
  refine ((pairwise_level _ host).and ((closed_sectionsOf docs).nodup_level host)).imp_of_mem ?_
  intro a b ha hb hab
  exact rank_lt_of_mem_level ha hb hab.2 hab.1

/-- In an assembled palette the keys of categories shown side by side, at the top or in one
category, increase strictly, so that no two of them share one. The key of a category is what
the documents say of it, and what the category itself has. -/
theorem siblings_strictly_ordered {catalog : Catalog} {v : Vocabulary} {sources : List Source}
    {p : Palette} (h : (assemble catalog v sources).2 = .ok p) :
    ∃ docs, List.Forall₂ (Reads catalog) sources docs ∧
      (p.categories.map fun c => rank docs c.head.id).Pairwise (· < ·) ∧
      ∀ c ∈ p.all, (c.children.map fun d => rank docs d.head.id).Pairwise (· < ·) ∧
        c.head.priority = declaredPriority? docs c.head.id ∧
        c.head.loadIndex = loadIndexOf docs c.head.id := by
  obtain ⟨docs, hdocs, hp⟩ := assemble_ok h
  have hall := closed_sectionsOf docs
  refine ⟨docs, hdocs, ?_, fun c hc => ?_⟩
  · rw [hp, hall.map_nest_top, List.map_map]
    simpa [Function.comp_def] using pairwise_rank_level docs none
  · obtain ⟨s, hs, rfl⟩ := (mem_all_iff hall hp).mp hc
    rw [head_subtree]
    refine ⟨?_, key_of_get? (hall.get?_of_mem_values hs)⟩
    rw [hall.subtree_eq, Category.children, List.map_map]
    simpa [Function.comp_def] using pairwise_rank_level docs (some s.id)

/-- Two libraries in a category that no library defines, and one with a priority. -/
def rankedSources : List Source :=
  [categorySource "plain" [],
    categorySource "motors" [("parent", .string "io"), ("priority", .number (.int 5))],
    categorySource "sensors" [("parent", .string "io"), ("priority", .number (.int 2))],
    categorySource "urgent" [("priority", .number (.int 7))]]

theorem rankedSources_ordered :
    ∃ p, (assemble {} {} rankedSources).2 = .ok p ∧
      p.categories.map (·.head.id) = ["urgent", "plain", "io"] := by
  have hload : (Loaded.addSources {} {} {} 0 rankedSources).sections.toOption.map Table.keys =
      some ["plain", "motors", "sensors", "urgent"] := by decide +kernel
  obtain ⟨sections, hsections, -⟩ := exists_ok_of_map hload
  have hassemble : (assemble {} {} rankedSources).2 = .ok (ofSections sections) :=
    map_eq_ok.mpr ⟨sections, hsections, rfl⟩
  obtain ⟨docs, hdocs, hordered, -⟩ := siblings_strictly_ordered hassemble
  obtain ⟨docs', hdocs', hp⟩ := assemble_ok hassemble
  obtain rfl := eq_documents_of_reads hdocs
  obtain rfl := eq_documents_of_reads hdocs'
  refine ⟨_, hassemble, ?_⟩
  have hkeys : (sectionsOf (documents {} rankedSources)).keys =
      ["plain", "motors", "sensors", "urgent", "io"] := by decide +kernel
  have htop : ∀ id ∈ ["plain", "motors", "sensors", "urgent", "io"],
      (hostOf? (sectionsOf (documents {} rankedSources)) id = none ↔
        id ∈ ["urgent", "plain", "io"]) := by decide +kernel
  have hranks : (["urgent", "plain", "io"].map (rank (documents {} rankedSources))).Pairwise
      (· < ·) := by decide +kernel
  rw [List.pairwise_map] at hordered hranks
  have hmem (id : String) : id ∈ (ofSections sections).categories.map (·.head.id) ↔
      id ∈ ["urgent", "plain", "io"] := by
    rw [mem_ids_categories_iff (closed_sectionsOf _) hp, hkeys]
    constructor
    · intro hid
      exact (htop id hid.1).mp hid.2
    · intro hid
      have hknown : id ∈ ["plain", "motors", "sensors", "urgent", "io"] := by
        revert id
        decide
      exact ⟨hknown, (htop id hknown).mpr hid⟩
  have hnodup : ((ofSections sections).categories.map (·.head.id)).Nodup := by
    refine List.pairwise_map.mpr (hordered.imp fun hlt heq => ?_)
    rw [heq] at hlt
    exact lt_irrefl _ hlt
  have hperm := (List.perm_ext_iff_of_nodup hnodup (by decide)).mpr hmem
  refine hperm.eq_of_pairwise ?_ (List.pairwise_map.mpr hordered) hranks
  intro a b _ _ hab hba
  exact absurd hba (lt_asymm hab)

end Palette

end BlockProgram
