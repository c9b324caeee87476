import BlockProgram.Proofs.Ranking

/-!
# Building the tree by taking categories out

The tree of categories can be built in one run that empties the table. A category is taken
out of it, then those shown in it are sorted by what the table still says about them, and
each is taken out in the same way. Nothing goes missing on the way: categories shown side by
side have none below them in common, so that those to be sorted are all still there, and the
run gives the nested categories of the palette and leaves nothing behind.
-/
namespace BlockProgram

namespace Palette

/-! ### The run -/

/-- What was taken out of a table, and what it left there. -/
structure Taken (left : Table Section) (α : Type) where
  value : α
  rest : Table Section
  size_le : rest.size ≤ left.size

/-- Adds a category to the list of those shown in the same one. -/
def addChild (all : Table Section) (lists : Table (List String)) (s : Section) :
    Table (List String) :=
  match host? all s with
  | some host => lists.insert host ((lists.get? host).getD [] ++ [s.id])
  | none => lists

/-- For each category those shown in it. -/
def childLists (all : Table Section) : Table (List String) :=
  all.values.foldl (addChild all) {}

/-- The key of a category that is still there, or else `gone`. -/
def keyIn (gone : Bool ×ₗ Int ×ₗ Nat) (left : Table Section) (id : String) :
    Bool ×ₗ Int ×ₗ Nat :=
  ((left.get? id).map Section.key).getD gone

def sortedBy (gone : Bool ×ₗ Int ×ₗ Nat) (left : Table Section) (ids : List String) :
    List String :=
  ids.mergeSort fun a b => keyIn gone left a ≤ keyIn gone left b

mutual

/-- Takes out a category and all below it, unless it has been taken already. -/
def take (lists : Table (List String)) (gone : Bool ×ₗ Int ×ₗ Nat) (left : Table Section)
    (id : String) : Taken left (Option Category) :=
  match h : left.get? id with
  | none => ⟨none, left, le_rfl⟩
  | some s =>
    let below := takeEach lists gone (left.erase id)
      (sortedBy gone (left.erase id) ((lists.get? id).getD []))
    ⟨some (.node s below.value), below.rest, below.size_le.trans (Table.size_erase_lt h).le⟩
termination_by (left.size, 0)
decreasing_by exact Prod.Lex.left _ _ (Table.size_erase_lt h)

def takeEach (lists : Table (List String)) (gone : Bool ×ₗ Int ×ₗ Nat) (left : Table Section)
    (ids : List String) : Taken left (List Category) :=
  match ids with
  | [] => ⟨[], left, le_rfl⟩
  | id :: more =>
    let first := take lists gone left id
    let others := takeEach lists gone first.rest more
    ⟨first.value.toList ++ others.value, others.rest, others.size_le.trans first.size_le⟩
termination_by (left.size, ids.length + 1)
decreasing_by
  · exact Prod.Lex.right _ (Nat.succ_pos _)
  · rcases first.size_le.lt_or_eq with hlt | heq
    · exact Prod.Lex.left _ _ hlt
    · rw [heq]
      exact Prod.Lex.right _ (Nat.lt_succ_self _)

end

/-- The categories shown in one place, as they come in the table. -/
def shownIn (all : Table Section) (host : Option String) : List String :=
  (all.values.filter fun s => host? all s == host).map (·.id)

/-- Takes out the categories at the top, each with all below it. -/
def takeTops (gone : Bool ×ₗ Int ×ₗ Nat) (all : Table Section) : Taken all (List Category) :=
  takeEach (childLists all) gone all (sortedBy gone all (shownIn all none))

variable {all left : Table Section} {lists : Table (List String)} {gone : Bool ×ₗ Int ×ₗ Nat}

/-! ### Lists and their order -/

lemma getD_addChild (all : Table Section) (lists : Table (List String)) (s : Section)
    (host : String) : ((addChild all lists s).get? host).getD [] =
      (lists.get? host).getD [] ++ if host? all s = some host then [s.id] else [] := by
  unfold addChild
  cases hhost : host? all s with
  | none => simp
  | some shown =>
    by_cases heq : host = shown
    · simp [heq]
    · have hne : shown ≠ host := Ne.symm heq
      simp [Table.get?_insert, heq, hne]

/-- Each list is filled with the categories shown in its place. -/
lemma getD_childLists (all : Table Section) (host : String) :
    ((childLists all).get? host).getD [] = shownIn all (some host) := by
  have hfold (lists : Table (List String)) (sections : List Section) :
      ((sections.foldl (addChild all) lists).get? host).getD [] = (lists.get? host).getD [] ++
        (sections.filter fun s => host? all s == some host).map (·.id) := by
    induction sections generalizing lists with
    | nil => simp
    | cons s rest ih =>
      rw [List.foldl_cons, ih, getD_addChild, List.append_assoc, List.filter_cons]
      by_cases hs : host? all s = some host
      · simp [hs]
      · simp [hs]
  exact hfold {} all.values

/-- As long as they are there, categories shown side by side are sorted by their own keys. -/
lemma sortedBy_shownIn {host : Option String}
    (h : ∀ s ∈ level all host, left.get? s.id = some s) :
    sortedBy gone left (shownIn all host) = (level all host).map (·.id) := by
  have hkey (s : Section) (hs : s ∈ all.values.filter fun s => host? all s == host) :
      keyIn gone left s.id = s.key := by
    rw [keyIn, h s (List.mem_mergeSort.mpr hs)]
    rfl
  symm
  refine List.map_mergeSort fun a ha b hb => ?_
  rw [hkey a ha, hkey b hb, Bool.eq_iff_iff, before_eq_true_iff, decide_eq_true_iff]

/-! ### What is taken -/

/-- The value is taken, the categories in `P` are gone, and all others are still there. -/
structure Taken.Removes {α : Type} (taken : Taken left α) (value : α) (P : String → Prop) :
    Prop where
  value_eq : taken.value = value
  removed : ∀ id, P id → taken.rest.get? id = none
  kept : ∀ id, ¬ P id → taken.rest.get? id = left.get? id

/-- The table still has a category and all below it. -/
def Intact (all left : Table Section) (top : String) : Prop :=
  ∀ id, Under all id top → left.get? id = all.get? id

/-- A category that is there is taken out before those shown in it. -/
lemma take_of_get? {id : String} {s : Section} (h : left.get? id = some s) :
    let below := takeEach lists gone (left.erase id)
      (sortedBy gone (left.erase id) ((lists.get? id).getD []))
    (take lists gone left id).value = some (.node s below.value) ∧
      (take lists gone left id).rest = below.rest := by
  rw [take]
  split
  · next hnone =>
    rw [h] at hnone
    cases hnone
  · next found hfound =>
    rw [h, Option.some.injEq] at hfound
    subst hfound
    exact ⟨rfl, rfl⟩

/-- Categories that have none below them in common are taken one after the other as each would
be alone. -/
lemma takeEach_removes {cs : List Section}
    (hapart : cs.Pairwise fun c d => ∀ id, Under all id c.id → ¬ Under all id d.id)
    (htake : ∀ c ∈ cs, ∀ left, Intact all left c.id →
      (take lists gone left c.id).Removes (some (subtree all c)) (Under all · c.id))
    (hleft : ∀ c ∈ cs, Intact all left c.id) :
    (takeEach lists gone left (cs.map (·.id))).Removes (cs.map (subtree all))
      fun id => ∃ c ∈ cs, Under all id c.id := by
  induction cs generalizing left with
  | nil =>
    rw [List.map_nil, takeEach]
    exact ⟨rfl, by simp, fun _ _ => rfl⟩
  | cons c rest ih =>
    obtain ⟨hothers, hrest⟩ := List.pairwise_cons.mp hapart
    rw [List.forall_mem_cons] at htake hleft
    have hfirst := htake.1 left hleft.1
    have hmore := ih hrest htake.2 fun d hd id hid => by
      have hout : ¬ Under all id c.id := fun hc => hothers d hd id hc hid
      rw [hfirst.kept id hout, hleft.2 d hd id hid]
    rw [List.map_cons, takeEach]
    refine ⟨?_, fun id hid => ?_, fun id hid => ?_⟩
    · change (take lists gone left c.id).value.toList ++ _ = _
      rw [hfirst.value_eq, hmore.value_eq]
      rfl
    · by_cases hlater : ∃ d ∈ rest, Under all id d.id
      · exact hmore.removed id hlater
      · obtain ⟨d, hd, hunder⟩ := hid
        rcases List.mem_cons.mp hd with rfl | hd
        · exact (hmore.kept id hlater).trans (hfirst.removed id hunder)
        · exact absurd ⟨d, hd, hunder⟩ hlater
    · have hlater : ¬ ∃ d ∈ rest, Under all id d.id := by
        rintro ⟨d, hd, hunder⟩
        exact hid ⟨d, List.mem_cons_of_mem _ hd, hunder⟩
      have hc : ¬ Under all id c.id := fun hunder => hid ⟨c, List.mem_cons_self, hunder⟩
      exact (hmore.kept id hlater).trans (hfirst.kept id hc)

namespace Closed

variable (hall : Closed all)
include hall

lemma pairwise_apart (host : Option String) :
    (level all host).Pairwise fun c d => ∀ id, Under all id c.id → ¬ Under all id d.id := by
  refine (hall.nodup_level host).imp_of_mem ?_
  intro c d hc hd hne id hidc hidd
  exact hne (hall.eq_of_under_of_mem_level hc hd hidc hidd)

/-- What is below a category shown in another is below that one too, and is not that one. -/
lemma under_of_mem_level {s c : Section} (hc : c ∈ level all (some s.id)) {id : String}
    (h : Under all id c.id) : Under all id s.id ∧ id ≠ s.id := by
  have hhost := (hall.mem_level_iff.mp hc).2
  refine ⟨h.tail hhost, ?_⟩
  rintro rfl
  have hle := hall.depth_le_of_under h
  have hdepth := hall.depth_of_hostOf? hhost
  omega

/-- A category that is there with all below it is taken with all below it, and nothing else
is. -/
theorem take_removes {s : Section} (hs : s ∈ all.values) {left : Table Section}
    (hleft : Intact all left s.id) :
    (take (childLists all) gone left s.id).Removes (some (subtree all s)) (Under all · s.id) := by
  induction s, hs using hall.section_induction generalizing left with
  | step s hs ih =>
    have hself : left.get? s.id = some s :=
      (hleft s.id .refl).trans (hall.get?_of_mem_values hs)
    have hbelow (c : Section) (hc : c ∈ level all (some s.id)) :
        Intact all (left.erase s.id) c.id := by
      intro id hid
      obtain ⟨hunder, hne⟩ := hall.under_of_mem_level hc hid
      rw [Table.get?_erase, if_neg hne, hleft id hunder]
    have horder : sortedBy gone (left.erase s.id) (((childLists all).get? s.id).getD []) =
        (level all (some s.id)).map (·.id) := by
      rw [getD_childLists]
      refine sortedBy_shownIn fun c hc => ?_
      rw [hbelow c hc c.id .refl, hall.get?_of_mem_values (hall.mem_level_iff.mp hc).1]
    have heach := takeEach_removes (hall.pairwise_apart (some s.id))
      (fun c hc left hleft => ih c hc hleft) hbelow
    obtain ⟨hvalue, hrest⟩ := take_of_get? hself
    rw [horder] at hvalue hrest
    refine ⟨?_, fun id hid => ?_, fun id hid => ?_⟩
    · rw [hvalue, heach.value_eq, ← hall.subtree_eq]
    · rw [hrest]
      rcases Relation.ReflTransGen.cases_tail hid with heq | ⟨child, hup, hhost⟩
      · have hout : ¬ ∃ c ∈ level all (some s.id), Under all id c.id := by
          rintro ⟨c, hc, hunder⟩
          exact (hall.under_of_mem_level hc hunder).2 heq.symm
        rw [heach.kept id hout, Table.get?_erase, if_pos heq.symm]
      · obtain ⟨c, hc, rfl⟩ := hall.exists_section (mem_keys_of_hostOf? _ _ hhost)
        exact heach.removed id ⟨c, hall.mem_level_iff.mpr ⟨hc, hhost⟩, hup⟩
    · have hout : ¬ ∃ c ∈ level all (some s.id), Under all id c.id := by
        rintro ⟨c, hc, hunder⟩
        exact hid (hall.under_of_mem_level hc hunder).1
      have hne : id ≠ s.id := by
        rintro rfl
        exact hid .refl
      rw [hrest, heach.kept id hout, Table.get?_erase, if_neg hne]

/-- The run gives the nested categories in order, whatever key is kept for those that are
gone, and leaves nothing behind. -/
theorem takeTops_eq (gone : Bool ×ₗ Int ×ₗ Nat) :
    (takeTops gone all).value = (level all none).map (nest all all.size) ∧
      (takeTops gone all).rest.keys = [] := by
  have htops (s : Section) (hs : s ∈ level all none) : all.get? s.id = some s :=
    hall.get?_of_mem_values (hall.mem_level_iff.mp hs).1
  have heach : (takeEach (childLists all) gone all ((level all none).map (·.id))).Removes _ _ :=
    takeEach_removes (hall.pairwise_apart none)
      (fun c hc _ hleft => hall.take_removes (hall.mem_level_iff.mp hc).1 hleft)
      (fun _ _ _ _ => rfl)
  rw [takeTops, sortedBy_shownIn htops, hall.map_nest_top]
  refine ⟨heach.value_eq, List.eq_nil_iff_forall_not_mem.mpr fun id => ?_⟩
  rw [← Table.get?_eq_none_iff]
  by_cases hunder : ∃ c ∈ level all none, Under all id c.id
  · exact heach.removed id hunder
  · rw [heach.kept id hunder, Table.get?_eq_none_iff]
    intro hid
    obtain ⟨top, hkeys, htop, hup⟩ := hall.exists_top hid
    obtain ⟨s, hs, rfl⟩ := hall.exists_section hkeys
    exact hunder ⟨s, hall.mem_level_iff.mpr ⟨hs, htop⟩, hup⟩

end Closed

/-- An assembled palette is the tree that the run builds from the categories of its documents
and their parents. -/
theorem categories_eq_takeTops {catalog : Catalog} {v : Vocabulary} {sources : List Source}
    {p : Palette} (h : (assemble catalog v sources).2 = .ok p) (gone : Bool ×ₗ Int ×ₗ Nat) :
    ∃ docs, List.Forall₂ (Reads catalog) sources docs ∧
      p.categories = (takeTops gone (sectionsOf docs)).value ∧
      (takeTops gone (sectionsOf docs)).rest.keys = [] := by
  obtain ⟨docs, hdocs, hp⟩ := assemble_ok h
  obtain ⟨hvalue, hrest⟩ := (closed_sectionsOf docs).takeTops_eq gone
  exact ⟨docs, hdocs, hp.trans hvalue.symm, hrest⟩

end Palette

end BlockProgram
