import BlockProgram.Proofs.Merging
import BlockProgram.Proofs.Trails
import Mathlib.Data.Set.Card

/-!
# Nested categories

Every category is shown in exactly one place. A category whose parents lead back to it
stands at the top, so the way from a category to the one it is shown in never leads
round. The number of categories on that way grows by one with each level, and the
nesting, which is bounded by the number of all categories, therefore cuts nothing off.
-/
namespace BlockProgram

namespace Palette

/-- Following the step from the identifier leads back to it. -/
def Circular (step : String → Option String) (id : String) : Prop :=
  Relation.TransGen (fun a b => step a = some b) id id

/-! ### Hosts -/

/-- The category that the one of a name is shown in. -/
def hostOf? (all : Table Section) (id : String) : Option String :=
  (all.get? id).bind (host? all)

/-- The way up from the first category leads through the second. -/
def Under (all : Table Section) (a b : String) : Prop :=
  Relation.ReflTransGen (fun a b => hostOf? all a = some b) a b

variable {all : Table Section}

lemma map_id_values_of_keyed (hkeyed : ∀ {id s}, all.get? id = some s → s.id = id) :
    all.values.map (·.id) = all.keys := by
  rw [Table.values, Table.keys, List.map_map]
  refine List.map_congr_left ?_
  rintro ⟨id, s⟩ he
  exact hkeyed ((all.get?_eq_some_iff id s).mpr he)

lemma mem_keys_of_bind {β : Type} {f : Section → Option β} {id : String} {b : β}
    (h : (all.get? id).bind f = some b) : id ∈ all.keys := by
  obtain ⟨s, hs, -⟩ := Option.bind_eq_some_iff.mp h
  rw [Table.mem_keys_iff, hs, Option.isSome_some]

lemma mem_keys_of_hostOf? (id host : String) (h : hostOf? all id = some host) : id ∈ all.keys :=
  mem_keys_of_bind h

lemma leadsBack_iff (all : Table Section) (id : String) :
    leadsBack all id = true ↔ Circular (parent? all) id := by
  rw [leadsBack, beq_iff_eq]
  exact Trail.repeats_follow_eq_iff (fun _ _ => mem_keys_of_bind) all.length_keys id

lemma leadsBack_sectionsOf_iff (docs : List Document) (id : String) :
    leadsBack (sectionsOf docs) id = true ↔ Circular (declaredParent? docs) id := by
  rw [leadsBack_iff, funext (parent?_sectionsOf docs)]

instance (docs : List Document) (id : String) : Decidable (Circular (declaredParent? docs) id) :=
  decidable_of_iff _ (leadsBack_sectionsOf_iff docs id)

namespace Closed

variable (hall : Closed all)
include hall

lemma hostOf?_eq_some_iff {id host : String} :
    hostOf? all id = some host ↔ parent? all id = some host ∧ ¬ Circular (parent? all) id := by
  cases hs : all.get? id with
  | none => simp [hostOf?, parent?, hs]
  | some s =>
    have hid := hall.keyed hs
    by_cases hround : Circular (parent? all) id
    · have hback := (leadsBack_iff all id).mpr hround
      simp [hostOf?, host?, hs, hid, hback, hround]
    · have hback := mt (leadsBack_iff all id).mp hround
      simp [hostOf?, host?, parent?, hs, hid, hback, hround]

/-- A category shown in another is not on a round of parents, and so on none of hosts. -/
lemma not_circular_hostOf? (id : String) : ¬ Circular (hostOf? all) id := by
  intro hround
  obtain ⟨host, hhost, -⟩ := Relation.TransGen.head'_iff.mp hround
  have hparents : Circular (parent? all) id :=
    Relation.TransGen.mono (fun _ _ hab => (hall.hostOf?_eq_some_iff.mp hab).1) _ _ hround
  exact (hall.hostOf?_eq_some_iff.mp hhost).2 hparents

lemma hostOf?_mem_keys {id host : String} (h : hostOf? all id = some host) : host ∈ all.keys :=
  hall.parents (hall.hostOf?_eq_some_iff.mp h).1

lemma hostOf?_eq_none_iff {id : String} :
    hostOf? all id = none ↔ parent? all id = none ∨ Circular (parent? all) id := by
  rw [Option.eq_none_iff_forall_ne_some]
  simp only [ne_eq, hall.hostOf?_eq_some_iff, not_and_not_right]
  constructor
  · intro h
    cases hparent : parent? all id with
    | none => exact .inl rfl
    | some parent => exact .inr (h parent hparent)
  · rintro (hnone | hround) parent hparent
    · rw [hnone] at hparent
      cases hparent
    · exact hround

end Closed

/-! ### Depths -/

/-- The number of categories from one up to the top, itself included. -/
def depth (all : Table Section) (id : String) : Nat :=
  (Trail.follow (hostOf? all) all.size id).points.length

lemma depth_le (all : Table Section) (id : String) : depth all id ≤ all.size + 1 :=
  Trail.length_walk_le _ _ _

lemma depth_of_hostOf?_none {id : String} (h : hostOf? all id = none) : depth all id = 1 := by
  simp [depth, Trail.follow, Trail.walk, h]

namespace Closed

variable (hall : Closed all)
include hall

lemma depth_of_hostOf? {id host : String} (h : hostOf? all id = some host) :
    depth all id = depth all host + 1 := by
  have hpoints := Trail.follow_points_of_step mem_keys_of_hostOf? all.length_keys
    hall.not_circular_hostOf? h
  rw [depth, hpoints, List.length_cons, depth]

lemma depth_le_of_under {a b : String} (h : Under all a b) : depth all b ≤ depth all a := by
  induction h with
  | refl => exact le_rfl
  | tail _ hstep ih =>
    have := hall.depth_of_hostOf? hstep
    omega

/-- At one depth there is only one category on the way up from a category. -/
lemma eq_of_under_of_depth {a b c : String} (hb : Under all a b) (hc : Under all a c)
    (hdepth : depth all b = depth all c) : b = c := by
  have key {x y : String} (hdepth : depth all x = depth all y) (h : Under all x y) : x = y := by
    rcases Relation.ReflTransGen.cases_head h with rfl | ⟨z, hz, hzy⟩
    · rfl
    · have hstep := hall.depth_of_hostOf? hz
      have hle := hall.depth_le_of_under hzy
      omega
  have hunique : Relator.RightUnique fun a b => hostOf? all a = some b := by
    intro x y z hy hz
    exact Option.some.inj (hy.symm.trans hz)
  rcases Relation.ReflTransGen.total_of_right_unique hunique hb hc with h | h
  · exact key hdepth h
  · exact (key hdepth.symm h).symm

lemma exists_top {id : String} (hid : id ∈ all.keys) :
    ∃ top ∈ all.keys, hostOf? all top = none ∧ Under all id top := by
  obtain ⟨top, hreach, htop⟩ := Trail.exists_end mem_keys_of_hostOf? all.length_keys
    hall.not_circular_hostOf? id
  refine ⟨top, ?_, htop, hreach⟩
  rcases Relation.ReflTransGen.cases_tail hreach with rfl | ⟨before, -, hstep⟩
  · exact hid
  · exact hall.hostOf?_mem_keys hstep

/-! ### Levels -/

lemma get?_of_mem_values {s : Section} (hs : s ∈ all.values) : all.get? s.id = some s := by
  obtain ⟨id, hid⟩ := (all.mem_values_iff s).mp hs
  rw [hall.keyed hid, hid]

lemma exists_section {id : String} (hid : id ∈ all.keys) : ∃ s ∈ all.values, s.id = id := by
  obtain ⟨s, hs⟩ := Option.isSome_iff_exists.mp ((all.mem_keys_iff id).mp hid)
  exact ⟨s, (all.mem_values_iff s).mpr ⟨id, hs⟩, hall.keyed hs⟩

lemma eq_of_id_eq {s t : Section} (hs : s ∈ all.values) (ht : t ∈ all.values)
    (hid : s.id = t.id) : s = t := by
  have hget := hall.get?_of_mem_values hs
  rw [hid, hall.get?_of_mem_values ht] at hget
  exact (Option.some.inj hget).symm

lemma mem_level_iff {host : Option String} {s : Section} :
    s ∈ level all host ↔ s ∈ all.values ∧ hostOf? all s.id = host := by
  rw [level, List.mem_mergeSort, List.mem_filter, beq_iff_eq]
  refine and_congr_right fun hs => ?_
  rw [hostOf?, hall.get?_of_mem_values hs, Option.bind_some]

lemma map_id_values : all.values.map (·.id) = all.keys := map_id_values_of_keyed hall.keyed

lemma nodup_level (host : Option String) : (level all host).Nodup := by
  have hids : (all.values.map (·.id)).Nodup := by
    rw [hall.map_id_values]
    exact all.nodup_keys
  exact (List.mergeSort_perm _ _).nodup_iff.mpr (hids.of_map.filter _)

end Closed

/-! ### Subtrees -/

/-- A category as it is nested in the palette, below those that it is shown in. -/
def subtree (all : Table Section) (s : Section) : Category :=
  nest all (all.size + 1 - depth all s.id) s

lemma head_nest (all : Table Section) (bound : Nat) (s : Section) :
    (nest all bound s).head = s := by
  cases bound <;> rfl

@[simp] lemma head_subtree (all : Table Section) (s : Section) : (subtree all s).head = s :=
  head_nest all _ s

lemma flattenAll_eq_flatMap (categories : List Category) :
    flattenAll categories = categories.flatMap Category.flatten := by
  induction categories with
  | nil => rfl
  | cons c rest ih => rw [flattenAll, ih, List.flatMap_cons]

namespace Closed

variable (hall : Closed all)
include hall

/-- The bound on the nesting is never what ends it. -/
lemma subtree_eq (s : Section) :
    subtree all s = .node s ((level all (some s.id)).map (subtree all)) := by
  have hchild {c : Section} (hc : c ∈ level all (some s.id)) :
      depth all c.id = depth all s.id + 1 :=
    hall.depth_of_hostOf? (hall.mem_level_iff.mp hc).2
  cases hbound : all.size + 1 - depth all s.id with
  | zero =>
    have hnone : level all (some s.id) = [] := by
      refine List.eq_nil_iff_forall_not_mem.mpr fun c hc => ?_
      have hdepth := hchild hc
      have hle := depth_le all c.id
      omega
    rw [subtree, hbound, nest, hnone, List.map_nil]
  | succ bound =>
    rw [subtree, hbound, nest]
    congr 1
    refine List.map_congr_left fun c hc => ?_
    have hdepth := hchild hc
    have hrest : all.size + 1 - depth all c.id = bound := by omega
    rw [subtree, hrest]

lemma map_nest_top :
    (level all none).map (nest all all.size) = (level all none).map (subtree all) := by
  refine List.map_congr_left fun c hc => ?_
  rw [subtree, depth_of_hostOf?_none (hall.mem_level_iff.mp hc).2, Nat.add_sub_cancel]

lemma flatten_subtree (s : Section) :
    (subtree all s).flatten =
      subtree all s :: (level all (some s.id)).flatMap fun c => (subtree all c).flatten := by
  rw [hall.subtree_eq s, Category.flatten, flattenAll_eq_flatMap, List.flatMap_map]

/-- What holds of a category when it holds of those shown in it holds of all. -/
lemma section_induction {motive : (s : Section) → s ∈ all.values → Prop}
    (step : ∀ s hs, (∀ c (hc : c ∈ level all (some s.id)),
      motive c (hall.mem_level_iff.mp hc).1) → motive s hs)
    (s : Section) (hs : s ∈ all.values) : motive s hs := by
  -- The room below a category shrinks by one with each level.
  induction hroom : all.size + 1 - depth all s.id generalizing s with
  | zero =>
    refine step s hs fun c hc => ?_
    have hdepth := hall.depth_of_hostOf? (hall.mem_level_iff.mp hc).2
    have hle := depth_le all c.id
    omega
  | succ room ih =>
    refine step s hs fun c hc => ?_
    have hdepth := hall.depth_of_hostOf? (hall.mem_level_iff.mp hc).2
    exact ih c (hall.mem_level_iff.mp hc).1 (by omega)

/-- Below a category are those from which the way up leads to it. -/
lemma mem_flatten_subtree_iff {s : Section} (hs : s ∈ all.values) {c : Category} :
    c ∈ (subtree all s).flatten ↔
      ∃ t ∈ all.values, c = subtree all t ∧ Under all t.id s.id := by
  induction s, hs using hall.section_induction with
  | step s hs ih =>
    rw [hall.flatten_subtree, List.mem_cons, List.mem_flatMap]
    constructor
    · rintro (rfl | ⟨child, hchild, hc⟩)
      · exact ⟨s, hs, rfl, .refl⟩
      · obtain ⟨t, ht, rfl, hreach⟩ := (ih child hchild).mp hc
        exact ⟨t, ht, rfl, hreach.tail (hall.mem_level_iff.mp hchild).2⟩
    · rintro ⟨t, ht, rfl, hreach⟩
      rcases Relation.ReflTransGen.cases_tail hreach with hid | ⟨child, hup, hhost⟩
      · rw [hall.eq_of_id_eq hs ht hid]
        exact .inl rfl
      · obtain ⟨k, hk, rfl⟩ := hall.exists_section (mem_keys_of_hostOf? _ _ hhost)
        have hlevel := hall.mem_level_iff.mpr ⟨hk, hhost⟩
        exact .inr ⟨k, hlevel, (ih k hlevel).mpr ⟨t, ht, rfl, hup⟩⟩

lemma under_of_mem_ids {s : Section} (hs : s ∈ all.values) {id : String}
    (hid : id ∈ (subtree all s).flatten.map (·.head.id)) : Under all id s.id := by
  obtain ⟨c, hc, rfl⟩ := List.mem_map.mp hid
  obtain ⟨t, -, rfl, hreach⟩ := (hall.mem_flatten_subtree_iff hs).mp hc
  rwa [head_subtree]

/-- Categories shown side by side have none below them in common. -/
lemma eq_of_under_of_mem_level {host : Option String} {c d : Section} {id : String}
    (hc : c ∈ level all host) (hd : d ∈ level all host) (hidc : Under all id c.id)
    (hidd : Under all id d.id) : c = d := by
  obtain ⟨hcv, hchost⟩ := hall.mem_level_iff.mp hc
  obtain ⟨hdv, hdhost⟩ := hall.mem_level_iff.mp hd
  have hdepth : depth all c.id = depth all d.id := by
    cases host with
    | none => rw [depth_of_hostOf?_none hchost, depth_of_hostOf?_none hdhost]
    | some host => rw [hall.depth_of_hostOf? hchost, hall.depth_of_hostOf? hdhost]
  exact hall.eq_of_id_eq hcv hdv (hall.eq_of_under_of_depth hidc hidd hdepth)

lemma nodup_flatMap_level (host : Option String)
    (hnodup : ∀ c ∈ level all host, ((subtree all c).flatten.map (·.head.id)).Nodup) :
    (((level all host).flatMap fun c => (subtree all c).flatten).map (·.head.id)).Nodup := by
  rw [List.map_flatMap, List.nodup_flatMap]
  refine ⟨hnodup, (hall.nodup_level host).imp_of_mem ?_⟩
  intro c d hc hd hne id hidc hidd
  exact hne (hall.eq_of_under_of_mem_level hc hd
    (hall.under_of_mem_ids (hall.mem_level_iff.mp hc).1 hidc)
    (hall.under_of_mem_ids (hall.mem_level_iff.mp hd).1 hidd))

lemma nodup_flatten_subtree {s : Section} (hs : s ∈ all.values) :
    ((subtree all s).flatten.map (·.head.id)).Nodup := by
  induction s, hs using hall.section_induction with
  | step s hs ih =>
    rw [hall.flatten_subtree, List.map_cons, List.nodup_cons, head_subtree]
    refine ⟨fun hmem => ?_, hall.nodup_flatMap_level _ ih⟩
    rw [List.map_flatMap, List.mem_flatMap] at hmem
    obtain ⟨c, hc, hid⟩ := hmem
    obtain ⟨hcv, hhost⟩ := hall.mem_level_iff.mp hc
    have hle := hall.depth_le_of_under (hall.under_of_mem_ids hcv hid)
    have hdepth := hall.depth_of_hostOf? hhost
    omega

end Closed

/-! ### Palettes -/

section Views

variable (hall : Closed all) {p : Palette}
  (hp : p.categories = (level all none).map (nest all all.size))
include hall hp

lemma all_eq_flatMap : p.all = (level all none).flatMap fun c => (subtree all c).flatten := by
  rw [Palette.all, hp, hall.map_nest_top, flattenAll_eq_flatMap, List.flatMap_map]

lemma nodup_ids_all : (p.all.map (·.head.id)).Nodup := by
  rw [all_eq_flatMap hall hp]
  exact hall.nodup_flatMap_level none fun c hc =>
    hall.nodup_flatten_subtree (hall.mem_level_iff.mp hc).1

/-- Every category is found in the palette, since its way up ends at the top. -/
lemma mem_all_iff {c : Category} : c ∈ p.all ↔ ∃ s ∈ all.values, c = subtree all s := by
  rw [all_eq_flatMap hall hp, List.mem_flatMap]
  constructor
  · rintro ⟨top, htop, hc⟩
    obtain ⟨s, hs, rfl, -⟩ := (hall.mem_flatten_subtree_iff (hall.mem_level_iff.mp htop).1).mp hc
    exact ⟨s, hs, rfl⟩
  · rintro ⟨s, hs, rfl⟩
    have hkey : s.id ∈ all.keys := by
      rw [← hall.map_id_values]
      exact List.mem_map_of_mem hs
    obtain ⟨top, hkeys, htop, hreach⟩ := hall.exists_top hkey
    obtain ⟨t, ht, rfl⟩ := hall.exists_section hkeys
    exact ⟨t, hall.mem_level_iff.mpr ⟨ht, htop⟩,
      (hall.mem_flatten_subtree_iff ht).mpr ⟨s, hs, rfl, hreach⟩⟩

lemma mem_ids_all_iff (id : String) : id ∈ p.all.map (·.head.id) ↔ id ∈ all.keys := by
  rw [← hall.map_id_values]
  simp [mem_all_iff hall hp]

lemma mem_ids_categories_iff (id : String) :
    id ∈ p.categories.map (·.head.id) ↔ id ∈ all.keys ∧ hostOf? all id = none := by
  rw [← hall.map_id_values, hp, hall.map_nest_top]
  simp only [List.map_map, List.mem_map, Function.comp_apply, head_subtree, hall.mem_level_iff]
  constructor
  · rintro ⟨s, ⟨hs, htop⟩, rfl⟩
    exact ⟨⟨s, hs, rfl⟩, htop⟩
  · rintro ⟨⟨s, hs, rfl⟩, htop⟩
    exact ⟨s, ⟨hs, htop⟩, rfl⟩

lemma exists_host {id host : String} (h : hostOf? all id = some host) :
    ∃ c ∈ p.all, c.head.id = host ∧ id ∈ c.children.map (·.head.id) := by
  obtain ⟨s, hs, rfl⟩ := hall.exists_section (hall.hostOf?_mem_keys h)
  obtain ⟨t, ht, rfl⟩ := hall.exists_section (mem_keys_of_hostOf? _ _ h)
  refine ⟨subtree all s, (mem_all_iff hall hp).mpr ⟨s, hs, rfl⟩, by rw [head_subtree], ?_⟩
  rw [hall.subtree_eq, Category.children]
  simp only [List.map_map, List.mem_map, Function.comp_apply, head_subtree]
  exact ⟨t, hall.mem_level_iff.mpr ⟨ht, h⟩, rfl⟩

lemma count_eq_size : p.count = all.size := by
  have hperm : (p.all.map (·.head.id)).Perm all.keys :=
    (List.perm_ext_iff_of_nodup (nodup_ids_all hall hp) all.nodup_keys).mpr
      (mem_ids_all_iff hall hp)
  simpa [count] using hperm.length_eq

end Views

lemma isSome_category?_iff (p : Palette) (id : String) :
    (p.category? id).isSome = true ↔ id ∈ p.all.map (·.head.id) := by
  simp [category?]

/-- An assembled palette shows each category of its documents, and each of their parents,
in one place: at the top if it has no parent or its parents lead back to it, and in its
parent otherwise. -/
theorem assemble_shows_each_category_once {catalog : Catalog} {v : Vocabulary}
    {sources : List Source} {p : Palette} (h : (assemble catalog v sources).2 = .ok p) :
    ∃ docs, List.Forall₂ (Reads catalog) sources docs ∧
      (p.all.map (·.head.id)).Nodup ∧
      (∀ id, id ∈ p.all.map (·.head.id) ↔ Known docs id) ∧
      (∀ id, id ∈ p.categories.map (·.head.id) ↔ Known docs id ∧
        (declaredParent? docs id = none ∨ Circular (declaredParent? docs) id)) ∧
      (∀ id parent, declaredParent? docs id = some parent →
        ¬ Circular (declaredParent? docs) id →
        ∃ c ∈ p.all, c.head.id = parent ∧ id ∈ c.children.map (·.head.id)) ∧
      (∀ id c, p.category? id = some c → c ∈ p.all ∧ c.head.id = id) ∧
      (∀ id, (p.category? id).isSome = true ↔ Known docs id) ∧
      p.count = {id | Known docs id}.ncard := by
  obtain ⟨docs, hdocs, hp⟩ := assemble_ok h
  have hall := closed_sectionsOf docs
  have hparents : parent? (sectionsOf docs) = declaredParent? docs :=
    funext (parent?_sectionsOf docs)
  have hids (id : String) : id ∈ p.all.map (·.head.id) ↔ Known docs id :=
    (mem_ids_all_iff hall hp id).trans (mem_keys_sectionsOf_iff docs id)
  refine ⟨docs, hdocs, nodup_ids_all hall hp, hids, fun id => ?_,
    fun id parent hparent hround => ?_, fun id c hc => ?_,
    fun id => (isSome_category?_iff p id).trans (hids id), ?_⟩
  · rw [mem_ids_categories_iff hall hp, hall.hostOf?_eq_none_iff, mem_keys_sectionsOf_iff, hparents]
  · refine exists_host hall hp (hall.hostOf?_eq_some_iff.mpr ?_)
    rw [hparents]
    exact ⟨hparent, hround⟩
  · exact ⟨List.mem_of_find?_eq_some hc, by simpa using List.find?_some hc⟩
  · have hset : {id | Known docs id} = ((sectionsOf docs).keys.toFinset : Set String) := by
      ext id
      simp [← mem_keys_sectionsOf_iff]
    rw [hset, Set.ncard_coe_finset, List.toFinset_card_of_nodup (Table.nodup_keys _),
      Table.length_keys, count_eq_size hall hp]

/-- A library without blocks. -/
def categorySource (id : String) (parent : List (String × Json)) : Source :=
  ⟨id, .object ([("category", .string id), ("contents", .array [])] ++ parent)⟩

/-- Two categories in each other, a third in one of them, one in itself, and one whose
second library names another parent than its first. -/
def tangledSources : List Source :=
  [categorySource "tail" [("parent", .string "left")],
    categorySource "left" [("parent", .string "right")],
    categorySource "right" [("parent", .string "left")],
    categorySource "self" [("parent", .string "self")],
    categorySource "sensors" [("parent", .string "io")],
    categorySource "sensors" [("parent", .string "other")]]

theorem tangledSources_assemble :
    ∃ p, (assemble {} {} tangledSources).2 = .ok p ∧ p.count = 6 ∧
      (∀ id, id ∈ p.categories.map (·.head.id) ↔ id ∈ ["left", "right", "self", "io"]) ∧
      (∃ c ∈ p.all, c.head.id = "left" ∧ "tail" ∈ c.children.map (·.head.id)) ∧
      p.category? "other" = none := by
  have hload : (Loaded.addSources {} {} {} 0 tangledSources).sections.toOption.map Table.keys =
      some ["tail", "left", "right", "self", "sensors"] := by decide +kernel
  obtain ⟨sections, hsections, -⟩ := exists_ok_of_map hload
  have hassemble : (assemble {} {} tangledSources).2 = .ok (ofSections sections) :=
    map_eq_ok.mpr ⟨sections, hsections, rfl⟩
  obtain ⟨docs, hdocs, -, -, htop, hnested, -, hfound, hcount⟩ :=
    assemble_shows_each_category_once hassemble
  obtain rfl := eq_documents_of_reads hdocs
  have hkeys : (sectionsOf (documents {} tangledSources)).keys =
      ["tail", "left", "right", "self", "sensors", "io"] := by decide +kernel
  have hknown (id : String) : Known (documents {} tangledSources) id ↔
      id ∈ ["tail", "left", "right", "self", "sensors", "io"] := by
    rw [← mem_keys_sectionsOf_iff, hkeys]
  refine ⟨_, hassemble, ?_, fun id => (htop id).trans ?_,
    hnested "tail" "left" (by decide +kernel) (by decide +kernel), ?_⟩
  · have hset : {id | Known (documents {} tangledSources) id} =
        (["tail", "left", "right", "self", "sensors", "io"].toFinset : Set String) := by
      ext id
      simp [hknown]
    rw [hcount, hset, Set.ncard_coe_finset]
    decide
  · have hplaces : ∀ id ∈ ["tail", "left", "right", "self", "sensors", "io"],
        (declaredParent? (documents {} tangledSources) id = none ∨
          Circular (declaredParent? (documents {} tangledSources)) id) ↔
        id ∈ ["left", "right", "self", "io"] := by decide +kernel
    rw [hknown]
    constructor
    · rintro ⟨hid, hplace⟩
      exact (hplaces id hid).mp hplace
    · intro hid
      have hmem : id ∈ ["tail", "left", "right", "self", "sensors", "io"] := by
        revert id
        decide
      exact ⟨hmem, (hplaces id hmem).mpr hid⟩
  · rw [← Option.not_isSome_iff_eq_none, hfound]
    decide +kernel

end Palette

end BlockProgram
