import BlockProgram.Proofs.Indexing
import BlockProgram.Proofs.Merging

/-!
# Look-ups kept beside the index

What the index finds by going through the constructors can also be kept in tables, which are
filled with the constructors one after the other. The type that constructs the instances of a
system is the first that comes, and a later one does not replace it. The types that provide
virtual instances of a system are listed as they come, each once, however many instances of the
system it provides. Filled from a vocabulary, the tables say what the index finds.
-/
namespace BlockProgram

/-- The constructors by type, and for each system the type that constructs its instances and
the types that provide virtual ones. -/
structure InstanceCache where
  constructors : Table Constructor := {}
  makers : Table String := {}
  providers : Table (List String) := {}

namespace InstanceCache

def addProvider (type : String) (providers : Table (List String)) (i : Virtual) :
    Table (List String) :=
  let known := (providers.get? i.instanceOf).getD []
  providers.insert i.instanceOf (if known.contains type then known else known ++ [type])

/-- Adds a constructor with its type. -/
def add (cache : InstanceCache) (e : String × Constructor) : InstanceCache where
  constructors := cache.constructors.insert e.1 e.2
  makers :=
    if cache.makers.contains e.2.system then cache.makers else cache.makers.insert e.2.system e.1
  providers := e.2.virtuals.foldl (addProvider e.1) cache.providers

def ofVocabulary (v : Vocabulary) : InstanceCache :=
  (InstanceIndex.sortedConstructors v).foldl add {}

lemma constructors_foldl_add (cache : InstanceCache) (entries : List (String × Constructor)) :
    (entries.foldl add cache).constructors =
      entries.foldl (fun t e => t.insert e.1 e.2) cache.constructors := by
  induction entries generalizing cache with
  | nil => rfl
  | cons e rest ih => rw [List.foldl_cons, ih, List.foldl_cons, add]

/-- The first type that constructs the instances of a system stays. -/
lemma get?_makers_foldl_add (cache : InstanceCache) (entries : List (String × Constructor))
    (system : String) : (entries.foldl add cache).makers.get? system =
      (cache.makers.get? system).or ((entries.find? (·.2.system == system)).map Prod.fst) := by
  induction entries generalizing cache with
  | nil => simp
  | cons e rest ih =>
    rw [List.foldl_cons, ih, add, Table.get?_insertNew, Option.or_assoc, List.find?_cons]
    by_cases hsystem : e.2.system = system
    · simp [hsystem]
    · have hne : (e.2.system == system) = false := by simpa using hsystem
      rw [if_neg hsystem, Option.none_or, hne]

/-- The types that provide virtual instances of a system, so far. -/
def providing (providers : Table (List String)) (system : String) : List String :=
  (providers.get? system).getD []

lemma providing_addProvider (type : String) (providers : Table (List String)) (i : Virtual)
    (system : String) : providing (addProvider type providers i) system =
      if i.instanceOf = system ∧ type ∉ providing providers system then
        providing providers system ++ [type]
      else providing providers system := by
  unfold addProvider
  by_cases hsystem : i.instanceOf = system
  · subst hsystem
    by_cases hknown : type ∈ (providers.get? i.instanceOf).getD [] <;> simp [providing, hknown]
  · have hne : system ≠ i.instanceOf := Ne.symm hsystem
    simp [providing, Table.get?_insert, hsystem, hne]

/-- A type is listed once, however many of its instances belong to the system. -/
lemma providing_foldl_addProvider (type : String) (providers : Table (List String))
    (virtuals : List Virtual) (system : String) :
    providing (virtuals.foldl (addProvider type) providers) system =
      if virtuals.any (·.instanceOf == system) = true ∧ type ∉ providing providers system then
        providing providers system ++ [type]
      else providing providers system := by
  induction virtuals generalizing providers with
  | nil => simp
  | cons i rest ih =>
    rw [List.foldl_cons, ih, providing_addProvider, List.any_cons]
    by_cases hsystem : i.instanceOf = system
    · by_cases hknown : type ∈ providing providers system
      · simp [hknown]
      · simp [hsystem, hknown]
    · simp [hsystem]

/-- Types that are not listed yet are listed in their order. -/
lemma providing_foldl_add (cache : InstanceCache) {entries : List (String × Constructor)}
    {system : String} (hnodup : (entries.map Prod.fst).Nodup)
    (hnew : ∀ e ∈ entries, e.1 ∉ providing cache.providers system) :
    providing (entries.foldl add cache).providers system = providing cache.providers system ++
      (entries.filter (·.2.virtuals.any (·.instanceOf == system))).map Prod.fst := by
  induction entries generalizing cache with
  | nil => simp
  | cons e rest ih =>
    obtain ⟨htype, hnodup⟩ := List.nodup_cons.mp hnodup
    rw [List.forall_mem_cons] at hnew
    have hadded : providing (cache.add e).providers system = providing cache.providers system ++
        if e.2.virtuals.any (·.instanceOf == system) then [e.1] else [] := by
      rw [add, providing_foldl_addProvider]
      by_cases hany : e.2.virtuals.any (·.instanceOf == system) = true
      · rw [if_pos ⟨hany, hnew.1⟩, if_pos hany]
      · rw [if_neg (fun h => hany h.1), if_neg hany, List.append_nil]
    have hrest (k : String × Constructor) (hk : k ∈ rest) :
        k.1 ∉ providing (cache.add e).providers system := by
      have hne : k.1 ≠ e.1 := fun heq => htype (heq ▸ List.mem_map_of_mem hk)
      rw [hadded, List.mem_append, not_or]
      refine ⟨hnew.2 k hk, ?_⟩
      split <;> simp [hne]
    rw [List.foldl_cons, ih (cache.add e) hnodup hrest, hadded, List.append_assoc,
      List.filter_cons]
    split <;> rfl

end InstanceCache

/-- The tables filled from a vocabulary say what the rebuilt index finds: the same constructors
by type, for each system the type that constructs its instances, and the types that provide
virtual ones, in order. -/
theorem InstanceIndex.rebuild_agrees_with_cache (x : InstanceIndex) {v : Vocabulary}
    (hv : v.KeyedByType) :
    let cache := InstanceCache.ofVocabulary v
    cache.constructors = (x.rebuild v).constructors ∧
      (∀ system, cache.makers.get? system =
        ((x.rebuild v).constructor? system).map Prod.fst) ∧
      ∀ system, (cache.providers.get? system).getD [] =
        ((x.rebuild v).providers system).map Prod.fst := by
  intro cache
  have hentries : (x.rebuild v).constructors.entries = sortedConstructors v :=
    entries_constructorsOf hv
  refine ⟨InstanceCache.constructors_foldl_add {} _, fun system => ?_, fun system => ?_⟩
  · rw [InstanceIndex.constructor?, hentries]
    exact InstanceCache.get?_makers_foldl_add {} _ system
  · rw [InstanceIndex.providers, hentries]
    refine InstanceCache.providing_foldl_add {} (nodup_sortedConstructors hv) fun e _ => ?_
    simp [InstanceCache.providing, Table.get?]

end BlockProgram
