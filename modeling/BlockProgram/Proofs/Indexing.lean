import BlockProgram.Proofs.Editing
import BlockProgram.Proofs.Reading
import BlockProgram.Session

/-!
# The index of constructors agrees with the vocabulary

Every definition is registered under its own type. For such a vocabulary the index
rebuilt from it knows, for each type, exactly the constructor that the definition of
the type declares, and of the types that construct instances of one system it finds
the least.
-/
namespace BlockProgram

namespace Table

variable {α : Type}

lemma insertEntry_of_not_mem {key : String} (value : α) {entries : List (String × α)}
    (h : key ∉ entries.map Prod.fst) :
    insertEntry key value entries = entries ++ [(key, value)] := by
  induction entries with
  | nil => rfl
  | cons e rest ih =>
    obtain ⟨k, v⟩ := e
    rw [List.map_cons, List.mem_cons, not_or] at h
    rw [insertEntry, if_neg (Ne.symm h.1), ih h.2, List.cons_append]

lemma entries_foldl_insert (t : Table α) (more : List (String × α))
    (h : ((t.entries ++ more).map Prod.fst).Nodup) :
    (more.foldl (fun t e => t.insert e.1 e.2) t).entries = t.entries ++ more := by
  induction more generalizing t with
  | nil => simp
  | cons e more ih =>
    have hnew : e.1 ∉ t.entries.map Prod.fst := by
      rw [List.map_append, List.map_cons] at h
      intro hmem
      exact (List.nodup_append.mp h).2.2 _ hmem e.1 (by simp) rfl
    have hentries : (t.insert e.1 e.2).entries = t.entries ++ [e] :=
      insertEntry_of_not_mem e.2 hnew
    rw [List.foldl_cons, ih, hentries, List.append_assoc, List.singleton_append]
    rw [hentries, List.append_assoc, List.singleton_append]
    exact h

/-- Entries with different keys make a table of just these entries. -/
theorem entries_ofList {entries : List (String × α)} (h : (entries.map Prod.fst).Nodup) :
    (ofList entries).entries = entries := by
  have := entries_foldl_insert empty entries h
  simpa [ofList, empty] using this

end Table

/-! ### Vocabularies by type -/

namespace Vocabulary

/-- Every definition stands under its own type. -/
def KeyedByType (v : Vocabulary) : Prop :=
  ∀ type d, v.definition? type = some d → d.type = type

/-- The constructor that the definition of a type declares. -/
def constructor? (v : Vocabulary) (type : String) : Option Constructor :=
  (v.definition? type).bind Definition.constructs

theorem keyedByType_empty : KeyedByType {} := by
  intro type d h
  simp [definition?, get?, Table.get?] at h

lemma definition?_register {v v' : Vocabulary} {library : String} {imports : List String}
    {d : Definition} (h : v.register library imports d = .ok v') (type : String) :
    v'.definition? type = if type = d.type then some d else v.definition? type := by
  unfold Vocabulary.register at h
  split at h
  · cases h
  · cases h
    simp only [definition?, get?, Table.get?_insert]
    split <;> rfl

theorem KeyedByType.register {v v' : Vocabulary} {library : String} {imports : List String}
    {d : Definition} (hv : v.KeyedByType) (h : v.register library imports d = .ok v') :
    v'.KeyedByType := by
  intro type d' hd
  rw [definition?_register h] at hd
  split at hd
  · next heq =>
    cases hd
    exact heq.symm
  · exact hv type d' hd

/-- Every definition is sound. -/
def Sound (v : Vocabulary) : Prop := ∀ type d, v.definition? type = some d → d.Sound

/-- Every definition comes out of a document. -/
def IsRead (v : Vocabulary) : Prop := ∀ type d, v.definition? type = some d → d.IsRead

lemma IsRead.register {v v' : Vocabulary} {library : String} {imports : List String}
    {d : Definition} (hv : v.IsRead) (hd : d.IsRead) (h : v.register library imports d = .ok v') :
    v'.IsRead := by
  intro type d' hd'
  rw [definition?_register h] at hd'
  split at hd'
  · cases hd'
    exact hd
  · exact hv type d' hd'

/-- What every single registration keeps is kept by registering many definitions,
also when one of them is rejected. -/
lemma registerAll_induction {P : Vocabulary → Prop} {Q : Definition → Prop}
    (hP : ∀ {v v' : Vocabulary} {library : String} {imports : List String} {d : Definition},
      P v → Q d → v.register library imports d = .ok v' → P v')
    (library : String) (imports : List String) {v : Vocabulary} (hv : P v)
    {ds : List Definition} (hds : ∀ d ∈ ds, Q d) : P (registerAll library imports v ds).1 := by
  induction ds generalizing v with
  | nil => exact hv
  | cons d rest ih =>
    rw [List.forall_mem_cons] at hds
    rw [registerAll]
    cases hreg : v.register library imports d with
    | ok v' => exact ih (hP hv hds.1 hreg) hds.2
    | error failure => exact hv

section Loading

variable {P : Vocabulary → Prop}
  (hP : ∀ {v v' : Vocabulary} {library : String} {imports : List String} {d : Definition},
    P v → d.IsRead → v.register library imports d = .ok v' → P v')
include hP

lemma addSource_induction (catalog : Catalog) {v : Vocabulary} (hv : P v)
    (sections : Table Palette.Section) (index : Nat) (source : Source) :
    P (Loaded.addSource catalog v sections index source).vocabulary := by
  unfold Loaded.addSource
  split
  · exact hv
  · next doc hread =>
    have hdoc := registerAll_induction hP doc.category doc.imports hv
      (Document.isRead_of_ofJson hread)
    split
    · next hreg => rw [registerDocument] at hreg; rwa [hreg] at hdoc
    · next hreg => rw [registerDocument] at hreg; rwa [hreg] at hdoc

lemma addSources_induction (catalog : Catalog) {v : Vocabulary} (hv : P v)
    (sections : Table Palette.Section) (index : Nat) (sources : List Source) :
    P (Loaded.addSources catalog v sections index sources).vocabulary := by
  induction sources generalizing v sections index with
  | nil => exact hv
  | cons source rest ih =>
    have hone := addSource_induction hP catalog hv sections index source
    rw [Loaded.addSources]
    split
    · exact ih hone _ _
    · exact hone

/-- What every registration of a definition that was read keeps holds after a load,
successful or not. -/
theorem load_induction (hempty : P {}) (s : Session) (sources : List Source) :
    P (s.load sources).1.vocabulary := by
  have h : P (Palette.assemble s.catalog {} sources).1 :=
    addSources_induction hP s.catalog hempty {} 0 sources
  unfold Session.load
  dsimp only
  split <;> exact h

end Loading

theorem keyedByType_load (s : Session) (sources : List Source) :
    (s.load sources).1.vocabulary.KeyedByType :=
  load_induction (fun hv _ hreg => hv.register hreg) keyedByType_empty s sources

theorem isRead_load (s : Session) (sources : List Source) :
    (s.load sources).1.vocabulary.IsRead :=
  load_induction IsRead.register (fun _ _ h => by cases h) s sources

theorem sound_load (s : Session) (sources : List Source) : (s.load sources).1.vocabulary.Sound :=
  fun type d hd => (isRead_load s sources type d hd).sound

lemma KeyedByType.registerHost {v : Vocabulary} (hv : v.KeyedByType) (type : String)
    (kind : BlockKind) (code : HostCode) : (v.registerHost type kind code).KeyedByType := by
  intro type' d hd
  simp only [definition?, get?, Vocabulary.registerHost, Table.get?_insert] at hd
  split at hd
  · cases hd
  · exact hv type' d hd

/-- The vocabularies that registrations lead to, of definitions or of scripts. -/
inductive Built : Vocabulary → Prop
  | empty : Built {}
  | register {v v' : Vocabulary} {library : String} {imports : List String} {d : Definition}
      (built : Built v) (h : v.register library imports d = .ok v') : Built v'
  | registerHost {v : Vocabulary} (built : Built v) (type : String) (kind : BlockKind)
      (code : HostCode) : Built (v.registerHost type kind code)

theorem Built.keyedByType {v : Vocabulary} (h : v.Built) : v.KeyedByType := by
  induction h with
  | empty => exact keyedByType_empty
  | register _ hreg ih => exact ih.register hreg
  | registerHost _ type kind code ih => exact ih.registerHost type kind code

theorem built_load (s : Session) (sources : List Source) : (s.load sources).1.vocabulary.Built :=
  load_induction (fun hv _ hreg => hv.register hreg) .empty s sources

/-- Blocks of the type construct the instances of a system: of the types whose
definitions say so, it is the least. -/
structure Constructs (v : Vocabulary) (system type : String) (c : Constructor) : Prop where
  declared : v.constructor? type = some c
  system_eq : c.system = system
  least : ∀ type' c', v.constructor? type' = some c' → c'.system = system → type ≤ type'

lemma Constructs.unique {v : Vocabulary} {system type type' : String} {c c' : Constructor}
    (h : v.Constructs system type c) (h' : v.Constructs system type' c') :
    type = type' ∧ c = c' := by
  obtain rfl : type = type' :=
    String.le_antisymm (h.least _ _ h'.declared h'.system_eq) (h'.least _ _ h.declared h.system_eq)
  exact ⟨rfl, Option.some.inj (h.declared.symm.trans h'.declared)⟩

end Vocabulary

/-! ### The index -/

namespace InstanceIndex

/-- The constructors of a vocabulary with their types, in the order of registration. -/
lemma mem_declared_iff {v : Vocabulary} (hv : v.KeyedByType) (type : String) (c : Constructor) :
    (type, c) ∈ v.definitions.filterMap (fun d => d.constructs.map (d.type, ·)) ↔
      v.constructor? type = some c := by
  simp only [Vocabulary.constructor?, Option.bind_eq_some_iff, List.mem_filterMap,
    Option.map_eq_some_iff, Prod.mk.injEq]
  constructor
  · rintro ⟨d, hd, c', hc, rfl, rfl⟩
    obtain ⟨r, hr, hrd⟩ := List.mem_filterMap.mp hd
    obtain ⟨key, hkey⟩ := (Table.mem_values_iff v.types r).mp hr
    have hdef : v.definition? key = some d := by
      rw [Vocabulary.definition?, Vocabulary.get?, hkey]
      exact hrd
    exact ⟨d, by rw [hv key d hdef]; exact hdef, hc⟩
  · rintro ⟨d, hd, hc⟩
    refine ⟨d, ?_, c, hc, hv type d hd, rfl⟩
    obtain ⟨r, hr, hrd⟩ := Option.bind_eq_some_iff.mp hd
    exact List.mem_filterMap.mpr ⟨r, (Table.mem_values_iff v.types r).mpr ⟨type, hr⟩, hrd⟩

lemma nodup_declared {v : Vocabulary} (hv : v.KeyedByType) :
    ((v.definitions.filterMap fun d => d.constructs.map (d.type, ·)).map Prod.fst).Nodup := by
  -- The types listed are keys of the vocabulary, in order, with some left out.
  have hsub : ((v.definitions.filterMap fun d => d.constructs.map (d.type, ·)).map Prod.fst).Sublist
      v.types.keys := by
    have hkey : ∀ e ∈ v.types.entries, ∀ d, e.2.definition? = some d → d.type = e.1 := by
      intro e he d hd
      apply hv
      rw [Vocabulary.definition?, Vocabulary.get?, (v.types.get?_eq_some_iff e.1 e.2).mpr he]
      exact hd
    unfold Vocabulary.definitions Table.values Table.keys
    generalize v.types.entries = entries at hkey
    induction entries with
    | nil => simp
    | cons e rest ih =>
      have hrest := ih fun e' he' => hkey e' (List.mem_cons_of_mem _ he')
      rw [List.map_cons, List.map_cons]
      cases hd : e.2.definition? with
      | none =>
        rw [List.filterMap_cons_none hd]
        exact hrest.cons _
      | some d =>
        rw [List.filterMap_cons_some hd]
        cases hc : d.constructs with
        | none =>
          rw [List.filterMap_cons_none (by simp [hc])]
          exact hrest.cons _
        | some c =>
          rw [List.filterMap_cons_some (by simp [hc]; rfl), List.map_cons,
            hkey e (by simp) d hd]
          exact hrest.cons_cons _
  exact v.types.nodup_keys.sublist hsub

lemma constructorsOf_empty : constructorsOf {} = {} := by
  simp [constructorsOf, sortedConstructors, Vocabulary.definitions, Table.values, Table.ofList, Table.empty]

lemma nodup_sortedConstructors {v : Vocabulary} (hv : v.KeyedByType) :
    ((sortedConstructors v).map Prod.fst).Nodup := by
  have hperm := List.mergeSort_perm
    (v.definitions.filterMap fun d => d.constructs.map (d.type, ·)) (fun a b => a.1 ≤ b.1)
  exact (hperm.map Prod.fst).nodup_iff.mpr (nodup_declared hv)

lemma entries_constructorsOf {v : Vocabulary} (hv : v.KeyedByType) :
    (constructorsOf v).entries = sortedConstructors v :=
  Table.entries_ofList (nodup_sortedConstructors hv)

lemma mem_constructorsOf_iff {v : Vocabulary} (hv : v.KeyedByType) (type : String)
    (c : Constructor) :
    (type, c) ∈ (constructorsOf v).entries ↔ v.constructor? type = some c := by
  rw [entries_constructorsOf hv, sortedConstructors, List.mem_mergeSort, mem_declared_iff hv]

theorem get?_rebuild (x : InstanceIndex) {v : Vocabulary} (hv : v.KeyedByType) (type : String) :
    (x.rebuild v).get? type = v.constructor? type := by
  ext c
  rw [← mem_constructorsOf_iff hv, ← Table.get?_eq_some_iff]
  rfl

lemma pairwise_constructorsOf {v : Vocabulary} (hv : v.KeyedByType) :
    (constructorsOf v).entries.Pairwise fun a b => a.1 ≤ b.1 := by
  rw [entries_constructorsOf hv]
  have hsorted := @List.pairwise_mergeSort _ (fun a b : String × Constructor => a.1 ≤ b.1)
    (fun a b c hab hbc => by simpa using String.le_trans (by simpa using hab) (by simpa using hbc))
    (fun a b => by simpa using String.le_total a.1 b.1)
    (v.definitions.filterMap fun d => d.constructs.map (d.type, ·))
  exact hsorted.imp of_decide_eq_true

/-- The index is determined by the constructors that the definitions declare, in whatever
order the definitions were registered. -/
theorem constructorsOf_congr {v v' : Vocabulary} (hv : v.KeyedByType) (hv' : v'.KeyedByType)
    (h : ∀ type, v.constructor? type = v'.constructor? type) :
    constructorsOf v = constructorsOf v' := by
  have hperm : (constructorsOf v).entries.Perm (constructorsOf v').entries := by
    refine (List.perm_ext_iff_of_nodup (constructorsOf v).nodup.of_map
      (constructorsOf v').nodup.of_map).mpr ?_
    rintro ⟨type, c⟩
    rw [mem_constructorsOf_iff hv, mem_constructorsOf_iff hv', h]
  refine Table.ext_entries (hperm.eq_of_pairwise ?_ (pairwise_constructorsOf hv)
    (pairwise_constructorsOf hv'))
  -- Entries that stand on either side of each other have one type, and so are one.
  rintro ⟨type, c⟩ ⟨type', c'⟩ hc hc' hle hge
  obtain rfl : type = type' := String.le_antisymm hle hge
  rw [mem_constructorsOf_iff hv] at hc
  rw [mem_constructorsOf_iff hv', ← h, hc] at hc'
  cases hc'
  rfl

/-- The index finds the type that constructs the instances of a system. -/
theorem constructor?_rebuild_eq_some_iff (x : InstanceIndex) {v : Vocabulary}
    (hv : v.KeyedByType) (system type : String) (c : Constructor) :
    (x.rebuild v).constructor? system = some (type, c) ↔ v.Constructs system type c := by
  have hfound {type : String} {c : Constructor}
      (h : (x.rebuild v).constructor? system = some (type, c)) : v.Constructs system type c := by
    obtain ⟨hsystem, before, after, hsplit, hbefore⟩ := List.find?_eq_some_iff_append.mp h
    change (constructorsOf v).entries = _ at hsplit
    have hmem := mem_constructorsOf_iff hv
    have hsorted := pairwise_constructorsOf hv
    rw [hsplit] at hmem hsorted
    refine ⟨(hmem type c).mp (by simp), by simpa using hsystem, fun type' c' hc' hsystem' => ?_⟩
    rcases List.mem_append.mp ((hmem type' c').mpr hc') with hin | hin
    · have := hbefore _ hin
      simp [hsystem'] at this
    · rcases List.mem_cons.mp hin with heq | hin
      · cases heq
        exact String.le_refl _
      · exact (List.pairwise_cons.mp (List.pairwise_append.mp hsorted).2.1).1 _ hin
  refine ⟨hfound, fun h => ?_⟩
  cases hfind : (x.rebuild v).constructor? system with
  | none =>
    have hmem := (mem_constructorsOf_iff hv type c).mpr h.declared
    have := List.find?_eq_none.mp hfind _ hmem
    simp [h.system_eq] at this
  | some e =>
    obtain ⟨type', c'⟩ := e
    obtain ⟨rfl, rfl⟩ := h.unique (hfound hfind)
    rfl

end InstanceIndex

end BlockProgram
