import BlockProgram.Proofs.Offering
import BlockProgram.Proofs.Ordering

/-!
# A dropdown lists each value once, and nothing else

A dropdown over the instances of a system has to list what stands for an instance of the
system, and the values that are stored, whatever they stand for. These may have values in
common. Of the choices with one value the first is kept, so dropping the others loses no
value and leaves none twice, and sorting by labels afterwards changes neither.
-/
namespace BlockProgram

namespace Choice

/-- Values that repeat are dropped, and so are those seen before. -/
lemma nodup_values_distinct (seen : List String) (choices : List Choice) :
    ((distinct seen choices).map Choice.value).Nodup ∧
      ∀ value ∈ (distinct seen choices).map Choice.value, value ∉ seen := by
  induction choices generalizing seen with
  | nil => simp [distinct]
  | cons c rest ih =>
    rw [distinct]
    split
    · exact ih seen
    · next hnew =>
      obtain ⟨hnodup, hunseen⟩ := ih (c.value :: seen)
      rw [List.map_cons, List.nodup_cons, List.forall_mem_cons]
      refine ⟨⟨fun hmem => hunseen _ hmem List.mem_cons_self, hnodup⟩, by simpa using hnew,
        fun value hvalue hseen => hunseen value hvalue (List.mem_cons_of_mem _ hseen)⟩

lemma pairwise_sorted (choices : List Choice) :
    (choices.mergeSort fun a b => Text.naturalLe a.label b.label).Pairwise
      fun a b => Text.naturalOrder a.label b.label ≠ .gt := by
  have hsorted := @List.pairwise_mergeSort Choice
    (fun a b => Text.naturalLe a.label b.label)
    (fun a b c => Text.naturalLe_trans) (fun a b => Text.naturalLe_total a.label b.label) choices
  exact hsorted.imp fun h => by simpa [Text.naturalLe] using h

end Choice

namespace InstanceIndex

/-- The choices of a dropdown over a system in which values may be stored: whatever stands
for an instance, and each stored value that is not empty and not that of none. -/
inductive Lists (x : InstanceIndex) (v : Vocabulary) (w : Workspace) (system : String)
    (current restoring : Option String) : Choice → Prop
  | offered {o : Choice} {code : String} (offers : x.Offers v w system o code) :
      Lists x v w system current restoring o
  | stored {value : String} (kept : current = some value ∨ restoring = some value)
      (given : value ≠ "") (chosen : value ≠ x.noInstance.value) :
      Lists x v w system current restoring ⟨(x.rebuild v).label w value, value⟩

variable {v : Vocabulary} {x : InstanceIndex} {w : Workspace} {system : String}
  {current restoring : Option String}

lemma mem_storedChoices_iff {stored : List String} {o : Choice} :
    o ∈ x.storedChoices w stored ↔
      ∃ value ∈ stored, value ≠ "" ∧ value ≠ x.noInstance.value ∧ ⟨x.label w value, value⟩ = o := by
  simp [storedChoices, and_assoc]

lemma mem_listing_iff (hv : v.KeyedByType) {o : Choice} :
    o ∈ (x.rebuild v).listing w system current restoring ↔
      x.Lists v w system current restoring o := by
  rw [listing, List.mem_append, List.mem_append]
  constructor
  · rintro ((hplain | hvirtual) | hstored)
    · obtain ⟨code, hoffers⟩ := exists_offers_of_mem_plainChoices hv hplain
      exact .offered hoffers
    · obtain ⟨code, hoffers⟩ := exists_offers_of_mem_virtualChoices hv hvirtual
      exact .offered hoffers
    · obtain ⟨value, hmem, hgiven, hchosen, rfl⟩ := mem_storedChoices_iff.mp hstored
      exact .stored (by simpa using hmem) hgiven hchosen
  · rintro (hoffers | ⟨hkept, hgiven, hchosen⟩)
    · exact .inl (hoffers.mem_listed hv)
    · exact .inr (mem_storedChoices_iff.mpr ⟨_, by simpa using hkept, hgiven, hchosen, rfl⟩)

/-- The values on offer are those of the choices to list, or that of none where there are
no such choices. -/
lemma mem_values_choices_iff (hv : v.KeyedByType) {value : String} :
    value ∈ ((x.rebuild v).choices w system current restoring).map Choice.value ↔
      (∃ label, x.Lists v w system current restoring ⟨label, value⟩) ∨
        value = x.noInstance.value ∧ ∀ o, ¬ x.Lists v w system current restoring o := by
  simp only [← mem_listing_iff hv]
  constructor
  · intro h
    obtain ⟨o, ho, rfl⟩ := List.mem_map.mp h
    rcases (x.rebuild v).choices_cases w system current restoring with ⟨hnil, heq⟩ | ⟨-, heq⟩
    · rw [heq, List.mem_singleton] at ho
      exact .inr ⟨congrArg Choice.value ho, by simp [hnil]⟩
    · rw [heq, List.mem_mergeSort] at ho
      exact .inl ⟨o.label, Choice.mem_of_mem_distinct ho⟩
  · rintro (⟨label, hlisted⟩ | ⟨rfl, hnone⟩)
    · exact mem_values_choices_of_mem_listing hlisted
    · rcases (x.rebuild v).choices_cases w system current restoring with ⟨-, heq⟩ | ⟨hne, -⟩
      · rw [heq]
        exact List.mem_singleton_self _
      · exact absurd (List.eq_nil_iff_forall_not_mem.mpr hnone) hne

/-- If there is nothing to list, the dropdown has the choice of none only. Otherwise its
choices are among those to list, with each of their values exactly once, and their labels
are in natural order. -/
theorem choices_exact (hv : v.Built) (x : InstanceIndex) (w : Workspace) (system : String)
    (current restoring : Option String) :
    let listed := {value | ∃ label, x.Lists v w system current restoring ⟨label, value⟩}
    let choices := (x.rebuild v).choices w system current restoring
    (listed = ∅ → choices = [x.noInstance]) ∧
    (listed.Nonempty →
      (choices.map Choice.value).Nodup ∧ {value | value ∈ choices.map Choice.value} = listed ∧
      (∀ o ∈ choices, x.Lists v w system current restoring o) ∧
      (choices.map Choice.label).Pairwise fun a b => Text.naturalOrder a b ≠ .gt) := by
  intro listed choices
  have hlisted {o : Choice} : o ∈ (x.rebuild v).listing w system current restoring ↔
      x.Lists v w system current restoring o := mem_listing_iff hv.keyedByType
  rcases (x.rebuild v).choices_cases w system current restoring with ⟨hnil, heq⟩ | ⟨hne, heq⟩
  all_goals change choices = _ at heq
  · refine ⟨fun _ => heq, ?_⟩
    rintro ⟨value, label, hlists⟩
    rw [← hlisted, hnil] at hlists
    cases hlists
  · refine ⟨fun hempty => ?_, fun hnonempty => ⟨?_, ?_, fun o ho => ?_, ?_⟩⟩
    · obtain ⟨o, ho⟩ := List.exists_mem_of_ne_nil _ hne
      have hvalue : o.value ∈ listed := ⟨o.label, hlisted.mp ho⟩
      rw [hempty] at hvalue
      cases hvalue
    · rw [heq]
      exact ((List.mergeSort_perm _ _).map Choice.value).nodup_iff.mpr
        (Choice.nodup_values_distinct [] _).1
    · ext value
      refine (mem_values_choices_iff hv.keyedByType).trans ⟨?_, .inl⟩
      rintro (hvalue | ⟨-, hnone⟩)
      · exact hvalue
      · obtain ⟨value', label, hlists⟩ := hnonempty
        exact absurd hlists (hnone _)
    · rw [heq, List.mem_mergeSort] at ho
      exact hlisted.mp (Choice.mem_of_mem_distinct ho)
    · rw [heq, List.pairwise_map]
      exact Choice.pairwise_sorted _

end InstanceIndex

/-- The plug holds the port `b` already, and a port that is gone is about to be restored. -/
theorem plugWorkspace_lists_stored :
    let choices := ((InstanceIndex.ofSettings {}).rebuild plugVocabulary).choices plugWorkspace
      "port" (some "b") (some "gone")
    (choices.map Choice.value).Nodup ∧
      (∀ value ∈ ["b", "gone", Reference.encode ⟨"motor", "m", "left"⟩],
        value ∈ choices.map Choice.value) ∧
      (choices.map Choice.label).Pairwise fun a b => Text.naturalOrder a b ≠ .gt := by
  intro choices
  have hbuilt : plugVocabulary.Built := Vocabulary.built_load _ _
  have hgone : (InstanceIndex.ofSettings {}).Lists plugVocabulary plugWorkspace "port" (some "b")
      (some "gone") ⟨_, "gone"⟩ := .stored (.inr rfl) (by decide) (by decide)
  obtain ⟨-, hexact⟩ := InstanceIndex.choices_exact hbuilt (InstanceIndex.ofSettings {})
    plugWorkspace "port" (some "b") (some "gone")
  obtain ⟨hnodup, hvalues, -, hsorted⟩ := hexact ⟨_, _, hgone⟩
  refine ⟨hnodup, ?_, hsorted⟩
  rw [Set.ext_iff] at hvalues
  rw [List.forall_mem_cons, List.forall_mem_cons, List.forall_mem_singleton]
  exact ⟨(hvalues "b").mpr ⟨_, .stored (.inl rfl) (by decide) (by decide)⟩,
    (hvalues "gone").mpr ⟨_, hgone⟩, (hvalues _).mpr ⟨_, .offered plugWorkspace_offers_left⟩⟩

end BlockProgram
