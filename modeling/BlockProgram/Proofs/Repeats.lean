import Mathlib.Tactic

/-!
# Names without their repeats

`List.eraseDups` keeps each name where it comes first. It is described from the end of the
list: a name added there stays if it is new. So the rest has no repeats, a list without repeats
is left as it is, and a search finds the same name in both.
-/
namespace BlockProgram

lemma eraseDups_concat (names : List String) (name : String) :
    (names ++ [name]).eraseDups = names.eraseDups ++ if name ∈ names then [] else [name] := by
  rw [List.eraseDups_append, List.cons_removeAll]
  by_cases hmem : name ∈ names <;> simp [hmem, List.eraseDups_cons]

lemma nodup_eraseDups (names : List String) : names.eraseDups.Nodup := by
  induction names using List.reverseRecOn with
  | nil => simp
  | append_singleton names name ih =>
    rw [eraseDups_concat]
    by_cases hmem : name ∈ names
    · simp [hmem, ih]
    · have hne : ∀ a ∈ names, a ≠ name := fun a ha heq => hmem (heq ▸ ha)
      simpa [hmem, List.nodup_append, ih] using hne

lemma eraseDups_of_nodup {names : List String} (h : names.Nodup) : names.eraseDups = names := by
  induction names using List.reverseRecOn with
  | nil => rfl
  | append_singleton names name ih =>
    rw [List.nodup_append] at h
    have hnew : name ∉ names := fun hmem => h.2.2 name hmem name (by simp) rfl
    rw [eraseDups_concat, ih h.1, if_neg hnew]

lemma find?_eraseDups (names : List String) (q : String → Bool) :
    names.eraseDups.find? q = names.find? q := by
  induction names using List.reverseRecOn with
  | nil => rfl
  | append_singleton names name ih =>
    rw [eraseDups_concat, List.find?_append, List.find?_append, ih]
    by_cases hmem : name ∈ names
    · cases hfind : names.find? q with
      | some found => simp
      | none => simp [hmem, List.find?_eq_none.mp hfind name hmem]
    · simp [hmem]

end BlockProgram
