import BlockProgram.Proofs.Naming

/-!
# Assigned names

An instance without a name gets one, and so does an instance with the name of another and
nothing to go back to. An assigned name is the stem of the constructor and a decimal number.
The number depends on those that are in names of the same type, as far as they are below the
limit. Some names may have one number, and some have numbers beyond the limit; the assigned
name differs from them all.
-/
namespace BlockProgram

/-! ### Numbers of a type -/

namespace Workspace

/-- The numbers below the limit in the names of the instances of a type: the values of the
numerals that follow the stem, with leading zeros or without. -/
def numbers (w : Workspace) (type : String) (c : Constructor) : Set Nat :=
  {n | n < numberLimit ∧ ∃ id digits, w.type? id = some type ∧
    w.field? id c.nameField = some (c.stem ++ digits) ∧ IsNumeral digits ∧
    Nat.ofDigitChars 10 digits.toList 0 = n}

lemma numbers_eq_counted (w : Workspace) (type : String) (c : Constructor) :
    w.numbers type c = counted ((w.named type c).filterMap (nameNumber? c.stem ·.2)) := by
  ext n
  simp only [numbers, counted, Set.mem_ofPred_eq, List.mem_filterMap, nameNumber?_eq_some_iff]
  refine and_congr_right fun _ => ⟨?_, ?_⟩
  · rintro ⟨id, digits, htype, hname, hdigits⟩
    exact ⟨(id, _), (w.mem_named_iff type c id _).mpr ⟨htype, hname⟩, digits, rfl, hdigits⟩
  · rintro ⟨⟨id, name⟩, hmem, digits, hname, hdigits⟩
    obtain ⟨htype, hfield⟩ := (w.mem_named_iff type c id name).mp hmem
    exact ⟨id, digits, htype, hname ▸ hfield, hdigits⟩

/-- To take all numbers below the limit needs as many blocks. -/
lemma exists_not_mem_numbers {w : Workspace} (h : w.size < numberLimit) (type : String)
    (c : Constructor) : ∃ k < numberLimit, k ∉ w.numbers type c := by
  by_contra hall
  push Not at hall
  have hsub : List.range numberLimit ⊆ (w.named type c).filterMap (nameNumber? c.stem ·.2) := by
    intro k hk
    have hmem := hall k (List.mem_range.mp hk)
    rw [numbers_eq_counted] at hmem
    exact hmem.2
  have hle : numberLimit ≤ w.size :=
    calc numberLimit
        = (List.range numberLimit).length := List.length_range.symm
      _ ≤ ((w.named type c).filterMap (nameNumber? c.stem ·.2)).length :=
          (List.nodup_range.subperm hsub).length_le
      _ ≤ (w.named type c).length := List.length_filterMap_le _ _
      _ ≤ (w.ofType type).length := List.length_filterMap_le _ _
      _ ≤ w.ids.length := List.length_filter_le _ _
      _ = w.size := w.blocks.length_keys
  omega

end Workspace

/-! ### Assigned names -/

namespace InstanceIndex

variable {x : InstanceIndex} {w w' : Workspace} {id : BlockId} {previous : Option String}
  {name : String}

lemma autoName_assigned (h : x.autoName w id = (w', some name)) :
    ∃ type c, x.constructorOf? w id = some (type, c) ∧
      w' = w.writeField id c.nameField name ∧ name = freshName w type c := by
  obtain ⟨hkept, -⟩ | ⟨type, c, hc, hwritten⟩ := x.autoName_cases w id
  · rw [hkept] at h
    cases h
  · rw [hwritten] at h
    cases h
    exact ⟨type, c, hc, rfl, rfl⟩

lemma settleName_assigned (h : x.settleName w id previous = (w', .assigned name)) :
    ∃ type c, x.constructorOf? w id = some (type, c) ∧
      w' = w.writeField id c.nameField name ∧ name = freshName w type c := by
  obtain ⟨hkept, -⟩ | ⟨type, c, name', hc, ⟨hwritten, hfresh⟩ | ⟨hwritten, -⟩⟩ :=
    x.settleName_outcome w id previous
  · rw [hkept] at h
    cases h
  · rw [hwritten] at h
    cases h
    exact ⟨type, c, hc, rfl, hfresh⟩
  · rw [hwritten] at h
    cases h

/-- The number of a fresh name follows the numbers that the type has. -/
lemma exists_freshName_follows (w : Workspace) (type : String) (c : Constructor) :
    ∃ n, freshName w type c = c.stem ++ toString n ∧ Follows (w.numbers type c) n := by
  refine ⟨_, rfl, ?_⟩
  rw [w.numbers_eq_counted type c]
  exact nextNumber_follows _

/-- Where an instance is assigned a name, because it had none or had that of another, no
other instance of the type has this name. It is the stem and the number that follows the
numbers in the names of the type. The proviso on the last number below the limit, that some
number is left, can only fail with as many blocks as there are numbers below the limit. -/
theorem assigned_name_follows (h : x.autoName w id = (w', some name) ∨
      x.settleName w id previous = (w', .assigned name)) :
    ∃ type c n, x.constructorOf? w id = some (type, c) ∧
      w' = w.writeField id c.nameField name ∧
      (∀ other, other ≠ id → w.type? other = some type →
        w.field? other c.nameField ≠ some name) ∧
      name = c.stem ++ toString n ∧ Follows (w.numbers type c) n ∧
      (w.size < numberLimit → ∃ k < numberLimit, k ∉ w.numbers type c) := by
  obtain ⟨type, c, hc, hwritten, rfl⟩ := h.elim autoName_assigned settleName_assigned
  obtain ⟨n, hname, hfollows⟩ := exists_freshName_follows w type c
  refine ⟨type, c, n, hc, hwritten, fun other _ htype hother => ?_, hname, hfollows,
    fun hsize => Workspace.exists_not_mem_numbers hsize type c⟩
  exact freshName_ne htype hother rfl

/-! ### A type that has reached the limit -/

def gaugeConstructor : Constructor := ⟨"gauge", "gauge_", "NAME", []⟩

def gaugeIndex : InstanceIndex where
  unassignedSuffix := "?"
  noInstance := ⟨"none", ""⟩
  constructors := .ofList [("gauge", gaugeConstructor)]

/-- Of the numbers zero and one are taken, the second with leading zeros, and the last one
below the limit. The limit itself is in a name, too. -/
def gaugeWorkspace : Workspace where
  blocks := .ofList [
    ("zero", { type := "gauge", fields := .ofList [("NAME", "gauge_0")] }),
    ("one", { type := "gauge", fields := .ofList [("NAME", "gauge_001")] }),
    ("last", { type := "gauge", fields := .ofList [("NAME", "gauge_18446744073709551615")] }),
    ("limit", { type := "gauge", fields := .ofList [("NAME", "gauge_18446744073709551616")] }),
    ("twin", { type := "gauge", fields := .ofList [("NAME", "gauge_0")] }),
    ("new", { type := "gauge", fields := .ofList [("NAME", "gauge_?")] })]

/-- Both the new gauge and the twin of the first one would get the least number left. -/
theorem gaugeWorkspace_assigned :
    (gaugeIndex.autoName gaugeWorkspace "new").2 = some "gauge_2" ∧
    (gaugeIndex.settleName gaugeWorkspace "twin" none).2 = .assigned "gauge_2" ∧
    IsLeast {k | k ∉ gaugeWorkspace.numbers "gauge" gaugeConstructor} 2 := by
  have hnew : (gaugeIndex.autoName gaugeWorkspace "new").2 = some "gauge_2" := by decide +kernel
  have htwin : (gaugeIndex.settleName gaugeWorkspace "twin" none).2 = .assigned "gauge_2" := by
    decide +kernel
  obtain ⟨type, c, n, hc, -, -, hname, hfollows, hleft⟩ :=
    assigned_name_follows (.inr (Prod.ext rfl htwin))
  have hgauge : gaugeIndex.constructorOf? gaugeWorkspace "twin" =
      some ("gauge", gaugeConstructor) := by decide +kernel
  rw [hgauge, Option.some.injEq, Prod.mk.injEq] at hc
  obtain ⟨rfl, rfl⟩ := hc
  have hnumber : nameNumber? "gauge_" "gauge_2" = some n := hname ▸ nameNumber?_numbered _ n
  obtain rfl : 2 = n := Option.some.inj (hnumber.symm.trans (by decide +kernel)).symm
  have hlast : numberLimit - 1 ∈ gaugeWorkspace.numbers "gauge" gaugeConstructor :=
    ⟨by decide, "last", toString (numberLimit - 1), by decide +kernel, by decide +kernel,
      isNumeral_toString _, by rw [toList_toString, Nat.ofDigitChars_ten_toDigits]⟩
  exact ⟨hnew, htwin, hfollows.left hlast (hleft (by decide +kernel))⟩

end InstanceIndex

end BlockProgram
