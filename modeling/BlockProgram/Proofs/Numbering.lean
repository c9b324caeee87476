import BlockProgram.Instance.Naming
import BlockProgram.Proofs.Marking

/-!
# Fresh names

The name given to a new instance differs from every name that an instance of the
type has. Several names may have one number, since leading zeros do not count,
but the number of a name that ends in a decimal is that decimal: a number that no
name has gives a name that nothing has. Numbers are counted on from the greatest
below a limit, and when that is the last one, from the least that is left.
-/
namespace BlockProgram

open Text

/-! ### Numbers of names -/

lemma readDigits_eq (cs : List Char) : readDigits cs = Nat.ofDigitChars 10 cs 0 := by
  simp only [readDigits, Nat.ofDigitChars_eq_foldl, Nat.mul_comm]

/-- A non-empty text of decimal digits. -/
def IsNumeral (s : String) : Prop := s ≠ "" ∧ ∀ c ∈ s.toList, c.isDigit = true

lemma toList_toString (n : Nat) : (toString n).toList = Nat.toDigits 10 n := by
  rw [Nat.toString_eq_repr, Nat.toList_repr]

lemma isNumeral_toString (n : Nat) : IsNumeral (toString n) := by
  constructor
  · intro h
    have hnil := toList_toString n
    rw [h] at hnil
    exact Nat.toDigits_ne_nil hnil.symm
  · intro c hc
    rw [toList_toString] at hc
    exact Nat.isDigit_of_mem_toDigits (by omega) (by omega) hc

/-- A name has a number if a numeral follows the stem. The number is what the numeral
denotes, with leading zeros or without. -/
theorem nameNumber?_eq_some_iff (stem name : String) (n : Nat) :
    nameNumber? stem name = some n ↔ ∃ digits, name = stem ++ digits ∧ IsNumeral digits ∧
      Nat.ofDigitChars 10 digits.toList 0 = n := by
  constructor
  · intro h
    unfold nameNumber? at h
    split at h
    · next c cs hafter =>
      split at h
      · next hall =>
        rw [readDigits_eq, Option.some.injEq] at h
        refine ⟨String.ofList (c :: cs), ?_, ⟨?_, ?_⟩, by rwa [String.toList_ofList]⟩
        · rw [← String.toList_inj, after?_eq_some hafter, String.toList_append,
            String.toList_ofList]
        · rw [Ne, ← String.toList_inj, String.toList_ofList]
          exact List.cons_ne_nil c cs
        · rw [String.toList_ofList]
          exact List.all_eq_true.mp hall
      · cases h
    · cases h
  · rintro ⟨digits, rfl, ⟨hne, hdigits⟩, rfl⟩
    unfold nameNumber?
    rw [String.toList_append, after?_append]
    cases hcs : digits.toList with
    | nil => exact absurd (String.toList_eq_nil_iff.mp hcs) hne
    | cons c cs =>
      rw [hcs] at hdigits
      have hall : (c :: cs).all Char.isDigit = true := List.all_eq_true.mpr hdigits
      simp only [hall, if_true, readDigits_eq]

theorem nameNumber?_numbered (stem : String) (n : Nat) :
    nameNumber? stem (stem ++ toString n) = some n := by
  refine (nameNumber?_eq_some_iff stem _ n).mpr ⟨toString n, rfl, isNumeral_toString n, ?_⟩
  rw [toList_toString, Nat.ofDigitChars_ten_toDigits]

/-! ### Free numbers -/

/-- Of different values, more than there are taken ones, one is found that is free. -/
lemma exists_find?_free {α β : Type} {tries : List α} {f : α → β} {taken : List β}
    {p : α → Bool} (hp : ∀ n, p n = true ↔ f n ∉ taken) (hnodup : (tries.map f).Nodup)
    (hlen : taken.length < tries.length) : ∃ n, tries.find? p = some n ∧ f n ∉ taken := by
  cases hfind : tries.find? p with
  | some n => exact ⟨n, rfl, (hp n).mp (List.find?_some hfind)⟩
  | none =>
    have hsub : tries.map f ⊆ taken := by
      intro value hvalue
      obtain ⟨n, hn, rfl⟩ := List.mem_map.mp hvalue
      by_contra hfree
      exact List.find?_eq_none.mp hfind n hn ((hp n).mpr hfree)
    have hle := (hnodup.subperm hsub).length_le
    rw [List.length_map] at hle
    omega

/-- The search comes to the first number that is free, since it tries one number more than
are taken. -/
lemma leastFree_isLeast (taken : List Nat) : IsLeast {n | n ∉ taken} (leastFree taken) := by
  have hnodup : ((List.range (taken.length + 1)).map id).Nodup := by
    rw [List.map_id]
    exact List.nodup_range
  have hfree (n : Nat) : (!taken.contains n) = true ↔ id n ∉ taken := by simp
  obtain ⟨n, hfind, hn⟩ := exists_find?_free hfree hnodup (by simp)
  obtain ⟨-, -, hbelow⟩ := List.find?_range_eq_some.mp hfind
  rw [leastFree, hfind, Option.getD_some]
  refine ⟨hn, fun k hk => ?_⟩
  by_contra hlt
  have htaken : k ∈ taken := by simpa using hbelow k (by omega)
  exact hk htaken

/-- The taken numbers that count for the next one. -/
def counted (taken : List Nat) : Set Nat := {n | n < numberLimit ∧ n ∈ taken}

/-- All that the next number can be. -/
lemma nextNumber_cases (taken : List Nat) :
    (counted taken = ∅ ∧ nextNumber taken = 0) ∨
    (∃ m, IsGreatest (counted taken) m ∧ m + 1 < numberLimit ∧ nextNumber taken = m + 1) ∨
    IsGreatest (counted taken) (numberLimit - 1) ∧ nextNumber taken = leastFree taken := by
  have hmem (n : Nat) : n ∈ taken.filter (· < numberLimit) ↔ n ∈ counted taken := by
    rw [List.mem_filter, decide_eq_true_iff, and_comm]
    rfl
  unfold nextNumber
  cases hmax : (taken.filter (· < numberLimit)).max? with
  | none =>
    refine .inl ⟨Set.eq_empty_iff_forall_notMem.mpr fun n hn => ?_, rfl⟩
    rw [← hmem, List.max?_eq_none_iff.mp hmax] at hn
    cases hn
  | some m =>
    obtain ⟨hm, hle⟩ := List.max?_eq_some_iff.mp hmax
    simp only [hmem] at hm hle
    right
    dsimp only
    split
    · next hlt => exact .inl ⟨m, ⟨hm, hle⟩, hlt, rfl⟩
    · next hlast =>
      have hbelow : m < numberLimit := hm.1
      obtain rfl : m = numberLimit - 1 := by omega
      exact .inr ⟨⟨hm, hle⟩, rfl⟩

theorem nextNumber_not_mem (taken : List Nat) : nextNumber taken ∉ taken := by
  intro h
  obtain ⟨hempty, hnext⟩ | ⟨m, hm, hlt, hnext⟩ | ⟨-, hnext⟩ := nextNumber_cases taken
  · rw [hnext] at h
    have hzero : 0 ∈ counted taken := ⟨by decide, h⟩
    rw [hempty] at hzero
    cases hzero
  · rw [hnext] at h
    have hle : m + 1 ≤ m := hm.2 ⟨hlt, h⟩
    omega
  · rw [hnext] at h
    exact (leastFree_isLeast taken).1 h

/-- The number that follows the numbers in `T`, which are all below the limit: zero if there
is none, otherwise one more than the greatest. When the greatest is the last one below the
limit, it is the least number that is left, as long as one below the limit is. -/
structure Follows (T : Set Nat) (n : Nat) : Prop where
  first : T = ∅ → n = 0
  next : ∀ m, IsGreatest T m → m < numberLimit - 1 → n = m + 1
  left : numberLimit - 1 ∈ T → (∃ k < numberLimit, k ∉ T) → IsLeast {k | k ∉ T} n

/-- Numbers beyond the limit do not count. The search passes over those that are taken, but it
does not come to them as long as a number below the limit is free. -/
lemma leastFree_isLeast_not_counted {taken : List Nat} {k : Nat} (hk : k < numberLimit)
    (hfree : k ∉ counted taken) : IsLeast {n | n ∉ counted taken} (leastFree taken) := by
  obtain ⟨hleast, hbelow⟩ := leastFree_isLeast taken
  have hle : leastFree taken ≤ k := hbelow fun hmem => hfree ⟨hk, hmem⟩
  refine ⟨fun hmem => hleast hmem.2, fun j hj => ?_⟩
  by_cases hlt : j < numberLimit
  · exact hbelow fun hmem => hj ⟨hlt, hmem⟩
  · omega

theorem nextNumber_follows (taken : List Nat) : Follows (counted taken) (nextNumber taken) := by
  obtain ⟨hempty, hnext⟩ | ⟨m, hm, hlt, hnext⟩ | ⟨hlast, hnext⟩ := nextNumber_cases taken
  · rw [hempty]
    exact ⟨fun _ => hnext, fun _ hm => absurd hm.1 (Set.notMem_empty _),
      fun hlast => absurd hlast (Set.notMem_empty _)⟩
  · refine ⟨fun hempty => absurd (hempty ▸ hm.1) (Set.notMem_empty m), fun m' hm' _ => ?_,
      fun hlast => ?_⟩
    · rw [hnext, hm.unique hm']
    · have hle : numberLimit - 1 ≤ m := hm.2 hlast
      omega
  · refine ⟨fun hempty => absurd (hempty ▸ hlast.1) (Set.notMem_empty _), fun m hm hlt => ?_, ?_⟩
    · have heq : m = numberLimit - 1 := hm.unique hlast
      omega
    · rintro - ⟨k, hk, hfree⟩
      rw [hnext]
      exact leastFree_isLeast_not_counted hk hfree

/-! ### Fresh names -/

namespace Workspace

lemma mem_named_iff (w : Workspace) (type : String) (c : Constructor) (id : BlockId)
    (name : String) :
    (id, name) ∈ w.named type c ↔
      w.type? id = some type ∧ w.field? id c.nameField = some name := by
  simp only [named, ofType, List.mem_filterMap, List.mem_filter, beq_iff_eq,
    Option.map_eq_some_iff, Prod.mk.injEq]
  constructor
  · rintro ⟨id', ⟨_, htype⟩, name', hname, rfl, rfl⟩
    exact ⟨htype, hname⟩
  · rintro ⟨htype, hname⟩
    exact ⟨id, ⟨mem_ids_of_type? htype, htype⟩, name, hname, rfl, rfl⟩

end Workspace

namespace InstanceIndex

theorem freshName_ne {w : Workspace} {type : String} {c : Constructor} {id : BlockId}
    {name : String} (htype : w.type? id = some type)
    (hname : w.field? id c.nameField = some name) : name ≠ freshName w type c := by
  intro heq
  apply nextNumber_not_mem ((w.named type c).filterMap (nameNumber? c.stem ·.2))
  refine List.mem_filterMap.mpr
    ⟨(id, name), (w.mem_named_iff type c id name).mpr ⟨htype, hname⟩, ?_⟩
  rw [heq, freshName]
  exact nameNumber?_numbered c.stem _

/-- After the stem a fresh name has a decimal and nothing else. -/
theorem freshName_ne_of_not_numeral {suffix : String} (h : ¬ IsNumeral suffix) (w : Workspace)
    (type : String) (c : Constructor) : freshName w type c ≠ c.stem ++ suffix := by
  intro heq
  rw [freshName, String.append_right_inj] at heq
  exact h (heq ▸ isNumeral_toString _)

end InstanceIndex

end BlockProgram
