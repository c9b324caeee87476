import BlockProgram.Template
import Mathlib.Data.List.TakeWhile
import Mathlib.Tactic

/-!
# Where marked names stand

A marked name is found where its opening, its characters and its closing stand, and nowhere
else: a text without these is scanned as its characters. For placeholders this has a simple
consequence. No placeholder starts within another, so giving a value to a single name is to
replace the text of its placeholder, from the left and without overlap.
-/
namespace BlockProgram

namespace Text

lemma after?_eq_some {ps cs rest : List Char} (h : after? ps cs = some rest) : cs = ps ++ rest := by
  induction ps generalizing cs with
  | nil =>
    cases h
    rfl
  | cons p ps ih =>
    cases cs with
    | nil => cases h
    | cons c cs =>
      rw [after?] at h
      split at h
      · next heq => rw [heq, List.cons_append, ← ih h]
      · cases h

lemma after?_append (ps cs : List Char) : after? ps (ps ++ cs) = some cs := by
  induction ps with
  | nil => cases cs <;> rfl
  | cons p ps ih => simpa [after?] using ih

/-! ### Marked names -/

namespace Marker

variable {m : Marker} {cs name tail : List Char}

/-- The characters can stand between the opening and the closing. -/
def Admits (m : Marker) (name : List Char) : Prop :=
  ∃ c inner, name = c :: inner ∧ m.first c = true ∧ ∀ d ∈ inner, m.inner d = true

lemma match?_eq_some (h : m.match? cs = some (name, tail)) :
    m.Admits name ∧ cs = m.opening ++ name ++ m.closing :: tail := by
  unfold match? at h
  split at h
  · next c rest hafter =>
    split at h
    · next hfirst =>
      split at h
      · next d tail' hdrop =>
        split at h
        · next hclosing =>
          cases h
          refine ⟨⟨c, _, rfl, hfirst, fun d hd => List.mem_takeWhile_imp hd⟩, ?_⟩
          have hrest : rest.takeWhile m.inner ++ m.closing :: tail = rest := by
            rw [← hclosing, ← hdrop, List.takeWhile_append_dropWhile]
          rw [after?_eq_some hafter, List.append_assoc, List.cons_append, hrest]
        · cases h
      · cases h
    · cases h
  · cases h

lemma match?_append (hclosing : m.inner m.closing = false) (h : m.Admits name)
    (tail : List Char) : m.match? (m.opening ++ name ++ m.closing :: tail) = some (name, tail) := by
  obtain ⟨c, inner, rfl, hfirst, hinner⟩ := h
  have hafter : after? m.opening (m.opening ++ (c :: inner) ++ m.closing :: tail) =
      some (c :: (inner ++ m.closing :: tail)) := by
    rw [List.append_assoc, after?_append, List.cons_append]
  have htake : (inner ++ m.closing :: tail).takeWhile m.inner = inner := by
    rw [List.takeWhile_append_of_pos hinner, List.takeWhile_cons, hclosing]
    simp
  have hdrop : (inner ++ m.closing :: tail).dropWhile m.inner = m.closing :: tail := by
    rw [List.dropWhile_append_of_pos hinner, List.dropWhile_cons, hclosing]
    simp
  rw [match?, hafter]
  simp [hfirst, htake, hdrop]

/-- Somewhere in the text stands a marked name. -/
def Occurs (m : Marker) (cs : List Char) : Prop :=
  ∃ before c name after, m.first c = true ∧ (∀ d ∈ name, m.inner d = true) ∧
    cs = before ++ m.opening ++ c :: name ++ m.closing :: after

lemma Occurs.cons (c : Char) (h : m.Occurs cs) : m.Occurs (c :: cs) := by
  obtain ⟨before, first, name, after, hfirst, hname, rfl⟩ := h
  exact ⟨c :: before, first, name, after, hfirst, hname, by simp⟩

lemma occurs_iff_written {written : String → String}
    (hwritten : ∀ n, (written n).toList = m.literal n) (text : String) :
    m.Occurs text.toList ↔ ∃ u n v, m.Admits n.toList ∧ text = u ++ written n ++ v := by
  constructor
  · rintro ⟨before, c, name, after, hfirst, hinner, heq⟩
    refine ⟨String.ofList before, String.ofList (c :: name), String.ofList after, ?_, ?_⟩
    · rw [String.toList_ofList]
      exact ⟨c, name, rfl, hfirst, hinner⟩
    · rw [← String.toList_inj, heq]
      simp [hwritten, literal]
  · rintro ⟨u, n, v, ⟨c, inner, hname, hfirst, hinner⟩, rfl⟩
    exact ⟨u.toList, c, inner, v.toList, hfirst, hinner, by simp [hwritten, literal, hname]⟩

/-- A text in which no marked name stands is scanned as its characters. -/
theorem scan_of_not_occurs (h : ¬ m.Occurs cs) : m.scan cs = cs.map .char := by
  induction cs with
  | nil => simp [scan]
  | cons c rest ih =>
    rw [scan]
    split
    · next name tail hmatch =>
      obtain ⟨⟨first, inner, rfl, hfirst, hinner⟩, heq⟩ := match?_eq_some hmatch
      exact absurd ⟨[], first, inner, tail, hfirst, hinner, heq⟩ h
    · rw [ih fun hrest => h (hrest.cons c), List.map_cons]

lemma names_map_char (cs : List Char) : names (cs.map .char) = [] := by
  simp [names]

lemma fill_map_char (values : String → Option String) (cs : List Char) :
    m.fill values (cs.map .char) = cs := by
  simp [fill, List.flatMap_map]

/-- A text in which no marked name has a value stays as it is. -/
theorem fill_of_not_fills {values : String → Option String}
    (h : fills values (m.scan cs) = false) : m.fill values (m.scan cs) = cs := by
  fun_induction m.scan cs with
  | case1 => rfl
  | case2 c rest name tail hmatch ih =>
    obtain ⟨-, heq⟩ := match?_eq_some hmatch
    have hnames : (values (String.ofList name)).isSome = false ∧
        fills values (m.scan tail) = false := by
      simpa [fills, names] using h
    have hnone : values (String.ofList name) = none := by simpa using hnames.1
    calc m.fill values (.mark (String.ofList name) :: m.scan tail)
        = m.literal (String.ofList name) ++ m.fill values (m.scan tail) := by simp [fill, hnone]
      _ = c :: rest := by rw [ih hnames.2, heq, literal]; simp
  | case3 c rest hmatch ih =>
    calc m.fill values (.char c :: m.scan rest)
        = c :: m.fill values (m.scan rest) := rfl
      _ = c :: rest := by rw [ih (by simpa [fills, names] using h)]

end Marker

/-! ### Replacing a text -/

/-- The text after its first `skip` characters, with `new` for each `old` in it, from the
left and without overlap. -/
def replaceFrom (old new : List Char) : Nat → List Char → List Char
  | _, [] => []
  | skip + 1, _ :: cs => replaceFrom old new skip cs
  | 0, c :: cs =>
    if old.isPrefixOf (c :: cs) then new ++ replaceFrom old new (old.length - 1) cs
    else c :: replaceFrom old new 0 cs

/-- The text with `new` for each `old` in it, from the left and without overlap. -/
def replaceAll (old new text : String) : String :=
  String.ofList (replaceFrom old.toList new.toList 0 text.toList)

section Replacing

variable {old new : List Char}

lemma replaceFrom_append (skipped cs : List Char) :
    replaceFrom old new skipped.length (skipped ++ cs) = replaceFrom old new 0 cs := by
  induction skipped with
  | nil => rfl
  | cons c rest ih => exact ih

lemma replaceFrom_of_append (hold : old ≠ []) (cs : List Char) :
    replaceFrom old new 0 (old ++ cs) = new ++ replaceFrom old new 0 cs := by
  obtain ⟨o, rest, rfl⟩ := List.exists_cons_of_ne_nil hold
  have hstarts : (o :: rest).isPrefixOf (o :: (rest ++ cs)) = true :=
    List.isPrefixOf_iff_prefix.mpr (List.prefix_append (o :: rest) cs)
  rw [List.cons_append, replaceFrom, if_pos hstarts, List.length_cons, Nat.add_sub_cancel,
    replaceFrom_append]

lemma replaceFrom_cons {c : Char} {cs : List Char} (h : ¬ old <+: c :: cs) :
    replaceFrom old new 0 (c :: cs) = c :: replaceFrom old new 0 cs := by
  rw [replaceFrom, if_neg (by simpa using h)]

/-- Characters with which `old` does not start stay. -/
lemma replaceFrom_of_not_mem {o : Char} {rest : List Char} (hold : old = o :: rest)
    {kept : List Char} (h : o ∉ kept) (cs : List Char) :
    replaceFrom old new 0 (kept ++ cs) = kept ++ replaceFrom old new 0 cs := by
  induction kept with
  | nil => rfl
  | cons c kept ih =>
    rw [List.mem_cons, not_or] at h
    have hstarts : ¬ old <+: c :: (kept ++ cs) := by
      rw [hold, List.cons_prefix_cons]
      exact fun hsame => h.1 hsame.1
    rw [List.cons_append, replaceFrom_cons hstarts, ih h.2, List.cons_append]

end Replacing

lemma isNameChar_of_isName {name : String} (h : isName name = true) :
    ∀ c ∈ name.toList, isNameChar c = true := by
  unfold isName at h
  split at h
  · cases h
  · next first rest hname =>
    rw [Bool.and_eq_true, List.all_eq_true] at h
    rw [hname, List.forall_mem_cons]
    exact ⟨isNameChar_of_isNameStart h.1, h.2⟩

end Text

/-! ### Placeholders -/

namespace Template

open Text

lemma admits_iff (name : String) :
    placeholder.Admits name.toList ↔ isName name = true := by
  unfold isName Marker.Admits
  cases name.toList with
  | nil => simp
  | cons c rest => simp [placeholder]

lemma literal_eq (name : String) :
    placeholder.literal name = '$' :: '[' :: (name.toList ++ [']']) := rfl

lemma toList_placeholder (name : String) :
    ("$[" ++ name ++ "]").toList = placeholder.literal name := by
  simp [Marker.literal, placeholder]

lemma match?_literal_append {name : String} (hname : isName name = true) (cs : List Char) :
    placeholder.match? (placeholder.literal name ++ cs) = some (name.toList, cs) := by
  rw [Marker.literal, List.append_assoc, List.singleton_append]
  exact Marker.match?_append (by decide) ((admits_iff name).mpr hname) cs

/-- No placeholder starts within another. -/
lemma replaceFrom_literal_append {name other : String} (hname : isName name = true)
    (hother : isName other = true) (hne : other ≠ name) (new cs : List Char) :
    replaceFrom (placeholder.literal name) new 0 (placeholder.literal other ++ cs) =
      placeholder.literal other ++ replaceFrom (placeholder.literal name) new 0 cs := by
  have hstarts : ¬ placeholder.literal name <+: placeholder.literal other ++ cs := by
    rintro ⟨tail, heq⟩
    have hmatch := match?_literal_append hother cs
    rw [← heq, match?_literal_append hname, Option.some.injEq, Prod.mk.injEq] at hmatch
    exact hne (String.toList_inj.mp hmatch.1).symm
  have hsign : '$' ∉ '[' :: (other.toList ++ [']']) := by
    have hinner : '$' ∉ other.toList := fun hmem =>
      absurd (isNameChar_of_isName hother _ hmem) (by decide)
    simpa using hinner
  calc replaceFrom (placeholder.literal name) new 0 (placeholder.literal other ++ cs)
      = '$' :: replaceFrom (placeholder.literal name) new 0
          ('[' :: (other.toList ++ [']']) ++ cs) := replaceFrom_cons hstarts
    _ = placeholder.literal other ++ replaceFrom (placeholder.literal name) new 0 cs := by
        rw [replaceFrom_of_not_mem (literal_eq name) hsign, literal_eq other, ← List.cons_append]

/-- To give a value to a name is to replace its placeholder by the value. -/
theorem expand_single {name : String} (hname : isName name = true) (value text : String) :
    expand text (fun other => if other = name then some value else none) =
      replaceAll ("$[" ++ name ++ "]") value text := by
  rw [expand, replaceAll, toList_placeholder, pieces]
  congr 1
  generalize text.toList = cs
  fun_induction placeholder.scan cs with
  | case1 => rfl
  | case2 c rest found tail hmatch ih =>
    obtain ⟨hadmits, heq⟩ := Marker.match?_eq_some hmatch
    have hfound : isName (String.ofList found) = true := by
      rwa [← admits_iff, String.toList_ofList]
    have hliteral : c :: rest = placeholder.literal (String.ofList found) ++ tail := by
      rw [heq, Marker.literal, String.toList_ofList, List.append_assoc _ [_], List.singleton_append]
    rw [hliteral]
    by_cases hsame : String.ofList found = name
    · subst hsame
      rw [replaceFrom_of_append (by simp [literal_eq]), ← ih]
      simp [Marker.fill]
    · rw [replaceFrom_literal_append hname hfound hsame, ← ih]
      simp [Marker.fill, hsame]
  | case3 c rest hmatch ih =>
    have hstarts : ¬ placeholder.literal name <+: c :: rest := by
      rintro ⟨tail, heq⟩
      rw [← heq, match?_literal_append hname] at hmatch
      cases hmatch
    rw [replaceFrom_cons hstarts, ← ih]
    rfl

end Template

end BlockProgram
