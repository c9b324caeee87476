import BlockProgram.Proofs.Accepting
import BlockProgram.Proofs.Keeping
import BlockProgram.Proofs.Marking

/-!
# Expansion by two laws

A placeholder starts with a character that stands nowhere else in it. A text that is cut
before a placeholder is therefore scanned part by part, even if the first part ends like the
beginning of another one. So a text mentions just the names whose placeholders stand in it.
What is filled in is not scanned at all. This gives two laws, one for a text without
placeholders and one for a text around a placeholder, and expansion is the only function that
obeys both. The code of a block is such an expansion with the fragments of its arguments.
-/
namespace BlockProgram

/-! ### Scanning part by part -/

namespace Text.Marker

variable {m : Marker} {o : Char} {name : List Char}

/-- Marked names start with the character, which stands nowhere else in them. -/
structure OpensWith (m : Marker) (o : Char) : Prop where
  opening : ∃ more, m.opening = o :: more ∧ o ∉ more
  first : m.first o = false
  inner : m.inner o = false
  closing : o ≠ m.closing
  closes : m.inner m.closing = false

lemma OpensWith.not_mem_of_admits (h : m.OpensWith o) (hname : m.Admits name) : o ∉ name := by
  obtain ⟨c, inner, rfl, hfirst, hinner⟩ := hname
  rw [List.mem_cons, not_or]
  constructor
  · rintro rfl
    rw [h.first] at hfirst
    cases hfirst
  · intro hmem
    have hchar := hinner o hmem
    rw [h.inner] at hchar
    cases hchar

/-- A marked name that is begun before the character is not continued over it. -/
lemma OpensWith.match?_append_eq_none (h : m.OpensWith o) {c : Char} {cs : List Char}
    (hnone : m.match? (c :: cs) = none) (tail : List Char) :
    m.match? (c :: (cs ++ o :: tail)) = none := by
  rw [Option.eq_none_iff_forall_ne_some]
  rintro ⟨name, after⟩ hmatch
  obtain ⟨hname, heq⟩ := match?_eq_some hmatch
  obtain ⟨more, hopening, hmore⟩ := h.opening
  rw [hopening, List.cons_append, List.cons_append, List.cons.injEq] at heq
  obtain ⟨rfl, heq⟩ := heq
  have hinside : c ∉ more ++ name := by
    rw [List.mem_append, not_or]
    exact ⟨hmore, h.not_mem_of_admits hname⟩
  -- Either the marked name ends before the character, or the character is in it.
  rcases List.append_eq_append_iff.mp heq with ⟨as, hlit, hrest⟩ | ⟨bs, rfl, hafter⟩
  · cases as with
    | nil => exact h.closing (List.cons.inj hrest).1
    | cons a as =>
      obtain ⟨rfl, -⟩ := List.cons.inj hrest
      exact hinside (hlit ▸ List.mem_append_right cs List.mem_cons_self)
  · cases bs with
    | nil => exact h.closing (List.cons.inj hafter).1.symm
    | cons b bs =>
      obtain ⟨rfl, -⟩ := List.cons.inj hafter
      have hsome := match?_append h.closes hname bs
      rw [hopening, List.cons_append, List.cons_append, hnone] at hsome
      cases hsome

lemma scan_of_match? {cs tail : List Char} (h : m.match? cs = some (name, tail)) :
    m.scan cs = .mark (String.ofList name) :: m.scan tail := by
  cases cs with
  | nil => exact absurd (match?_length h) (Nat.not_lt_zero _)
  | cons c cs =>
    rw [scan]
    split
    · next name' tail' hmatch =>
      rw [h, Option.some.injEq, Prod.mk.injEq] at hmatch
      obtain ⟨rfl, rfl⟩ := hmatch
      rfl
    · next hnone =>
      rw [h] at hnone
      cases hnone

lemma scan_of_match?_eq_none {c : Char} {cs : List Char} (h : m.match? (c :: cs) = none) :
    m.scan (c :: cs) = .char c :: m.scan cs := by
  rw [scan]
  split
  · next hmatch =>
    rw [h] at hmatch
    cases hmatch
  · rfl

/-- A text is scanned part by part if the second part starts like a marked name. -/
theorem OpensWith.scan_append (h : m.OpensWith o) (cs tail : List Char) :
    m.scan (cs ++ o :: tail) = m.scan cs ++ m.scan (o :: tail) := by
  fun_induction m.scan cs with
  | case1 => rfl
  | case2 c rest name after hmatch ih =>
    obtain ⟨hname, heq⟩ := match?_eq_some hmatch
    have happend : m.match? (c :: rest ++ o :: tail) = some (name, after ++ o :: tail) := by
      rw [heq, List.append_assoc, List.cons_append, match?_append h.closes hname]
    rw [scan_of_match? happend, ih, List.cons_append]
  | case3 c rest hnone ih =>
    rw [List.cons_append, scan_of_match?_eq_none (h.match?_append_eq_none hnone tail), ih,
      List.cons_append]

/-- The text around a marked name is scanned as if the name ended it. -/
lemma OpensWith.scan_around (h : m.OpensWith o) {n : String} (hn : m.Admits n.toList)
    (cs tail : List Char) :
    m.scan (cs ++ m.literal n ++ tail) = m.scan cs ++ .mark n :: m.scan tail := by
  have hmatch : m.match? (m.literal n ++ tail) = some (n.toList, tail) := by
    rw [literal, List.append_assoc, List.singleton_append]
    exact match?_append h.closes hn tail
  obtain ⟨more, hopening, -⟩ := h.opening
  obtain ⟨body, hbody⟩ : ∃ body, m.literal n = o :: body := by simp [literal, hopening]
  have hscan := scan_of_match? hmatch
  rw [String.ofList_toList, hbody, List.cons_append] at hscan
  rw [List.append_assoc, hbody, List.cons_append, h.scan_append, hscan]

lemma names_append (before after : List Piece) :
    names (before ++ after) = names before ++ names after := List.filterMap_append

/-- A name that is found stands in the text, marked. -/
lemma literal_of_mem_names {cs : List Char} {n : String} (h : n ∈ names (m.scan cs)) :
    m.Admits n.toList ∧ ∃ before after, cs = before ++ m.literal n ++ after := by
  fun_induction m.scan cs with
  | case1 => cases h
  | case2 c rest name tail hmatch ih =>
    obtain ⟨hname, heq⟩ := match?_eq_some hmatch
    have hcases : n = String.ofList name ∨ n ∈ names (m.scan tail) := by
      simpa [names] using h
    rcases hcases with rfl | hrest
    · rw [String.toList_ofList]
      exact ⟨hname, [], tail, by rw [heq]; simp [literal]⟩
    · obtain ⟨hadmits, before, after, rfl⟩ := ih hrest
      exact ⟨hadmits, m.opening ++ name ++ m.closing :: before, after, by rw [heq]; simp⟩
  | case3 c rest _ ih =>
    obtain ⟨hadmits, before, after, rfl⟩ := ih (by simpa [names] using h)
    exact ⟨hadmits, c :: before, after, rfl⟩

/-- No mark is missed: one that is begun and not ended hides none that starts within it. -/
lemma OpensWith.mem_names_scan_iff (h : m.OpensWith o) (cs : List Char) (n : String) :
    n ∈ names (m.scan cs) ↔
      m.Admits n.toList ∧ ∃ before after, cs = before ++ m.literal n ++ after := by
  constructor
  · exact literal_of_mem_names
  · rintro ⟨hn, before, after, rfl⟩
    rw [h.scan_around hn, names_append]
    simp [names]

/-- A marked name is filled in apart from the text around it; without a value it stays. -/
lemma OpensWith.fill_around (h : m.OpensWith o) {n written : String} (hn : m.Admits n.toList)
    (hwritten : written.toList = m.literal n) (values : String → Option String) (u v : String) :
    m.fill values (m.scan (u ++ written ++ v).toList) =
      m.fill values (m.scan u.toList) ++ ((values n).getD written).toList ++
        m.fill values (m.scan v.toList) := by
  have hvalue : m.fill values [.mark n] = ((values n).getD written).toList := by
    cases hv : values n with
    | none => simp [fill, hv, hwritten]
    | some value => simp [fill, hv]
  rw [String.toList_append, String.toList_append, hwritten, h.scan_around hn, ← hvalue,
    ← List.singleton_append]
  simp only [fill, List.flatMap_append, List.append_assoc]

end Text.Marker

namespace Template

open Text

/-! ### What a template mentions -/

lemma placeholder_opensWith : placeholder.OpensWith '$' where
  opening := ⟨['['], rfl, by decide⟩
  first := by decide
  inner := by decide
  closing := by decide
  closes := by decide

lemma pieces_append {n : String} (hn : IsIdentifier n) (u v : String) :
    pieces (u ++ ("$[" ++ n ++ "]") ++ v) = pieces u ++ .mark n :: pieces v := by
  have hadmits : placeholder.Admits n.toList := (admits_iff n).mpr ((isName_iff n).mpr hn)
  rw [pieces, String.toList_append, String.toList_append, toList_placeholder,
    placeholder_opensWith.scan_around hadmits, pieces, pieces]

lemma mentions_iff (text name : String) : mentions text name = true ↔
    isName name = true ∧ ∃ u v, text = u ++ ("$[" ++ name ++ "]") ++ v := by
  rw [mentions, List.contains_iff_mem, placeholders, pieces,
    placeholder_opensWith.mem_names_scan_iff, admits_iff]
  refine and_congr_right fun _ => ⟨?_, ?_⟩
  · rintro ⟨before, after, heq⟩
    refine ⟨String.ofList before, String.ofList after, ?_⟩
    rw [← String.toList_inj, heq, String.toList_append, String.toList_append, toList_placeholder,
      String.toList_ofList, String.toList_ofList]
  · rintro ⟨u, v, rfl⟩
    exact ⟨u.toList, v.toList, by
      rw [String.toList_append, String.toList_append, toList_placeholder]⟩

/-- The placeholders of a text are those that stand in it, with the names that an argument may
have, and just these can be mentioned. A text around a placeholder has the placeholders of both
sides, whatever the sides end or begin with. -/
theorem mentions_exactly (name : String) :
    (∀ text, mentions text name = true ↔
      isName name = true ∧ ∃ u v, text = u ++ ("$[" ++ name ++ "]") ++ v) ∧
    ((∃ text, mentions text name = true) ↔ isName name = true) ∧
    (isName name = true → ∀ u v, placeholders (u ++ ("$[" ++ name ++ "]") ++ v) =
      placeholders u ++ [name] ++ placeholders v) := by
  refine ⟨fun text => mentions_iff text name, ⟨?_, fun h => ?_⟩, fun h u v => ?_⟩
  · rintro ⟨text, h⟩
    exact ((mentions_iff text name).mp h).1
  · exact ⟨"$[" ++ name ++ "]", (mentions_iff _ name).mpr ⟨h, "", "", by simp⟩⟩
  · rw [placeholders, pieces_append ((isName_iff name).mp h), Marker.names_append, placeholders,
      placeholders, List.append_assoc]
    rfl

/-- In a mark that is begun and not ended stand others. -/
theorem nested_placeholders_found :
    isName "A" = true ∧ isName "B" = true ∧ placeholders "$[$[A]] $[A$[B]" = ["A", "B"] ∧
      mentions "$[$[A]] $[A$[B]" "B" = true := by
  have hA : isName "A" = true := by decide +kernel
  have hB : isName "B" = true := by decide +kernel
  obtain ⟨-, -, haround⟩ := mentions_exactly "A"
  obtain ⟨hmentions, -, -⟩ := mentions_exactly "B"
  refine ⟨hA, hB, (haround hA "$[" "] $[A$[B]").trans (by decide +kernel), ?_⟩
  exact (hmentions _).mpr ⟨hB, "$[$[A]] $[A", "", by decide +kernel⟩

/-! ### The laws -/

lemma occurs_iff (text : String) : placeholder.Occurs text.toList ↔
    ∃ u n v, IsIdentifier n ∧ text = u ++ ("$[" ++ n ++ "]") ++ v := by
  simp only [Marker.occurs_iff_written toList_placeholder, admits_iff, isName_iff]

/-- The laws of putting values in for placeholders: a text without placeholders stays, and a
placeholder becomes its value, or stays if it has none, apart from the text on either side. -/
structure Substitution (values : String → Option String) (f : String → String) : Prop where
  plain : ∀ text, (∀ u n v, IsIdentifier n → text ≠ u ++ ("$[" ++ n ++ "]") ++ v) →
    f text = text
  around : ∀ u n v, IsIdentifier n → f (u ++ ("$[" ++ n ++ "]") ++ v) =
    f u ++ (values n).getD ("$[" ++ n ++ "]") ++ f v

lemma expand_substitution (values : String → Option String) :
    Substitution values fun text => expand text values where
  plain := by
    intro text hplain
    have hnone : ¬ placeholder.Occurs text.toList := by
      rw [occurs_iff]
      rintro ⟨u, n, v, hn, heq⟩
      exact hplain u n v hn heq
    rw [expand, pieces, Marker.scan_of_not_occurs hnone, Marker.fill_map_char,
      String.ofList_toList]
  around := by
    intro u n v hn
    have hadmits : placeholder.Admits n.toList := (admits_iff n).mpr ((isName_iff n).mpr hn)
    rw [← String.toList_inj, String.toList_append, String.toList_append]
    simp only [expand, pieces, String.toList_ofList]
    exact placeholder_opensWith.fill_around hadmits (toList_placeholder n) values u v

/-- The laws leave no choice, since the texts beside a placeholder are shorter. -/
lemma Substitution.eq {values : String → Option String} {f f' : String → String}
    (h : Substitution values f) (h' : Substitution values f') (text : String) :
    f text = f' text := by
  induction hlength : text.length using Nat.strong_induction_on generalizing text with
  | _ length ih =>
    by_cases hplain : ∀ u n v, IsIdentifier n → text ≠ u ++ ("$[" ++ n ++ "]") ++ v
    · rw [h.plain text hplain, h'.plain text hplain]
    · push Not at hplain
      obtain ⟨u, n, v, hn, rfl⟩ := hplain
      have hopening : "$[".length = 2 := rfl
      simp only [String.length_append] at hlength
      rw [h.around u n v hn, h'.around u n v hn, ih u.length (by omega) u rfl,
        ih v.length (by omega) v rfl]

lemma substitution_iff {values : String → Option String} {f : String → String} :
    Substitution values f ↔ f = fun text => expand text values := by
  constructor
  · intro h
    exact funext (h.eq (expand_substitution values))
  · rintro rfl
    exact expand_substitution values

/-- Expansion puts values in for placeholders in a single pass, and the laws of doing so leave
no choice, neither for the fragments of arguments nor for named values. The code of a block
is its template, expanded with the fragments of its arguments, and no other fragments are
generated. -/
theorem expand_determined_by_laws (args : List Argument) (fragments values : Table String)
    (f : String → String) :
    (Substitution (argumentValue? args fragments) f ↔
      f = fun text => expand text (argumentValue? args fragments)) ∧
    (Substitution values.get? f ↔ f = fun text => expand text values.get?) ∧
    ∀ (g : Generator) (block : BlockId → Generation Code) (id : BlockId) (d : Definition)
      (code : String),
      (g.template block id d code = do
        let filled ← g.fragments block id code d.args
        return Generator.finish d (expand code (argumentValue? d.args (.ofList filled)))) ∧
      g.template block id d code = do
        let filled ← g.fragments block id code d.args
        return Generator.finish d (expand code (Table.ofList filled).get?) :=
  ⟨substitution_iff, substitution_iff, fun _ _ _ d _ => ⟨rfl, Generator.template_eq d⟩⟩

-- The text before a placeholder ends like another one, and a fragment contains one.
example : expand "$[A$[A]$[B]] $[C]"
    (argumentValue? [⟨"A", .text ""⟩, ⟨"B", .text ""⟩] (.ofList [("A", "$[B"), ("C", "c")])) =
      "$[A$[B$[B]] $[C]" := by decide +kernel

end Template

end BlockProgram
