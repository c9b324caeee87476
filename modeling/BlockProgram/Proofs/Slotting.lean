import BlockProgram.Library.Slots
import BlockProgram.Proofs.Expanding
import BlockProgram.Proofs.Numbering
import BlockProgram.Proofs.Repeats

/-!
# Slots in a message

A message is cut at its placeholders. At the first mention of an argument the placeholder
becomes the next slot, every other placeholder stays, and the arguments that are not mentioned
get the slots after the message. A slot starts with a character that no placeholder contains, so
that none arises where a placeholder is taken out. In a message that mentions arguments only,
and none of them twice, no placeholder is left.
-/
namespace BlockProgram

/-! ### Texts cut at their placeholders -/

namespace Template

open Text

/-- No placeholder stands in the text. -/
def IsPlain (text : String) : Prop :=
  ∀ u n v, IsIdentifier n → text ≠ u ++ ("$[" ++ n ++ "]") ++ v

lemma isPlain_iff_not_occurs (text : String) : IsPlain text ↔ ¬ placeholder.Occurs text.toList := by
  rw [occurs_iff, IsPlain]
  push Not
  rfl

/-- A text with placeholders: what stands before the first, and each placeholder's name with
what stands between it and the next. -/
structure Cut where
  lead : String
  parts : List (String × String)

namespace Cut

def names (c : Cut) : List String := c.parts.map Prod.fst

def text (c : Cut) : String :=
  c.lead ++ String.join (c.parts.map fun p => "$[" ++ p.1 ++ "]" ++ p.2)

/-- The text with something else in place of each placeholder, depending on its number and
name. -/
def withMarks (c : Cut) (mark : Nat → String → String) : String :=
  c.lead ++ String.join (c.parts.zipIdx.map fun p => mark p.2 p.1.1 ++ p.1.2)

/-- The text is cut at all of its placeholders. -/
structure Cuts (c : Cut) (text : String) : Prop where
  text : c.text = text
  lead : IsPlain c.lead
  parts : ∀ p ∈ c.parts, IsIdentifier p.1 ∧ IsPlain p.2

end Cut

/-- Every text can be cut at its placeholders. -/
lemma exists_cuts (text : String) : ∃ c : Cut, c.Cuts text := by
  -- Any placeholder leaves two shorter texts, and their cuts meet at it.
  induction hlength : text.length using Nat.strong_induction_on generalizing text with
  | _ length ih =>
    by_cases hplain : IsPlain text
    · exact ⟨⟨text, []⟩, by simp [Cut.text], hplain, by simp⟩
    · rw [IsPlain] at hplain
      push Not at hplain
      obtain ⟨u, n, v, hn, rfl⟩ := hplain
      have hopening : "$[".length = 2 := rfl
      simp only [String.length_append] at hlength
      obtain ⟨cu, hu⟩ := ih u.length (by omega) u rfl
      obtain ⟨cv, hv⟩ := ih v.length (by omega) v rfl
      refine ⟨⟨cu.lead, cu.parts ++ (n, cv.lead) :: cv.parts⟩, ?_, hu.lead, ?_⟩
      · have hutext := hu.text
        have hvtext := hv.text
        simp only [Cut.text] at hutext hvtext ⊢
        rw [← hutext, ← hvtext]
        simp [String.append_assoc]
      · simp only [List.forall_mem_append, List.forall_mem_cons]
        exact ⟨hu.parts, ⟨hn, hv.lead⟩, hv.parts⟩

def partPieces (parts : List (String × String)) : List Piece :=
  parts.flatMap fun p => .mark p.1 :: p.2.toList.map .char

lemma pieces_of_isPlain {text : String} (h : IsPlain text) :
    pieces text = text.toList.map .char :=
  Marker.scan_of_not_occurs ((isPlain_iff_not_occurs text).mp h)

lemma pieces_of_cuts {c : Cut} {text : String} (h : c.Cuts text) :
    pieces text = c.lead.toList.map .char ++ partPieces c.parts := by
  obtain ⟨lead, parts⟩ := c
  obtain ⟨rfl, hlead, hparts⟩ := h
  induction parts generalizing lead with
  | nil => simpa [Cut.text, partPieces] using pieces_of_isPlain hlead
  | cons p rest ih =>
    rw [List.forall_mem_cons] at hparts
    have htext : (⟨lead, p :: rest⟩ : Cut).text =
        lead ++ ("$[" ++ p.1 ++ "]") ++ (⟨p.2, rest⟩ : Cut).text := by
      simp [Cut.text, String.append_assoc]
    rw [htext, pieces_append hparts.1.1, pieces_of_isPlain hlead, ih p.2 hparts.1.2 hparts.2]
    simp [partPieces]

lemma placeholders_of_cuts {c : Cut} {text : String} (h : c.Cuts text) :
    placeholders text = c.names := by
  have hparts (parts : List (String × String)) :
      Marker.names (partPieces parts) = parts.map Prod.fst := by
    induction parts with
    | nil => rfl
    | cons p rest ih => simpa [partPieces, Marker.names] using ih
  rw [placeholders, pieces_of_cuts h, Marker.names, List.filterMap_append, ← Marker.names,
    ← Marker.names, Marker.names_map_char, hparts, List.nil_append, Cut.names]

/-! ### Texts without placeholders -/

lemma isPlain_iff_literal (text : String) : IsPlain text ↔
    ∀ n, IsIdentifier n → ¬ placeholder.literal n <:+: text.toList := by
  constructor
  · rintro h n hn ⟨u, v, huv⟩
    refine h (String.ofList u) n (String.ofList v) hn (String.toList_inj.mp ?_)
    rw [← huv, String.toList_append, String.toList_append, toList_placeholder,
      String.toList_ofList, String.toList_ofList]
  · rintro h u n v hn rfl
    refine h n hn ⟨u.toList, v.toList, ?_⟩
    rw [String.toList_append, String.toList_append, toList_placeholder]

lemma prefix_of_prefix_append_cons {l a b : List Char} {c : Char} (hc : c ∉ l)
    (h : l <+: a ++ c :: b) : l <+: a := by
  by_cases hle : l.length ≤ a.length
  · exact (List.isPrefix_append_of_length hle).mp h
  · have hshort : a ++ [c] <+: a ++ c :: b := ⟨b, by simp⟩
    have hac : a ++ [c] <+: l := List.prefix_of_prefix_length_le hshort h (by simp; omega)
    exact absurd (hac.subset (by simp)) hc

/-- What does not contain a character stands on one side of it. -/
lemma infix_of_infix_append_cons {l a b : List Char} {c : Char} (hc : c ∉ l)
    (h : l <:+: a ++ c :: b) : l <:+: a ∨ l <:+: b := by
  induction a with
  | nil =>
    obtain hprefix | hb := List.infix_cons_iff.mp h
    · exact Or.inl (prefix_of_prefix_append_cons hc (a := []) hprefix).isInfix
    · exact Or.inr hb
  | cons x a ih =>
    obtain hprefix | hrest := List.infix_cons_iff.mp h
    · exact Or.inl (prefix_of_prefix_append_cons hc hprefix).isInfix
    · exact (ih hrest).imp_left fun ha => ha.trans (List.infix_cons (List.infix_refl a))

lemma infix_of_infix_append {l a b : List Char} {o : Char} (ho : o ∉ a)
    (h : o :: l <:+: a ++ b) : o :: l <:+: b := by
  induction a with
  | nil => exact h
  | cons x a ih =>
    rw [List.mem_cons, not_or] at ho
    obtain hprefix | hrest := List.infix_cons_iff.mp h
    · exact absurd (List.cons_prefix_cons.mp hprefix).1 ho.1
    · exact ih ho.2 hrest

lemma not_mem_literal {c : Char} (hmarks : c ∉ ['$', '[', ']']) (hc : isNameChar c = false)
    {n : String} (hn : IsIdentifier n) : c ∉ placeholder.literal n := by
  have hname : c ∉ n.toList := by
    intro hmem
    rw [isNameChar_of_isName ((isName_iff n).mpr hn) c hmem] at hc
    cases hc
  simp only [List.mem_cons, List.not_mem_nil, or_false, not_or] at hmarks
  simp [Marker.literal, placeholder, hname, hmarks]

/-- A character that no placeholder contains keeps two plain texts apart. -/
lemma IsPlain.append_cons {text a b : String} {c : Char} (ha : IsPlain a) (hb : IsPlain b)
    (htext : text.toList = a.toList ++ c :: b.toList) (hmarks : c ∉ ['$', '[', ']'])
    (hc : isNameChar c = false) : IsPlain text := by
  rw [isPlain_iff_literal] at ha hb ⊢
  intro n hn hinfix
  rw [htext] at hinfix
  obtain hleft | hright := infix_of_infix_append_cons (not_mem_literal hmarks hc hn) hinfix
  · exact ha n hn hleft
  · exact hb n hn hright

lemma IsPlain.of_append {a b : String} (hb : IsPlain b) (ha : '$' ∉ a.toList) :
    IsPlain (a ++ b) := by
  rw [isPlain_iff_literal] at hb ⊢
  intro n hn hinfix
  rw [literal_eq, String.toList_append] at hinfix
  exact hb n hn (infix_of_infix_append ha hinfix)

lemma isPlain_empty : IsPlain "" := by
  rw [isPlain_iff_literal]
  intro n _ hinfix
  simp [literal_eq] at hinfix

lemma isPlain_of_not_mem {text : String} (h : '$' ∉ text.toList) : IsPlain text := by
  simpa using isPlain_empty.of_append h

/-- The text is a slot with a plain text after it. -/
def IsSlotted (text : String) : Prop :=
  ∃ (n : Nat) (rest : String), IsPlain rest ∧ text = "%" ++ toString n ++ rest

lemma isPlain_toString_append (n : Nat) {text : String} (h : IsPlain text) :
    IsPlain (toString n ++ text) := by
  refine h.of_append fun hmem => ?_
  have hdigit := (isNumeral_toString n).2 '$' hmem
  cases hdigit

lemma isPlain_append_join {lead : String} {texts : List String} (hlead : IsPlain lead)
    (htexts : ∀ t ∈ texts, IsSlotted t) : IsPlain (lead ++ String.join texts) := by
  induction texts generalizing lead with
  | nil => simpa using hlead
  | cons t texts ih =>
    rw [List.forall_mem_cons] at htexts
    obtain ⟨⟨n, rest, hrest, rfl⟩, htexts⟩ := htexts
    -- The text after the number leads the rest, and digits before it begin no placeholder.
    have hafter := isPlain_toString_append n (ih hrest htexts)
    exact hlead.append_cons (c := '%') hafter (by simp) (by simp) (by decide)

lemma IsSlotted.isPlain {text : String} (h : IsSlotted text) : IsPlain text := by
  have hjoin := isPlain_append_join isPlain_empty (List.forall_mem_singleton.mpr h)
  simpa using hjoin

lemma isPlain_intercalate {texts : List String} (h : ∀ t ∈ texts, IsPlain t) :
    IsPlain (" ".intercalate texts) := by
  induction texts with
  | nil => simpa using isPlain_empty
  | cons t rest ih =>
    rw [List.forall_mem_cons] at h
    cases rest with
    | nil => simpa using h.1
    | cons t' rest =>
      rw [String.intercalate_cons_cons]
      exact h.1.append_cons (c := ' ') (ih h.2) (by simp) (by simp) (by decide)

end Template

/-! ### Arguments by their names -/

namespace Slots

open Text Template

/-- The first argument of each of the names. -/
def firsts (args : List Argument) (names : List String) : List Argument :=
  names.filterMap fun name => args.find? (·.name == name)

/-- The arguments that the names mention, in the order in which they do so first. -/
def mentioned (args : List Argument) (names : List String) : List Argument :=
  firsts args names.eraseDups

/-- The arguments that the names do not mention, in order. -/
def unmentioned (args : List Argument) (names : List String) : List Argument :=
  firsts args ((args.map Argument.name).removeAll names).eraseDups

variable {args : List Argument} {names : List String} {name : String} {a : Argument}

lemma name_of_find? (h : args.find? (·.name == name) = some a) : a.name = name := by
  simpa using List.find?_some h

lemma find?_eq_none_iff : args.find? (·.name == name) = none ↔ name ∉ args.map Argument.name := by
  simp

lemma exists_find?_iff :
    (∃ a, args.find? (·.name == name) = some a) ↔ name ∈ args.map Argument.name := by
  rw [← Option.isSome_iff_exists, List.find?_isSome]
  simp

lemma map_name_firsts (args : List Argument) (names : List String) :
    (firsts args names).map Argument.name =
      names.filter fun name => decide (name ∈ args.map Argument.name) := by
  induction names with
  | nil => rfl
  | cons name rest ih =>
    rw [firsts, List.filterMap_cons, List.filter_cons]
    cases hfind : args.find? (·.name == name) with
    | none =>
      rw [← firsts, ih, if_neg (by simpa using find?_eq_none_iff.mp hfind)]
    | some a =>
      have hmem := exists_find?_iff.mp ⟨a, hfind⟩
      rw [List.map_cons, ← firsts, ih, name_of_find? hfind, if_pos (by simpa using hmem)]

lemma mem_map_name_mentioned_iff :
    name ∈ (mentioned args names).map Argument.name ↔
      name ∈ names ∧ name ∈ args.map Argument.name := by
  rw [mentioned, map_name_firsts, List.mem_filter, List.mem_eraseDups, decide_eq_true_eq]

/-- A name that has come before, or that no argument has, mentions nothing new. -/
lemma mentioned_concat_other (h : name ∈ names ∨ name ∉ args.map Argument.name) :
    mentioned args (names ++ [name]) = mentioned args names := by
  rw [mentioned, eraseDups_concat]
  by_cases hmem : name ∈ names
  · simp [hmem, mentioned]
  · have hnone := find?_eq_none_iff.mpr (h.resolve_left hmem)
    simp [hmem, mentioned, firsts, hnone]

lemma mentioned_concat_first (h : args.find? (·.name == name) = some a) (hnew : name ∉ names) :
    mentioned args (names ++ [name]) = mentioned args names ++ [a] := by
  rw [mentioned, eraseDups_concat]
  simp [hnew, mentioned, firsts, h]

/-- Arguments that are mentioned later come after those mentioned before. -/
lemma exists_mentioned_append (args : List Argument) (before after : List String) :
    ∃ more, mentioned args (before ++ after) = mentioned args before ++ more := by
  refine ⟨firsts args (after.removeAll before).eraseDups, ?_⟩
  rw [mentioned, List.eraseDups_append, firsts, List.filterMap_append]
  rfl

lemma idxOf_mentioned {before : List String} (h : args.find? (·.name == name) = some a)
    (hnew : name ∉ before) (after : List String) :
    ((mentioned args (before ++ name :: after)).map Argument.name).idxOf name =
      (mentioned args before).length := by
  obtain ⟨more, hmore⟩ := exists_mentioned_append args (before ++ [name]) after
  have hnot : name ∉ (mentioned args before).map Argument.name := fun hmem =>
    hnew (mem_map_name_mentioned_iff.mp hmem).1
  rw [List.append_assoc, List.singleton_append] at hmore
  rw [hmore, mentioned_concat_first h hnew, List.append_assoc, List.map_append,
    List.idxOf_append, if_neg hnot, List.singleton_append, List.map_cons, name_of_find? h]
  simp

/-! ### Placeholders that become slots -/

/-- What the placeholder with a number and a name becomes: a slot if it is the first mention of
an argument, and what it is otherwise. -/
def markAt (args : List Argument) (names : List String) (i : Nat) (name : String) : String :=
  if names.idxOf name = i ∧ name ∈ args.map Argument.name then
    "%" ++ toString (((mentioned args names).map Argument.name).idxOf name + 1)
  else "$[" ++ name ++ "]"

lemma markAt_first {before : List String} (h : args.find? (·.name == name) = some a)
    (hnew : name ∉ before) (after : List String) :
    markAt args (before ++ name :: after) before.length name =
      "%" ++ toString ((mentioned args before).length + 1) := by
  have hindex : (before ++ name :: after).idxOf name = before.length := by
    rw [List.idxOf_append, if_neg hnew]
    simp
  rw [markAt, if_pos ⟨hindex, exists_find?_iff.mp ⟨a, h⟩⟩, idxOf_mentioned h hnew]

lemma markAt_other {before : List String} (h : name ∈ before ∨ name ∉ args.map Argument.name)
    (after : List String) :
    markAt args (before ++ name :: after) before.length name = "$[" ++ name ++ "]" := by
  refine if_neg fun hfirst => ?_
  obtain hmem | hnone := h
  · have hlt := List.idxOf_lt_length_of_mem hmem
    rw [List.idxOf_append, if_pos hmem] at hfirst
    omega
  · exact hnone hfirst.2

lemma place_chars (taken : List Argument) (cs : List Char) (rest : List Piece) :
    place args taken (cs.map .char ++ rest) =
      (cs ++ (place args taken rest).1, (place args taken rest).2) := by
  induction cs with
  | nil => rfl
  | cons c cs ih => rw [List.map_cons, List.cons_append, place, ih, List.cons_append]

lemma place_first {taken : List Argument} (h : args.find? (·.name == name) = some a)
    (hnew : name ∉ taken.map Argument.name) (rest : List Piece) :
    place args taken (.mark name :: rest) =
      (slot (taken.length + 1) ++ (place args (taken ++ [a]) rest).1,
        (place args (taken ++ [a]) rest).2) := by
  have hfree : ¬ taken.any (·.name == name) = true := by simpa using hnew
  rw [place, h]
  dsimp only
  rw [if_neg hfree]

lemma place_other {taken : List Argument}
    (h : name ∈ taken.map Argument.name ∨ name ∉ args.map Argument.name) (rest : List Piece) :
    place args taken (.mark name :: rest) =
      (placeholder.literal name ++ (place args taken rest).1, (place args taken rest).2) := by
  rw [place]
  cases hfind : args.find? (·.name == name) with
  | none => rfl
  | some a =>
    have hgiven := h.resolve_right (not_not.mpr (exists_find?_iff.mp ⟨a, hfind⟩))
    have hany : taken.any (·.name == name) = true := by simpa using hgiven
    dsimp only
    rw [if_pos hany]

lemma toList_slot (n : Nat) : ("%" ++ toString n).toList = slot n := by
  simp [slot]

/-- A placeholder that comes after others becomes what it is to be. -/
lemma place_mark (args : List Argument) (before after : List String) (name : String)
    (rest : List Piece) : place args (mentioned args before) (.mark name :: rest) =
      ((markAt args (before ++ name :: after) before.length name).toList ++
          (place args (mentioned args (before ++ [name])) rest).1,
        (place args (mentioned args (before ++ [name])) rest).2) := by
  by_cases hother : name ∈ before ∨ name ∉ args.map Argument.name
  · have hgiven : name ∈ (mentioned args before).map Argument.name ∨
        name ∉ args.map Argument.name := by
      rw [mem_map_name_mentioned_iff]
      tauto
    rw [place_other hgiven, markAt_other hother, mentioned_concat_other hother,
      toList_placeholder]
  · rw [not_or, not_not] at hother
    obtain ⟨a, ha⟩ := exists_find?_iff.mpr hother.2
    have hnew : name ∉ (mentioned args before).map Argument.name := fun hmem =>
      hother.1 (mem_map_name_mentioned_iff.mp hmem).1
    rw [place_first ha hnew, markAt_first ha hother.1, mentioned_concat_first ha hother.1,
      toList_slot]

lemma place_parts (args : List Argument) (before after : List (String × String)) :
    place args (mentioned args (before.map Prod.fst)) (partPieces after) =
      ((String.join ((after.zipIdx before.length).map fun p =>
          markAt args ((before ++ after).map Prod.fst) p.2 p.1.1 ++ p.1.2)).toList,
        mentioned args ((before ++ after).map Prod.fst)) := by
  -- What is taken is what the parts before mention; each step moves one part over to them.
  induction after generalizing before with
  | nil => simp [partPieces, place]
  | cons p rest ih =>
    have hpieces : partPieces (p :: rest) =
        .mark p.1 :: (p.2.toList.map .char ++ partPieces rest) := by simp [partPieces]
    have hrest := ih (before ++ [p])
    rw [List.append_assoc, List.singleton_append, List.map_append, List.map_singleton,
      List.length_append, List.length_singleton] at hrest
    rw [hpieces, place_mark args _ (rest.map Prod.fst), place_chars, hrest, List.zipIdx_cons,
      List.map_cons, String.join_cons]
    simp

/-- The message with the slots of the arguments that it mentions. -/
lemma place_of_cuts {cut : Cut} {message : String} (h : cut.Cuts message)
    (args : List Argument) : place args [] (pieces message) =
      ((cut.withMarks (markAt args cut.names)).toList, mentioned args cut.names) := by
  have hnone : mentioned args [] = [] := rfl
  have hparts := place_parts args [] cut.parts
  rw [List.map_nil, hnone] at hparts
  rw [pieces_of_cuts h, place_chars, hparts]
  simp [Cut.withMarks, Cut.names]

/-! ### Slots after the message -/

lemma firsts_cons (hnew : a.name ∉ names) : firsts (a :: args) names = firsts args names := by
  refine List.filterMap_congr fun name hname => ?_
  have hne : a.name ≠ name := fun heq => hnew (heq ▸ hname)
  simp [hne]

lemma unmentioned_cons_of_mem (h : a.name ∈ names) :
    unmentioned (a :: args) names = unmentioned args names := by
  have hnew : a.name ∉ ((args.map Argument.name).removeAll names).eraseDups := by
    simp [List.removeAll, h]
  rw [unmentioned, List.map_cons, List.cons_removeAll, if_neg (by simp [h])]
  exact firsts_cons hnew

lemma unmentioned_cons_of_not_mem (h : a.name ∉ names) :
    unmentioned (a :: args) names = a :: unmentioned args (names ++ [a.name]) := by
  have hrest : ((args.map Argument.name).removeAll names).filter (fun name => !name == a.name) =
      (args.map Argument.name).removeAll (names ++ [a.name]) := by
    rw [List.removeAll, List.removeAll, List.filter_filter]
    refine List.filter_congr fun name _ => ?_
    by_cases hname : name = a.name <;> simp [hname]
  have hnew : a.name ∉ ((args.map Argument.name).removeAll (names ++ [a.name])).eraseDups := by
    simp [List.removeAll]
  rw [unmentioned, List.map_cons, List.cons_removeAll, if_pos (by simp [h]), List.eraseDups_cons,
    hrest, firsts, List.filterMap_cons_some (b := a) (by simp)]
  exact congrArg (a :: ·) (firsts_cons hnew)

/-- Arguments that have no slot yet get the next ones, each after a gap unless the text is
empty. -/
lemma append_eq (args : List Argument) (text : List Char) (taken : List Argument) :
    append args (text, taken) =
      (((unmentioned args (taken.map Argument.name)).zipIdx (taken.length + 1)).foldl
          (fun text a => text ++ (if text.isEmpty then [] else [' ']) ++ slot a.2) text,
        taken ++ unmentioned args (taken.map Argument.name)) := by
  induction args generalizing text taken with
  | nil => simp [append, unmentioned, firsts]
  | cons a rest ih =>
    rw [append]
    by_cases hgiven : a.name ∈ taken.map Argument.name
    · have hany : taken.any (·.name == a.name) = true := by simpa using hgiven
      rw [if_pos hany, ih, unmentioned_cons_of_mem hgiven]
    · have hany : ¬ taken.any (·.name == a.name) = true := by simpa using hgiven
      rw [if_neg hany, unmentioned_cons_of_not_mem hgiven, List.zipIdx_cons, List.foldl_cons]
      dsimp only
      rw [ih]
      simp

/-- Texts that are put after another one, with gaps between them, are joined with it, unless
that is empty. -/
lemma foldl_gap {α : Type} (write : α → String) (hwrite : ∀ x, write x ≠ "") (text : String)
    (items : List α) :
    items.foldl (fun text x => text ++ (if text.isEmpty then [] else [' ']) ++ (write x).toList)
        text.toList =
      (" ".intercalate ((if text = "" then [] else [text]) ++ items.map write)).toList := by
  induction items generalizing text with
  | nil =>
    by_cases htext : text = "" <;> simp [htext]
  | cons x rest ih =>
    have hstep : text.toList ++ (if text.toList.isEmpty then [] else [' ']) ++ (write x).toList =
        (text ++ (if text = "" then "" else " ") ++ write x).toList := by
      by_cases htext : text = "" <;> simp [htext]
    have hne : text ++ (if text = "" then "" else " ") ++ write x ≠ "" := by
      simp [hwrite x]
    rw [List.foldl_cons, hstep, ih, if_neg hne]
    by_cases htext : text = "" <;> simp [htext]

/-! ### The layout -/

/-- The message with each slot at the first mention of its argument, and the slots of the
arguments that are not mentioned after it, with gaps between them. -/
def messageOf (cut : Cut) (args : List Argument) : String :=
  let text := cut.withMarks (markAt args cut.names)
  let after := (unmentioned args cut.names).zipIdx ((mentioned args cut.names).length + 1)
  " ".intercalate ((if text = "" then [] else [text]) ++ after.map fun a => "%" ++ toString a.2)

/-- Every name of an argument has one slot, which holds the first argument of that name. The
arguments that are mentioned come in the order of their first mention, and the others after
them. -/
structure Laid (cut : Cut) (args : List Argument) (slots : Slots) : Prop where
  distinct : (slots.args.map Argument.name).Nodup
  first : ∀ a ∈ slots.args, args.find? (·.name == a.name) = some a
  all : ∀ a ∈ args, a.name ∈ slots.args.map Argument.name
  order : slots.args = mentioned args cut.names ++ unmentioned args cut.names
  message : slots.message = messageOf cut args

lemma mentioned_append_unmentioned (args : List Argument) (names : List String) :
    mentioned args names ++ unmentioned args names =
      firsts args (names ++ args.map Argument.name).eraseDups := by
  rw [List.eraseDups_append, firsts, List.filterMap_append]
  rfl

/-- It makes no difference whether names are left out that no argument has. -/
lemma unmentioned_mentioned (args : List Argument) (names : List String) :
    unmentioned args ((mentioned args names).map Argument.name) = unmentioned args names := by
  have hsame : (args.map Argument.name).removeAll ((mentioned args names).map Argument.name) =
      (args.map Argument.name).removeAll names := by
    refine List.filter_congr fun name hname => ?_
    have hiff : name ∈ (mentioned args names).map Argument.name ↔ name ∈ names := by
      rw [mem_map_name_mentioned_iff, and_iff_left hname]
    simp [hiff]
  rw [unmentioned, hsame, unmentioned]

lemma ofMessage_of_cuts {cut : Cut} {message : String} (h : cut.Cuts message)
    (args : List Argument) : ofMessage message args =
      ⟨messageOf cut args, mentioned args cut.names ++ unmentioned args cut.names⟩ := by
  have hgap := foldl_gap (fun a : Argument × Nat => "%" ++ toString a.2) (by simp)
    (cut.withMarks (markAt args cut.names))
    ((unmentioned args cut.names).zipIdx ((mentioned args cut.names).length + 1))
  simp only [toList_slot] at hgap
  rw [ofMessage, place_of_cuts h, append_eq, unmentioned_mentioned]
  dsimp only
  rw [hgap, String.ofList_toList, messageOf]

lemma laid_of_cuts {cut : Cut} {message : String} (h : cut.Cuts message) (args : List Argument) :
    Laid cut args (ofMessage message args) := by
  rw [ofMessage_of_cuts h]
  have hfirsts := mentioned_append_unmentioned args cut.names
  refine ⟨?_, ?_, ?_, rfl, rfl⟩
  · rw [hfirsts, map_name_firsts]
    exact (nodup_eraseDups _).filter _
  · intro a ha
    rw [hfirsts] at ha
    obtain ⟨name, -, hfind⟩ := List.mem_filterMap.mp ha
    rwa [name_of_find? hfind]
  · intro a ha
    have hname : a.name ∈ args.map Argument.name := List.mem_map_of_mem ha
    rw [hfirsts, map_name_firsts, List.mem_filter, List.mem_eraseDups]
    exact ⟨List.mem_append_right _ hname, by simpa using hname⟩

/-! ### Messages of definitions -/

lemma isSlotted_mark (honce : names.Nodup) (hmatched : ∀ n ∈ names, n ∈ args.map Argument.name)
    {i : Nat} (hname : names[i]? = some name) {text : String} (htext : IsPlain text) :
    IsSlotted (markAt args names i name ++ text) := by
  obtain ⟨hi, rfl⟩ := List.getElem?_eq_some_iff.mp hname
  rw [markAt, if_pos ⟨honce.idxOf_getElem i hi, hmatched _ (List.getElem_mem hi)⟩]
  exact ⟨_, text, htext, rfl⟩

/-- No placeholder is left of those that mention an argument each, and none twice. -/
lemma isPlain_message {cut : Cut} {message : String} (h : cut.Cuts message)
    (honce : cut.names.Nodup) (hmatched : ∀ n ∈ cut.names, n ∈ args.map Argument.name) :
    IsPlain (ofMessage message args).message := by
  have hmarks : IsPlain (cut.withMarks (markAt args cut.names)) := by
    refine isPlain_append_join h.lead fun text htext => ?_
    obtain ⟨⟨p, i⟩, hp, rfl⟩ := List.mem_map.mp htext
    rw [List.mk_mem_zipIdx_iff_getElem?] at hp
    have hname : cut.names[i]? = some p.1 := by simp [Cut.names, hp]
    exact isSlotted_mark honce hmatched hname (h.parts p (List.mem_of_getElem? hp)).2
  rw [ofMessage_of_cuts h]
  refine isPlain_intercalate fun text htext => ?_
  rw [List.mem_append, List.mem_map] at htext
  obtain hlead | ⟨a, -, rfl⟩ := htext
  · split at hlead
    · cases hlead
    · rwa [List.mem_singleton.mp hlead]
  · exact IsSlotted.isPlain ⟨a.2, "", isPlain_empty, by simp⟩

lemma Laid.perm {cut : Cut} {slots : Slots} (h : Laid cut args slots)
    (hdistinct : (args.map Argument.name).Nodup) : slots.args.Perm args := by
  rw [List.perm_ext_iff_of_nodup h.distinct.of_map hdistinct.of_map]
  intro a
  constructor
  · intro ha
    exact List.mem_of_find?_eq_some (h.first a ha)
  · intro ha
    obtain ⟨b, hb, hname⟩ := List.mem_map.mp (h.all a ha)
    have hbargs := List.mem_of_find?_eq_some (h.first b hb)
    rwa [← List.inj_on_of_nodup_map hdistinct hbargs ha hname]

/-- Every message can be cut at its placeholders, and its slots are laid out as that cut says.
The message of a definition that is read has a slot for each of its arguments, and no
placeholder. -/
theorem slots_complete_and_ordered :
    (∀ (message : String) (args : List Argument), (∃ cut : Cut, cut.Cuts message) ∧
      ∀ cut : Cut, cut.Cuts message → Laid cut args (ofMessage message args)) ∧
    ∀ (path : Path) (j : Json) (d : Definition), Definition.ofJson path j = .ok d →
      IsPlain (ofMessage d.message d.args).message ∧
        (ofMessage d.message d.args).args.Perm d.args := by
  refine ⟨fun message args => ⟨exists_cuts message, fun cut h => laid_of_cuts h args⟩, ?_⟩
  intro path j d hd
  have hwell := Definition.wellFormed_of_ofJson hd
  obtain ⟨cut, hcut⟩ := exists_cuts d.message
  have honce := hwell.once
  have hmatched := hwell.matched
  rw [placeholders_of_cuts hcut] at honce hmatched
  have hnames : ∀ n ∈ cut.names, n ∈ d.args.map Argument.name := fun n hn =>
    List.mem_map.mpr (hmatched n hn)
  exact ⟨isPlain_message hcut honce hnames, (laid_of_cuts hcut d.args).perm hwell.distinct⟩

/-- Arguments of which two have one name. -/
def turnArgs : List Argument :=
  [⟨"SPEED", .text "1"⟩, ⟨"ANGLE", .text "90"⟩, ⟨"SIDE", .text "left"⟩, ⟨"ANGLE", .text "45"⟩]

/-- A message that mentions an argument twice, and something else. -/
def turnCut : Cut := ⟨"turn ", [("SIDE", ""), ("ANGLE", " of "), ("SIDE", ", "), ("UNIT", "")]⟩

/-- A block with two placeholders side by side after half of a third. -/
def turnBlock : Json :=
  .mkObject [("type", .string "turn"), ("message", .string "$[$[SIDE]$[ANGLE]]"),
    ("args", .array (["ANGLE", "SPEED", "SIDE"].map fun name =>
      .mkObject [("name", .string name), ("type", .string "field_input")]))]

theorem turn_slots :
    Laid turnCut turnArgs (ofMessage "turn $[SIDE]$[ANGLE] of $[SIDE], $[UNIT]" turnArgs) ∧
      (ofMessage "turn $[SIDE]$[ANGLE] of $[SIDE], $[UNIT]" turnArgs).message =
        "turn %1%2 of $[SIDE], $[UNIT] %3" ∧
      ∃ d, Definition.ofJson {} turnBlock = .ok d ∧
        (ofMessage d.message d.args).message = "$[%1%2] %3" ∧
        IsPlain (ofMessage d.message d.args).message ∧
        (ofMessage d.message d.args).args.Perm d.args := by
  have hcut : turnCut.Cuts "turn $[SIDE]$[ANGLE] of $[SIDE], $[UNIT]" := by
    refine ⟨by decide, isPlain_of_not_mem (by decide), ?_⟩
    have hparts : ∀ p ∈ turnCut.parts, isName p.1 = true ∧ '$' ∉ p.2.toList := by decide
    exact fun p hp => ⟨(isName_iff _).mp (hparts p hp).1, isPlain_of_not_mem (hparts p hp).2⟩
  obtain ⟨d, hd, hmessage⟩ : ∃ d, Definition.ofJson {} turnBlock = .ok d ∧
      (ofMessage d.message d.args).message = "$[%1%2] %3" := exists_ok_of_map (by decide +kernel)
  exact ⟨(slots_complete_and_ordered.1 _ turnArgs).2 turnCut hcut, by decide +kernel, d, hd,
    hmessage, slots_complete_and_ordered.2 _ _ d hd⟩

end Slots

end BlockProgram
