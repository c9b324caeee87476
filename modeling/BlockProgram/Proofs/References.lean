import BlockProgram.Instance.Reference
import BlockProgram.Proofs.Reading

/-!
# References read back as they were written

A reference is stored as compact JSON. Writing escapes some characters of a string, and
reading undoes each escape and takes every other character as it is. So an array of any
strings is read back from its text, and a reference is determined by its stored form.
-/
namespace BlockProgram

namespace Json

/-! ### Characters -/

lemma hexValue?_hexDigit : ∀ n < 16, hexValue? (hexDigit n) = some n := by decide

lemma readHex_hexDigit {n : Nat} (hn : n < 256) (rest : List Char) :
    readHex ('0' :: '0' :: hexDigit (n / 16) :: hexDigit (n % 16) :: rest) = .ok (n, rest) := by
  have hzero : hexValue? '0' = some 0 := by decide
  have hhigh := hexValue?_hexDigit (n / 16) (by omega)
  have hlow := hexValue?_hexDigit (n % 16) (by omega)
  unfold readHex
  rw [if_neg]
  · simp only [hzero, hhigh, hlow]
    congr 2
    omega
  · have hsize : '0'.utf8Size = 1 := by decide
    have hsizeHigh := (hexDigit (n / 16)).utf8Size_pos
    have hsizeLow := (hexDigit (n % 16)).utf8Size_pos
    simp only [List.take_succ_cons, List.take_zero, byteLength, hsize]
    omega

/-- A control character is written by its number. -/
lemma readEscape_control {c : Char} (hc : c.toNat < 0x20) (rest : List Char) :
    readEscape ('u' :: '0' :: '0' :: hexDigit (c.toNat / 16) :: hexDigit (c.toNat % 16) :: rest) =
      .ok (c, rest) := by
  have htrailing : isTrailing c.toNat = false := by simp [isTrailing]; omega
  have hleading : isLeading c.toNat = false := by simp [isLeading]; omega
  rw [readEscape, if_pos rfl, readUnicode, readHex_hexDigit (by omega)]
  simp [htrailing, hleading, Char.ofNat_toNat]

/-- A character is written as it is, or as an escape that stands for it. -/
lemma escapeChar_cases (c : Char) :
    (escapeChar c = [c] ∧ c ≠ '"' ∧ c ≠ '\\' ∧ ¬ c.toNat < 0x20) ∨
      ∃ escape, escapeChar c = '\\' :: escape ∧
        ∀ rest, readEscape (escape ++ rest) = .ok (c, rest) := by
  unfold escapeChar
  split_ifs with hquote hslash hb ht hn hf hr hcontrol
  · exact .inr ⟨_, rfl, fun rest => by subst hquote; rfl⟩
  · exact .inr ⟨_, rfl, fun rest => by subst hslash; rfl⟩
  · exact .inr ⟨_, rfl, fun rest => by subst hb; rfl⟩
  · exact .inr ⟨_, rfl, fun rest => by subst ht; rfl⟩
  · exact .inr ⟨_, rfl, fun rest => by subst hn; rfl⟩
  · exact .inr ⟨_, rfl, fun rest => by subst hf; rfl⟩
  · exact .inr ⟨_, rfl, fun rest => by subst hr; rfl⟩
  · exact .inr ⟨_, rfl, fun rest => readEscape_control hcontrol rest⟩
  · exact .inl ⟨rfl, hquote, hslash, hcontrol⟩

lemma readChars_escape {s tail : List Char} {c : Char} (h : readEscape s = .ok (c, tail)) :
    readChars ('\\' :: s) = (readChars tail).map fun r => (c :: r.1, r.2) := by
  rw [readChars, if_neg (by decide), if_pos rfl]
  split
  · next heq => rw [h] at heq; cases heq
  · next heq => rw [h] at heq; cases heq; rfl

lemma readChars_escapeChar (c : Char) (rest : List Char) :
    readChars (escapeChar c ++ rest) = (readChars rest).map fun r => (c :: r.1, r.2) := by
  obtain ⟨hplain, hquote, hslash, hcontrol⟩ | ⟨escape, hescape, hread⟩ := escapeChar_cases c
  · rw [hplain, List.singleton_append, readChars, if_neg hquote, if_neg hslash, if_neg hcontrol]
  · rw [hescape, List.cons_append, readChars_escape (hread rest)]

lemma readChars_flatMap_escapeChar (cs rest : List Char) :
    readChars (cs.flatMap escapeChar ++ '"' :: rest) = .ok (cs, rest) := by
  induction cs with
  | nil =>
    rw [List.flatMap_nil, List.nil_append, readChars, if_pos rfl]
  | cons c cs ih =>
    rw [List.flatMap_cons, List.append_assoc, readChars_escapeChar, ih]
    rfl

/-! ### Strings and arrays of strings -/

lemma skipSpace_cons {c : Char} (hc : isSpace c = false) (rest : List Char) :
    skipSpace (c :: rest) = c :: rest :=
  List.dropWhile_cons_of_neg (by simp [hc])

lemma writeString_append (s : String) (rest : List Char) :
    writeString s ++ rest = '"' :: (s.toList.flatMap escapeChar ++ '"' :: rest) := by
  simp [writeString]

lemma value_writeString (depth : Nat) (s : String) (rest : List Char) :
    value (depth + 1) (writeString s ++ rest) = .ok (.string s, rest) := by
  have hread : readString (s.toList.flatMap escapeChar ++ '"' :: rest) = .ok (s, rest) := by
    simp [readString, readChars_flatMap_escapeChar, Except.map]
  rw [writeString_append, value, skipSpace_cons (by decide)]
  simp [readScalar, hread, Except.map]

section Items

variable {α : Type} {item : Reader α} {bound : Nat} {first : Bool} {s t : List Char}

lemma items_of_end (hnext : nextItem first s = .ok (false, ']' :: t)) :
    items item (bound + 1) first s = .ok ([], t) := by
  rw [items, hnext]
  rfl

lemma items_of_item {a : α} {as : List α} {s' s'' : List Char}
    (hnext : nextItem first s = .ok (true, s')) (hitem : item s' = .ok (a, s''))
    (hrest : items item bound false s'' = .ok (as, t)) :
    items item (bound + 1) first s = .ok (a :: as, t) := by
  rw [items, hnext]
  change (item s' >>= fun r => items item bound false r.2 >>= _) = _
  rw [hitem]
  change (items item bound false s'' >>= _) = _
  rw [hrest]
  rfl

end Items

lemma nextItem_writeString (s : String) (rest : List Char) :
    nextItem true (writeString s ++ rest) = .ok (true, writeString s ++ rest) ∧
      nextItem false (',' :: (writeString s ++ rest)) = .ok (true, writeString s ++ rest) := by
  have hquote (t : List Char) : skipSpace ('"' :: t) = '"' :: t := skipSpace_cons (by decide) t
  have hcomma (t : List Char) : skipSpace (',' :: t) = ',' :: t := skipSpace_cons (by decide) t
  rw [writeString_append]
  simp [nextItem, hquote, hcomma]

lemma nextItem_end (first : Bool) (rest : List Char) :
    nextItem first (']' :: rest) = .ok (false, ']' :: rest) := by
  rw [nextItem, skipSpace_cons (by decide)]
  rfl

/-- The strings behind the first one of an array, each after a comma. -/
lemma items_flatMap_writeString (depth : Nat) (texts : List String) (rest : List Char) {bound : Nat}
    (hbound : texts.length < bound) :
    items (value (depth + 1)) bound false
        (texts.flatMap (fun s => ',' :: writeString s) ++ ']' :: rest) =
      .ok (texts.map .string, rest) := by
  induction texts generalizing bound with
  | nil =>
    obtain ⟨bound, rfl⟩ := Nat.exists_eq_succ_of_ne_zero (Nat.ne_zero_of_lt hbound)
    exact items_of_end (nextItem_end false rest)
  | cons s texts ih =>
    obtain ⟨bound, rfl⟩ := Nat.exists_eq_succ_of_ne_zero (Nat.ne_zero_of_lt hbound)
    rw [List.flatMap_cons, List.cons_append, List.cons_append, List.append_assoc]
    exact items_of_item (nextItem_writeString s _).2 (value_writeString depth s _)
      (ih (Nat.lt_of_succ_lt_succ hbound))

lemma writeItems_map_string (s : String) (texts : List String) :
    writeItems ((s :: texts).map .string) =
      writeString s ++ texts.flatMap fun s => ',' :: writeString s := by
  induction texts generalizing s with
  | nil => simp [writeItems, write]
  | cons t texts ih =>
    rw [List.map_cons, List.map_cons, writeItems, ← List.map_cons, ih, write, List.flatMap_cons,
      List.cons_append]
    simp

lemma items_writeItems (depth : Nat) (texts : List String) (rest : List Char) {bound : Nat}
    (hbound : texts.length < bound) :
    items (value (depth + 1)) bound true (writeItems (texts.map .string) ++ ']' :: rest) =
      .ok (texts.map .string, rest) := by
  obtain ⟨bound, rfl⟩ := Nat.exists_eq_succ_of_ne_zero (Nat.ne_zero_of_lt hbound)
  cases texts with
  | nil => exact items_of_end (nextItem_end true rest)
  | cons s texts =>
    rw [writeItems_map_string, List.append_assoc]
    exact items_of_item (nextItem_writeString s _).1 (value_writeString depth s _)
      (items_flatMap_writeString depth texts rest (Nat.lt_of_succ_lt_succ hbound))

lemma length_le_writeItems (texts : List String) :
    texts.length ≤ (writeItems (texts.map .string)).length := by
  have hcommas (more : List String) :
      more.length ≤ (more.flatMap fun s => ',' :: writeString s).length := by
    induction more with
    | nil => rfl
    | cons s more ih => simp; omega
  cases texts with
  | nil => exact Nat.zero_le _
  | cons s texts =>
    have hfirst : 0 < (writeString s).length := by simp [writeString]
    have hmore := hcommas texts
    rw [writeItems_map_string, List.length_append, List.length_cons]
    omega

lemma toList_compact_array (items : List Json) :
    (array items).compact.toList = '[' :: (writeItems items ++ [']']) := by
  simp [compact, write]

/-- An array of strings is read back from its text. -/
theorem ofText_compact_strings (texts : List String) :
    ofText (array (texts.map .string)).compact = .ok (.array (texts.map .string)) := by
  have htext := toList_compact_array (texts.map .string)
  -- The text has two brackets at least, so that the bound on the depth leaves room for strings.
  obtain ⟨depth, hdepth⟩ : ∃ depth, (array (texts.map .string)).compact.length = depth + 1 := by
    rw [← String.length_toList, htext]
    exact ⟨_, rfl⟩
  have hbound : texts.length < (writeItems (texts.map .string) ++ [']']).length + 1 := by
    have hlength := length_le_writeItems texts
    rw [List.length_append]
    omega
  have hvalue : value (depth + 2) ('[' :: (writeItems (texts.map .string) ++ [']'])) =
      .ok (.array (texts.map .string), []) := by
    rw [value, skipSpace_cons (by decide)]
    change (items _ _ _ _).map _ = _
    rw [items_writeItems depth texts [] hbound]
    rfl
  rw [ofText, readAll, hdepth, htext, hvalue]
  rfl

end Json

namespace Reference

lemma ofText_encode (r : Reference) :
    Json.ofText r.encode = .ok (.array [.string r.type, .string r.block, .string r.name]) :=
  Json.ofText_compact_strings [r.type, r.block, r.name]

theorem decode?_encode (r : Reference) : decode? r.encode = some r := by
  have htext : r.encode.toList = _ := Json.toList_compact_array _
  rw [decode?, htext, ofText_encode]
  rfl

/-- A reference is stored as the JSON array of its three parts, whatever characters they
have, and is read back from there. So no two references are stored alike. -/
theorem encode_round_trip :
    (∀ r : Reference,
      Json.ofText r.encode = .ok (.array [.string r.type, .string r.block, .string r.name]) ∧
        decode? r.encode = some r) ∧
      Function.Injective encode := by
  refine ⟨fun r => ⟨ofText_encode r, decode?_encode r⟩, fun r r' h => ?_⟩
  have hread := decode?_encode r
  rw [h, decode?_encode r'] at hread
  exact (Option.some.inj hread).symm

example : encode ⟨"robutek", "b7", "a\"\x01"⟩ = "[\"robutek\",\"b7\",\"a\\\"\\u0001\"]" := by
  decide +kernel

end Reference

end BlockProgram
