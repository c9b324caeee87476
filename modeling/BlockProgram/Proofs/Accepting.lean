import BlockProgram.Proofs.Registering

/-!
# What a document has to be for its reading to succeed

The checks of a reading stand where the parts are read: the names of arguments are checked
one by one, the message against the arguments, the constructor against them as well. Taken
together they say that every block of a document that is read is well formed, and that
what it hands on to the editor is just what the document says and no check looks at.
-/
namespace BlockProgram

/-! ### Names -/

namespace Text

/-- A character of `[A-Za-z_]`. -/
def IsLetter (c : Char) : Prop := ('A' ≤ c ∧ c ≤ 'Z') ∨ ('a' ≤ c ∧ c ≤ 'z') ∨ c = '_'

/-- A text of the form `[A-Za-z_][A-Za-z0-9_]*`. -/
def IsIdentifier (s : String) : Prop :=
  ∃ first rest, s.toList = first :: rest ∧ IsLetter first ∧
    ∀ c ∈ rest, IsLetter c ∨ ('0' ≤ c ∧ c ≤ '9')

lemma isNameStart_iff (c : Char) : isNameStart c = true ↔ IsLetter c := by
  have halpha : c.isAlpha =
      (decide ('A' ≤ c ∧ c ≤ 'Z') || (decide ('a' ≤ c) && decide (c ≤ 'z'))) := rfl
  simp [isNameStart, IsLetter, halpha, or_assoc]

lemma isNameChar_iff (c : Char) :
    isNameChar c = true ↔ IsLetter c ∨ ('0' ≤ c ∧ c ≤ '9') := by
  have hchar : isNameChar c = (isNameStart c || c.isDigit) := by
    rw [isNameChar, isNameStart, Char.isAlphanum, Bool.or_right_comm]
  rw [hchar, Bool.or_eq_true, isNameStart_iff]
  simp [Char.isDigit, Char.le_def]

lemma isName_iff (s : String) : isName s = true ↔ IsIdentifier s := by
  unfold isName IsIdentifier
  cases s.toList with
  | nil => simp
  | cons c rest => simp [isNameStart_iff, isNameChar_iff]

end Text

/-! ### Arguments -/

lemma ArgumentKind.choices_ne_nil_of_ofNode {n : Node} {type : String} {choices : List Choice}
    (h : ofNode n type = .ok (.choice choices)) : choices ≠ [] := by
  have hdropdown : ofDropdown n = .ok (.choice choices) := by
    unfold ofNode at h
    split at h
    · obtain ⟨initial, -, h⟩ := bind_eq_ok.mp h
      cases h
    · obtain ⟨initial, -, h⟩ := bind_eq_ok.mp h
      obtain ⟨least, -, h⟩ := bind_eq_ok.mp h
      obtain ⟨most, -, h⟩ := bind_eq_ok.mp h
      cases h
    · obtain ⟨checked, -, h⟩ := bind_eq_ok.mp h
      cases h
    · exact h
    · obtain ⟨check, -, h⟩ := bind_eq_ok.mp h
      obtain ⟨order, -, h⟩ := bind_eq_ok.mp h
      cases h
    · obtain ⟨check, -, h⟩ := bind_eq_ok.mp h
      cases h
    · cases h
  rcases ofDropdown_cases hdropdown with ⟨system, -, h⟩ | ⟨-, items, choices', -, hne, hread, h⟩
  · cases h
  · cases h
    rw [← List.length_pos_iff] at hne ⊢
    rwa [length_of_readItems hread]

/-- An argument that was read has a name that a placeholder can have, and choices if it is
a dropdown of its own. -/
lemma Argument.of_ofJson {path : Path} {j : Json} {a : Argument}
    (h : Argument.ofJson path j = .ok a) :
    Text.isName a.name = true ∧ ∀ choices, a.kind = .choice choices → choices ≠ [] := by
  obtain ⟨n, -, h⟩ := bind_eq_ok.mp h
  obtain ⟨name, -, h⟩ := bind_eq_ok.mp h
  split at h
  · cases h
  · next hname =>
    obtain ⟨type, -, h⟩ := bind_eq_ok.mp h
    obtain ⟨kind, hkind, h⟩ := bind_eq_ok.mp h
    cases h
    refine ⟨by simpa using hname, ?_⟩
    rintro choices rfl
    exact ArgumentKind.choices_ne_nil_of_ofNode hkind

lemma checkPlaceholders_eq_ok_iff {path : Path} {args : List Argument} {seen names : List String} :
    checkPlaceholders path args seen names = .ok () ↔
      names.Nodup ∧ ∀ name ∈ names, name ∉ seen ∧ ∃ a ∈ args, a.name = name := by
  induction names generalizing seen with
  | nil => simp [checkPlaceholders]
  | cons name rest ih =>
    rw [checkPlaceholders, List.nodup_cons, List.forall_mem_cons]
    by_cases hseen : seen.contains name = true
    · rw [if_pos hseen]
      simp_all [refuse]
    · rw [if_neg hseen]
      by_cases hargs : args.any (·.name == name) = true
      · rw [if_pos hargs, ih]
        simp only [List.contains_eq_mem, decide_eq_true_eq] at hseen
        simp only [List.any_eq_true, beq_iff_eq] at hargs
        constructor
        · rintro ⟨hnodup, hrest⟩
          refine ⟨⟨fun hmem => (hrest name hmem).1 List.mem_cons_self, hnodup⟩, ⟨hseen, hargs⟩,
            fun other hother => ⟨fun hmem => ?_, (hrest other hother).2⟩⟩
          exact (hrest other hother).1 (List.mem_cons_of_mem _ hmem)
        · rintro ⟨⟨hnew, hnodup⟩, -, hrest⟩
          refine ⟨hnodup, fun other hother => ⟨?_, (hrest other hother).2⟩⟩
          rintro (_ | ⟨_, hmem⟩)
          · exact hnew hother
          · exact (hrest other hother).1 hmem
      · rw [if_neg hargs]
        simp_all [refuse]

/-! ### Definitions -/

namespace Definition

/-- A sound definition whose names are in order: those of its arguments, of the placeholders
in its message and of its virtual instances. Its dropdowns have choices. -/
structure WellFormed (d : Definition) : Prop extends d.Sound where
  identifiers : ∀ a ∈ d.args, Text.IsIdentifier a.name
  once : (Template.placeholders d.message).Nodup
  matched : ∀ name ∈ Template.placeholders d.message, ∃ a ∈ d.args, a.name = name
  choices : ∀ a ∈ d.args, ∀ choices, a.kind = .choice choices → choices ≠ []
  virtuals : ∀ c, d.constructs = some c →
    (c.virtuals.map Virtual.name).Nodup ∧ ∀ part ∈ c.virtuals, Text.IsWord part.name

variable {path : Path} {j : Json} {d : Definition}

lemma args_of_ofJson (h : Definition.ofJson path j = .ok d) :
    ∀ a ∈ d.args, Text.isName a.name = true ∧
      ∀ choices, a.kind = .choice choices → choices ≠ [] := by
  obtain ⟨n, -, hread⟩ := readFrom_of_ofJson h
  obtain ⟨raw, -, hargs⟩ := hread.args
  intro a ha
  obtain ⟨done, j', -, ha⟩ := (Argument.oneByOne _).exists_read hargs a ha
  exact Argument.of_ofJson ha

lemma IsRead.isWord_virtuals (h : d.IsRead) {c : Constructor} (hc : d.constructs = some c) :
    ∀ part ∈ c.virtuals, Text.isWord part.name = true := by
  obtain ⟨path', raw, hvirtuals⟩ := h.exists_readAll_virtuals hc
  intro part hpart
  obtain ⟨done, j', -, hread⟩ := (Virtual.oneByOne _).exists_read hvirtuals part hpart
  obtain ⟨n, -, hread⟩ := bind_eq_ok.mp hread
  obtain ⟨-, -, hread⟩ := bind_eq_ok.mp hread
  obtain ⟨system, -, hread⟩ := bind_eq_ok.mp hread
  obtain ⟨name, hname, hread⟩ := bind_eq_ok.mp hread
  obtain ⟨connection, -, hread⟩ := bind_eq_ok.mp hread
  cases hread
  exact (Node.word_eq_ok_iff.mp hname).2

theorem wellFormed_of_ofJson (h : Definition.ofJson path j = .ok d) : d.WellFormed := by
  have hargs := args_of_ofJson h
  obtain ⟨n, -, hread⟩ := readFrom_of_ofJson h
  obtain ⟨hnodup, hmatched⟩ := checkPlaceholders_eq_ok_iff.mp hread.placeholders
  exact {
    toSound := sound_of_ofJson h
    identifiers := fun a ha => (Text.isName_iff _).mp (hargs a ha).1
    once := hnodup
    matched := fun name hname => (hmatched name hname).2
    choices := fun a ha => (hargs a ha).2
    virtuals := by
      intro c hc
      have hisRead : d.IsRead := ⟨path, j, h⟩
      exact ⟨hisRead.nodup_virtuals hc, fun part hpart =>
        (Text.isWord_iff _).mp (hisRead.isWord_virtuals hc part hpart)⟩ }

/-- What is handed on is what the value has under the keys that mean nothing here. -/
lemma lookup_extra_of_ofJson (h : Definition.ofJson path j = .ok d) (key : String) :
    d.extra.lookup key = if key ∈ keys then none else j.get? key := by
  obtain ⟨n, hn, hread⟩ := readFrom_of_ofJson h
  rw [hread.extra, Table.lookup_filter_fst fun key => !keys.contains key, Node.get?_of_ofJson hn]
  by_cases hkey : key ∈ keys <;> simp [hkey, Node.member?]

lemma get?_type_of_ofJson (h : Definition.ofJson path j = .ok d) :
    j.get? "type" = some (.string d.type) := by
  obtain ⟨n, hn, hread⟩ := readFrom_of_ofJson h
  rw [Node.get?_of_ofJson hn]
  exact Node.text_eq_ok_iff.mp (Node.word_eq_ok_iff.mp hread.type).1

end Definition

/-- The category of a document that is read is a word, and so are the types of its blocks,
which are all different. Every block is well formed and stands in the contents under its
type, and hands on just the members of its value under keys that mean nothing here. -/
theorem accepted_document_wellFormed {source : String} {j : Json} {doc : Document}
    (h : Document.ofJson source j = .ok doc) :
    Text.IsWord doc.category ∧ (doc.blocks.map Definition.type).Nodup ∧
      ∀ d ∈ doc.blocks, d.WellFormed ∧
        ∃ i block, j.at? [.key "contents", .index i] = some block ∧
          block.get? "type" = some (.string d.type) ∧
          ∀ key, d.extra.lookup key =
            if key ∈ Definition.keys then none else block.get? key := by
  obtain ⟨n, -, hread⟩ := Document.readFrom_of_ofJson h
  refine ⟨(Text.isWord_iff _).mp (Node.word_eq_ok_iff.mp hread.category).2,
    Document.nodup_types_of_ofJson h, fun d hd => ?_⟩
  obtain ⟨path, i, block, hblock, hd⟩ := Document.exists_read_of_ofJson h d hd
  exact ⟨Definition.wellFormed_of_ofJson hd, i, block, hblock, Definition.get?_type_of_ofJson hd,
    Definition.lookup_extra_of_ofJson hd⟩

/-- A lamp with a bulb in it, and a block that switches lamps, with a member for the editor. -/
def lampDocument : Json :=
  .mkObject [("category", .string "lamps"), ("contents", .array [
    .mkObject [("kind", .string "label"), ("text", .string "Lamps")],
    .mkObject [("type", .string "lamp"), ("message", .string "lamp $[NAME]"),
      ("args", .array [.mkObject [("name", .string "NAME"), ("type", .string "field_input")]]),
      ("constructs", .mkObject [("system", .string "lamp"), ("virtualInstances", .array [
        .mkObject [("instanceOf", .string "bulb"), ("name", .string "bulb"),
          ("connection", .string "$[NAME].bulb")]])])],
    .mkObject [("type", .string "switch"), ("message", .string "switch $[LAMP] $[TO]"),
      ("args", .array [
        .mkObject [("name", .string "TO"), ("type", .string "field_dropdown"),
          ("options", .array [.array [.string "on", .string "1"],
            .array [.string "off", .string "0"]])],
        .mkObject [("name", .string "LAMP"), ("type", .string "field_dropdown"),
          ("instanceOf", .string "lamp")]]),
      ("previous", .bool true), ("mutator", .string "switch_mutator")]])]

theorem lampDocument_wellFormed :
    ∃ doc, Document.ofJson "lamps.json" lampDocument = .ok doc ∧
      doc.blocks.map Definition.type = ["lamp", "switch"] ∧ ∀ d ∈ doc.blocks, d.WellFormed := by
  obtain ⟨doc, hdoc, htypes⟩ : ∃ doc, Document.ofJson "lamps.json" lampDocument = .ok doc ∧
      doc.blocks.map Definition.type = ["lamp", "switch"] := exists_ok_of_map (by decide +kernel)
  obtain ⟨-, -, hblocks⟩ := accepted_document_wellFormed hdoc
  exact ⟨doc, hdoc, htypes, fun d hd => (hblocks d hd).1⟩

end BlockProgram
