import BlockProgram.Catalog
import BlockProgram.Library.Reading
import BlockProgram.Proofs.Marking

/-!
# What localizing changes

A catalogue replaces references in texts that the user sees, and nothing else. A text
without a reference stays as it is. A document keeps its shape: every object keeps its
keys, and what it has under one is what it had, localized by the rule for that key. So
the reader of a member sees a change only if the member is a text of a display key.
-/
namespace BlockProgram

/-- A change of the values that knows their keys can be made before or after a lookup. -/
lemma lookup_map_values {α β : Type} (f : String → α → β) (entries : List (String × α))
    (key : String) :
    (entries.map fun e => (e.1, f e.1 e.2)).lookup key = (entries.lookup key).map (f key) := by
  induction entries with
  | nil => rfl
  | cons e rest ih =>
    rw [List.map_cons, List.lookup_cons, List.lookup_cons, ih]
    split
    · next heq => rw [Option.map_some, beq_iff_eq.mp heq]
    · rfl

/-! ### Texts -/

namespace Catalog

/-- The text has a reference `%{BKY_KEY}` in it. -/
def Refers (text : String) : Prop := reference.Occurs text.toList

lemma resolveWithin_of_not_fills (c : Catalog) (depth : Nat) {text : List Char}
    (h : Text.Marker.fills c.get? (reference.scan text) = false) :
    c.resolveWithin depth text = text := by
  cases depth with
  | zero => rfl
  | succ depth =>
    have hfixed : c.pass text = text := Text.Marker.fill_of_not_fills h
    simp only [resolveWithin, h, hfixed, Bool.false_eq_true, if_false, ite_self]

theorem resolve_of_not_refers (c : Catalog) {text : String} (h : ¬ Refers text) :
    c.resolve text = text := by
  have hfills : Text.Marker.fills c.get? (reference.scan text.toList) = false := by
    rw [Text.Marker.scan_of_not_occurs h, Text.Marker.fills, Text.Marker.names_map_char,
      List.any_nil]
  rw [resolve, c.resolveWithin_of_not_fills _ hfills, String.ofList_toList]

lemma not_refers_of_not_mem {text : String} (h : '%' ∉ text.toList) : ¬ Refers text := by
  rintro ⟨before, c, name, after, -, -, htext⟩
  exact h (by simp [htext, reference])

lemma not_refers_of_isName {text : String} (h : Text.isName text = true) : ¬ Refers text :=
  not_refers_of_not_mem fun hmem => absurd (Text.isNameChar_of_isName h '%' hmem) (by decide)

/-- What becomes of a text under a key. -/
def textAt (c : Catalog) (key text : String) : String :=
  if displayKeys.contains key then c.resolve text else text

lemma textAt_of_not_refers (c : Catalog) (key : String) {text : String} (h : ¬ Refers text) :
    c.textAt key text = text := by
  rw [textAt, c.resolve_of_not_refers h, ite_self]

lemma textAt_of_not_display (c : Catalog) {key : String} (h : displayKeys.contains key = false) :
    c.textAt key = id := by
  funext text
  rw [textAt, h, if_neg Bool.false_ne_true, id]

/-! ### Values -/

lemma localizeItems_eq_map (c : Catalog) (items : List Json) :
    c.localizeItems items = items.map c.localize := by
  induction items with
  | nil => rfl
  | cons j rest ih => rw [localizeItems, ih, List.map_cons]

/-- What becomes of a value under a key. -/
def localizeMember (c : Catalog) (key : String) : Json → Json
  | .string s => .string (c.textAt key s)
  | .array items =>
    .array (if key = "options" then items.map c.localizeChoice else items.map c.localize)
  | j => c.localize j

lemma localizeMembers_eq_map (c : Catalog) (members : List (String × Json)) :
    c.localizeMembers members = members.map fun m => (m.1, c.localizeMember m.1 m.2) := by
  induction members with
  | nil => rfl
  | cons m rest ih =>
    obtain ⟨key, j⟩ := m
    rw [List.map_cons, ← ih]
    cases j with
    | array items => rw [localizeMembers, localizeMember, localizeItems_eq_map]
    | _ => rfl

/-- Under a key that neither holds text for the user nor choices, a value is localized as
anywhere else. -/
lemma localizeMember_of_plain (c : Catalog) {key : String}
    (hdisplay : displayKeys.contains key = false) (hoptions : key ≠ "options") (j : Json) :
    c.localizeMember key j = c.localize j := by
  cases j with
  | string s => rw [localizeMember, c.textAt_of_not_display hdisplay, localize, id]
  | array items => rw [localizeMember, if_neg hoptions, localize, localizeItems_eq_map]
  | _ => rfl

/-! ### The empty catalogue -/

lemma resolve_empty (text : String) : ({} : Catalog).resolve text = text := by
  have hfills : Text.Marker.fills ({} : Catalog).get? (reference.scan text.toList) = false := by
    simp [Text.Marker.fills, get?, Table.get?]
  rw [resolve, resolveWithin_of_not_fills {} _ hfills, String.ofList_toList]

lemma localizeChoice_empty (j : Json) : ({} : Catalog).localizeChoice j = j := by
  unfold localizeChoice
  split
  · rw [resolve_empty]
  · rfl

mutual

/-- With nothing in the catalogue, a document stays as it is written. -/
theorem localize_empty : ∀ j : Json, ({} : Catalog).localize j = j
  | .object members => by rw [localize, localizeMembers_empty members]
  | .array items => by rw [localize, localizeItems_empty items]
  | .null => rfl
  | .bool _ => rfl
  | .number _ => rfl
  | .string _ => rfl

lemma localizeItems_empty : ∀ items : List Json, ({} : Catalog).localizeItems items = items
  | [] => rfl
  | j :: rest => by rw [localizeItems, localize_empty j, localizeItems_empty rest]

lemma localizeMembers_empty :
    ∀ members : List (String × Json), ({} : Catalog).localizeMembers members = members
  | [] => rfl
  | (key, .string s) :: rest => by
    rw [localizeMembers, localizeMembers_empty rest, resolve_empty, ite_self]
  | (key, .array items) :: rest => by
    have hchoices : items.map ({} : Catalog).localizeChoice = items :=
      (List.map_congr_left fun j _ => localizeChoice_empty j).trans items.map_id
    rw [localizeMembers, localizeMembers_empty rest, localizeItems_empty items, hchoices, ite_self]
  | (key, .object members) :: rest =>
    congrArg₂ (fun j rest => (key, j) :: rest) (localize_empty (.object members))
      (localizeMembers_empty rest)
  | (key, .null) :: rest => congrArg ((key, Json.null) :: ·) (localizeMembers_empty rest)
  | (key, .bool b) :: rest => congrArg ((key, Json.bool b) :: ·) (localizeMembers_empty rest)
  | (key, .number n) :: rest => congrArg ((key, Json.number n) :: ·) (localizeMembers_empty rest)

end

end Catalog

/-! ### Nodes -/

lemma Precedence.ofJson?_localize (c : Catalog) (j : Json) :
    Precedence.ofJson? (c.localize j) = Precedence.ofJson? j := by
  cases j with
  | object members =>
    rw [Catalog.localize, c.localizeMembers_eq_map]
    rcases members with _ | ⟨⟨name, j⟩, _ | ⟨m, rest⟩⟩
    · rfl
    · cases j <;> rfl
    · cases j <;> rfl
  | _ => rfl

namespace Node

/-- The node with its members localized. -/
def localized (c : Catalog) (n : Node) : Node := { n with members := c.localizeMembers n.members }

lemma ofJson_localize (c : Catalog) (path : Path) (j : Json) :
    Node.ofJson path (c.localize j) = (Node.ofJson path j).map (localized c) := by
  cases j <;> rfl

variable (c : Catalog) (n : Node) (key : String)

lemma member?_localized :
    (n.localized c).member? key = (n.member? key).map (c.localizeMember key) := by
  rw [member?, localized, c.localizeMembers_eq_map]
  exact lookup_map_values c.localizeMember n.members key

lemma given?_localized :
    (n.localized c).given? key = (n.given? key).map (c.localizeMember key) := by
  rw [given?, given?, member?_localized]
  cases n.member? key with
  | none => rfl
  | some j => cases j <;> rfl

lemma text_localized : (n.localized c).text key = (n.text key).map (c.textAt key) := by
  rw [text, text, member?_localized]
  cases n.member? key with
  | none => rfl
  | some j => cases j <;> rfl

lemma text?_localized :
    (n.localized c).text? key = (n.text? key).map (Option.map (c.textAt key)) := by
  rw [text?, text?, given?_localized]
  cases n.given? key with
  | none => rfl
  | some j => cases j <;> rfl

lemma flag?_localized : (n.localized c).flag? key = n.flag? key := by
  rw [flag?, flag?, given?_localized]
  cases n.given? key with
  | none => rfl
  | some j => cases j <;> rfl

lemma float?_localized : (n.localized c).float? key = n.float? key := by
  rw [float?, float?, given?_localized]
  cases n.given? key with
  | none => rfl
  | some j => cases j <;> rfl

lemma flag_localized : (n.localized c).flag key = n.flag key := by
  rw [flag, flag, flag?_localized]

/-- The items of an array that are not choices are localized one by one. -/
lemma items_localized {key : String} (hkey : key ≠ "options") :
    (n.localized c).items key = (n.items key).map (List.map c.localize) := by
  rw [items, items, given?_localized]
  cases n.given? key with
  | none => rfl
  | some j =>
    cases j with
    | array raw => rw [Option.map_some, Catalog.localizeMember, if_neg hkey]; rfl
    | _ => rfl

lemma output?_localized : (n.localized c).output? = n.output? := by
  rw [output?, output?, given?_localized]
  cases n.given? "output" with
  | none => rfl
  | some j => cases j <;> rfl

lemma colour?_localized : (n.localized c).colour? = n.colour? := by
  rw [colour?, colour?, given?_localized]
  cases n.given? "color" with
  | none => rfl
  | some j => cases j <;> rfl

section Plain

variable {key : String} (hkey : Catalog.displayKeys.contains key = false)
include hkey

lemma plainText?_localized : (n.localized c).text? key = n.text? key := by
  rw [text?_localized, c.textAt_of_not_display hkey, Option.map_id]
  cases n.text? key <;> rfl

lemma plainText_localized : (n.localized c).text key = n.text key := by
  rw [text_localized, c.textAt_of_not_display hkey]
  cases n.text key <;> rfl

lemma word_localized : (n.localized c).word key = n.word key := by
  rw [word, word, plainText_localized c n hkey]
  rfl

end Plain

lemma style?_localized : (n.localized c).style? = n.style? := by
  rw [style?, style?, colour?_localized, plainText?_localized c n (by decide)]
  rfl

/-- A refusal would show the value, but a class that is read is the same. -/
lemma eq_of_precedence?_localized {c : Catalog} (n : Node) {order' order : Option Precedence}
    (h' : (n.localized c).precedence? "order" = .ok order')
    (h : n.precedence? "order" = .ok order) : order' = order := by
  rw [precedence?, given?_localized] at h'
  rw [precedence?] at h
  cases hgiven : n.given? "order" with
  | none =>
    rw [hgiven] at h' h
    cases h'
    cases h
    rfl
  | some j =>
    rw [hgiven, Option.map_some, c.localizeMember_of_plain (by decide) (by decide)] at h'
    rw [hgiven] at h
    simp only [Precedence.ofJson, Precedence.ofJson?_localize] at h' h
    cases hclass : Precedence.ofJson? j with
    | none =>
      rw [hclass] at h
      cases h
    | some p =>
      rw [hclass] at h' h
      cases h'
      cases h
      rfl

end Node

end BlockProgram
