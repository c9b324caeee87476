import BlockProgram.Library.Reading
import Mathlib.Tactic

/-!
# What has been read is sound

A definition that comes out of a document has passed the checks of its reading:
its type is a word, its arguments have different names, its connections go together,
and a constructor finds its name in a text field and provides virtual instances of
different names. This holds of every block of a document, and no two of them have one type.
-/
namespace BlockProgram

lemma bind_eq_ok {ε α β : Type} {x : Except ε α} {f : α → Except ε β} {b : β} :
    (x >>= f) = .ok b ↔ ∃ a, x = .ok a ∧ f a = .ok b := by
  cases x <;> simp [bind, Except.bind]

lemma map_eq_ok {ε α β : Type} {x : Except ε α} {f : α → β} {b : β} :
    x.map f = .ok b ↔ ∃ a, x = .ok a ∧ f a = b := by
  cases x <;> simp [Except.map]

lemma exists_ok_of_map {ε α β : Type} {x : Except ε α} {f : α → β} {b : β}
    (h : x.toOption.map f = some b) : ∃ a, x = .ok a ∧ f a = b := by
  cases x with
  | error e => cases h
  | ok a => exact ⟨a, rfl, Option.some.inj h⟩

/-- Not empty, and without blank characters. -/
def Text.IsWord (s : String) : Prop := s ≠ "" ∧ ∀ c ∈ s.toList, isBlank c = false

lemma Text.isWord_iff (s : String) : isWord s = true ↔ IsWord s := by
  simp [isWord, IsWord]

/-! ### Values one by one -/

/-- A reader goes through values one by one, and adds what it reads of each to what it has
read before. -/
structure OneByOne {α : Type} (one : List α → Json → Checked α)
    (all : List α → List Json → Checked (List α)) : Prop where
  nil : ∀ {done result}, all done [] = .ok result → result = done
  cons : ∀ {done j rest result}, all done (j :: rest) = .ok result →
    ∃ a, one done j = .ok a ∧ all (done ++ [a]) rest = .ok result

/-- Whatever has been read was read from the value at its place. -/
lemma OneByOne.exists_read {α : Type} {one : List α → Json → Checked α}
    {all : List α → List Json → Checked (List α)} (h : OneByOne one all) {raw : List Json}
    {result : List α} (hall : all [] raw = .ok result) :
    ∀ a ∈ result, ∃ done j, raw[done.length]? = some j ∧ one done j = .ok a := by
  suffices hfrom : ∀ (before raw : List Json) (done : List α), before.length = done.length →
      all done raw = .ok result → ∀ a ∈ result, a ∈ done ∨
        ∃ done' j, (before ++ raw)[done'.length]? = some j ∧ one done' j = .ok a by
    intro a ha
    exact (hfrom [] raw [] rfl hall a ha).resolve_left (List.not_mem_nil)
  intro before raw done hlength hall
  induction raw generalizing before done with
  | nil =>
    rw [h.nil hall]
    exact fun a ha => .inl ha
  | cons j rest ih =>
    obtain ⟨b, hb, hall⟩ := h.cons hall
    intro a ha
    have hread := ih (before ++ [j]) (done ++ [b]) (by simp [hlength]) hall a ha
    rw [List.append_assoc, List.singleton_append] at hread
    rcases hread with hdone | hrest
    · rcases List.mem_append.mp hdone with hdone | hlast
      · exact .inl hdone
      · obtain rfl := List.mem_singleton.mp hlast
        exact .inr ⟨done, j, by simp [← hlength], hb⟩
    · exact .inr hrest

lemma Argument.oneByOne (path : Path) :
    OneByOne (fun done => Argument.ofJson (path.index done.length)) (Argument.readAll path) where
  nil h := by
    cases h
    rfl
  cons h := by
    obtain ⟨a, ha, h⟩ := bind_eq_ok.mp h
    split at h
    · cases h
    · exact ⟨a, ha, h⟩

lemma Virtual.oneByOne (path : Path) :
    OneByOne (fun done => Virtual.ofJson (path.index done.length)) (Virtual.readAll path) where
  nil h := by
    cases h
    rfl
  cons h := by
    obtain ⟨v, hv, h⟩ := bind_eq_ok.mp h
    split at h
    · cases h
    · exact ⟨v, hv, h⟩

lemma Item.oneByOne (path : Path) :
    OneByOne (fun done => Item.ofJson (path.index done.length) done) (Item.readAll path) where
  nil h := by
    cases h
    rfl
  cons h := bind_eq_ok.mp h

lemma length_of_readItems {α : Type} {read : Path → Json → Checked α} {path : Path} {i : Nat}
    {raw : List Json} {items : List α} (h : readItems read path i raw = .ok items) :
    items.length = raw.length := by
  induction raw generalizing i items with
  | nil =>
    cases h
    rfl
  | cons j rest ih =>
    obtain ⟨a, -, h⟩ := bind_eq_ok.mp h
    obtain ⟨more, hmore, h⟩ := bind_eq_ok.mp h
    cases h
    rw [List.length_cons, List.length_cons, ih hmore]

namespace Node

lemma path_of_ofJson {path : Path} {j : Json} {n : Node} (h : Node.ofJson path j = .ok n) :
    n.path = path := by
  cases j <;> cases h
  rfl

lemma get?_of_ofJson {path : Path} {j : Json} {n : Node} (h : Node.ofJson path j = .ok n)
    (key : String) : j.get? key = n.member? key := by
  cases j <;> cases h
  rfl

lemma text_eq_ok_iff {n : Node} {key text : String} :
    n.text key = .ok text ↔ n.member? key = some (.string text) := by
  unfold Node.text
  cases n.member? key with
  | none => simp [Node.refuse, BlockProgram.refuse]
  | some j => cases j <;> simp [Json.asText, BlockProgram.refuse]

lemma word_eq_ok_iff {n : Node} {key text : String} :
    n.word key = .ok text ↔ n.text key = .ok text ∧ Text.isWord text = true := by
  rw [word, bind_eq_ok]
  constructor
  · rintro ⟨s, hs, h⟩
    split at h
    · next hword =>
      cases h
      exact ⟨hs, hword⟩
    · cases h
  · rintro ⟨htext, hword⟩
    exact ⟨text, htext, by rw [if_pos hword]; rfl⟩

end Node

/-! ### Definitions -/

/-- A dropdown is over the instances of a system, or has choices, at least one. -/
lemma ArgumentKind.ofDropdown_cases {n : Node} {kind : ArgumentKind}
    (h : ofDropdown n = .ok kind) :
    (∃ system, n.text? "instanceOf" = .ok (some system) ∧ kind = .instances system) ∨
      n.text? "instanceOf" = .ok none ∧ ∃ items choices,
        n.member? "options" = some (.array items) ∧ items ≠ [] ∧
          readItems Choice.ofJson (n.path.key "options") 0 items = .ok choices ∧
          kind = .choice choices := by
  obtain ⟨system, hsystem, h⟩ := bind_eq_ok.mp h
  split at h
  · cases h
  · next system _ =>
    cases h
    exact .inl ⟨system, hsystem, rfl⟩
  · cases h
  · next raw hraw =>
    obtain ⟨items, hitems, h⟩ := bind_eq_ok.mp h
    split at h
    · cases h
    · next hsome =>
      obtain ⟨choices, hchoices, h⟩ := bind_eq_ok.mp h
      cases h
      cases raw <;> cases hitems
      exact .inr ⟨hsystem, items, choices, hraw, by simpa using hsome, hchoices, rfl⟩

/-- A reader that refuses a name it has read before keeps the names different. -/
lemma nodup_map_append_singleton {α : Type} {name : α → String} {done : List α} {a : α}
    (hdone : (done.map name).Nodup) (hnew : ¬ done.any (name · == name a) = true) :
    ((done ++ [a]).map name).Nodup := by
  simp only [List.any_eq_true, beq_iff_eq, not_exists, not_and] at hnew
  rw [List.map_append, List.map_singleton]
  refine List.nodup_append.mpr ⟨hdone, by simp, fun given hgiven given' hgiven' => ?_⟩
  obtain ⟨a', ha', rfl⟩ := List.mem_map.mp hgiven
  rw [List.mem_singleton.mp hgiven']
  exact hnew a' ha'

lemma Argument.nodup_of_readAll {path : Path} {done args : List Argument} {raw : List Json}
    (hdone : (done.map Argument.name).Nodup) (h : Argument.readAll path done raw = .ok args) :
    (args.map Argument.name).Nodup := by
  induction raw generalizing done with
  | nil =>
    cases h
    exact hdone
  | cons j rest ih =>
    obtain ⟨a, -, h⟩ := bind_eq_ok.mp h
    split at h
    · cases h
    · next hnew => exact ih (nodup_map_append_singleton hdone hnew) h

lemma Virtual.nodup_of_readAll {path : Path} {done virtuals : List Virtual} {raw : List Json}
    (hdone : (done.map Virtual.name).Nodup) (h : Virtual.readAll path done raw = .ok virtuals) :
    (virtuals.map Virtual.name).Nodup := by
  induction raw generalizing done with
  | nil =>
    cases h
    exact hdone
  | cons j rest ih =>
    obtain ⟨v, -, h⟩ := bind_eq_ok.mp h
    split at h
    · cases h
    · next hnew => exact ih (nodup_map_append_singleton hdone hnew) h

lemma Constructor.virtuals_of_ofNode {n : Node} {c : Constructor}
    (h : Constructor.ofNode n = .ok c) : ∃ raw, n.items "virtualInstances" = .ok raw ∧
      Virtual.readAll (n.path.key "virtualInstances") [] raw = .ok c.virtuals := by
  obtain ⟨-, -, h⟩ := bind_eq_ok.mp h
  obtain ⟨system, -, h⟩ := bind_eq_ok.mp h
  obtain ⟨raw, hraw, h⟩ := bind_eq_ok.mp h
  obtain ⟨virtuals, hvirtuals, h⟩ := bind_eq_ok.mp h
  obtain ⟨stem, -, h⟩ := bind_eq_ok.mp h
  obtain ⟨field, -, h⟩ := bind_eq_ok.mp h
  cases h
  exact ⟨raw, hraw, hvirtuals⟩

/-- A constructor is given by its system or as a node, and finds its name in a text field. -/
lemma Constructor.ofJson_cases {path : Path} {args : List Argument} {j : Json} {c : Constructor}
    (h : Constructor.ofJson path args j = .ok c) :
    ((∃ system, j = .string system ∧ c = ofSystem system) ∨
        ∃ members, j = .object members ∧ ofNode ⟨path, members⟩ = .ok c) ∧
      ∃ a, args.find? (·.name == c.nameField) = some a ∧ a.kind.isText = true := by
  unfold Constructor.ofJson at h
  -- The check of the name field is the same for every form of the value.
  cases j
  all_goals
    obtain ⟨c', hform, hfield⟩ := bind_eq_ok.mp h
    dsimp only at hfield
    split at hfield
    · next a ha =>
      split at hfield
      · next htext =>
        cases hfield
        refine ⟨?_, a, ha, htext⟩
        first
          | exact .inr ⟨_, rfl, hform⟩
          | cases hform <;> exact .inl ⟨_, rfl, rfl⟩
      · cases hfield
    · cases hfield

namespace Definition

/-- The type is a word, no two arguments have one name, a value connects to no
statements, a program start stands at the top, and the name of a constructor stands in
a text field. -/
structure Sound (d : Definition) : Prop where
  type : Text.IsWord d.type
  distinct : (d.args.map Argument.name).Nodup
  alone : d.output.isSome = true → d.previous = false ∧ d.next = false
  start : d.programStart = true → d.kind = .root
  nameField : ∀ c, d.constructs = some c →
    ∃ a ∈ d.args, a.name = c.nameField ∧ ∃ initial, a.kind = .text initial

/-- The constructor of a block with the given arguments, if its node has one. -/
def constructor? (n : Node) (args : List Argument) : Checked (Option Constructor) :=
  match n.given? "constructs" with
  | none => pure none
  | some raw => (Constructor.ofJson (n.path.key "constructs") args raw).map some

lemma constructor?_bind (n : Node) (args : List Argument)
    (f : Option Constructor → Checked Definition) :
    constructor? n args >>= f = match n.given? "constructs" with
      | none => pure none >>= f
      | some raw => (Constructor.ofJson (n.path.key "constructs") args raw).map some >>= f := by
  unfold constructor?
  cases n.given? "constructs" <;> rfl

/-- Every part of the definition is what the node has under its key, and the parts go
together. -/
structure ReadFrom (n : Node) (d : Definition) : Prop where
  type : n.word "type" = .ok d.type
  message : ∃ text, n.text? "message" = .ok text ∧ d.message = text.getD ""
  args : ∃ raw, n.items "args" = .ok raw ∧
    Argument.readAll (n.path.key "args") [] raw = .ok d.args
  placeholders : checkPlaceholders (n.path.key "message") d.args []
    (Template.placeholders d.message) = .ok ()
  output : n.output? = .ok d.output
  previous : n.flag "previous" = .ok d.previous
  next : n.flag "next" = .ok d.next
  alone : (d.output.isSome && (d.previous || d.next)) = false
  order : ∃ order, n.precedence? "order" = .ok order ∧ d.order = order.getD .atomic
  programStart : n.flag "programStart" = .ok d.programStart
  onTop : (d.programStart && (d.previous || d.output.isSome)) = false
  constructs : constructor? n d.args = .ok d.constructs
  code : n.text? "code" = .ok d.code
  hidden : n.flag "hidden" = .ok d.hidden
  tooltip : n.text? "tooltip" = .ok d.tooltip
  helpUrl : n.text? "helpUrl" = .ok d.helpUrl
  style : n.style? = .ok d.style
  inputsInline : n.flag? "inputsInline" = .ok d.inputsInline
  extra : d.extra = n.members.filter fun m => !keys.contains m.1

theorem readFrom_of_ofJson {path : Path} {j : Json} {d : Definition}
    (h : Definition.ofJson path j = .ok d) : ∃ n, Node.ofJson path j = .ok n ∧ d.ReadFrom n := by
  obtain ⟨n, hn, h⟩ := bind_eq_ok.mp h
  obtain rfl : n.path = path := Node.path_of_ofJson hn
  obtain ⟨type, htype, h⟩ := bind_eq_ok.mp h
  obtain ⟨message, hmessage, h⟩ := bind_eq_ok.mp h
  obtain ⟨raw, hraw, h⟩ := bind_eq_ok.mp h
  obtain ⟨args, hargs, h⟩ := bind_eq_ok.mp h
  obtain ⟨_, hplaceholders, h⟩ := bind_eq_ok.mp h
  obtain ⟨output, houtput, h⟩ := bind_eq_ok.mp h
  obtain ⟨previous, hprevious, h⟩ := bind_eq_ok.mp h
  obtain ⟨next, hnext, h⟩ := bind_eq_ok.mp h
  dsimp only at h
  split at h
  · cases h
  next halone =>
  obtain ⟨order, horder, h⟩ := bind_eq_ok.mp h
  obtain ⟨programStart, hstart, h⟩ := bind_eq_ok.mp h
  split at h
  · cases h
  next honTop =>
  obtain ⟨constructs, hconstructs, h⟩ := bind_eq_ok.mp ((constructor?_bind n args _).trans h)
  obtain ⟨code, hcode, h⟩ := bind_eq_ok.mp h
  obtain ⟨hidden, hhidden, h⟩ := bind_eq_ok.mp h
  obtain ⟨tooltip, htooltip, h⟩ := bind_eq_ok.mp h
  obtain ⟨helpUrl, hhelpUrl, h⟩ := bind_eq_ok.mp h
  obtain ⟨style, hstyle, h⟩ := bind_eq_ok.mp h
  obtain ⟨inputsInline, hinputsInline, h⟩ := bind_eq_ok.mp h
  cases h
  exact ⟨n, hn, {
    type := htype
    message := ⟨message, hmessage, rfl⟩
    args := ⟨raw, hraw, hargs⟩
    placeholders := hplaceholders
    output := houtput
    previous := hprevious
    next := hnext
    alone := by simpa using halone
    order := ⟨order, horder, rfl⟩
    programStart := hstart
    onTop := by simpa using honTop
    constructs := hconstructs
    code := hcode
    hidden := hhidden
    tooltip := htooltip
    helpUrl := hhelpUrl
    style := hstyle
    inputsInline := hinputsInline
    extra := rfl }⟩

/-- A constructor of a definition that was read, from the value under its key. -/
lemma constructor_of_ofJson {path : Path} {j : Json} {d : Definition} {c : Constructor}
    (h : Definition.ofJson path j = .ok d) (hc : d.constructs = some c) :
    ∃ path' raw, Constructor.ofJson path' d.args raw = .ok c := by
  obtain ⟨n, -, hread⟩ := readFrom_of_ofJson h
  have hconstructs := hread.constructs
  rw [constructor?, hc] at hconstructs
  split at hconstructs
  · cases hconstructs
  · obtain ⟨c', hc', heq⟩ := map_eq_ok.mp hconstructs
    cases heq
    exact ⟨_, _, hc'⟩

theorem sound_of_ofJson {path : Path} {j : Json} {d : Definition}
    (h : Definition.ofJson path j = .ok d) : d.Sound := by
  obtain ⟨n, -, hread⟩ := readFrom_of_ofJson h
  obtain ⟨raw, -, hargs⟩ := hread.args
  refine ⟨(Text.isWord_iff _).mp (Node.word_eq_ok_iff.mp hread.type).2,
    Argument.nodup_of_readAll (by simp) hargs, fun houtput => ?_, fun hstart => ?_,
    fun c hc => ?_⟩
  · simpa [houtput] using hread.alone
  · have htop := hread.onTop
    rw [hstart, Bool.true_and, Bool.or_eq_false_iff] at htop
    rw [kind, if_neg (by simp [htop.2]), if_neg (by simp [htop.1])]
  · obtain ⟨path', raw', hc'⟩ := constructor_of_ofJson h hc
    obtain ⟨a, hfound, htext⟩ := (Constructor.ofJson_cases hc').2
    refine ⟨a, List.mem_of_find?_eq_some hfound, by simpa using List.find?_some hfound, ?_⟩
    cases hkind : a.kind with
    | text initial => exact ⟨initial, rfl⟩
    | _ => simp [hkind, ArgumentKind.isText] at htext

/-- The definition comes out of a document. -/
def IsRead (d : Definition) : Prop := ∃ path j, Definition.ofJson path j = .ok d

lemma IsRead.sound {d : Definition} (h : d.IsRead) : d.Sound := by
  obtain ⟨path, j, h⟩ := h
  exact sound_of_ofJson h

/-- The virtual instances of a constructor that was read come out of a list of values. -/
lemma IsRead.exists_readAll_virtuals {d : Definition} (h : d.IsRead) {c : Constructor}
    (hc : d.constructs = some c) : ∃ path raw, Virtual.readAll path [] raw = .ok c.virtuals := by
  obtain ⟨path, j, h⟩ := h
  obtain ⟨path', raw, hc'⟩ := constructor_of_ofJson h hc
  obtain ⟨⟨system, -, rfl⟩ | ⟨members, -, hnode⟩, -⟩ := Constructor.ofJson_cases hc'
  · exact ⟨path', [], rfl⟩
  · obtain ⟨raw', -, hvirtuals⟩ := Constructor.virtuals_of_ofNode hnode
    exact ⟨_, raw', hvirtuals⟩

/-- No two virtual instances of a constructor that was read have one name. -/
lemma IsRead.nodup_virtuals {d : Definition} (h : d.IsRead) {c : Constructor}
    (hc : d.constructs = some c) : (c.virtuals.map Virtual.name).Nodup := by
  obtain ⟨path, raw, hvirtuals⟩ := h.exists_readAll_virtuals hc
  exact Virtual.nodup_of_readAll (by simp) hvirtuals

end Definition

/-! ### Documents -/

lemma Item.block?_of_ofSeparator {n : Node} {item : Item} (h : Item.ofSeparator n = .ok item) :
    item.block? = none := by
  obtain ⟨-, -, h⟩ := bind_eq_ok.mp h
  obtain ⟨gap, -, h⟩ := bind_eq_ok.mp h
  split at h
  · cases h
    rfl
  · split at h
    · cases h
      rfl
    · cases h

/-- What its kind says: an item is a block of a type that none before it has, or no block
at all. -/
lemma Item.ofJson_cases {path : Path} {done : List Item} {j : Json} {item : Item}
    (h : Item.ofJson path done j = .ok item) :
    ∃ n kind, Node.ofJson path j = .ok n ∧ n.text? "kind" = .ok kind ∧
      ((kind.getD "block" = "block" ∧ ∃ d, item = .block d ∧ Definition.ofJson path j = .ok d ∧
          ∀ d' ∈ done.filterMap Item.block?, d'.type ≠ d.type) ∨
        kind.getD "block" ≠ "block" ∧ item.block? = none) := by
  obtain ⟨n, hn, h⟩ := bind_eq_ok.mp h
  obtain ⟨kind, hkind, h⟩ := bind_eq_ok.mp h
  refine ⟨n, kind, hn, hkind, ?_⟩
  split at h
  · next hblock =>
    obtain ⟨d, hd, h⟩ := bind_eq_ok.mp h
    split at h
    · cases h
    · next hnew =>
      cases h
      refine .inl ⟨hblock, d, rfl, hd, fun d' hd' heq => hnew ?_⟩
      exact List.any_eq_true.mpr ⟨d', hd', by simpa using heq⟩
  · next hlabel =>
    obtain ⟨-, -, h⟩ := bind_eq_ok.mp h
    obtain ⟨text, -, h⟩ := bind_eq_ok.mp h
    cases h
    exact .inr ⟨by rw [hlabel]; decide, rfl⟩
  · next hsep => exact .inr ⟨by rw [hsep]; decide, block?_of_ofSeparator h⟩
  · next hsep => exact .inr ⟨by rw [hsep]; decide, block?_of_ofSeparator h⟩
  · cases h

/-- Every block among the items was read from the value at its place. -/
lemma Item.exists_read_of_readAll {path : Path} {raw : List Json} {items : List Item}
    (h : Item.readAll path [] raw = .ok items) :
    ∀ d ∈ items.filterMap Item.block?, ∃ i j, raw[i]? = some j ∧
      Definition.ofJson (path.index i) j = .ok d := by
  intro d hd
  obtain ⟨item, hitem, hblock⟩ := List.mem_filterMap.mp hd
  obtain ⟨done, j, hj, hread⟩ := (Item.oneByOne path).exists_read h item hitem
  obtain ⟨n, kind, -, -, ⟨-, d', rfl, hread, -⟩ | ⟨-, hnone⟩⟩ := Item.ofJson_cases hread
  · cases hblock
    exact ⟨done.length, j, hj, hread⟩
  · rw [hnone] at hblock
    cases hblock

lemma Item.nodup_types_of_readAll {path : Path} {done items : List Item} {raw : List Json}
    (hdone : ((done.filterMap Item.block?).map Definition.type).Nodup)
    (h : Item.readAll path done raw = .ok items) :
    ((items.filterMap Item.block?).map Definition.type).Nodup := by
  induction raw generalizing done with
  | nil =>
    cases h
    exact hdone
  | cons j rest ih =>
    obtain ⟨item, hitem, h⟩ := bind_eq_ok.mp h
    refine ih ?_ h
    rw [List.filterMap_append, List.map_append]
    obtain ⟨n, kind, -, -, ⟨-, d, rfl, -, hnew⟩ | ⟨-, hnone⟩⟩ := Item.ofJson_cases hitem
    · refine List.nodup_append.mpr ⟨hdone, by simp [block?], fun type htype type' htype' => ?_⟩
      obtain ⟨d', hd', rfl⟩ := List.mem_map.mp htype
      obtain rfl : type' = d.type := by simpa [block?] using htype'
      exact hnew d' hd'
    · simpa [hnone] using hdone

lemma Body.ofNode_cases {n : Node} {body : Body} (h : Body.ofNode n = .ok body) :
    n.member? "contents" = none ∧ body.items = [] ∨
      ∃ raw, n.member? "contents" = some (.array raw) ∧
        Item.readAll (n.path.key "contents") [] raw = .ok body.items := by
  unfold Body.ofNode at h
  split at h
  · cases h
  · cases h
  · next hnone _ =>
    obtain ⟨name, -, rfl⟩ := map_eq_ok.mp h
    exact .inl ⟨hnone, rfl⟩
  · next j hj _ =>
    obtain ⟨raw, hraw, h⟩ := bind_eq_ok.mp h
    obtain ⟨items, hitems, h⟩ := bind_eq_ok.mp h
    cases h
    cases j <;> cases hraw
    exact .inr ⟨raw, hj, hitems⟩

/-- The category, the imports and the entries are what the node has under their keys. -/
structure Document.ReadFrom (n : Node) (doc : Document) : Prop where
  category : n.word "category" = .ok doc.category
  imports : ∃ raw, n.items "imports" = .ok raw ∧
    readItems Json.asText (n.path.key "imports") 0 raw = .ok doc.imports
  body : Body.ofNode n = .ok doc.body

lemma Document.readFrom_of_ofJson {source : String} {j : Json} {doc : Document}
    (h : Document.ofJson source j = .ok doc) : ∃ n, Node.ofJson {} j = .ok n ∧ doc.ReadFrom n := by
  obtain ⟨n, hn, h⟩ := bind_eq_ok.mp h
  obtain ⟨-, -, h⟩ := bind_eq_ok.mp h
  obtain ⟨category, hcategory, h⟩ := bind_eq_ok.mp h
  obtain ⟨name, -, h⟩ := bind_eq_ok.mp h
  obtain ⟨raw, hraw, h⟩ := bind_eq_ok.mp h
  obtain ⟨imports, himports, h⟩ := bind_eq_ok.mp h
  obtain ⟨body, hbody, h⟩ := bind_eq_ok.mp h
  obtain ⟨description, -, h⟩ := bind_eq_ok.mp h
  obtain ⟨docsUrl, -, h⟩ := bind_eq_ok.mp h
  obtain ⟨style, -, h⟩ := bind_eq_ok.mp h
  obtain ⟨priority, -, h⟩ := bind_eq_ok.mp h
  obtain ⟨parent, -, h⟩ := bind_eq_ok.mp h
  cases h
  exact ⟨n, hn, hcategory, ⟨raw, hraw, himports⟩, hbody⟩

/-- Every block of a document was read from an item of its contents. -/
lemma Document.exists_read_of_ofJson {source : String} {j : Json} {doc : Document}
    (h : Document.ofJson source j = .ok doc) : ∀ d ∈ doc.blocks, ∃ path i block,
      j.at? [.key "contents", .index i] = some block ∧ Definition.ofJson path block = .ok d := by
  obtain ⟨n, hn, hread⟩ := readFrom_of_ofJson h
  rw [Document.blocks]
  rcases Body.ofNode_cases hread.body with ⟨-, hnone⟩ | ⟨raw, hraw, hitems⟩
  · simp [hnone]
  · intro d hd
    obtain ⟨i, block, hblock, hd⟩ := Item.exists_read_of_readAll hitems d hd
    refine ⟨_, i, block, ?_, hd⟩
    rw [← Node.get?_of_ofJson hn] at hraw
    simp [Json.at?, Json.step?, hraw, Json.item?, hblock]

theorem Document.isRead_of_ofJson {source : String} {j : Json} {doc : Document}
    (h : Document.ofJson source j = .ok doc) : ∀ d ∈ doc.blocks, d.IsRead := by
  intro d hd
  obtain ⟨path, -, block, -, hread⟩ := exists_read_of_ofJson h d hd
  exact ⟨path, block, hread⟩

theorem Document.sound_of_ofJson {source : String} {j : Json} {doc : Document}
    (h : Document.ofJson source j = .ok doc) : ∀ d ∈ doc.blocks, d.Sound :=
  fun d hd => (isRead_of_ofJson h d hd).sound

/-- No two blocks of a document have one type. -/
theorem Document.nodup_types_of_ofJson {source : String} {j : Json} {doc : Document}
    (h : Document.ofJson source j = .ok doc) : (doc.blocks.map Definition.type).Nodup := by
  obtain ⟨n, -, hread⟩ := readFrom_of_ofJson h
  rw [Document.blocks]
  rcases Body.ofNode_cases hread.body with ⟨-, hnone⟩ | ⟨raw, -, hitems⟩
  · simp [hnone]
  · exact Item.nodup_types_of_readAll (by simp) hitems

end BlockProgram
