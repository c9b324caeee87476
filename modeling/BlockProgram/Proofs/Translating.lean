import BlockProgram.Proofs.Localizing
import BlockProgram.Proofs.Wording

/-!
# Translation does not change code

Two readings of one document are compared: of the document as it is written, and of the
document localized. Where both succeed they differ in texts for the user only, unless a
text that reaches code, the initial value of a text field or the name of a virtual
instance, has a reference in it. So a translated session compiles every workspace as the
untranslated one does.
-/
namespace BlockProgram

open Catalog

variable {c : Catalog}

/-! ### Readings -/

lemma eq_of_ok {ε α : Type} {x y : Except ε α} (heq : x = y) {a b : α} (hx : x = .ok a)
    (hy : y = .ok b) : a = b := by
  rw [heq, hy] at hx
  exact (Except.ok.inj hx).symm

lemma eq_of_ok_map {ε α β : Type} {x : Except ε β} {y : Except ε α} {f : α → β}
    (heq : x = y.map f) {a : α} {b : β} (hx : x = .ok b) (hy : y = .ok a) : b = f a :=
  eq_of_ok heq hx (map_eq_ok.mpr ⟨a, hy, rfl⟩)

/-- Values that are changed before they are read, where the reading only changes with them. -/
lemma readItems_map {α : Type} {read : Path → Json → Checked α} {change : Json → Json} {f : α → α}
    (h : ∀ path j, read path (change j) = (read path j).map f) (path : Path) (i : Nat)
    (items : List Json) :
    readItems read path i (items.map change) = (readItems read path i items).map (List.map f) := by
  induction items generalizing i with
  | nil => rfl
  | cons j rest ih =>
    rw [List.map_cons, readItems, readItems, h, ih]
    cases read (path.index i) j with
    | error refusal => rfl
    | ok a =>
      cases readItems read path (i + 1) rest <;> rfl

/-- Two readings are related as a whole if they are at each value. -/
lemma OneByOne.related {α : Type} {one : List α → Json → Checked α}
    {all : List α → List Json → Checked (List α)} (h : OneByOne one all) {R : α → α → Prop}
    {change : Json → Json} {raw : List Json}
    (hone : ∀ {done' done j a' a}, done'.length = done.length →
      one done' (change j) = .ok a' → one done j = .ok a → R a' a)
    {done' done result' result : List α} (hdone : List.Forall₂ R done' done)
    (h' : all done' (raw.map change) = .ok result') (h₀ : all done raw = .ok result) :
    List.Forall₂ R result' result := by
  induction raw generalizing done' done with
  | nil =>
    rw [h.nil h', h.nil h₀]
    exact hdone
  | cons j rest ih =>
    obtain ⟨a', ha', h'⟩ := h.cons h'
    obtain ⟨a, ha, h₀⟩ := h.cons h₀
    exact ih (List.rel_append hdone (.cons (hone hdone.length_eq ha' ha) .nil)) h' h₀

/-- What a view sees of two readings is the same if it is at each value that satisfies `P`. -/
lemma OneByOne.map_eq {α β : Type} {one : List α → Json → Checked α}
    {all : List α → List Json → Checked (List α)} (h : OneByOne one all) {P : α → Prop}
    {view : α → β} {change : Json → Json} {raw : List Json}
    (hone : ∀ done' done j a' a, done'.length = done.length →
      one done' (change j) = .ok a' → one done j = .ok a → P a → view a' = view a)
    {result' result : List α} (h' : all [] (raw.map change) = .ok result')
    (h₀ : all [] raw = .ok result) (hP : ∀ a ∈ result, P a) :
    result'.map view = result.map view := by
  have hrel := h.related (R := fun a' a => P a → view a' = view a) (hone _ _ _ _ _) .nil h' h₀
  clear h' h₀
  induction hrel with
  | nil => rfl
  | cons ha _ ih =>
    rw [List.forall_mem_cons] at hP
    rw [List.map_cons, List.map_cons, ha hP.1, ih hP.2]

/-! ### Arguments -/

lemma Choice.ofJson_localizeChoice (c : Catalog) (path : Path) (j : Json) :
    Choice.ofJson path (c.localizeChoice j) =
      (Choice.ofJson path j).map fun choice => { choice with label := c.resolve choice.label } := by
  cases j with
  | array items =>
    rcases items with _ | ⟨label, _ | ⟨value, _ | ⟨_, _⟩⟩⟩
    · rfl
    · cases label <;> rfl
    · cases label <;> cases value <;> rfl
    · cases label <;> rfl
  | _ => rfl

namespace ArgumentKind

/-- The text that a text field starts with. -/
def initial? : ArgumentKind → Option String
  | .text initial => some initial
  | _ => none

variable {n : Node} {kind' kind : ArgumentKind}

lemma bare_of_ofDropdown (h' : ofDropdown (n.localized c) = .ok kind')
    (h : ofDropdown n = .ok kind) : kind'.bare = kind.bare := by
  have hsystem : (n.localized c).text? "instanceOf" = n.text? "instanceOf" :=
    n.plainText?_localized c (by decide)
  rcases ofDropdown_cases h with
    ⟨system, hgiven, rfl⟩ | ⟨hnone, items, choices, hitems, -, hread, rfl⟩
  · rcases ofDropdown_cases h' with ⟨system', hgiven', rfl⟩ | ⟨hnone', -⟩
    · rw [hsystem, hgiven] at hgiven'
      cases hgiven'
      rfl
    · rw [hsystem, hgiven] at hnone'
      cases hnone'
  · rcases ofDropdown_cases h' with
      ⟨system', hgiven', -⟩ | ⟨-, items', choices', hitems', -, hread', rfl⟩
    · rw [hsystem, hnone] at hgiven'
      cases hgiven'
    · rw [Node.member?_localized, hitems] at hitems'
      obtain rfl : items.map c.localizeChoice = items' := by simpa [localizeMember] using hitems'
      obtain rfl := eq_of_ok_map (readItems_map (Choice.ofJson_localizeChoice c) _ 0 items)
        hread' hread
      rw [bare, bare, List.map_map]
      rfl

lemma bare_of_ofNode {type : String} (h' : ofNode (n.localized c) type = .ok kind')
    (h : ofNode n type = .ok kind) (hliteral : ∀ text ∈ kind.initial?, ¬ Refers text) :
    kind'.bare = kind.bare := by
  have hsame (heq : ofNode (n.localized c) type = ofNode n type) : kind'.bare = kind.bare :=
    congrArg bare (eq_of_ok heq h' h)
  unfold ofNode at h
  split at h
  · obtain ⟨initial, hinitial, h⟩ := bind_eq_ok.mp h
    obtain ⟨initial', hinitial', h'⟩ := bind_eq_ok.mp h'
    obtain rfl := eq_of_ok_map (n.text?_localized c "text") hinitial' hinitial
    cases h
    cases h'
    cases initial with
    | none => rfl
    | some initial =>
      have htext : c.textAt "text" initial = initial :=
        c.textAt_of_not_refers _ (hliteral initial rfl)
      rw [Option.map_some, htext]
  · exact hsame (by simp only [ofNode, Node.float?_localized])
  · exact hsame (by simp only [ofNode, Node.flag_localized])
  · exact bare_of_ofDropdown h' h
  · obtain ⟨check, hcheck, h⟩ := bind_eq_ok.mp h
    obtain ⟨order, horder, h⟩ := bind_eq_ok.mp h
    obtain ⟨check', hcheck', h'⟩ := bind_eq_ok.mp h'
    obtain ⟨order', horder', h'⟩ := bind_eq_ok.mp h'
    obtain rfl := eq_of_ok (n.plainText?_localized c (by decide)) hcheck' hcheck
    obtain rfl := n.eq_of_precedence?_localized horder' horder
    cases h
    cases h'
    rfl
  · have hcheck : (n.localized c).text? "check" = n.text? "check" :=
      n.plainText?_localized c (by decide)
    exact hsame (by simp only [ofNode, hcheck])
  · cases h

end ArgumentKind

lemma Argument.bare_of_ofJson {path : Path} {j : Json} {a' a : Argument}
    (h' : Argument.ofJson path (c.localize j) = .ok a') (h : Argument.ofJson path j = .ok a)
    (hliteral : ∀ text ∈ a.kind.initial?, ¬ Refers text) : a'.bare = a.bare := by
  obtain ⟨n, hn, h⟩ := bind_eq_ok.mp h
  obtain ⟨n', hn', h'⟩ := bind_eq_ok.mp h'
  obtain rfl := eq_of_ok_map (Node.ofJson_localize c _ j) hn' hn
  obtain ⟨name, hname, h⟩ := bind_eq_ok.mp h
  obtain ⟨name', hname', h'⟩ := bind_eq_ok.mp h'
  obtain rfl := eq_of_ok_map (n.text_localized c "name") hname' hname
  split at h
  · cases h
  next hisName =>
  split at h'
  · cases h'
  have hkept : c.textAt "name" name = name :=
    c.textAt_of_not_refers _ (not_refers_of_isName (by simpa using hisName))
  obtain ⟨type, htype, h⟩ := bind_eq_ok.mp h
  obtain ⟨type', htype', h'⟩ := bind_eq_ok.mp h'
  obtain rfl := eq_of_ok (n.plainText_localized c (by decide)) htype' htype
  obtain ⟨kind, hkind, h⟩ := bind_eq_ok.mp h
  obtain ⟨kind', hkind', h'⟩ := bind_eq_ok.mp h'
  cases h
  cases h'
  rw [Argument.bare, Argument.bare, ArgumentKind.bare_of_ofNode hkind' hkind hliteral, hkept]

lemma Argument.map_bare_of_readAll {path : Path} {raw : List Json} {args' args : List Argument}
    (h' : Argument.readAll path [] (raw.map c.localize) = .ok args')
    (h : Argument.readAll path [] raw = .ok args)
    (hliteral : ∀ a ∈ args, ∀ text ∈ a.kind.initial?, ¬ Refers text) :
    args'.map Argument.bare = args.map Argument.bare := by
  refine (oneByOne path).map_eq (P := fun a => ∀ text ∈ a.kind.initial?, ¬ Refers text) ?_ h' h
    hliteral
  intro done' done j a' a hlength ha' ha
  rw [hlength] at ha'
  exact bare_of_ofJson ha' ha

/-! ### Constructors -/

lemma Virtual.eq_of_ofJson {path : Path} {j : Json} {v' v : Virtual}
    (h' : Virtual.ofJson path (c.localize j) = .ok v') (h : Virtual.ofJson path j = .ok v)
    (hname : ¬ Refers v.name) : v' = v := by
  obtain ⟨n, hn, h⟩ := bind_eq_ok.mp h
  obtain ⟨n', hn', h'⟩ := bind_eq_ok.mp h'
  obtain rfl := eq_of_ok_map (Node.ofJson_localize c _ j) hn' hn
  obtain ⟨-, -, h⟩ := bind_eq_ok.mp h
  obtain ⟨-, -, h'⟩ := bind_eq_ok.mp h'
  obtain ⟨system, hsystem, h⟩ := bind_eq_ok.mp h
  obtain ⟨system', hsystem', h'⟩ := bind_eq_ok.mp h'
  obtain rfl := eq_of_ok (n.word_localized c (by decide)) hsystem' hsystem
  obtain ⟨name, hword, h⟩ := bind_eq_ok.mp h
  obtain ⟨name', hword', h'⟩ := bind_eq_ok.mp h'
  obtain rfl := eq_of_ok_map (n.text_localized c "name") (Node.word_eq_ok_iff.mp hword').1
    (Node.word_eq_ok_iff.mp hword).1
  obtain ⟨connection, hconnection, h⟩ := bind_eq_ok.mp h
  obtain ⟨connection', hconnection', h'⟩ := bind_eq_ok.mp h'
  obtain rfl := eq_of_ok (n.plainText_localized c (by decide)) hconnection' hconnection
  cases h
  cases h'
  rw [c.textAt_of_not_refers _ hname]

lemma Virtual.eq_of_readAll {path : Path} {raw : List Json} {virtuals' virtuals : List Virtual}
    (h' : Virtual.readAll path [] (raw.map c.localize) = .ok virtuals')
    (h : Virtual.readAll path [] raw = .ok virtuals) (hnames : ∀ v ∈ virtuals, ¬ Refers v.name) :
    virtuals' = virtuals := by
  have hmap : virtuals'.map id = virtuals.map id := by
    refine (oneByOne path).map_eq (P := fun v => ¬ Refers v.name) ?_ h' h hnames
    intro done' done j v' v hlength hv' hv
    rw [hlength] at hv'
    exact eq_of_ofJson hv' hv
  simpa using hmap

lemma Constructor.eq_of_ofNode {n : Node} {k' k : Constructor}
    (h' : Constructor.ofNode (n.localized c) = .ok k') (h : Constructor.ofNode n = .ok k)
    (hnames : ∀ v ∈ k.virtuals, ¬ Refers v.name) : k' = k := by
  obtain ⟨-, -, h⟩ := bind_eq_ok.mp h
  obtain ⟨-, -, h'⟩ := bind_eq_ok.mp h'
  obtain ⟨system, hsystem, h⟩ := bind_eq_ok.mp h
  obtain ⟨system', hsystem', h'⟩ := bind_eq_ok.mp h'
  obtain rfl := eq_of_ok (n.word_localized c (by decide)) hsystem' hsystem
  obtain ⟨raw, hraw, h⟩ := bind_eq_ok.mp h
  obtain ⟨raw', hraw', h'⟩ := bind_eq_ok.mp h'
  obtain rfl := eq_of_ok_map (n.items_localized c (by decide)) hraw' hraw
  obtain ⟨virtuals, hvirtuals, h⟩ := bind_eq_ok.mp h
  obtain ⟨virtuals', hvirtuals', h'⟩ := bind_eq_ok.mp h'
  obtain ⟨stem, hstem, h⟩ := bind_eq_ok.mp h
  obtain ⟨stem', hstem', h'⟩ := bind_eq_ok.mp h'
  obtain rfl := eq_of_ok (n.plainText?_localized c (by decide)) hstem' hstem
  obtain ⟨field, hfield, h⟩ := bind_eq_ok.mp h
  obtain ⟨field', hfield', h'⟩ := bind_eq_ok.mp h'
  obtain rfl := eq_of_ok (n.plainText?_localized c (by decide)) hfield' hfield
  cases h
  cases h'
  rw [Virtual.eq_of_readAll hvirtuals' hvirtuals hnames]

lemma Constructor.eq_of_ofJson {path : Path} {args' args : List Argument} {j : Json}
    {k' k : Constructor} (h' : Constructor.ofJson path args' (c.localize j) = .ok k')
    (h : Constructor.ofJson path args j = .ok k) (hnames : ∀ v ∈ k.virtuals, ¬ Refers v.name) :
    k' = k := by
  rcases (Constructor.ofJson_cases h).1 with ⟨system, rfl, rfl⟩ | ⟨members, rfl, hk⟩
  · rcases (Constructor.ofJson_cases h').1 with ⟨system', heq, rfl⟩ | ⟨members', heq, -⟩
    · cases heq
      rfl
    · cases heq
  · rcases (Constructor.ofJson_cases h').1 with ⟨system', heq, -⟩ | ⟨members', heq, hk'⟩
    · cases heq
    · cases heq
      exact eq_of_ofNode (n := ⟨path, members⟩) hk' hk hnames

/-! ### Blocks -/

namespace Definition

/-- The texts that are localized although they get into code: what text fields start with,
and the names of virtual instances. -/
def literals (d : Definition) : List String :=
  d.args.filterMap (·.kind.initial?) ++
    (d.constructs.toList.flatMap Constructor.virtuals).map Virtual.name

/-- No text that gets into code has a reference in it. -/
def Literal (d : Definition) : Prop := ∀ text ∈ d.literals, ¬ Refers text

lemma Literal.texts {d : Definition} (h : d.Literal) :
    ∀ a ∈ d.args, ∀ text ∈ a.kind.initial?, ¬ Refers text := by
  intro a ha text htext
  exact h text (List.mem_append_left _ (List.mem_filterMap.mpr ⟨a, ha, htext⟩))

lemma Literal.names {d : Definition} (h : d.Literal) :
    ∀ k, d.constructs = some k → ∀ v ∈ k.virtuals, ¬ Refers v.name := by
  intro k hk v hv
  refine h v.name (List.mem_append_right _ (List.mem_map_of_mem ?_))
  simpa [hk] using hv

lemma eq_of_constructor? {n : Node} {args' args : List Argument}
    {constructs' constructs : Option Constructor}
    (h' : constructor? (n.localized c) args' = .ok constructs')
    (h : constructor? n args = .ok constructs)
    (hnames : ∀ k, constructs = some k → ∀ v ∈ k.virtuals, ¬ Refers v.name) :
    constructs' = constructs := by
  rw [constructor?, Node.given?_localized] at h'
  rw [constructor?] at h
  cases hgiven : n.given? "constructs" with
  | none =>
    rw [hgiven] at h' h
    cases h'
    cases h
    rfl
  | some raw =>
    rw [hgiven, Option.map_some, c.localizeMember_of_plain (by decide) (by decide)] at h'
    rw [hgiven] at h
    obtain ⟨k', hk', rfl⟩ := map_eq_ok.mp h'
    obtain ⟨k, hk, rfl⟩ := map_eq_ok.mp h
    rw [Constructor.eq_of_ofJson hk' hk (hnames k rfl)]

/-- A definition that is read from a localized node differs in texts for the user only. -/
lemma bare_of_readFrom {n : Node} {d' d : Definition} (h' : d'.ReadFrom (n.localized c))
    (h : d.ReadFrom n) (hliteral : d.Literal) : d'.bare = d.bare := by
  have htype := eq_of_ok (n.word_localized c (by decide)) h'.type h.type
  have hargs : d'.args.map Argument.bare = d.args.map Argument.bare := by
    obtain ⟨raw', hraw', hread'⟩ := h'.args
    obtain ⟨raw, hraw, hread⟩ := h.args
    obtain rfl := eq_of_ok_map (n.items_localized c (by decide)) hraw' hraw
    exact Argument.map_bare_of_readAll hread' hread hliteral.texts
  have horder : d'.order = d.order := by
    obtain ⟨order', hread', horder'⟩ := h'.order
    obtain ⟨order, hread, horder⟩ := h.order
    rw [horder', horder, n.eq_of_precedence?_localized hread' hread]
  have houtput := eq_of_ok (n.output?_localized c) h'.output h.output
  have hprevious := eq_of_ok (n.flag_localized c _) h'.previous h.previous
  have hnext := eq_of_ok (n.flag_localized c _) h'.next h.next
  have hstart := eq_of_ok (n.flag_localized c _) h'.programStart h.programStart
  have hconstructs := eq_of_constructor? h'.constructs h.constructs hliteral.names
  have hcode := eq_of_ok (n.plainText?_localized c (by decide)) h'.code h.code
  have hhidden := eq_of_ok (n.flag_localized c _) h'.hidden h.hidden
  have hhelpUrl := eq_of_ok (n.plainText?_localized c (by decide)) h'.helpUrl h.helpUrl
  have hstyle := eq_of_ok (n.style?_localized c) h'.style h.style
  have hinline := eq_of_ok (n.flag?_localized c _) h'.inputsInline h.inputsInline
  simp only [bare, htype, hargs, horder, houtput, hprevious, hnext, hstart, hconstructs, hcode,
    hhidden, hhelpUrl, hstyle, hinline]

lemma bare_of_ofJson {path : Path} {j : Json} {d' d : Definition}
    (h' : Definition.ofJson path (c.localize j) = .ok d') (h : Definition.ofJson path j = .ok d)
    (hliteral : d.Literal) : d'.bare = d.bare := by
  obtain ⟨n, hn, hread⟩ := readFrom_of_ofJson h
  obtain ⟨n', hn', hread'⟩ := readFrom_of_ofJson h'
  obtain rfl := eq_of_ok_map (Node.ofJson_localize c _ j) hn' hn
  exact bare_of_readFrom hread' hread hliteral

end Definition

/-! ### Documents -/

lemma Json.asText_localize (c : Catalog) (path : Path) (j : Json) :
    (c.localize j).asText path = (j.asText path).map id := by
  cases j <;> rfl

/-- The block of an item is literal. -/
def Item.Literal (item : Item) : Prop := ∀ d, item.block? = some d → d.Literal

lemma Item.bare_of_ofJson {path : Path} {done' done : List Item} {j : Json} {item' item : Item}
    (h' : Item.ofJson path done' (c.localize j) = .ok item')
    (h : Item.ofJson path done j = .ok item) (hliteral : item.Literal) :
    item'.block?.map Definition.bare = item.block?.map Definition.bare := by
  obtain ⟨n, kind, hn, hkind, hcases⟩ := Item.ofJson_cases h
  obtain ⟨n', kind', hn', hkind', hcases'⟩ := Item.ofJson_cases h'
  obtain rfl := eq_of_ok_map (Node.ofJson_localize c _ j) hn' hn
  obtain rfl := eq_of_ok (n.plainText?_localized c (by decide)) hkind' hkind
  rcases hcases with ⟨hblock, d, rfl, hd, -⟩ | ⟨hother, hnone⟩
  · rcases hcases' with ⟨-, d', rfl, hd', -⟩ | ⟨hother', -⟩
    · exact congrArg some (Definition.bare_of_ofJson hd' hd (hliteral d rfl))
    · exact absurd hblock hother'
  · rcases hcases' with ⟨hblock', -⟩ | ⟨-, hnone'⟩
    · exact absurd hblock' hother
    · rw [hnone, hnone']

lemma Body.map_bare_of_ofNode {n : Node} {body' body : Body}
    (h' : Body.ofNode (n.localized c) = .ok body') (h : Body.ofNode n = .ok body)
    (hliteral : ∀ item ∈ body.items, item.Literal) :
    body'.items.map (·.block?.map Definition.bare) =
      body.items.map (·.block?.map Definition.bare) := by
  rcases Body.ofNode_cases h with ⟨hnone, hitems⟩ | ⟨raw, hraw, hread⟩
  · rcases Body.ofNode_cases h' with ⟨-, hitems'⟩ | ⟨raw', hraw', -⟩
    · rw [hitems, hitems']
    · rw [Node.member?_localized, hnone] at hraw'
      cases hraw'
  · rcases Body.ofNode_cases h' with ⟨hnone', -⟩ | ⟨raw', hraw', hread'⟩
    · rw [Node.member?_localized, hraw] at hnone'
      cases hnone'
    · obtain rfl : raw.map c.localize = raw' := by
        simpa [Node.member?_localized, hraw, localizeMember] using hraw'
      refine (Item.oneByOne _).map_eq (P := Item.Literal) ?_ hread' hread hliteral
      intro done' done j item' item hlength hitem' hitem
      rw [hlength] at hitem'
      exact Item.bare_of_ofJson hitem' hitem

namespace Document

lemma map_bare_blocks (doc : Document) : doc.blocks.map Definition.bare =
    (doc.body.items.map (·.block?.map Definition.bare)).filterMap id := by
  rw [blocks, List.map_filterMap, List.filterMap_map]
  rfl

lemma map_bare_registrations (doc : Document) :
    (doc.registrations.map fun e => (e.1, e.2.bare)) = (doc.blocks.map Definition.bare).map
      fun d => (d.type, .declared doc.category doc.imports d) := by
  rw [registrations, List.map_map, List.map_map]
  rfl

/-- What a localized document registers differs in texts for the user only. -/
theorem map_bare_registrations_of_ofJson {source : String} {j : Json} {doc' doc : Document}
    (h' : Document.ofJson source (c.localize j) = .ok doc') (h : Document.ofJson source j = .ok doc)
    (hliteral : ∀ d ∈ doc.blocks, d.Literal) :
    (doc'.registrations.map fun e => (e.1, e.2.bare)) =
      doc.registrations.map fun e => (e.1, e.2.bare) := by
  obtain ⟨n, hn, hread⟩ := readFrom_of_ofJson h
  obtain ⟨n', hn', hread'⟩ := readFrom_of_ofJson h'
  obtain rfl := eq_of_ok_map (Node.ofJson_localize c _ j) hn' hn
  have hcategory := eq_of_ok (n.word_localized c (by decide)) hread'.category hread.category
  have himports : doc'.imports = doc.imports := by
    obtain ⟨raw', hraw', hitems'⟩ := hread'.imports
    obtain ⟨raw, hraw, hitems⟩ := hread.imports
    obtain rfl := eq_of_ok_map (n.items_localized c (by decide)) hraw' hraw
    simpa using eq_of_ok_map (readItems_map (Json.asText_localize c) _ 0 raw) hitems' hitems
  have hblocks : doc'.blocks.map Definition.bare = doc.blocks.map Definition.bare := by
    rw [map_bare_blocks, map_bare_blocks, Body.map_bare_of_ofNode hread'.body hread.body]
    intro item hitem d hd
    exact hliteral d (List.mem_filterMap.mpr ⟨item, hitem, hd⟩)
  rw [map_bare_registrations, map_bare_registrations, hblocks, hcategory, himports]

end Document

/-- No text of the document of a source that gets into code has a reference in it. -/
def Source.Literal (source : Source) : Prop :=
  ∀ doc, Document.ofJson source.name source.content = .ok doc → ∀ d ∈ doc.blocks, d.Literal

namespace Vocabulary

lemma map_bare_registrations_of_loadsAs {sources : List Source} {docs' docs : List Document}
    (h' : List.Forall₂ (LoadsAs c) sources docs') (h : List.Forall₂ (LoadsAs {}) sources docs)
    (hliteral : ∀ source ∈ sources, source.Literal) :
    ((docs'.flatMap Document.registrations).map fun e => (e.1, e.2.bare)) =
      (docs.flatMap Document.registrations).map fun e => (e.1, e.2.bare) := by
  induction h' generalizing docs with
  | nil =>
    cases h
    rfl
  | @cons source doc' sources docs' hdoc' _ ih =>
    obtain ⟨doc, docs, hdoc, hdocs, rfl⟩ := List.forall₂_cons_left_iff.mp h
    rw [List.forall_mem_cons] at hliteral
    have hplain : Document.ofJson source.name source.content = .ok doc := by
      rw [← localize_empty source.content]
      exact hdoc.1
    rw [List.flatMap_cons, List.flatMap_cons, List.map_append, List.map_append, ih hdocs hliteral.2,
      Document.map_bare_registrations_of_ofJson hdoc'.1 hplain (hliteral.1 doc hplain)]

/-- Registrations that differ in texts for the user make vocabularies that do. -/
lemma sameButTexts_ofDocuments {docs' docs : List Document}
    (h : ((docs'.flatMap Document.registrations).map fun e => (e.1, e.2.bare)) =
      (docs.flatMap Document.registrations).map fun e => (e.1, e.2.bare)) :
    (ofDocuments docs').SameButTexts (ofDocuments docs) := by
  intro type
  have hlookup (docs : List Document) : ((ofDocuments docs).get? type).map Registration.bare =
      ((docs.flatMap Document.registrations).map fun e => (e.1, e.2.bare)).reverse.lookup type := by
    rw [get?_ofDocuments, ← List.map_reverse]
    exact (lookup_map_values (fun _ => Registration.bare) _ type).symm
  rw [hlookup, hlookup, h]

end Vocabulary

namespace Session

/-- If sources load with a catalogue and without one, and no text that gets into code has a
reference in it, then the two sessions compile every workspace to the same program, or fail
alike, and generate the same code for every block. -/
theorem translation_keeps_code (s : Session) {sources : List Source}
    (hload : (s.load sources).2 = none)
    (hplain : (load { s with catalog := {} } sources).2 = none)
    (hliteral : ∀ source ∈ sources, source.Literal) (w : Workspace) :
    let translated := (s.load sources).1
    let plain := (load { s with catalog := {} } sources).1
    translated.compile w = plain.compile w ∧
      ∀ id, translated.generate w id = plain.generate w id := by
  obtain ⟨docs', hdocs'⟩ := loadsAs_of_load hload
  obtain ⟨docs, hdocs⟩ := loadsAs_of_load hplain
  have hsame : (Vocabulary.ofDocuments docs).SameButTexts (.ofDocuments docs') :=
    Vocabulary.sameButTexts_ofDocuments
      (Vocabulary.map_bare_registrations_of_loadsAs hdocs' hdocs hliteral).symm
  have hcongr := load_congr (s := { s with catalog := {} }) (t := s) rfl rfl hdocs hdocs' hsame
  exact hcongr.2 w

/-- The texts of a library in another language. -/
def germanTexts : Catalog :=
  ⟨.ofList [("GREET", "sag $[HOW] zu $[NAME]"), ("HELLO", "Hallo"), ("PEOPLE", "Leute")]⟩

/-- A reference to a text. -/
def phrase (key : String) : Json := .string ("%\x7bBKY_" ++ key ++ "\x7d")

/-- A library whose texts for the user are references. -/
def greetingLibrary : Source where
  name := "greeting.json"
  content := .mkObject [
    ("category", .string "people"), ("name", phrase "PEOPLE"),
    ("contents", .array [.mkObject [
      ("type", .string "greet"), ("message", phrase "GREET"),
      ("code", .string "greet($[HOW], $[NAME]);"),
      ("args", .array [
        .mkObject [("name", .string "NAME"), ("type", .string "field_input"),
          ("text", .string "world")],
        .mkObject [("name", .string "HOW"), ("type", .string "field_dropdown"),
          ("options", .array [.array [phrase "HELLO", .string "hello"]])]]),
      ("constructs", .mkObject [("system", .string "guest"), ("virtualInstances", .array [
        .mkObject [("instanceOf", .string "hat"), ("name", .string "hat"),
          ("connection", .string "$[NAME].hat")]])])]])]

lemma literal_greetingLibrary : greetingLibrary.Literal := by
  obtain ⟨doc, hdoc, htexts⟩ : ∃ doc,
      Document.ofJson greetingLibrary.name greetingLibrary.content = .ok doc ∧
        doc.blocks.flatMap Definition.literals = ["world", "hat"] :=
    exists_ok_of_map (by decide +kernel)
  intro doc' hdoc' d hd text htext
  rw [hdoc] at hdoc'
  cases hdoc'
  have hmem : text ∈ ["world", "hat"] := by
    rw [← htexts]
    exact List.mem_flatMap.mpr ⟨d, hd, htext⟩
  have hplain : ∀ text ∈ ["world", "hat"], '%' ∉ text.toList := by decide
  exact not_refers_of_not_mem (hplain text hmem)

theorem greetingLibrary_translated :
    let s := new {} germanTexts
    let translated := (s.load [greetingLibrary]).1
    let plain := (load { s with catalog := {} } [greetingLibrary]).1
    (translated.vocabulary.definition? "greet").map Definition.message =
        some "sag $[HOW] zu $[NAME]" ∧
      (plain.vocabulary.definition? "greet").map Definition.message =
        some "%\x7bBKY_GREET\x7d" ∧
      ∀ w, translated.compile w = plain.compile w ∧
        ∀ id, translated.generate w id = plain.generate w id := by
  intro s translated plain
  have hload : (s.load [greetingLibrary]).2 = none :=
    Option.isNone_iff_eq_none.mp (by decide +kernel)
  have hplain : (load { s with catalog := {} } [greetingLibrary]).2 = none :=
    Option.isNone_iff_eq_none.mp (by decide +kernel)
  have hliteral : ∀ source ∈ [greetingLibrary], source.Literal := by
    intro source hsource
    rw [List.mem_singleton.mp hsource]
    exact literal_greetingLibrary
  exact ⟨by decide +kernel, by decide +kernel,
    s.translation_keeps_code hload hplain hliteral⟩

end Session

end BlockProgram
