import BlockProgram.Proofs.Compiling
import BlockProgram.Proofs.Divisors

/-!
# Arithmetic in blocks

Value blocks with the templates of the four operators, plugged into one another
down to blocks that give names, spell an expression. The code of such a block is
the text of the expression, whatever else the workspace holds.
-/
namespace BlockProgram

namespace Table

variable {α : Type}

lemma get?_foldl_insert {entries : List (String × α)} {key : String} {value : α} {t : Table α}
    (hall : ∀ e ∈ entries, e.1 = key → e.2 = value)
    (hsome : (∃ e ∈ entries, e.1 = key) ∨ t.get? key = some value) :
    (entries.foldl (fun t e => t.insert e.1 e.2) t).get? key = some value := by
  induction entries generalizing t with
  | nil => simpa using hsome
  | cons e rest ih =>
    refine ih (fun e' he' => hall e' (List.mem_cons_of_mem _ he')) ?_
    by_cases hkey : e.1 = key
    · refine .inr ?_
      rw [← hall e (by simp) hkey, get?_insert, if_pos hkey.symm]
    · rcases hsome with ⟨e', he', hkey'⟩ | hold
      · rcases List.mem_cons.mp he' with rfl | he'
        · exact absurd hkey' hkey
        · exact .inl ⟨e', he', hkey'⟩
      · refine .inr ?_
        rw [get?_insert, if_neg (Ne.symm hkey)]
        exact hold

/-- A key that always comes with the same value has this value. -/
lemma get?_ofList {entries : List (String × α)} {key : String} {value : α}
    (hkey : ∃ e ∈ entries, e.1 = key) (hall : ∀ e ∈ entries, e.1 = key → e.2 = value) :
    (ofList entries).get? key = some value :=
  get?_foldl_insert hall (.inl hkey)

end Table

/-! ### Templates of operators -/

namespace Operator

def template : Operator → String
  | mul => "$[A] * $[B]"
  | div => "$[A] / $[B]"
  | add => "$[A] + $[B]"
  | sub => "$[A] - $[B]"

lemma pieces_template (op : Operator) : Template.pieces op.template =
    [.mark "A", .char ' ', .char op.symbol, .char ' ', .mark "B"] := by
  cases op <;> decide +kernel

lemma mentions_template (op : Operator) (name : String) :
    Template.mentions op.template name = true ↔ name = "A" ∨ name = "B" := by
  simp [Template.mentions, Template.placeholders, pieces_template, Text.Marker.names]

lemma expand_template (op : Operator) {values : String → Option String} {x y : String}
    (hx : values "A" = some x) (hy : values "B" = some y) :
    Template.expand op.template values = x ++ String.ofList [' ', op.symbol, ' '] ++ y := by
  rw [Template.expand, pieces_template]
  simp [Text.Marker.fill, hx, hy, ← String.toList_inj]

lemma precedence_injective : Function.Injective precedence := by
  intro op op' h
  cases op <;> cases op' <;> first | rfl | cases h

lemma precedence_ne_atomic (op : Operator) : op.precedence ≠ .atomic := by
  cases op <;> decide

end Operator

/-- The definition has the template of an operator, and the class of the operator
for itself and for both operands. -/
structure Definition.IsOperator (d : Definition) (op : Operator) : Prop where
  code : d.code = some op.template
  kind : d.kind = .value
  order : d.order = op.precedence
  operands : ∀ a ∈ d.args, a.name = "A" ∨ a.name = "B" →
    ∃ check, a.kind = .value check op.precedence
  left : ∃ a ∈ d.args, a.name = "A"
  right : ∃ a ∈ d.args, a.name = "B"

namespace Generator

open Generation Expression

/-- The block is the root of a tree of blocks for the expression. -/
inductive Spells (g : Generator) : BlockId → Expression → Prop where
  /-- A block that gives a name and asks for no other block. -/
  | name {id : BlockId} {name : String} (hname : IsName name)
      (hcode : ∀ block, g.codeOf block id = pure (.value name .atomic)) :
      Spells g id (.var name)
  | apply {id a b : BlockId} {d : Definition} {op : Operator} {l r : Expression}
      (hd : g.vocabulary.definitionOf? g.workspace id = some d) (hop : d.IsOperator op)
      (ha : g.workspace.target? id "A" = some a) (hb : g.workspace.target? id "B" = some b)
      (hena : g.workspace.isDisabled a = false) (henb : g.workspace.isDisabled b = false)
      (hl : Spells g a l) (hr : Spells g b r) : Spells g id (.binary op l r)

variable {g : Generator} {id a b : BlockId} {d : Definition} {op : Operator}
  {block : BlockId → Generation Code} {busy : List BlockId}

lemma fragment_of_operand (hop : d.IsOperator op) {arg : Argument} (harg : arg ∈ d.args)
    {name : String} (hname : arg.name = name) (hAB : name = "A" ∨ name = "B") {target : BlockId}
    (htarget : g.workspace.target? id name = some target)
    (henabled : g.workspace.isDisabled target = false) {text : String} {inner : Precedence}
    (hblock : (block target).Yields busy (· = .value text inner)) :
    (g.fragment block id arg).Yields busy (· = op.precedence.wrap text inner) := by
  subst hname
  obtain ⟨check, hkind⟩ := hop.operands arg harg hAB
  simp only [fragment, hkind]
  refine operand_yields (fun hempty => ?_) fun target' htarget' _ => ?_
  · have := hempty target htarget
    simp [henabled] at this
  · obtain rfl : target = target' := Option.some.inj (htarget.symm.trans htarget')
    exact hblock.mono fun code hcode => ⟨text, inner, hcode, rfl⟩

/-- The code of a block of an operator, from the code of its operands. -/
lemma codeOf_operator (hd : g.vocabulary.definitionOf? g.workspace id = some d)
    (hop : d.IsOperator op) (ha : g.workspace.target? id "A" = some a)
    (hb : g.workspace.target? id "B" = some b) (hena : g.workspace.isDisabled a = false)
    (henb : g.workspace.isDisabled b = false) {x y : String} {p q : Precedence}
    (hx : (block a).Yields busy (· = .value x p)) (hy : (block b).Yields busy (· = .value y q)) :
    (g.codeOf block id).Yields busy (· = .value (op.precedence.wrap x p ++
      String.ofList [' ', op.symbol, ' '] ++ op.precedence.wrap y q) op.precedence) := by
  obtain ⟨type, library, imports, htype, hget⟩ := Vocabulary.declared_of_definitionOf? hd
  simp only [codeOf, htype, hget, hop.code, template_eq]
  have hfragments : (g.fragments block id op.template d.args).Yields busy fun filled =>
      (Table.ofList filled).get? "A" = some (op.precedence.wrap x p) ∧
        (Table.ofList filled).get? "B" = some (op.precedence.wrap y q) := by
    refine Yields.mono (fragments_yields (P := fun arg text =>
      (arg.name = "A" → text = op.precedence.wrap x p) ∧
        (arg.name = "B" → text = op.precedence.wrap y q)) fun arg harg hmentions => ?_) ?_
    · rcases (op.mentions_template arg.name).mp hmentions with hname | hname
      · refine (fragment_of_operand hop harg hname (.inl rfl) ha hena hx).mono fun text htext => ?_
        exact ⟨fun _ => htext, fun h => by simp [hname] at h⟩
      · refine (fragment_of_operand hop harg hname (.inr rfl) hb henb hy).mono fun text htext => ?_
        exact ⟨fun h => by simp [hname] at h, fun _ => htext⟩
    · rintro filled ⟨hall, honly⟩
      have hkey {name : String} (hname : name = "A" ∨ name = "B")
          (harg : ∃ arg ∈ d.args, arg.name = name) : ∃ e ∈ filled, e.1 = name := by
        obtain ⟨arg, harg, rfl⟩ := harg
        obtain ⟨text, htext⟩ := hall arg harg ((op.mentions_template _).mpr hname)
        exact ⟨_, htext, rfl⟩
      refine ⟨Table.get?_ofList (hkey (.inl rfl) hop.left) fun e he hname => ?_,
        Table.get?_ofList (hkey (.inr rfl) hop.right) fun e he hname => ?_⟩
      · obtain ⟨arg, -, harg, hA, -⟩ := honly e he
        exact hA (harg.trans hname)
      · obtain ⟨arg, -, harg, -, hB⟩ := honly e he
        exact hB (harg.trans hname)
  refine hfragments.bind ?_
  rintro filled ⟨hA, hB⟩
  refine .pure ?_
  simp only [finish, hop.kind, hop.order, op.expand_template hA hB]

namespace Spells

lemma mem_ids {t : Expression} (h : g.Spells id t) : id ∈ g.workspace.ids := by
  cases h with
  | @name _ name _ hcode =>
    cases htype : g.workspace.type? id with
    | some type => exact Workspace.mem_ids_of_type? htype
    | none =>
      have hrun : ((g.codeOf g.block id).start []).1 = .ok (.value name .atomic) := by
        rw [hcode]
        rfl
      simp only [codeOf, htype] at hrun
      cases hrun
  | apply hd _ _ _ _ _ _ _ =>
    obtain ⟨type, -, -, htype, -⟩ := Vocabulary.declared_of_definitionOf? hd
    exact Workspace.mem_ids_of_type? htype

/-- A block of an operator gives no mere name, so a block that does spells it. -/
lemma eq_var {name : String} {e : Expression} (h : g.Spells id e)
    (hcode : ∀ block, g.codeOf block id = pure (.value name .atomic)) : e = .var name := by
  cases h with
  | name _ hcode' =>
    have heq := (hcode g.block).symm.trans (hcode' g.block)
    cases congrArg (fun x => (Generation.start x []).1) heq
    rfl
  | @apply _ _ _ _ op _ _ hd hop ha hb hena henb _ _ =>
    have hany : (pure (.value "" .atomic) : Generation Code).Yields []
        (· = .value "" .atomic) := .pure rfl
    have hyields : (g.codeOf (fun _ => pure (.value "" .atomic)) id).Yields [] _ :=
      codeOf_operator hd hop ha hb hena henb hany hany
    obtain ⟨code, hrun, rfl⟩ := hyields
    rw [hcode] at hrun
    have hsame := Code.value.inj (Except.ok.inj (congrArg Prod.fst hrun))
    exact absurd hsame.2.symm op.precedence_ne_atomic

/-- A block spells one expression only. -/
theorem unique {t u : Expression} (ht : g.Spells id t) (hu : g.Spells id u) : t = u := by
  induction ht generalizing u with
  | name _ hcode => exact (hu.eq_var hcode).symm
  | @apply id a b d op l r hd hop ha hb hena henb hl hr ihl ihr =>
    cases hu with
    | name hname hcode => exact (apply hd hop ha hb hena henb hl hr).eq_var hcode
    | @apply _ a' b' d' op' l' r' hd' hop' ha' hb' _ _ hl' hr' =>
      obtain rfl : d = d' := Option.some.inj (hd.symm.trans hd')
      obtain rfl : op = op' := Operator.precedence_injective (hop.order.symm.trans hop'.order)
      obtain rfl : a = a' := Option.some.inj (ha.symm.trans ha')
      obtain rfl : b = b' := Option.some.inj (hb.symm.trans hb')
      rw [ihl hl', ihr hr']

lemma isName {t : Expression} (h : g.Spells id t) : ∀ name ∈ t.names, IsName name := by
  induction h with
  | name hname _ => simpa [names] using hname
  | apply _ _ _ _ _ _ _ _ ihl ihr =>
    intro name hname
    rcases List.mem_append.mp hname with hl | hr
    · exact ihl name hl
    · exact ihr name hr

end Spells

/-- The busy blocks spell larger expressions, so the block at hand is none of them. -/
theorem blockWithin_spells {depth : Nat} {t : Expression} (h : g.Spells id t)
    (hroom : Room g.workspace depth busy)
    (hbusy : ∀ k ∈ busy, ∃ u, g.Spells k u ∧ sizeOf t < sizeOf u) :
    (g.blockWithin depth id).Yields busy (· = .value t.text t.precedence) := by
  induction depth generalizing busy id t with
  | zero => exact absurd hroom.pos (Nat.lt_irrefl 0)
  | succ depth ih =>
    have hid : id ∉ busy := by
      intro hmem
      obtain ⟨u, hu, hlt⟩ := hbusy id hmem
      rw [h.unique hu] at hlt
      omega
    refine blockWithin_yields hroom hid h.mem_ids ?_
    intro below heq hroom'
    obtain rfl : depth = below := Nat.succ.inj heq
    cases h with
    | name _ hcode =>
      rw [hcode]
      exact .pure rfl
    | @apply _ a b d op l r hd hop ha hb hena henb hl hr =>
      have hbelow {u : Expression} (hu : sizeOf u < sizeOf (Expression.binary op l r)) :
          ∀ k ∈ id :: busy, ∃ v, g.Spells k v ∧ sizeOf u < sizeOf v := by
        intro k hk
        rcases List.mem_cons.mp hk with rfl | hk
        · exact ⟨_, .apply hd hop ha hb hena henb hl hr, hu⟩
        · obtain ⟨v, hv, hlt⟩ := hbusy k hk
          exact ⟨v, hv, hu.trans hlt⟩
      have hsize : sizeOf (Expression.binary op l r) = 1 + sizeOf op + sizeOf l + sizeOf r := rfl
      exact codeOf_operator hd hop ha hb hena henb (ih hl hroom' (hbelow (by omega)))
        (ih hr hroom' (hbelow (by omega)))

theorem block_spells {t : Expression} (h : g.Spells id t) :
    (g.block id).Yields [] (· = .value t.text t.precedence) :=
  blockWithin_spells h (Room.start g.workspace) (fun _ hk => by cases hk)

/-! ### Names from fields -/

/-- The code of the fields that a template mentions. -/
def fieldCodes (g : Generator) (id : BlockId) (template : String) (args : List Argument) :
    List (String × String) :=
  (args.filter fun a => Template.mentions template a.name).map fun a => (a.name, g.fieldCode id a)

lemma fragments_of_fields {template : String} {args : List Argument}
    (hfields : ∀ a ∈ args, Template.mentions template a.name = true →
      g.fragment block id a = pure (g.fieldCode id a)) :
    g.fragments block id template args = pure (g.fieldCodes id template args) := by
  induction args with
  | nil => rfl
  | cons a rest ih =>
    have hrest := ih fun a' ha' => hfields a' (List.mem_cons_of_mem _ ha')
    unfold fragments
    split
    · next hmentions =>
      rw [hfields a (by simp) hmentions, hrest]
      simp [fieldCodes, hmentions]
    · next hmentions =>
      rw [hrest]
      simp [fieldCodes, hmentions]

/-- A block whose template mentions only fields spells the name that it is filled to. -/
lemma Spells.ofFields {name template : String}
    (hd : g.vocabulary.definitionOf? g.workspace id = some d) (hcode : d.code = some template)
    (hkind : d.kind = .value) (horder : d.order = .atomic)
    (hfields : ∀ a ∈ d.args, Template.mentions template a.name = true →
      ∀ block, g.fragment block id a = pure (g.fieldCode id a))
    (htext : Template.expand template (Table.ofList (g.fieldCodes id template d.args)).get? = name)
    (hname : IsName name) : g.Spells id (.var name) := by
  refine .name hname fun block => ?_
  obtain ⟨type, library, imports, htype, hget⟩ := Vocabulary.declared_of_definitionOf? hd
  have hfragments := fragments_of_fields fun a ha hmentions => hfields a ha hmentions block
  simp only [codeOf, htype, hget, hcode, template_eq, hfragments, pure_bind, htext, finish,
    hkind, horder]

end Generator

/-- Blocks that spell an expression give a text that can be read. It has the value of
the expression for all values of the names, unless a product divides: of such a
product only the first factor divides. Then the values differ for some values of the
names, if no name occurs twice. -/
theorem arithmetic_text_value (s : Session) (w : Workspace) (id : BlockId) (t : Expression)
    (h : (s.generator w).Spells id t) :
    ∃ text e, s.generate w id = .ok (.value text t.precedence) ∧
      Expression.read text = some e ∧
      (∀ σ, e.eval σ = t.heard.eval σ) ∧
      (¬ t.DividesByProduct → ∀ σ, e.eval σ = t.eval σ) ∧
      (t.DividesByProduct → t.names.Nodup →
        ∃ σ p q, t.eval σ = some p ∧ e.eval σ = some q ∧ p ≠ q) := by
  obtain ⟨code, hrun, rfl⟩ := Generator.block_spells h
  obtain ⟨e, hread, hsame⟩ := Expression.read_text h.isName
  refine ⟨t.text, e, ?_, hread, hsame, fun hproduct σ => ?_, fun hproduct hnodup => ?_⟩
  · rw [Session.generate, hrun]
  · rw [hsame σ, Expression.heard_eq_self hproduct]
  · obtain ⟨σ, p, q, hshows, hne, -, -⟩ := Expression.exists_apart hnodup hproduct
    exact ⟨σ, p, q, hshows.value, (hsame σ).trans hshows.heard, hne⟩

/-! ### Two small expressions -/

/-- The definition of a block for an operator. -/
def Operator.definition (op : Operator) (type : String) : Definition where
  type := type
  args := [⟨"A", .value none op.precedence⟩, ⟨"B", .value none op.precedence⟩]
  code := some op.template
  output := some ⟨none⟩
  order := op.precedence

lemma Operator.isOperator_definition (op : Operator) (type : String) :
    (op.definition type).IsOperator op where
  code := rfl
  kind := rfl
  order := rfl
  operands := by simp [definition]
  left := ⟨⟨"A", .value none op.precedence⟩, by simp [definition], rfl⟩
  right := ⟨⟨"B", .value none op.precedence⟩, by simp [definition], rfl⟩

def variableDefinition : Definition where
  type := "var"
  args := [⟨"NAME", .text ""⟩]
  code := some "$[NAME]"
  output := some ⟨none⟩

def arithmeticSession : Session :=
  { Session.new {} {} with
    vocabulary := { types := .ofList [
      ("mul", .declared "math" [] (Operator.mul.definition "mul")),
      ("div", .declared "math" [] (Operator.div.definition "div")),
      ("sub", .declared "math" [] (Operator.sub.definition "sub")),
      ("var", .declared "math" [] variableDefinition)] } }

/-- A quotient `a / (b * c)` and a difference `d - (e - f)`. -/
def arithmeticWorkspace : Workspace where
  blocks := .ofList [
    ("q", { type := "div", inputs := .ofList [("A", "va"), ("B", "p")] }),
    ("p", { type := "mul", inputs := .ofList [("A", "vb"), ("B", "vc")], parent := some "q" }),
    ("va", { type := "var", fields := .ofList [("NAME", "a")], parent := some "q" }),
    ("vb", { type := "var", fields := .ofList [("NAME", "b")], parent := some "p" }),
    ("vc", { type := "var", fields := .ofList [("NAME", "c")], parent := some "p" }),
    ("s", { type := "sub", inputs := .ofList [("A", "vd"), ("B", "t")] }),
    ("t", { type := "sub", inputs := .ofList [("A", "ve"), ("B", "vf")], parent := some "s" }),
    ("vd", { type := "var", fields := .ofList [("NAME", "d")], parent := some "s" }),
    ("ve", { type := "var", fields := .ofList [("NAME", "e")], parent := some "t" }),
    ("vf", { type := "var", fields := .ofList [("NAME", "f")], parent := some "t" })]

namespace Expression

def quotientOfProduct : Expression :=
  .binary .div (.var "a") (.binary .mul (.var "b") (.var "c"))

def nestedDifference : Expression :=
  .binary .sub (.var "d") (.binary .sub (.var "e") (.var "f"))

end Expression

lemma spells_variable (id : BlockId) (name : String)
    (hd : arithmeticSession.vocabulary.definitionOf? arithmeticWorkspace id =
      some variableDefinition)
    (htext : Template.expand "$[NAME]" (Table.ofList
      ((arithmeticSession.generator arithmeticWorkspace).fieldCodes id "$[NAME]"
        variableDefinition.args)).get? = name)
    (hname : Expression.IsName name) :
    (arithmeticSession.generator arithmeticWorkspace).Spells id (.var name) := by
  refine .ofFields hd rfl rfl rfl (fun a ha _ block => ?_) htext hname
  obtain rfl := List.mem_singleton.mp ha
  rfl

lemma spells_quotientOfProduct : (arithmeticSession.generator arithmeticWorkspace).Spells "q"
    Expression.quotientOfProduct := by
  have ha := spells_variable "va" "a" rfl (by decide +kernel) (by decide +kernel)
  have hb := spells_variable "vb" "b" rfl (by decide +kernel) (by decide +kernel)
  have hc := spells_variable "vc" "c" rfl (by decide +kernel) (by decide +kernel)
  have hp : (arithmeticSession.generator arithmeticWorkspace).Spells "p"
      (.binary .mul (.var "b") (.var "c")) :=
    .apply rfl (Operator.mul.isOperator_definition "mul") rfl rfl rfl rfl hb hc
  exact .apply rfl (Operator.div.isOperator_definition "div") rfl rfl rfl rfl ha hp

lemma spells_nestedDifference : (arithmeticSession.generator arithmeticWorkspace).Spells "s"
    Expression.nestedDifference := by
  have hd := spells_variable "vd" "d" rfl (by decide +kernel) (by decide +kernel)
  have he := spells_variable "ve" "e" rfl (by decide +kernel) (by decide +kernel)
  have hf := spells_variable "vf" "f" rfl (by decide +kernel) (by decide +kernel)
  have ht : (arithmeticSession.generator arithmeticWorkspace).Spells "t"
      (.binary .sub (.var "e") (.var "f")) :=
    .apply rfl (Operator.sub.isOperator_definition "sub") rfl rfl rfl rfl he hf
  exact .apply rfl (Operator.sub.isOperator_definition "sub") rfl rfl rfl rfl hd ht

/-- The difference is read back as it is, and the quotient is not. -/
theorem arithmeticWorkspace_values :
    (arithmeticSession.generator arithmeticWorkspace).Spells "s" Expression.nestedDifference ∧
      (arithmeticSession.generator arithmeticWorkspace).Spells "q" Expression.quotientOfProduct ∧
      (∃ text e, arithmeticSession.generate arithmeticWorkspace "s" =
          .ok (.value text .subtraction) ∧ Expression.read text = some e ∧
        ∀ σ, e.eval σ = Expression.nestedDifference.eval σ) ∧
      ∃ text e, arithmeticSession.generate arithmeticWorkspace "q" =
          .ok (.value text .division) ∧ Expression.read text = some e ∧
        ∃ σ p q, Expression.quotientOfProduct.eval σ = some p ∧ e.eval σ = some q ∧ p ≠ q := by
  have hs := spells_nestedDifference
  have hq := spells_quotientOfProduct
  obtain ⟨text, e, hrun, hread, -, hsame, -⟩ := arithmetic_text_value _ _ _ _ hs
  obtain ⟨text', e', hrun', hread', -, -, hdiffer⟩ := arithmetic_text_value _ _ _ _ hq
  have hproduct : ¬ Expression.nestedDifference.DividesByProduct := by
    simp [Expression.nestedDifference, Expression.DividesByProduct]
  have hproduct' : Expression.quotientOfProduct.DividesByProduct := .inl ⟨rfl, rfl⟩
  exact ⟨hs, hq, ⟨text, e, hrun, hread, hsame hproduct⟩,
    text', e', hrun', hread', hdiffer hproduct' (by decide)⟩

/-- One divided by the product of one and two is read as two. -/
theorem quotientOfProduct_misread :
    ∃ σ : String → ℚ,
      arithmeticSession.generate arithmeticWorkspace "q" = .ok (.value "a / b * c" .division) ∧
      (Expression.read "a / b * c").bind (Expression.eval σ) = some 2 ∧
      Expression.quotientOfProduct.eval σ = some (1 / 2) := by
  have htext : Expression.quotientOfProduct.text = "a / b * c" := by decide +kernel
  obtain ⟨code, hrun, rfl⟩ := Generator.block_spells spells_quotientOfProduct
  refine ⟨fun name => if name = "c" then 2 else 1, ?_, ?_, ?_⟩
  · rw [Session.generate, hrun, htext]
    rfl
  · have hread : Expression.read "a / b * c" = some (.binary .mul
        (.binary .div (.var "a") (.var "b")) (.var "c")) := by decide +kernel
    rw [hread]
    simp [Expression.eval, Operator.apply]
  · simp [Expression.quotientOfProduct, Expression.eval, Operator.apply]

end BlockProgram
