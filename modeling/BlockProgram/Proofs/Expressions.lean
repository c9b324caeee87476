import BlockProgram.Precedence
import BlockProgram.Text.Blank
import Mathlib.Tactic

/-!
# Arithmetic expressions as text

Expressions over the four operators are printed with the parentheses that the
precedence table asks for, and read as JavaScript reads them: parentheses first,
then products and quotients, then sums and differences, each level from left to
right. What is read back from the printed text differs from the expression in one
place only: a product that divides is not put in parentheses, so that its first
factor alone divides.
-/
namespace BlockProgram

inductive Operator where
  | mul
  | div
  | add
  | sub
  deriving DecidableEq, Repr

namespace Operator

def symbol : Operator → Char
  | mul => '*'
  | div => '/'
  | add => '+'
  | sub => '-'

def precedence : Operator → Precedence
  | mul => .multiplication
  | div => .division
  | add => .addition
  | sub => .subtraction

/-- The operator belongs to the level that binds tighter. -/
def isTight : Operator → Bool
  | mul => true
  | div => true
  | add => false
  | sub => false

/-- The value of an operation; there is none for a division by zero. -/
def apply : Operator → ℚ → ℚ → Option ℚ
  | mul, x, y => some (x * y)
  | div, x, y => if y = 0 then none else some (x / y)
  | add, x, y => some (x + y)
  | sub, x, y => some (x - y)

end Operator

inductive Expression where
  | var (name : String)
  | binary (op : Operator) (left right : Expression)
  deriving DecidableEq, Repr

namespace Expression

/-- The value under an assignment, unless a division by zero occurs. -/
def eval (σ : String → ℚ) : Expression → Option ℚ
  | var name => some (σ name)
  | binary op l r => (l.eval σ).bind fun x => (r.eval σ).bind (op.apply x)

def precedence : Expression → Precedence
  | var _ => .atomic
  | binary op _ _ => op.precedence

def text : Expression → String
  | var name => name
  | binary op l r =>
    op.precedence.wrap l.text l.precedence ++ String.ofList [' ', op.symbol, ' '] ++
      op.precedence.wrap r.text r.precedence

def names : Expression → List String
  | var name => [name]
  | binary _ l r => l.names ++ r.names

/-- No sum and no difference, unless in parentheses. -/
def isTight : Expression → Bool
  | var _ => true
  | binary op _ _ => op.isTight

/-! ### Words and signs -/

inductive Token where
  | name (text : String)
  | operator (op : Operator)
  | opening
  | closing
  deriving DecidableEq, Repr

/-- Characters of names: all but blanks, parentheses and the signs of operators. -/
def isWordChar (c : Char) : Bool :=
  !Text.isBlank c && c ∉ ['(', ')', '*', '/', '+', '-']

def wordToken (word : List Char) : List Token :=
  if word.isEmpty then [] else [.name (String.ofList word)]

/-- The token of a character that is in no name; a blank is none. -/
def signToken : Char → List Token
  | '(' => [.opening]
  | ')' => [.closing]
  | '*' => [.operator .mul]
  | '/' => [.operator .div]
  | '+' => [.operator .add]
  | '-' => [.operator .sub]
  | _ => []

/-- The tokens of a text, after the word read so far. -/
def scan : List Char → List Char → List Token
  | word, [] => wordToken word
  | word, c :: cs =>
    if isWordChar c then scan (word ++ [c]) cs else wordToken word ++ signToken c ++ scan [] cs

/-! ### Reading -/

/-- What an operand is joined to: an expression and the operator after it. -/
abbrev Pending := Option (Expression × Operator)

def Pending.attach : Pending → Expression → Expression
  | none, e => e
  | some (acc, op), e => .binary op acc e

/-- One level of parentheses: the sum to the left of the current term, and the
product to the left of the current factor. -/
structure Level where
  sum : Pending := none
  product : Pending := none

inductive Reading where
  /-- An operand comes next. -/
  | before (level : Level) (outer : List Level)
  /-- The current term ends with the product, or goes on. -/
  | after (sum : Pending) (product : Expression) (outer : List Level)

def step : Reading → Token → Option Reading
  | .before level outer, .name s =>
    some (.after level.sum (level.product.attach (.var s)) outer)
  | .before level outer, .opening => some (.before {} (level :: outer))
  | .after sum product outer, .operator op =>
    if op.isTight then some (.before ⟨sum, some (product, op)⟩ outer)
    else some (.before ⟨some (sum.attach product, op), none⟩ outer)
  | .after sum product (level :: outer), .closing =>
    some (.after level.sum (level.product.attach (sum.attach product)) outer)
  | _, _ => none

def Reading.result? : Reading → Option Expression
  | .after sum product [] => some (sum.attach product)
  | _ => none

/-- The expression that a text is read as, if it is one. -/
def read (text : String) : Option Expression :=
  ((scan [] text.toList).foldlM step (.before {} [])).bind Reading.result?

/-! ### Hearing -/

/-- Puts a dividend over an expression in parentheses. -/
def put : Option Expression → Expression → Expression
  | none, e => e
  | some x, e => .binary .div x e

/-- The expression that the text of an expression means after a dividend and a
division sign: of a product only the first factor divides. -/
def hear : Option Expression → Expression → Expression
  | x, var name => put x (var name)
  | x, binary .mul l r => binary .mul (hear x l) (hear none r)
  | x, binary .div l r => put x (hear (some (hear none l)) r)
  | x, binary .add l r => put x (binary .add (hear none l) (hear none r))
  | x, binary .sub l r => put x (binary .sub (hear none l) (hear none r))

/-- The expression that the text of an expression means. -/
def heard (t : Expression) : Expression := hear none t

/-- Somewhere a product divides. -/
def DividesByProduct : Expression → Prop
  | var _ => False
  | binary op l r =>
    (op = .div ∧ r.precedence = .multiplication) ∨ l.DividesByProduct ∨ r.DividesByProduct

/-! ### The printed text has the tokens of the expression -/

def IsName (name : String) : Prop := name ≠ "" ∧ ∀ c ∈ name.toList, isWordChar c = true

instance (name : String) : Decidable (IsName name) :=
  decidable_of_iff (name ≠ "" ∧ name.toList.all isWordChar = true)
    (and_congr_right fun _ => List.all_eq_true)

def braced (outer inner : Precedence) (tokens : List Token) : List Token :=
  if outer.needsParens inner then .opening :: (tokens ++ [.closing]) else tokens

def tokens : Expression → List Token
  | var name => [.name name]
  | binary op l r =>
    braced op.precedence l.precedence l.tokens ++
      .operator op :: braced op.precedence r.precedence r.tokens

/-- A text at which the word before it ends. -/
def Breaks (rest : List Char) : Prop := ∀ c ∈ rest.head?, isWordChar c = false

lemma scan_word {w : List Char} (hw : ∀ c ∈ w, isWordChar c = true) (word rest : List Char) :
    scan word (w ++ rest) = scan (word ++ w) rest := by
  induction w generalizing word with
  | nil => simp
  | cons c cs ih =>
    have hc := hw c (by simp)
    rw [List.cons_append, scan, if_pos hc, ih fun d hd => hw d (List.mem_cons_of_mem _ hd)]
    simp

lemma scan_sign {c : Char} (hc : isWordChar c = false) (word rest : List Char) :
    scan word (c :: rest) = wordToken word ++ signToken c ++ scan [] rest := by
  rw [scan, if_neg (by simp [hc])]

lemma scan_of_breaks {rest : List Char} (h : Breaks rest) (word : List Char) :
    scan word rest = wordToken word ++ scan [] rest := by
  cases rest with
  | nil => simp [scan, wordToken]
  | cons c cs =>
    have hc := h c (by simp)
    rw [scan_sign hc, scan_sign hc]
    simp [wordToken]

lemma scan_name {name : String} (h : IsName name) {rest : List Char} (hrest : Breaks rest) :
    scan [] (name.toList ++ rest) = .name name :: scan [] rest := by
  rw [scan_word h.2, scan_of_breaks hrest]
  simp [wordToken, h.1]

lemma scan_wrap {outer inner : Precedence} {text : String} {tokens : List Token}
    (h : ∀ rest, Breaks rest → scan [] (text.toList ++ rest) = tokens ++ scan [] rest)
    {rest : List Char} (hrest : Breaks rest) :
    scan [] ((outer.wrap text inner).toList ++ rest) =
      braced outer inner tokens ++ scan [] rest := by
  unfold Precedence.wrap braced
  split
  · have hclosing : Breaks (')' :: rest) := by simp [Breaks, isWordChar]
    have hsplit : ("(" ++ text ++ ")").toList ++ rest = '(' :: (text.toList ++ ')' :: rest) := by
      simp
    rw [hsplit, scan_sign (by decide), h _ hclosing, scan_sign (by decide)]
    simp [wordToken, signToken]
  · exact h rest hrest

lemma scan_operator (op : Operator) (rest : List Char) :
    scan [] ([' ', op.symbol, ' '] ++ rest) = .operator op :: scan [] rest := by
  have hblank : isWordChar ' ' = false := by decide
  have hsymbol : isWordChar op.symbol = false := by cases op <;> decide
  have htoken : signToken op.symbol = [.operator op] := by cases op <;> rfl
  simp only [List.cons_append, List.nil_append]
  rw [scan_sign hblank, scan_sign hsymbol, scan_sign hblank, htoken]
  rfl

lemma scan_text {t : Expression} (hnames : ∀ name ∈ t.names, IsName name) (rest : List Char)
    (hrest : Breaks rest) : scan [] (t.text.toList ++ rest) = t.tokens ++ scan [] rest := by
  induction t generalizing rest with
  | var name => exact scan_name (hnames name (by simp [names])) hrest
  | binary op l r ihl ihr =>
    have hl : ∀ name ∈ l.names, IsName name := fun n hn => hnames n (by simp [names, hn])
    have hr : ∀ name ∈ r.names, IsName name := fun n hn => hnames n (by simp [names, hn])
    have hblank (after : List Char) : Breaks ([' ', op.symbol, ' '] ++ after) := by
      simp [Breaks, isWordChar, Text.isBlank]
    simp only [text, tokens, String.toList_append, String.toList_ofList, List.append_assoc]
    rw [scan_wrap (ihl hl) (hblank _), scan_operator,
      scan_wrap (ihr hr) hrest]
    simp

/-! ### Expressions of the same value -/

def Same (d e : Expression) : Prop := ∀ σ, d.eval σ = e.eval σ

namespace Same

variable {d e f : Expression}

lemma refl (e : Expression) : Same e e := fun _ => rfl

lemma trans (hde : Same d e) (hef : Same e f) : Same d f := fun σ => (hde σ).trans (hef σ)

lemma binary (op : Operator) {l l' r r' : Expression} (hl : Same l l') (hr : Same r r') :
    Same (.binary op l r) (.binary op l' r') := fun σ => by simp only [eval, hl σ, hr σ]

lemma attach (pending : Pending) (h : Same d e) :
    Same (pending.attach d) (pending.attach e) := by
  cases pending with
  | none => exact h
  | some p => exact binary p.2 (refl _) h

/-- Equal dividends stay equal over what divides them. -/
lemma hear (h : Same d e) (t : Expression) : Same (t.hear (some d)) (t.hear (some e)) := by
  induction t generalizing d e with
  | var name => exact binary .div h (refl _)
  | binary op l r ihl ihr =>
    cases op with
    | mul => exact binary .mul (ihl h) (refl _)
    | div => exact binary .div h (refl _)
    | add => exact binary .div h (refl _)
    | sub => exact binary .div h (refl _)

lemma mul_assoc (x y z : Expression) :
    Same (.binary .mul (.binary .mul x y) z) (.binary .mul x (.binary .mul y z)) := fun σ => by
  cases hx : x.eval σ <;> cases hy : y.eval σ <;> cases hz : z.eval σ <;>
    simp [eval, hx, hy, hz, Operator.apply, Rat.mul_assoc]

lemma add_assoc {op : Operator} (hop : op.isTight = false) (x y z : Expression) :
    Same (.binary op (.binary .add x y) z) (.binary .add x (.binary op y z)) := fun σ => by
  cases op with
  | mul => cases hop
  | div => cases hop
  | add =>
    cases hx : x.eval σ <;> cases hy : y.eval σ <;> cases hz : z.eval σ <;>
      simp [eval, hx, hy, hz, Operator.apply, Rat.add_assoc]
  | sub =>
    cases hx : x.eval σ <;> cases hy : y.eval σ <;> cases hz : z.eval σ <;>
      simp [eval, hx, hy, hz, Operator.apply, add_sub_assoc]

end Same

/-! ### What is read -/

def advance (s : Reading) (tokens : List Token) : Option Reading := tokens.foldlM step s

lemma advance_append (s : Reading) (ts us : List Token) :
    advance s (ts ++ us) = (advance s ts).bind (advance · us) :=
  List.foldlM_append

lemma advance_cons (s : Reading) (t : Token) (ts : List Token) :
    advance s (t :: ts) = (step s t).bind (advance · ts) := rfl

/-- A product or quotient, joined to the factors before it. -/
def Pending.join : Pending → Expression → Expression
  | some (x, .div), t => t.hear (some x)
  | p, t => p.attach (t.hear none)

/-- The expression is read as a factor of the term at hand. A quotient is not, as
the factors before it would be divided too. -/
def ReadsFactor (t : Expression) : Prop :=
  ∀ (sum product : Pending) (outer : List Level), t.isTight = true →
    (∀ p ∈ product, p.2.isTight = true ∧ t.precedence ≠ .division) →
    ∃ e, advance (.before ⟨sum, product⟩ outer) t.tokens = some (.after sum e outer) ∧
      Same e (product.join t)

/-- The expression is read as a part of the sum at hand. A sum is not after a minus
sign. -/
def ReadsTerm (t : Expression) : Prop :=
  ∀ (sum : Pending) (outer : List Level), (∀ p ∈ sum, p.2 = .add ∨ t.isTight = true) →
    ∃ sum' e, advance (.before ⟨sum, none⟩ outer) t.tokens = some (.after sum' e outer) ∧
      Same (sum'.attach e) (sum.attach t.heard)

lemma ReadsFactor.readsTerm {t : Expression} (h : ReadsFactor t) (ht : t.isTight = true) :
    ReadsTerm t := by
  intro sum outer _
  obtain ⟨e, hread, hsame⟩ := h sum none outer ht (by simp)
  exact ⟨sum, e, hread, .attach sum hsame⟩

/-- In parentheses a whole expression is one operand. -/
lemma ReadsTerm.inParens {t : Expression} (h : ReadsTerm t) (sum product : Pending)
    (outer : List Level) :
    ∃ e, advance (.before ⟨sum, product⟩ outer) (.opening :: (t.tokens ++ [.closing])) =
        some (.after sum (product.attach e) outer) ∧ Same e t.heard := by
  obtain ⟨sum', e, hread, hsame⟩ := h none (⟨sum, product⟩ :: outer) (by simp)
  refine ⟨sum'.attach e, ?_, hsame⟩
  have hopen : advance (.before ⟨sum, product⟩ outer) (.opening :: (t.tokens ++ [.closing])) =
      advance (.before {} (⟨sum, product⟩ :: outer)) (t.tokens ++ [.closing]) := rfl
  rw [hopen, advance_append, hread]
  rfl

lemma hear_some_of_ne_multiplication {t : Expression} (ht : t.precedence ≠ .multiplication)
    (x : Expression) : t.hear (some x) = binary .div x t.heard := by
  cases t with
  | var name => rfl
  | binary op l r =>
    cases op with
    | mul => exact absurd rfl ht
    | div => rfl
    | add => rfl
    | sub => rfl

/-- Only a product that divides is heard in another way. -/
lemma heard_binary {op : Operator} {l r : Expression}
    (h : op = .div → r.precedence ≠ .multiplication) :
    (binary op l r).heard = binary op l.heard r.heard := by
  cases op with
  | mul => rfl
  | div => exact hear_some_of_ne_multiplication (h rfl) l.heard
  | add => rfl
  | sub => rfl

lemma join_of_ne_multiplication {t : Expression} (ht : t.precedence ≠ .multiplication)
    (product : Pending) : product.join t = product.attach t.heard := by
  match product with
  | none => rfl
  | some (x, .mul) => rfl
  | some (x, .add) => rfl
  | some (x, .sub) => rfl
  | some (x, .div) => exact hear_some_of_ne_multiplication ht x

/-- The operands that stand without parentheses in a product or a quotient. -/
lemma tight_of_bare {op : Operator} (hop : op.isTight = true) {t : Expression}
    (h : op.precedence.needsParens t.precedence = false) :
    t.isTight = true ∧ t.precedence ≠ .division := by
  cases t with
  | var name => exact ⟨rfl, by simp [precedence]⟩
  | binary op' l r =>
    revert hop h
    cases op <;> cases op' <;> simp only [precedence, isTight] <;> decide

lemma ne_multiplication_of_braced {op : Operator} (hop : op.isTight = true) {t : Expression}
    (h : op.precedence.needsParens t.precedence = true) : t.precedence ≠ .multiplication := by
  intro heq
  rw [heq] at h
  revert hop h
  cases op <;> decide

lemma tight_of_bare_sub {t : Expression}
    (h : Operator.sub.precedence.needsParens t.precedence = false) : t.isTight = true := by
  cases t with
  | var name => rfl
  | binary op' l r =>
    revert h
    cases op' <;> simp only [precedence, isTight] <;> decide

/-- An operand of a product or a quotient is read as a factor. -/
lemma reads_factor_operand (op : Operator) (hop : op.isTight = true) {t : Expression}
    (hfactor : ReadsFactor t) (hterm : ReadsTerm t) (sum product : Pending) (outer : List Level)
    (hproduct : ∀ p ∈ product, p.2.isTight = true) :
    ∃ e, advance (.before ⟨sum, product⟩ outer)
        (braced op.precedence t.precedence t.tokens) = some (.after sum e outer) ∧
      Same e (product.join t) := by
  unfold braced
  split
  · next hparens =>
    obtain ⟨e, hread, hsame⟩ := hterm.inParens sum product outer
    refine ⟨product.attach e, hread, ?_⟩
    rw [join_of_ne_multiplication (ne_multiplication_of_braced hop hparens)]
    exact .attach product hsame
  · next hbare =>
    obtain ⟨htight, hdiv⟩ := tight_of_bare hop (by simpa using hbare)
    exact hfactor sum product outer htight fun p hp => ⟨hproduct p hp, hdiv⟩

/-- An operand of a sum or a difference is read as a part of the sum. -/
lemma reads_term_operand (op : Operator) {t : Expression} (hterm : ReadsTerm t) (sum : Pending)
    (outer : List Level) (hsum : ∀ p ∈ sum, p.2 = .add ∨ op = .sub) :
    ∃ sum' e, advance (.before ⟨sum, none⟩ outer)
        (braced op.precedence t.precedence t.tokens) = some (.after sum' e outer) ∧
      Same (sum'.attach e) (sum.attach t.heard) := by
  unfold braced
  split
  · obtain ⟨e, hread, hsame⟩ := hterm.inParens sum none outer
    exact ⟨sum, e, hread, .attach sum hsame⟩
  · next hbare =>
    refine hterm sum outer fun p hp => (hsum p hp).imp_right ?_
    rintro rfl
    exact tight_of_bare_sub (by simpa using hbare)

lemma reads_var (name : String) : ReadsFactor (var name) := by
  intro sum product outer _ _
  refine ⟨product.attach (var name), rfl, ?_⟩
  rw [join_of_ne_multiplication (by simp [precedence])]
  exact .refl _

lemma advance_binary_tight {op : Operator} (hop : op.isTight = true) {l r x : Expression}
    {sum product : Pending} {outer : List Level}
    (hl : advance (.before ⟨sum, product⟩ outer)
      (braced op.precedence l.precedence l.tokens) = some (.after sum x outer)) :
    advance (.before ⟨sum, product⟩ outer) (binary op l r).tokens =
      advance (.before ⟨sum, some (x, op)⟩ outer)
        (braced op.precedence r.precedence r.tokens) := by
  rw [tokens, advance_append, hl, Option.bind_some, advance_cons]
  simp [step, hop]

lemma advance_binary_loose {op : Operator} (hop : op.isTight = false) {l r x : Expression}
    {sum sum' : Pending} {outer : List Level}
    (hl : advance (.before ⟨sum, none⟩ outer)
      (braced op.precedence l.precedence l.tokens) = some (.after sum' x outer)) :
    advance (.before ⟨sum, none⟩ outer) (binary op l r).tokens =
      advance (.before ⟨some (sum'.attach x, op), none⟩ outer)
        (braced op.precedence r.precedence r.tokens) := by
  rw [tokens, advance_append, hl, Option.bind_some, advance_cons]
  simp [step, hop]

/-- Products may be regrouped, so the second factor joins the product so far. -/
lemma reads_mul {l r : Expression} (hl : ReadsFactor l ∧ ReadsTerm l)
    (hr : ReadsFactor r ∧ ReadsTerm r) : ReadsFactor (binary .mul l r) := by
  intro sum product outer _ hproduct
  obtain ⟨x, hxread, hx⟩ := reads_factor_operand .mul rfl hl.1 hl.2 sum product outer
    fun p hp => (hproduct p hp).1
  obtain ⟨y, hyread, hy⟩ := reads_factor_operand .mul rfl hr.1 hr.2 sum (some (x, .mul))
    outer (by simp [Operator.isTight])
  refine ⟨y, (advance_binary_tight rfl hxread).trans hyread, hy.trans ?_⟩
  have hxy : Same (binary .mul x r.heard) (binary .mul (product.join l) r.heard) :=
    .binary .mul hx (.refl _)
  refine hxy.trans ?_
  match product, hproduct with
  | none, _ => exact .refl _
  | some (z, .div), _ => exact .refl _
  | some (z, .mul), _ => exact .mul_assoc z l.heard r.heard
  | some (z, .add), h => exact absurd (h _ rfl).1 (by simp [Operator.isTight])
  | some (z, .sub), h => exact absurd (h _ rfl).1 (by simp [Operator.isTight])

lemma reads_div {l r : Expression} (hl : ReadsFactor l ∧ ReadsTerm l)
    (hr : ReadsFactor r ∧ ReadsTerm r) : ReadsFactor (binary .div l r) := by
  intro sum product outer _ hproduct
  cases product with
  | some p => exact absurd rfl (hproduct p rfl).2
  | none =>
    obtain ⟨x, hxread, hx⟩ := reads_factor_operand .div rfl hl.1 hl.2 sum none outer
      (by simp)
    obtain ⟨y, hyread, hy⟩ := reads_factor_operand .div rfl hr.1 hr.2 sum
      (some (x, .div)) outer (by simp [Operator.isTight])
    exact ⟨y, (advance_binary_tight rfl hxread).trans hyread, hy.trans (.hear hx r)⟩

lemma reads_loose {op : Operator} (hop : op.isTight = false) {l r : Expression}
    (hl : ReadsTerm l) (hr : ReadsTerm r) : ReadsTerm (binary op l r) := by
  intro sum outer hsum
  have hadd : ∀ p ∈ sum, p.2 = .add := fun p hp =>
    (hsum p hp).resolve_right (by simp [isTight, hop])
  obtain ⟨sum', x, hxread, hx⟩ := reads_term_operand op hl sum outer
    fun p hp => .inl (hadd p hp)
  obtain ⟨sum'', y, hyread, hy⟩ := reads_term_operand op hr
    (some (sum'.attach x, op)) outer (by cases op <;> simp_all [Operator.isTight])
  refine ⟨sum'', y, (advance_binary_loose hop hxread).trans hyread, hy.trans ?_⟩
  have hxy : Same (binary op (sum'.attach x) r.heard) (binary op (sum.attach l.heard) r.heard) :=
    .binary op hx (.refl _)
  have hdiv : op ≠ .div := by
    rintro rfl
    cases hop
  rw [heard_binary fun heq => absurd heq hdiv]
  refine hxy.trans ?_
  match sum, hadd with
  | none, _ => exact .refl _
  | some (z, op'), h =>
    obtain rfl : op' = .add := h _ rfl
    exact .add_assoc hop z l.heard r.heard

lemma reads (t : Expression) : ReadsFactor t ∧ ReadsTerm t := by
  induction t with
  | var name => exact ⟨reads_var name, (reads_var name).readsTerm rfl⟩
  | binary op l r hl hr =>
    have hloose (hop : op.isTight = false) : ReadsFactor (binary op l r) :=
      fun _ _ _ htight => absurd htight (by simp [isTight, hop])
    cases op with
    | mul => exact ⟨reads_mul hl hr, (reads_mul hl hr).readsTerm rfl⟩
    | div => exact ⟨reads_div hl hr, (reads_div hl hr).readsTerm rfl⟩
    | add => exact ⟨hloose rfl, reads_loose rfl hl.2 hr.2⟩
    | sub => exact ⟨hloose rfl, reads_loose rfl hl.2 hr.2⟩

/-- The text of an expression can be read, and means what is heard. -/
theorem read_text {t : Expression} (hnames : ∀ name ∈ t.names, IsName name) :
    ∃ e, read t.text = some e ∧ Same e t.heard := by
  obtain ⟨sum, e, hread, hsame⟩ := (reads t).2 none [] (by simp)
  have hscan : scan [] t.text.toList = t.tokens := by
    simpa [scan, wordToken] using scan_text hnames [] (by simp [Breaks])
  refine ⟨sum.attach e, ?_, hsame⟩
  unfold read
  rw [hscan]
  exact congrArg (Option.bind · Reading.result?) hread

example : read "a - b - c * (d + e)" =
    some (.binary .sub (.binary .sub (.var "a") (.var "b"))
      (.binary .mul (.var "c") (.binary .add (.var "d") (.var "e")))) := by
  decide +kernel

end Expression

end BlockProgram
