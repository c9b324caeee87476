/-!
# Operator precedence

Every expression has a class; a smaller rank binds tighter. An operand is put in
parentheses unless it is atomic, stands outermost, binds tighter than its
context, or is joined to the context by an operator for which grouping makes no
difference.
-/
namespace BlockProgram

inductive Precedence where
  | atomic
  | new
  | member
  | functionCall
  | increment
  | decrement
  | bitwiseNot
  | unaryPlus
  | unaryNegation
  | logicalNot
  | typeof
  | void
  | delete
  | await
  | exponentiation
  | multiplication
  | division
  | modulus
  | subtraction
  | addition
  | bitwiseShift
  | relational
  | membership
  | instanceof
  | equality
  | bitwiseAnd
  | bitwiseXor
  | bitwiseOr
  | logicalAnd
  | logicalOr
  | conditional
  | assignment
  | yield
  | comma
  | outermost
  deriving DecidableEq, Repr, Inhabited

namespace Precedence

def rank : Precedence → Nat
  | atomic => 0
  | new => 11
  | member => 12
  | functionCall => 20
  | increment => 30
  | decrement => 30
  | bitwiseNot => 41
  | unaryPlus => 42
  | unaryNegation => 43
  | logicalNot => 44
  | typeof => 45
  | void => 46
  | delete => 47
  | await => 48
  | exponentiation => 50
  | multiplication => 51
  | division => 52
  | modulus => 53
  | subtraction => 61
  | addition => 62
  | bitwiseShift => 70
  | relational => 80
  | membership => 80
  | instanceof => 80
  | equality => 90
  | bitwiseAnd => 100
  | bitwiseXor => 110
  | bitwiseOr => 120
  | logicalAnd => 130
  | logicalOr => 140
  | conditional => 150
  | assignment => 160
  | yield => 170
  | comma => 180
  | outermost => 990

/-- The name of a class in documents. -/
def name : Precedence → String
  | atomic => "atomic"
  | new => "new"
  | member => "member"
  | functionCall => "function_call"
  | increment => "increment"
  | decrement => "decrement"
  | bitwiseNot => "bitwise_not"
  | unaryPlus => "unary_plus"
  | unaryNegation => "unary_negation"
  | logicalNot => "logical_not"
  | typeof => "typeof"
  | void => "void"
  | delete => "delete"
  | await => "await"
  | exponentiation => "exponentiation"
  | multiplication => "multiplication"
  | division => "division"
  | modulus => "modulus"
  | subtraction => "subtraction"
  | addition => "addition"
  | bitwiseShift => "bitwise_shift"
  | relational => "relational"
  | membership => "in"
  | instanceof => "instanceof"
  | equality => "equality"
  | bitwiseAnd => "bitwise_and"
  | bitwiseXor => "bitwise_xor"
  | bitwiseOr => "bitwise_or"
  | logicalAnd => "logical_and"
  | logicalOr => "logical_or"
  | conditional => "conditional"
  | assignment => "assignment"
  | yield => "yield"
  | comma => "comma"
  | outermost => "none"

def all : List Precedence :=
  [atomic, new, member, functionCall, increment, decrement, bitwiseNot, unaryPlus,
   unaryNegation, logicalNot, typeof, void, delete, await, exponentiation, multiplication,
   division, modulus, subtraction, addition, bitwiseShift, relational, membership,
   instanceof, equality, bitwiseAnd, bitwiseXor, bitwiseOr, logicalAnd, logicalOr,
   conditional, assignment, yield, comma, outermost]

def ofName? (text : String) : Option Precedence := all.find? (·.name == text)

@[simp] theorem ofName?_name (p : Precedence) : ofName? p.name = some p := by
  cases p <;> decide

/-- The pairs of a context and an operand of no tighter rank that read the same
without parentheses: chains of calls and member accesses, repeated negation, and
the associative operators. -/
def associates : Precedence → Precedence → Bool
  | functionCall, member => true
  | functionCall, functionCall => true
  | member, member => true
  | member, functionCall => true
  | logicalNot, logicalNot => true
  | multiplication, multiplication => true
  | addition, addition => true
  | logicalAnd, logicalAnd => true
  | logicalOr, logicalOr => true
  | _, _ => false

/-- An operand of class `inner` in a context of class `outer` has to be put in
parentheses. -/
def needsParens (outer inner : Precedence) : Bool :=
  !(inner == atomic || outer == outermost || inner.rank < outer.rank || associates outer inner)

/-- The code of an operand of class `inner` as it stands in `outer`. -/
def wrap (outer : Precedence) (code : String) (inner : Precedence) : String :=
  if outer.needsParens inner then "(" ++ code ++ ")" else code

end Precedence

end BlockProgram
