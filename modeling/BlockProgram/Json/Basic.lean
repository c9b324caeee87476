/-!
# JSON values

Integers and floats are different numbers, as they are in the text of a value.
The members of an object are kept in ascending order of their keys, each key
once; `Json.ofMembers` brings any list of members into that form.
-/
namespace BlockProgram

inductive Number where
  | int (n : Int)
  | float (x : Float)

namespace Number

/-- The integer that a number is, if it lies in the given range. -/
def toIntIn? (least most : Int) : Number → Option Int
  | int n => if least ≤ n && n ≤ most then some n else none
  | float _ => none

def toFloat : Number → Float
  | int n => Float.ofInt n
  | float x => x

end Number

inductive Json where
  | null
  | bool (b : Bool)
  | number (n : Number)
  | string (s : String)
  | array (items : List Json)
  | object (members : List (String × Json))

namespace Json

/-- Adds a member in its place, or replaces the one with its key. -/
def insertMember (key : String) (value : Json) : List (String × Json) → List (String × Json)
  | [] => [(key, value)]
  | (k, v) :: rest =>
    if key < k then (key, value) :: (k, v) :: rest
    else if key = k then (key, value) :: rest
    else (k, v) :: insertMember key value rest

/-- Of the members with one key the last counts. -/
def ofMembers (members : List (String × Json)) : List (String × Json) :=
  members.foldl (fun sorted m => insertMember m.1 m.2 sorted) []

/-- An object with the given members. -/
def mkObject (members : List (String × Json)) : Json := object (ofMembers members)

/-- The value at a key of an object. -/
def get? : Json → String → Option Json
  | object members, key => members.lookup key
  | _, _ => none

/-- The value at a position of an array. -/
def item? : Json → Nat → Option Json
  | array items, i => items[i]?
  | _, _ => none

theorem lookup_cons_eq_ite (m : String × Json) (members : List (String × Json)) (key : String) :
    (m :: members).lookup key = if key = m.1 then some m.2 else members.lookup key := by
  obtain ⟨k, v⟩ := m
  by_cases h : key = k
  · simp [h]
  · simp [List.lookup_cons, beq_false_of_ne h, h]

theorem lookup_insertMember (key k : String) (value : Json) (members : List (String × Json)) :
    (insertMember key value members).lookup k =
      if k = key then some value else members.lookup k := by
  induction members with
  | nil => simp [insertMember, lookup_cons_eq_ite]
  | cons m rest ih =>
    unfold insertMember
    split
    · simp [lookup_cons_eq_ite]
    · split
      · next heq =>
        subst heq
        by_cases h : k = m.1 <;> simp [lookup_cons_eq_ite, h]
      · next hne =>
        by_cases h : k = m.1
        · subst h
          simp [lookup_cons_eq_ite, Ne.symm hne]
        · simp [lookup_cons_eq_ite, h, ih]

/-- At each key an object has the last of the members with the key. -/
theorem get?_mkObject (members : List (String × Json)) (key : String) :
    (mkObject members).get? key = members.reverse.lookup key := by
  suffices h : ∀ sorted : List (String × Json),
      (members.foldl (fun sorted m => insertMember m.1 m.2 sorted) sorted).lookup key =
        (members.reverse.lookup key).or (sorted.lookup key) by
    simpa [mkObject, get?, ofMembers] using h []
  induction members with
  | nil => simp
  | cons m rest ih =>
    intro sorted
    rw [List.foldl_cons, ih, lookup_insertMember, List.reverse_cons, List.lookup_append,
      Option.or_assoc, lookup_cons_eq_ite]
    by_cases h : key = m.1 <;> simp [h]

/-- What a value is, as messages name it. -/
inductive Kind where
  | null
  | boolean
  | number
  | string
  | array
  | object
  deriving DecidableEq, Repr

def kind : Json → Kind
  | null => .null
  | bool _ => .boolean
  | number _ => .number
  | string _ => .string
  | array _ => .array
  | object _ => .object

def Kind.describe : Kind → String
  | .null => "null"
  | .boolean => "a boolean"
  | .number => "a number"
  | .string => "a string"
  | .array => "an array"
  | .object => "an object"

end Json

end BlockProgram
