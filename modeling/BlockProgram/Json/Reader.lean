import BlockProgram.Json.Scalar

/-!
# Reading JSON text

Arrays and objects are read item by item, so that a reader which wants values of
a certain type stops at the first one of another type, before anything behind
it. `Json.ofText` reads any value.
-/
namespace BlockProgram.Json

/-- Whether another item of an array follows. The text left starts with that
item, or else with the closing bracket. -/
def nextItem (first : Bool) (s : List Char) : Except Fault (Bool × List Char) :=
  match skipSpace s with
  | [] => stop .endOfList []
  | ']' :: rest => .ok (false, ']' :: rest)
  | c :: rest =>
    if first then .ok (true, c :: rest)
    else if c = ',' then
      match skipSpace rest with
      | [] => stop .endOfValue []
      | ']' :: tail => stopAt .trailingComma (']' :: tail)
      | tail => .ok (true, tail)
    else stopAt .expectedListComma (c :: rest)

/-- The next key of an object, or the closing brace, which is left. -/
def nextKey (first : Bool) (s : List Char) : Except Fault (Option String × List Char) :=
  match skipSpace s with
  | [] => stop .endOfObject []
  | '\x7d' :: rest => .ok (none, '\x7d' :: rest)
  | c :: rest =>
    if first then
      if c = '"' then (readString rest).map fun r => (some r.1, r.2)
      else stopAt .keyNotString (c :: rest)
    else if c = ',' then
      match skipSpace rest with
      | [] => stop .endOfValue []
      | '"' :: tail => (readString tail).map fun r => (some r.1, r.2)
      | '\x7d' :: tail => stopAt .trailingComma ('\x7d' :: tail)
      | tail => stopAt .keyNotString tail
    else stopAt .expectedObjectComma (c :: rest)

/-- The colon between a key and its value. -/
def colon (s : List Char) : Except Fault (List Char) :=
  match skipSpace s with
  | [] => stop .endOfObject []
  | ':' :: rest => .ok rest
  | rest => stopAt .expectedColon rest

/-- The items of an array up to its closing bracket. Every item takes a character
at least, so a bound above the length of the text is never reached. -/
def items {α : Type} (item : Reader α) : Nat → Bool → Reader (List α)
  | 0, _, s => stop .endOfList s
  | bound + 1, first, s => do
    let (more, s) ← nextItem first s
    if more then
      let (a, s) ← item s
      let (rest, s) ← items item bound false s
      return (a :: rest, s)
    else return ([], s.drop 1)

/-- The members of an object up to its closing brace, joined one by one to what
is known already by `member`, which reads the part after the key. The bound is
as for `items`. -/
def members {α : Type} (member : α → String → Reader α) : Nat → Bool → α → Reader α
  | 0, _, _, s => stop .endOfObject s
  | bound + 1, first, known, s => do
    let (key?, s) ← nextKey first s
    match key? with
    | some key =>
      let (known, s) ← member known key s
      members member bound false known s
    | none => return (known, s.drop 1)

/-- An array of values of one type. -/
def list {α : Type} (item : Reader α) : Reader (List α) := fun s =>
  match skipSpace s with
  | [] => stop .endOfValue []
  | '[' :: rest => items item (rest.length + 1) true rest
  | s => mistyped "a sequence" s

/-- The closing bracket of an array that has all the items it may have. -/
def endItems (s : List Char) : Except Fault (List Char) :=
  match skipSpace s with
  | [] => stop .endOfList []
  | ']' :: rest => .ok rest
  | ',' :: rest => match skipSpace rest with
    | ']' :: tail => stopAt .trailingComma (']' :: tail)
    | tail => stopAt .trailingCharacters tail
  | rest => stopAt .trailingCharacters rest

/-- The text behind the members of an object given up half way: past blanks and
past the closing brace, if that is what follows. -/
def leaveMembers (s : List Char) : List Char :=
  match skipSpace s with
  | '\x7d' :: rest => rest
  | rest => rest

/-- Any value of at most the given depth. -/
def value : Nat → Reader Json
  | 0, s => stop .endOfValue s
  | depth + 1, s =>
    match skipSpace s with
    | '[' :: rest =>
      (items (value depth) (rest.length + 1) true rest).map fun r => (.array r.1, r.2)
    | '\x7b' :: rest =>
      let member := fun known key s => do
        let s ← colon s
        let (v, s) ← value depth s
        return (insertMember key v known, s)
      (members member (rest.length + 1) true [] rest).map fun r => (.object r.1, r.2)
    | s => readScalar s

/-- Reads a whole text. -/
def readAll {α : Type} (reader : Reader α) (s : List Char) : Except Fault α := do
  let (a, rest) ← reader s
  match skipSpace rest with
  | [] => return a
  | rest => stopAt .trailingCharacters rest

/-- The value that a text writes. -/
def ofText (s : String) : Except Fault Json := readAll (value (s.length + 1)) s.toList

end BlockProgram.Json
