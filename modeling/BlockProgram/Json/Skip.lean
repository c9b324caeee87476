import BlockProgram.Json.Reader

/-!
# Skipping JSON values

A value that nobody asks for is passed over. It must be well formed, but numbers
of any size and surrogates that stand alone are let through.
-/
namespace BlockProgram.Json

def skipEscape : List Char → Except Fault (List Char)
  | [] => stop .endOfString []
  | c :: rest =>
    if c = 'u' then (readHex rest).map (·.2)
    else match simpleEscape? c with
      | some _ => .ok rest
      | none => stopAt .invalidEscape (c :: rest)

theorem skipEscape_length {s rest : List Char} (h : skipEscape s = .ok rest) :
    rest.length < s.length := by
  unfold skipEscape at h
  split at h
  · simp [stop] at h
  · split at h
    · next tail _ =>
      cases hr : readHex tail with
      | error fault => simp [hr, Except.map] at h
      | ok r =>
        have := readHex_length hr
        simp only [hr, Except.map, Except.ok.injEq] at h
        simp only [List.length_cons, ← h]
        omega
    · split at h
      · simp only [Except.ok.injEq] at h
        simp [← h]
      · simp [stopAt] at h

/-- The text behind the closing quote. -/
def skipChars (s : List Char) : Except Fault (List Char) :=
  match s with
  | [] => stop .endOfString []
  | c :: rest =>
    if c = '"' then .ok rest
    else if c = '\\' then
      match _h : skipEscape rest with
      | .error fault => .error fault
      | .ok tail => skipChars tail
    else if c.toNat < 0x20 then stop .controlCharacter (c :: rest)
    else skipChars rest
termination_by s.length
decreasing_by
  · have := skipEscape_length _h
    simp only [List.length_cons]
    omega
  · simp

def skipExponent (s : List Char) : Except Fault (List Char) :=
  let s := match s with
    | '+' :: rest => rest
    | '-' :: rest => rest
    | s => s
  match s with
  | [] => stop .invalidNumber []
  | c :: rest =>
    if c.isDigit then .ok (rest.dropWhile Char.isDigit) else stopAt .invalidNumber (c :: rest)

def skipScale (s : List Char) : Except Fault (List Char) :=
  match s with
  | c :: rest => if c = 'e' || c = 'E' then skipExponent rest else .ok s
  | [] => .ok []

def skipNumber (s : List Char) : Except Fault (List Char) :=
  match s with
  | [] => stop .invalidNumber []
  | c :: rest =>
    if c.isDigit then
      if c = '0' && (rest.headD ' ').isDigit then stopAt .invalidNumber rest
      else match rest.dropWhile Char.isDigit with
        | '.' :: more =>
          if (more.headD ' ').isDigit then skipScale (more.dropWhile Char.isDigit)
          else stopAt .invalidNumber more
        | tail => skipScale tail
    else stopAt .invalidNumber s

def skipScalar (s : List Char) : Except Fault (List Char) :=
  match s with
  | 'n' :: rest => (readWord () "ull".toList rest).map (·.2)
  | 't' :: rest => (readWord () "rue".toList rest).map (·.2)
  | 'f' :: rest => (readWord () "alse".toList rest).map (·.2)
  | '-' :: rest => skipNumber rest
  | '"' :: rest => skipChars rest
  | c :: _ => if c.isDigit then skipNumber s else stopAt .expectedValue s
  | [] => stop .endOfValue []

/-- Past the items of an array and its closing bracket. -/
def skipItems (item : List Char → Except Fault (List Char)) :
    Nat → Bool → List Char → Except Fault (List Char)
  | 0, _, s => stop .endOfList s
  | bound + 1, first, s =>
    match skipSpace s with
    | [] => stop .endOfList []
    | ']' :: rest => .ok rest
    | c :: rest =>
      if first then do skipItems item bound false (← item (c :: rest))
      else if c = ',' then do skipItems item bound false (← item rest)
      else stopAt .expectedListComma (c :: rest)

/-- Past a key and its colon. -/
def skipKey (s : List Char) : Except Fault (List Char) :=
  match skipSpace s with
  | [] => stop .endOfObject []
  | '"' :: rest => do colon (← skipChars rest)
  | rest => stopAt .keyNotString rest

/-- Past the members of an object and its closing brace. -/
def skipMembers (item : List Char → Except Fault (List Char)) :
    Nat → Bool → List Char → Except Fault (List Char)
  | 0, _, s => stop .endOfObject s
  | bound + 1, first, s =>
    match skipSpace s with
    | [] => stop .endOfObject []
    | '\x7d' :: rest => .ok rest
    | c :: rest =>
      if first then do skipMembers item bound false (← item (← skipKey (c :: rest)))
      else if c = ',' then do skipMembers item bound false (← item (← skipKey rest))
      else stopAt .expectedObjectComma (c :: rest)

/-- Past a value of at most the given depth. -/
def skipValue : Nat → List Char → Except Fault (List Char)
  | 0, s => stop .endOfValue s
  | depth + 1, s =>
    match skipSpace s with
    | '[' :: rest => skipItems (skipValue depth) (rest.length + 1) true rest
    | '\x7b' :: rest => skipMembers (skipValue depth) (rest.length + 1) true rest
    | s => skipScalar s

end BlockProgram.Json
