import BlockProgram.Decimal.Scaled
import BlockProgram.Json.Fault

/-!
# Scalars in JSON text

Readers of strings, numbers and the words `true`, `false` and `null`. A reader
takes the text from where it stands and gives the value and what is left.
-/
namespace BlockProgram.Json

abbrev Reader (α : Type) := List Char → Except Fault (α × List Char)

def isSpace (c : Char) : Bool := c == ' ' || c == '\n' || c == '\t' || c == '\r'

def skipSpace (s : List Char) : List Char := s.dropWhile isSpace

/-- Stops in front of the given text. -/
def stop {α : Type} (cause : Cause) (rest : List Char) : Except Fault α := .error ⟨cause, rest, 0⟩

/-- Stops after the first byte of the given text. -/
def stopAt {α : Type} (cause : Cause) (rest : List Char) : Except Fault α := .error ⟨cause, rest, 1⟩

/-- The rest of a word whose first letter has been seen. -/
def readWord {α : Type} (value : α) : List Char → Reader α
  | [], s => .ok (value, s)
  | _ :: _, [] => stop .endOfValue []
  | w :: ws, c :: s => if w = c then readWord value ws s else stopAt .expectedWord (c :: s)

/-! ### Strings -/

def hexValue? (c : Char) : Option Nat :=
  if c.isDigit then some (c.toNat - '0'.toNat)
  else if 'a' ≤ c && c ≤ 'f' then some (c.toNat - 'a'.toNat + 10)
  else if 'A' ≤ c && c ≤ 'F' then some (c.toNat - 'A'.toNat + 10)
  else none

/-- Four hexadecimal digits. They are taken as four bytes before they are looked at. -/
def readHex (s : List Char) : Except Fault (Nat × List Char) :=
  if byteLength (s.take 4) < 4 then stop .endOfString []
  else match s with
    | a :: b :: c :: d :: rest =>
      match hexValue? a, hexValue? b, hexValue? c, hexValue? d with
      | some a, some b, some c, some d => .ok (((a * 16 + b) * 16 + c) * 16 + d, rest)
      | _, _, _, _ => .error ⟨.invalidEscape, s, 4⟩
    | _ => .error ⟨.invalidEscape, s, 4⟩

def isLeading (n : Nat) : Bool := 0xD800 ≤ n && n ≤ 0xDBFF

def isTrailing (n : Nat) : Bool := 0xDC00 ≤ n && n ≤ 0xDFFF

/-- The character of a `\u` escape; one outside the basic plane takes two. -/
def readUnicode (s : List Char) : Except Fault (Char × List Char) :=
  match readHex s with
  | .error fault => .error fault
  | .ok (n, rest) =>
    if isTrailing n then stop .loneSurrogate rest
    else if !isLeading n then .ok (Char.ofNat n, rest)
    else match rest with
      | [] => stop .endOfString []
      | '\\' :: [] => stop .endOfString []
      | '\\' :: 'u' :: rest => match readHex rest with
        | .error fault => .error fault
        | .ok (m, rest) =>
          if isTrailing m then
            .ok (Char.ofNat ((n - 0xD800) * 0x400 + (m - 0xDC00) + 0x10000), rest)
          else stop .loneSurrogate rest
      | '\\' :: rest => stopAt .endOfHexEscape rest
      | rest => stopAt .endOfHexEscape rest

def simpleEscape? : Char → Option Char
  | '"' => some '"'
  | '\\' => some '\\'
  | '/' => some '/'
  | 'b' => some '\x08'
  | 'f' => some '\x0c'
  | 'n' => some '\n'
  | 'r' => some '\r'
  | 't' => some '\t'
  | _ => none

/-- The character of an escape, after its backslash. -/
def readEscape : List Char → Except Fault (Char × List Char)
  | [] => stop .endOfString []
  | c :: rest =>
    if c = 'u' then readUnicode rest
    else match simpleEscape? c with
      | some d => .ok (d, rest)
      | none => stopAt .invalidEscape (c :: rest)

theorem readHex_length {s rest : List Char} {n : Nat} (h : readHex s = .ok (n, rest)) :
    rest.length < s.length := by
  unfold readHex at h
  split at h
  · simp [stop] at h
  · split at h
    · split at h
      · simp only [Except.ok.injEq, Prod.mk.injEq] at h
        simp only [← h.2, List.length_cons]
        omega
      · simp at h
    · simp at h

theorem readUnicode_length {s rest : List Char} {c : Char} (h : readUnicode s = .ok (c, rest)) :
    rest.length < s.length := by
  unfold readUnicode at h
  split at h
  · simp at h
  · next n tail hn =>
    have hlen := readHex_length hn
    split at h
    · simp [stop] at h
    · split at h
      · simp only [Except.ok.injEq, Prod.mk.injEq] at h
        rw [← h.2]
        exact hlen
      · split at h
        · simp [stop] at h
        · simp [stop] at h
        · split at h
          · simp at h
          · next m tail' hm =>
            have hlen' := readHex_length hm
            split at h
            · simp only [Except.ok.injEq, Prod.mk.injEq] at h
              simp only [List.length_cons] at hlen
              rw [← h.2]
              omega
            · simp [stop] at h
        · simp [stopAt] at h
        · simp [stopAt] at h

theorem readEscape_length {s rest : List Char} {c : Char} (h : readEscape s = .ok (c, rest)) :
    rest.length < s.length := by
  unfold readEscape at h
  split at h
  · simp [stop] at h
  · split at h
    · have := readUnicode_length h
      simp only [List.length_cons]
      omega
    · split at h
      · simp only [Except.ok.injEq, Prod.mk.injEq] at h
        simp [← h.2]
      · simp [stopAt] at h

/-- The characters up to the closing quote. -/
def readChars (s : List Char) : Except Fault (List Char × List Char) :=
  match s with
  | [] => stop .endOfString []
  | c :: rest =>
    if c = '"' then .ok ([], rest)
    else if c = '\\' then
      match _h : readEscape rest with
      | .error fault => .error fault
      | .ok (d, tail) => (readChars tail).map fun r => (d :: r.1, r.2)
    else if c.toNat < 0x20 then stopAt .controlCharacter (c :: rest)
    else (readChars rest).map fun r => (c :: r.1, r.2)
termination_by s.length
decreasing_by
  · have := readEscape_length _h
    simp only [List.length_cons]
    omega
  · simp

/-- A string whose opening quote has been taken. -/
def readString : Reader String := fun s =>
  (readChars s).map fun r => (String.ofList r.1, r.2)

/-! ### Numbers -/

/-- Integers are below this, and negative ones not below its negated half. -/
def intLimit : Nat := 0x10000000000000000

/-- As many digits as keep the significand below the limit, and those left over. -/
def gather : Nat → List Char → Nat × List Char
  | n, [] => (n, [])
  | n, c :: rest =>
    let m := n * 10 + (c.toNat - '0'.toNat)
    if m < intLimit then gather m rest else (n, c :: rest)

/-- The float with the given parts. -/
def scaledFloat (negative : Bool) (significand : Nat) (exponent : Int) : Reader Number := fun s =>
  match Decimal.scaled? significand.toUInt64 exponent with
  | some x => .ok (.float (if negative then -x else x), s)
  | none => stop .numberOutOfRange s

/-- The digits of an exponent; the first has been read. -/
def readExponentDigits (negative : Bool) (significand : Nat) (scale : Int) (down : Bool) :
    Nat → Reader Number
  | e, [] => scaledFloat negative significand (if down then scale - e else scale + e) []
  | e, c :: rest =>
    if c.isDigit then
      let next := e * 10 + (c.toNat - '0'.toNat)
      if next < 0x80000000 then readExponentDigits negative significand scale down next rest
      else if significand ≠ 0 && !down then stop .numberOutOfRange rest
      else .ok (.float (if negative then -0.0 else 0.0), rest.dropWhile Char.isDigit)
    else scaledFloat negative significand (if down then scale - e else scale + e) (c :: rest)

/-- An exponent, after its letter. -/
def readExponent (negative : Bool) (significand : Nat) (scale : Int) : Reader Number := fun s =>
  let (down, s) := match s with
    | '+' :: rest => (false, rest)
    | '-' :: rest => (true, rest)
    | s => (false, s)
  match s with
  | [] => stop .endOfValue []
  | c :: rest =>
    if c.isDigit then
      readExponentDigits negative significand scale down (c.toNat - '0'.toNat) rest
    else stopAt .invalidNumber (c :: rest)

/-- What may follow the digits of a float. -/
def readScale (negative : Bool) (significand : Nat) (scale : Int) : Reader Number := fun s =>
  match s with
  | c :: rest =>
    if c = 'e' || c = 'E' then readExponent negative significand scale rest
    else scaledFloat negative significand scale s
  | [] => scaledFloat negative significand scale []

/-- A fraction, after its point. -/
def readFraction (negative : Bool) (significand : Nat) (scale : Int) : Reader Number := fun s =>
  let digits := s.takeWhile Char.isDigit
  let rest := s.dropWhile Char.isDigit
  if digits.isEmpty then
    if rest.isEmpty then stop .endOfValue [] else stopAt .invalidNumber rest
  else
    let (significand, dropped) := gather significand digits
    readScale negative significand (scale - (digits.length - dropped.length)) rest

/-- An integer, unless it is too long for one; a negative zero is a float. -/
def whole (negative : Bool) (significand : Nat) : Number :=
  if !negative then .int significand
  else if significand = 0 || intLimit / 2 < significand then
    .float (-(significand.toUInt64.toFloat))
  else .int (-significand)

/-- A number, after its sign. -/
def readNumber (negative : Bool) : Reader Number := fun s =>
  match s with
  | [] => stop .endOfValue []
  | c :: rest =>
    if c.isDigit then
      if c = '0' && (rest.headD ' ').isDigit then stopAt .invalidNumber rest
      else
        let digits := s.takeWhile Char.isDigit
        let tail := s.dropWhile Char.isDigit
        let (significand, dropped) := gather 0 digits
        match tail with
        | '.' :: more => readFraction negative significand dropped.length more
        | _ =>
          if dropped.isEmpty then
            match tail with
            | [] => .ok (whole negative significand, [])
            | d :: more =>
              if d = 'e' || d = 'E' then readExponent negative significand 0 more
              else .ok (whole negative significand, tail)
          else readScale negative significand dropped.length tail
    else stopAt .invalidNumber s

/-! ### Scalars -/

/-- A value that is neither an array nor an object. -/
def readScalar : Reader Json := fun s =>
  match s with
  | 'n' :: rest => readWord .null "ull".toList rest
  | 't' :: rest => readWord (.bool true) "rue".toList rest
  | 'f' :: rest => readWord (.bool false) "alse".toList rest
  | '-' :: rest => (readNumber true rest).map fun r => (.number r.1, r.2)
  | '"' :: rest => (readString rest).map fun r => (.string r.1, r.2)
  | c :: _ =>
    if c.isDigit then (readNumber false s).map fun r => (.number r.1, r.2)
    else stopAt .expectedValue s
  | [] => stop .endOfValue []

/-- Stops at a value of the wrong type: after a scalar, in front of anything else. -/
def mistyped {α : Type} (wanted : String) (s : List Char) : Except Fault α :=
  match s with
  | '[' :: _ => stop (.wrongType .sequence wanted) s
  | '\x7b' :: _ => stop (.wrongType .map wanted) s
  | _ => match readScalar s with
    | .ok (value, rest) => stop (.wrongType (.scalar value) wanted) rest
    | .error fault => .error fault

/-- A string, and nothing else. -/
def text : Reader String := fun s =>
  match skipSpace s with
  | [] => stop .endOfValue []
  | '"' :: rest => readString rest
  | s => mistyped "a string" s

/-- A string or `null`. -/
def optionalText : Reader (Option String) := fun s =>
  match skipSpace s with
  | 'n' :: rest => readWord none "ull".toList rest
  | s => (text s).map fun r => (some r.1, r.2)

end BlockProgram.Json
