import BlockProgram.Decimal.Shortest

/-!
# Layout of decimal digits

Digits are written in positional notation or with an exponent. Two texts of a
float are built from that: the one of JSON, which always shows that the number
is no integer, and the one of program code, which never has an exponent.
-/
namespace BlockProgram.Decimal

def zeros (n : Nat) : List Char := List.replicate n '0'

/-- Positional notation; an integer ends in `whole`. -/
def Digits.positional (d : Digits) (whole : List Char) : List Char :=
  if d.point ≤ 0 then '0' :: '.' :: zeros (-d.point).toNat ++ d.digits
  else
    let n := d.point.toNat
    if d.digits.length ≤ n then d.digits ++ zeros (n - d.digits.length) ++ whole
    else d.digits.take n ++ '.' :: d.digits.drop n

/-- One digit before the point; the exponent has a sign and no leading zeros. -/
def Digits.scientific (d : Digits) : List Char :=
  let exponent := d.point - 1
  let mantissa := match d.digits with
    | [] => []
    | [first] => [first]
    | first :: rest => first :: '.' :: rest
  mantissa ++ 'e' :: (if exponent < 0 then '-' else '+') :: Nat.toDigits 10 exponent.natAbs

/-- The sign bit, which is also set on a negative zero. -/
def isNegative (bits : Nat) : Bool := pow2 63 ≤ bits

def isZero (bits : Nat) : Bool := bits % pow2 63 == 0

/-- The sign of a float, as texts write it. -/
def signText (bits : Nat) : String := if isNegative bits then "-" else ""

/-- JSON text of a finite float: positional with a fraction from `1e-5` up to
below `1e16`, with an exponent outside. Ties between digits go to even. JSON has
no other floats. -/
def jsonText (x : Float) : String :=
  let bits := x.toBits.toNat
  match Magnitude.ofBits bits with
  | .finite value =>
    if isZero bits then signText bits ++ "0.0"
    else
      let d := shortest false value.span
      signText bits ++ String.ofList
        (if -5 < d.point && d.point ≤ 16 then d.positional ['.', '0'] else d.scientific)
  | _ => "null"

/-- Code text of a float: positional, an integer without a point, and zero without
a sign. Ties between digits go up. -/
def codeText (x : Float) : String :=
  let bits := x.toBits.toNat
  match Magnitude.ofBits bits with
  | .finite value =>
    if isZero bits then "0"
    else signText bits ++ String.ofList ((shortest true value.span).positional [])
  | .infinite => signText bits ++ "inf"
  | .notANumber => "NaN"

end BlockProgram.Decimal
