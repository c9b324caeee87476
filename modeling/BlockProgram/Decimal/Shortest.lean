/-!
# Shortest decimal digits of a float

A finite float stands for an interval: the reals nearer to it than to any other
float. Its shortest decimal is the one with the fewest digits inside that
interval, and of those the nearest. All arithmetic is on natural numbers.
-/
namespace BlockProgram.Decimal

def pow2 (n : Nat) : Nat := Nat.pow 2 n

def pow10 (n : Nat) : Nat := Nat.pow 10 n

/-- The value `mantissa * 2 ^ exponent`. When `narrow` holds, the next float
below lies half as far away as the next one above. -/
structure Binary where
  mantissa : Nat
  exponent : Int
  narrow : Bool
  deriving DecidableEq, Repr

/-- What a float is, its sign apart. -/
inductive Magnitude where
  | finite (value : Binary)
  | infinite
  | notANumber
  deriving DecidableEq, Repr

/-- The magnitude of a float, from its bits. The largest exponent field is that of the
infinities and of what is not a number. -/
def Magnitude.ofBits (bits : Nat) : Magnitude :=
  let field : Nat := bits / pow2 52 % 2048
  let fraction : Nat := bits % pow2 52
  if field = 2047 then if fraction = 0 then .infinite else .notANumber
  else if field = 0 then .finite ⟨fraction, -1074, false⟩
  else .finite ⟨pow2 52 + fraction, field - 1075, fraction == 0 && 1 < field⟩

/-- The reals that round to a float: from `low / den` to `high / den`, around
`mid / den`; the ends belong to it when `closed`. -/
structure Span where
  low : Nat
  mid : Nat
  high : Nat
  den : Nat
  closed : Bool
  deriving DecidableEq, Repr

def Binary.span (b : Binary) : Span :=
  let up := pow2 b.exponent.toNat
  let mid := 4 * b.mantissa * up
  { low := mid - (if b.narrow then up else 2 * up)
    mid := mid
    high := mid + 2 * up
    den := 4 * pow2 (-b.exponent).toNat
    closed := b.mantissa % 2 == 0 }

namespace Span

/-- The decimal `d * 10 ^ grid` lies in the span. -/
def holds (s : Span) (d : Nat) (grid : Int) : Bool :=
  let n := d * pow10 grid.toNat * s.den
  let k := pow10 (-grid).toNat
  if s.closed then s.low * k ≤ n && n ≤ s.high * k else s.low * k < n && n < s.high * k

/-- The multiple of `10 ^ grid` at or below the middle. -/
def below (s : Span) (grid : Int) : Nat :=
  s.mid * pow10 (-grid).toNat / (s.den * pow10 grid.toNat)

/-- How the middle lies to the point halfway between `d` and `d + 1` on the grid. -/
def half (s : Span) (d : Nat) (grid : Int) : Ordering :=
  compare (2 * s.mid * pow10 (-grid).toNat) ((2 * d + 1) * s.den * pow10 grid.toNat)

/-- The nearest decimal of the grid that lies in the span. -/
def onGrid? (s : Span) (tieUp : Bool) (grid : Int) : Option Nat :=
  let d := s.below grid
  match s.holds d grid, s.holds (d + 1) grid with
  | true, true => match s.half d grid with
    | .lt => some d
    | .gt => some (d + 1)
    | .eq => some (if tieUp || d % 2 == 1 then d + 1 else d)
  | true, false => some d
  | false, true => some (d + 1)
  | false, false => none

/-- The zeros between the point and the first digit of `n / den`, at most `bound`. -/
def leadingZeros (den : Nat) : Nat → Nat → Nat
  | 0, _ => 0
  | bound + 1, n => if den ≤ n * 10 then 0 else leadingZeros den bound (n * 10) + 1

/-- The place of the point in the middle, counted from its first digit. -/
def point (s : Span) : Int :=
  if s.den ≤ s.mid then (Nat.toDigits 10 (s.mid / s.den)).length
  else -(leadingZeros s.den 400 s.mid)

end Span

/-- A decimal `0.d₁d₂… * 10 ^ point`. -/
structure Digits where
  digits : List Char
  point : Int
  deriving DecidableEq, Repr

/-- The decimal `d * 10 ^ grid` without the zeros at the end of `d`. -/
def Digits.ofGrid : Nat → Nat → Int → Digits
  | 0, d, grid =>
    let ds := Nat.toDigits 10 d
    ⟨ds, ds.length + grid⟩
  | bound + 1, d, grid =>
    if d % 10 = 0 then ofGrid bound (d / 10) (grid + 1)
    else
      let ds := Nat.toDigits 10 d
      ⟨ds, ds.length + grid⟩

/-- The shortest digits in the span; a tie goes up or to the even neighbour. -/
def shortest (tieUp : Bool) (s : Span) : Digits :=
  let hit := (List.range 17).findSome? fun (k : Nat) =>
    let grid : Int := s.point - (k + 1)
    (s.onGrid? tieUp grid).map (Digits.ofGrid 20 · grid)
  hit.getD ⟨['0'], 1⟩

end BlockProgram.Decimal
