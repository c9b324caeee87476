/-!
# Floats from decimal digits

A decimal is read as the float nearest to its digits, scaled by the float
nearest to a power of ten. A result can therefore be rounded twice.
-/
namespace BlockProgram.Decimal

/-- The float nearest to `10 ^ n`. -/
def powerOfTen (n : Nat) : Float := Float.ofScientific 1 false n

/-- The significand scaled by `10 ^ exponent`, or nothing when that is too large.
Below the range of powers the scaling takes two steps, and past those nothing
but zero is left. -/
def scaled? (significand : UInt64) (exponent : Int) : Option Float :=
  let f := significand.toFloat
  if 0 ≤ exponent then
    if exponent ≤ 308 then
      let g := f * powerOfTen exponent.toNat
      if g.isInf then none else some g
    else if significand = 0 then some f else none
  else if -308 ≤ exponent then some (f / powerOfTen (-exponent).toNat)
  else if -616 ≤ exponent then some (f / powerOfTen 308 / powerOfTen (-(exponent + 308)).toNat)
  else some 0.0

end BlockProgram.Decimal
