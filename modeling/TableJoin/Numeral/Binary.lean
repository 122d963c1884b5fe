import TableJoin.Numeral.Decimal

/-!
Decimals and binary floating point.  Powers of ten are formed by repeated
squaring in floating point, and a negative power is the reciprocal of the
positive one; the order of the roundings is part of the result.
-/

namespace TableJoin.Numeral

/-- Square and multiply: `acc * base ^ n`, from the lowest bit of `n` upwards. -/
def squareAndMultiply (acc base : Float) (n : Nat) : Float :=
  let acc := if n % 2 = 1 then acc * base else acc
  if n < 2 then acc else squareAndMultiply acc (base * base) (n / 2)
termination_by n
decreasing_by omega

/-- `10 ^ n` in floating point. -/
def powerOfTen (n : Int) : Float :=
  let p := squareAndMultiply 1 10 n.natAbs
  if n < 0 then 1 / p else p

end TableJoin.Numeral

namespace TableJoin.Decimal

open Numeral

/-- The nearest reachable floating-point number: mantissa times power of ten. -/
def toFloat (d : Decimal) : Float :=
  d.mantissa.toFloat * powerOfTen d.exponent.toInt

/-- The decimal with the given exponent nearest to a number.  Halves go away
from zero, a mantissa out of range goes to the nearest bound, and what is not a
number becomes zero. -/
def ofFloat (x : Float) (exponent : Int8) : Decimal :=
  ⟨(x * powerOfTen (-exponent.toInt)).round.toInt64, exponent⟩

end TableJoin.Decimal
