import TableJoin.Numeral.Digits
import TableJoin.Text.Blank

/-!
Exact decimal numbers.  A decimal keeps the scale it was written with, so that
`12.50` is printed as `12.50`.
-/

namespace TableJoin

/-- The number `mantissa * 10 ^ exponent`. -/
structure Decimal where
  mantissa : Int64
  exponent : Int8
deriving DecidableEq, Repr, Inhabited

namespace Decimal

open Numeral

/-- A sign in front of the characters, if there is one, and what follows it. -/
def splitSign : List Char → Bool × List Char
  | '-' :: cs => (true, cs)
  | '+' :: cs => (false, cs)
  | cs => (false, cs)

/-- The characters before the first point and those after it. -/
def splitPoint (cs : List Char) : List Char × List Char :=
  (cs.takeWhile (· != '.'), (cs.dropWhile (· != '.')).drop 1)

/-- The decimal that trimmed characters spell: an optional sign, then digits
with at most one point among them, at least one digit, at most 127 of them after
the point, and all together a number below `2 ^ 63`. -/
def ofChars? (cs : List Char) : Option Decimal :=
  let (negative, body) := splitSign cs
  let (whole, fraction) := splitPoint body
  match natOfDigits? (whole ++ fraction) with
  | none => none
  | some n =>
    if n ≤ Int64.maxValue.toNatClampNeg ∧ fraction.length ≤ 127 then
      some ⟨if negative then Int64.ofInt (-n) else Int64.ofInt n, Int8.ofInt (-fraction.length)⟩
    else none

/-- Reads the lexical form, blanks at the ends aside. -/
def ofText? (s : String) : Option Decimal :=
  ofChars? (Text.trimChars s.toList)

/-- The printed characters of `n / 10 ^ scale`, with `scale` fraction digits. -/
def scaledChars (n scale : Nat) : List Char :=
  let run := padZeros (scale + 1) (digits n)
  run.take (run.length - scale) ++ '.' :: run.drop (run.length - scale)

/-- The canonical form: zeros after the mantissa for a positive exponent, and as
many fraction digits as a negative exponent says. -/
def toChars (d : Decimal) : List Char :=
  let sign := if d.mantissa < 0 then ['-'] else []
  let n := d.mantissa.toInt.natAbs
  if 0 ≤ d.exponent then
    sign ++ digits n ++ List.replicate d.exponent.toInt.toNat '0'
  else
    sign ++ scaledChars n d.exponent.toInt.natAbs

def toText (d : Decimal) : String :=
  String.ofList d.toChars

end Decimal

end TableJoin
