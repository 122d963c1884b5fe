/-!
Runs of ASCII digits: the number a run spells, and the run that spells a number
at a given width; digits of other bases.
-/

namespace TableJoin.Numeral

/-- The number spelled by a run that holds at least one character and ASCII digits only. -/
def natOfDigits? (cs : List Char) : Option Nat :=
  if cs.all Char.isDigit && !cs.isEmpty then some (Nat.ofDigitChars 10 cs 0) else none

/-- The shortest run of digits that spells the number. -/
def digits (n : Nat) : List Char :=
  Nat.toDigits 10 n

/-- Zeros in front of the run until it is at least `width` long. -/
def padZeros (width : Nat) (cs : List Char) : List Char :=
  List.replicate (width - cs.length) '0' ++ cs

/-- The digits of a number, with zeros in front until there are `width` of them. -/
def paddedDigits (width n : Nat) : String :=
  String.ofList (padZeros width (digits n))

/-- The value of a digit in a base of at most sixteen. -/
def baseDigit? (base : Nat) (c : Char) : Option Nat :=
  let v :=
    if c.isDigit then c.toNat - '0'.toNat
    else if 'a' ≤ c ∧ c ≤ 'f' then c.toNat - 'a'.toNat + 10
    else if 'A' ≤ c ∧ c ≤ 'F' then c.toNat - 'A'.toNat + 10
    else base
  if v < base then some v else none

end TableJoin.Numeral
