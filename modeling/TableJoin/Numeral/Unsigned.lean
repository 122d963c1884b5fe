import TableJoin.Numeral.Digits
import TableJoin.Text.Blank

/-!
Non-negative integers of 64 bits and their lexical form: blanks at the ends,
then up to two plus signs, then digits whose number fits.
-/

namespace TableJoin.Numeral

/-- The characters without one leading plus sign. -/
def dropPlus : List Char → List Char
  | '+' :: cs => cs
  | cs => cs

/-- Reads trimmed digits, in front of which up to two plus signs may stand. -/
def unsigned? (s : String) : Option UInt64 :=
  match natOfDigits? (dropPlus (dropPlus (Text.trimChars s.toList))) with
  | some n => if n < UInt64.size then some (UInt64.ofNat n) else none
  | none => none

/-- The canonical lexical form, without sign or leading zeros. -/
def unsignedText (n : UInt64) : String :=
  String.ofList (digits n.toNat)

end TableJoin.Numeral
