import TableJoin.Numeral.Digits
import TableJoin.Text.Identifier

/-!
Numbers: digits, perhaps with a fraction and an exponent, and a suffix.  Where no
fraction and no exponent can be read, the number is an integer up to there.
-/

namespace TableJoin.Declaration

open Text (beginsIdentifier continuesIdentifier)

namespace Lexeme

/-- The characters of a word in front, and what follows it. -/
def cutWord (cs : List Char) : List Char × List Char :=
  (cs.takeWhile continuesIdentifier, cs.dropWhile continuesIdentifier)

/-- The suffix of a literal: a word, if one begins here. -/
def cutSuffix (cs : List Char) : List Char × List Char :=
  if cs.head?.any beginsIdentifier then cutWord cs else ([], cs)

namespace Number

/-- Decimal digits with underscores between them, and what follows. -/
def cutRun (cs : List Char) : List Char × List Char :=
  let isInRun := fun c => c.isDigit || c = '_'
  (cs.takeWhile isInRun, cs.dropWhile isInRun)

/-- The exponent behind its letter: one sign at most, and at least one digit. -/
def cutExponent (hasSign hasDigit : Bool) : List Char → Option (List Char × List Char)
  | [] => if hasDigit then some ([], []) else none
  | c :: cs =>
    let onward := fun (hasSign hasDigit : Bool) =>
      (cutExponent hasSign hasDigit cs).map fun (exponent, rest) => (c :: exponent, rest)
    if (c = '+' || c = '-') && !hasDigit then
      if hasSign then none else onward true false
    else if c.isDigit then onward hasSign true
    else if c = '_' then onward hasSign hasDigit
    else if hasDigit then some ([], c :: cs)
    else none

/-- The exponent that begins here with its letter. -/
def cutScale : List Char → Option (List Char × List Char)
  | c :: cs =>
    if c = 'e' || c = 'E' then
      (cutExponent false false cs).map fun (exponent, rest) => (c :: exponent, rest)
    else none
  | [] => none

/-- A number with a fraction or an exponent.  A point before another point or a word
begins no fraction. -/
def cutFraction (cs : List Char) : Option (List Char × List Char) :=
  let (whole, rest) := cutRun cs
  match rest with
  | '.' :: after =>
    if after.head?.any fun c => c = '.' || beginsIdentifier c then none
    else
      let (fraction, rest) := cutRun after
      let (scale, rest) := (cutScale rest).getD ([], rest)
      some (whole ++ ['.'] ++ fraction ++ scale, rest)
  | _ => (cutScale rest).map fun (scale, rest) => (whole ++ scale, rest)

/-- The base that the beginning of a number states, or ten, and the characters that
state it. -/
def cutBase (cs : List Char) : Nat × List Char × List Char :=
  match cs with
  | '0' :: 'x' :: rest => (16, ['0', 'x'], rest)
  | '0' :: 'o' :: rest => (8, ['0', 'o'], rest)
  | '0' :: 'b' :: rest => (2, ['0', 'b'], rest)
  | _ => (10, [], cs)

/-- An integer: at least one digit, and no decimal digit that the base does not have. -/
def cutInteger (cs : List Char) : Option (List Char × List Char) :=
  let (base, stated, rest) := cutBase cs
  let isInRun := fun c => c = '_' || (Numeral.baseDigit? (max base 10) c).isSome
  let run := rest.takeWhile isInRun
  let digits := run.filter (· ≠ '_')
  if !digits.isEmpty && digits.all fun c => (Numeral.baseDigit? base c).isSome then
    some (stated ++ run, rest.dropWhile isInRun)
  else none

/-- The number with its suffix; none if it stands in a longer word. -/
def withSuffix (number rest : List Char) : Option (List Char × List Char) :=
  let (suffix, rest) := cutSuffix rest
  if rest.head?.any continuesIdentifier then none else some (number ++ suffix, rest)

/-- The number that begins here, and what follows it. -/
def cut (cs : List Char) : Option (List Char × List Char) :=
  ((cutFraction cs).bind fun (number, rest) => withSuffix number rest).or
    ((cutInteger cs).bind fun (number, rest) => withSuffix number rest)

end Number

end Lexeme

end TableJoin.Declaration
