import TableJoin.Declaration.Quoted

/-!
Quotations: characters, strings and raw strings, from the quotation mark in front to
the one behind.
-/

namespace TableJoin.Declaration

open Text (cutAt)

namespace Lexeme

/-- What a quoted text is made of. -/
inductive Quotation where
  | characters
  | bytes
  /-- Characters and bytes, with a zero byte behind them. -/
  | mixed
deriving DecidableEq

namespace Quotation

/-- The character may stand in the text for itself. -/
def admits (q : Quotation) (c : Char) : Bool :=
  match q with
  | .characters => true
  | .bytes => c.toNat < 0x80
  | .mixed => c ≠ '\x00'

def isHexDigit (c : Char) : Bool :=
  (Numeral.baseDigit? 16 c).isSome

/-- The digits of an escaped character, from one to six, name a character. -/
def namesCharacter (digits : List Char) : Bool :=
  let plain := digits.filter (· ≠ '_')
  digits.head? ≠ some '_' && !plain.isEmpty && plain.length ≤ 6 && plain.all isHexDigit &&
    (StringLiteral.hexadecimal plain).isValidChar

/-- The escape that begins behind a backslash, and what follows it. -/
def cutEscape (q : Quotation) : List Char → Option (List Char × List Char)
  | 'x' :: high :: low :: rest =>
    if isHexDigit high && isHexDigit low && (q ≠ .characters || high < '8') &&
        (q ≠ .mixed || high ≠ '0' || low ≠ '0') then
      some (['x', high, low], rest)
    else none
  | 'u' :: '\x7b' :: rest =>
    let digits := rest.takeWhile (· ≠ '\x7d')
    match rest.drop digits.length with
    | close :: rest =>
      if q ≠ .bytes && namesCharacter digits &&
          (q ≠ .mixed || digits.any fun c => c ≠ '0' && c ≠ '_') then
        some (['u', '\x7b'] ++ digits ++ [close], rest)
      else none
    | [] => none
  | c :: rest =>
    if (StringLiteral.escaped? c).isSome && (q ≠ .mixed || c ≠ '0') then some ([c], rest) else none
  | [] => none

/-- The characters begin with the end of a line. -/
def atLineEnd : List Char → Bool
  | '\n' :: _ | '\r' :: '\n' :: _ => true
  | _ => false

/-- A quoted text up to and with its closing quotation mark, and what follows.  A
backslash begins an escape or hides the end of a line. -/
def cutText (q : Quotation) : List Char → Option (List Char × List Char)
  | [] => none
  | '"' :: cs => some (['"'], cs)
  | '\\' :: d :: ds =>
    if (q.cutEscape (d :: ds)).isSome || atLineEnd (d :: ds) then
      (q.cutText ds).map fun (inside, rest) => ('\\' :: d :: inside, rest)
    else none
  | c :: cs =>
    if q.admits c && c ≠ '\\' && (c ≠ '\r' || atLineEnd (c :: cs)) then
      (q.cutText cs).map fun (inside, rest) => (c :: inside, rest)
    else none

/-- One character or byte between apostrophes, with what follows, given what stands
behind the first apostrophe. -/
def cutSingle (q : Quotation) : List Char → Option (List Char × List Char)
  | '\\' :: cs =>
    (q.cutEscape cs).bind fun (escape, rest) =>
      match rest with
      | '\'' :: rest => some ('\\' :: escape ++ ['\''], rest)
      | _ => none
  | c :: '\'' :: rest => if q.admits c then some ([c, '\''], rest) else none
  | _ => none

end Quotation

/-- Every carriage return stands at the end of a line. -/
def hasWholeLines : List Char → Bool
  | [] => true
  | '\r' :: '\n' :: cs => hasWholeLines cs
  | c :: cs => c ≠ '\r' && hasWholeLines cs

/-- A raw text from its number signs to the matching ones, and what follows. -/
def cutRaw (q : Quotation) (cs : List Char) : Option (List Char × List Char) :=
  let signs := cs.takeWhile (· = '#')
  match cs.drop signs.length with
  | '"' :: body =>
    (cutAt ('"' :: signs) body).bind fun (inside, rest) =>
      if signs.length < 256 && inside.all q.admits && hasWholeLines inside then
        some (signs ++ ['"'] ++ inside ++ ['"'] ++ signs, rest)
      else none
  | _ => none

end Lexeme

end TableJoin.Declaration
