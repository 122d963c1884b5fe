import TableJoin.Declaration.Token
import TableJoin.Numeral.Digits
import TableJoin.Text.Blank
import TableJoin.Text.Cut

/-!
String literals: what a written literal stands for, and how a text is written as
one.
-/

namespace TableJoin.Declaration

/-- A string literal, kept as written. -/
structure StringLiteral where
  written : String
deriving DecidableEq, Repr

namespace StringLiteral

/-- The token is a string literal, not one of bytes or of another kind. -/
def ofToken? : Token → Option StringLiteral
  | .literal s =>
    match s.toList with
    | '"' :: _ => some ⟨s⟩
    | 'r' :: _ => some ⟨s⟩
    | _ => none
  | _ => none

/-- The character that a letter after a backslash stands for. -/
def escaped? (c : Char) : Option Char :=
  match c with
  | 'n' => some '\n'
  | 'r' => some '\r'
  | 't' => some '\t'
  | '0' => some '\x00'
  | '\\' => some '\\'
  | '\'' => some '\''
  | '"' => some '"'
  | _ => none

/-- The number written with these digits to base 16; underscores do not count. -/
def hexadecimal (cs : List Char) : Nat :=
  cs.foldl (fun n c => n * 16 + (Numeral.baseDigit? 16 c).getD 0) 0

/-- What the characters up to the closing quotation mark stand for. -/
def unescape : Nat → List Char → List Char
  | 0, _ => []
  | fuel + 1, cs =>
    match cs with
    | [] => []
    | '"' :: _ => []
    | '\\' :: 'x' :: high :: low :: rest =>
      Char.ofNat (hexadecimal [high, low]) :: unescape fuel rest
    | '\\' :: 'u' :: '\x7b' :: rest =>
      let digits := rest.takeWhile (· ≠ '\x7d')
      Char.ofNat (hexadecimal (digits.filter (· ≠ '_'))) ::
        unescape fuel (rest.drop (digits.length + 1))
    | '\\' :: '\n' :: rest => unescape fuel (rest.dropWhile Text.isBlank)
    | '\\' :: '\r' :: '\n' :: rest => unescape fuel (rest.dropWhile Text.isBlank)
    | '\\' :: c :: rest => (escaped? c).toList ++ unescape fuel rest
    | '\r' :: '\n' :: rest => '\n' :: unescape fuel rest
    | c :: rest => c :: unescape fuel rest

/-- The text that the literal stands for.  In a raw literal every character stands
for itself. -/
def value (l : StringLiteral) : String :=
  let cs := l.written.toList
  match cs with
  | '"' :: body => String.ofList (unescape body.length body)
  | 'r' :: raw =>
    let signs := raw.takeWhile (· = '#')
    let body := raw.drop (signs.length + 1)
    String.ofList (((Text.cutAt ('"' :: signs) body).map (·.1)).getD [])
  | _ => ""

/-- The letters behind the closing quotation mark. -/
def suffix (l : StringLiteral) : String :=
  String.ofList (l.written.toList.reverse.takeWhile fun c => c ≠ '"' && c ≠ '#').reverse

/-- A character as it is written between quotation marks. -/
def escape (c : Char) : List Char :=
  match c with
  | '"' => ['\\', '"']
  | '\\' => ['\\', '\\']
  | '\n' => ['\\', 'n']
  | '\r' => ['\\', 'r']
  | '\t' => ['\\', 't']
  | '\x00' => ['\\', '0']
  | _ => [c]

def ofText (s : String) : StringLiteral :=
  ⟨String.ofList ('"' :: (s.toList.flatMap escape ++ ['"']))⟩

end StringLiteral

end TableJoin.Declaration
