import TableJoin.Declaration.Token
import TableJoin.Numeral.Digits

/-!
Numbered members, as in `pair.0.1`.  A text with two numbers in a row is cut
into lexemes as one number with a fraction; where it names members it is taken
apart again, and each number is written as plain decimal digits.
-/

namespace TableJoin.Declaration

def reserved : List String :=
  ["_", "abstract", "as", "async", "await", "become", "box", "break", "const", "continue",
   "crate", "do", "dyn", "else", "enum", "extern", "false", "final", "fn", "for", "if", "impl",
   "in", "let", "loop", "macro", "match", "mod", "move", "mut", "override", "priv", "pub", "ref",
   "return", "self", "Self", "static", "struct", "super", "trait", "true", "try", "type",
   "typeof", "unsafe", "unsized", "use", "virtual", "where", "while", "yield"]

def pathWords : List String := ["crate", "self", "Self", "super"]

namespace Member

/-- The number that digits spell, in the base they state or else in base ten;
underscores do not count. -/
def number? (cs : List Char) : Option Nat :=
  let inBase := fun (base : Nat) (digits : List Char) =>
    (digits.filter (· ≠ '_')).foldlM (fun n c =>
      (Numeral.baseDigit? base c).map fun d => n * base + d) 0
  match cs with
  | '0' :: 'x' :: digits => inBase 16 digits
  | '0' :: 'o' :: digits => inBase 8 digits
  | '0' :: 'b' :: digits => inBase 2 digits
  | _ => inBase 10 cs

/-- The digits behind an exponent sign are such: there is at least one, or a sign. -/
def isExponent (hasDigit : Bool) : List Char → Bool
  | [] => hasDigit
  | c :: cs =>
    if c = '_' then isExponent hasDigit cs
    else if c = '+' || c = '-' then true
    else if c.isDigit then isExponent true cs
    else hasDigit

/-- The number that digits spell up to the suffix, and the suffix, given what the digits
in front spell, if there are any.  A fraction or an exponent makes it no integer. -/
def integerFrom (base : Nat) (before? : Option Nat) : List Char → Option (Nat × List Char)
  | [] => before?.map fun n => (n, [])
  | c :: cs =>
    if c = '_' then integerFrom base before? cs
    else
      match Numeral.baseDigit? (max base 10) c with
      | some d => if d < base then integerFrom base (some (before?.getD 0 * base + d)) cs else none
      | none =>
        if base = 10 && (c = '.' || ((c = 'e' || c = 'E') && isExponent false cs)) then none
        else before?.map fun n => (n, c :: cs)

/-- The number and the suffix of an integer; none for another literal. -/
def integer? (cs : List Char) : Option (Nat × List Char) :=
  match cs with
  | '0' :: 'x' :: digits => integerFrom 16 none digits
  | '0' :: 'o' :: digits => integerFrom 8 none digits
  | '0' :: 'b' :: digits => integerFrom 2 none digits
  | c :: _ => if c.isDigit then integerFrom 10 none cs else none
  | [] => none

/-- The literal is a number that is no integer. -/
def isFraction (text : String) : Bool :=
  text.toList.head?.any Char.isDigit && (integer? text.toList).isNone

/-- One number as it is written for a member; what spells no number stays. -/
def writePart (part : List Char) : Token :=
  .literal (String.ofList (((number? part).map Numeral.digits).getD part))

/-- The tokens of the members that a literal names: its parts between points, and the
points.  A point may stand last. -/
def ofLiteral (text : String) : List Token :=
  let cs := text.toList
  if cs.head?.any Char.isDigit then
    let parts := (cs.splitOn '.').map fun part => if part.isEmpty then [] else [writePart part]
    (parts.intersperse [.mark '.']).flatten
  else [.literal text]

end Member

namespace Token

/-- The word can be the last of a path that names rules. -/
def isRuleName (w : String) : Bool :=
  w ∉ reserved || w ∈ pathWords

/-- The tokens in brackets stay as they are behind these, given from the last: they
belong to rules given by name, or to an attribute. -/
def keepsGroup (b : Bracket) (behind : List Token) : Bool :=
  match behind with
  | .mark '!' :: .word w :: _ | .word _ :: .mark '!' :: .word w :: _ => isRuleName w
  | .mark '#' :: _ | .mark '!' :: .mark '#' :: _ => b = .square
  | _ => false

/-- These, given from the last, end with a single point, and not with the two of a
range. -/
def endsWithPoint : List Token → Bool
  | .mark '.' :: .mark '.' :: _ => false
  | .mark '.' :: _ => true
  | _ => false

mutual

/-- The token behind the given ones with its numbered members taken apart. -/
def splitMembers (behind : List Token) : Token → List Token
  | .group b inside =>
    [.group b (if keepsGroup b behind then inside else splitMembersAll [] inside)]
  | .literal text => if endsWithPoint behind then Member.ofLiteral text else [.literal text]
  | .word w => [.word w]
  | .mark c => [.mark c]
termination_by structural t => t

/-- The tokens with their numbered members taken apart: a literal behind a single
point names members. -/
def splitMembersAll (behind : List Token) : List Token → List Token
  | [] => []
  | t :: ts => t.splitMembers behind ++ splitMembersAll (t :: behind) ts
termination_by structural ts => ts

end

end Token

/-- The tokens of a piece of code with its numbered members taken apart. -/
def withMembers (ts : List Token) : List Token :=
  Token.splitMembersAll [] ts

end TableJoin.Declaration
