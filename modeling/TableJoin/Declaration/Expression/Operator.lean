import TableJoin.Declaration.TokenTree

/-!
Operators between two operands, and how tightly they bind.
-/

namespace TableJoin.Declaration

abbrev Level : Type := Nat

namespace Level

/-- Every operator binds at least this tightly. -/
def lowest : Level := 0

def assignment : Level := 1

def range : Level := 2

/-- The level of comparisons, which do not follow one another. -/
def comparison : Level := 6

def cast : Level := 13

/-- How tightly an operator has to bind to belong to the right operand of one of this
level.  Assignments group to the right, all others to the left. -/
def ofRight (level : Level) : Level :=
  if level = assignment then level else level + 1

end Level

namespace Operator

open TokenTree (afterMarks startsWith startsWithPoint startsWithGroup)

def all : List (String × Level) :=
  [("<<=", 1), (">>=", 1), ("+=", 1), ("-=", 1), ("*=", 1), ("/=", 1), ("%=", 1), ("^=", 1),
   ("&=", 1), ("|=", 1), ("&&", 4), ("||", 3), ("<<", 10), (">>", 10), ("==", 6), ("<=", 6),
   ("!=", 6), (">=", 6), ("+", 11), ("-", 11), ("*", 12), ("/", 12), ("%", 12), ("^", 8),
   ("&", 9), ("|", 7), ("<", 6), (">", 6), ("=", 1)]

/-- The operator in front: how many marks it has, and its level. -/
def first? (ts : List TokenTree) : Option (Nat × Level) :=
  if startsWith "=>" ts then none
  else all.findSome? fun (text, level) =>
    if startsWith text ts then some (text.length, level) else none

/-- The marks before which a range may end without a bound. -/
def boundaries : List String :=
  [",", ";", "?", "=", "+", "/", "%", "^", ">", "<=", "!=", "-=", "*=", "&=", "|=", "<<="]

/-- A range ends here without a bound.  Where records are not allowed, a curly bracket
ends it too. -/
def endsRange (structs : Bool) (ts : List TokenTree) : Bool :=
  ts.isEmpty || boundaries.any (startsWith · ts) || startsWithPoint ts ||
    TokenTree.startsWithWord "as" ts || (!structs && startsWithGroup .curly ts)

def beginsOperand (ts : List TokenTree) : Bool :=
  match ts with
  | [] => false
  | .word w :: _ => w ≠ "as"
  | .mark c _ :: _ =>
    match c with
    | '!' => !startsWith "!=" ts
    | '-' => !startsWith "-=" ts && !startsWith "->" ts
    | '*' => !startsWith "*=" ts
    | '|' => !startsWith "|=" ts
    | '&' => !startsWith "&=" ts
    | '<' => !startsWith "<=" ts && !startsWith "<<=" ts
    | '.' => startsWith ".." ts
    | ':' => startsWith "::" ts
    | '\'' | '#' => true
    | _ => false
  | _ => true

end Operator

end TableJoin.Declaration
