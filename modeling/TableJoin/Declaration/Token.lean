/-!
Token trees: the smallest parts of a Rust text, with what stands between two
brackets as one token.
-/

namespace TableJoin.Declaration

inductive Bracket where
  | round
  | square
  | curly
deriving DecidableEq, Repr

namespace Bracket

def opening : Bracket → Char
  | .round => '('
  | .square => '['
  | .curly => '\x7b'

def closing : Bracket → Char
  | .round => ')'
  | .square => ']'
  | .curly => '\x7d'

end Bracket

/-- The tokens.  A mark is a single punctuation character: longer operators are
rows of marks, and a lifetime is an apostrophe before a word. -/
inductive Token where
  /-- An identifier or keyword, as written. -/
  | word (text : String)
  | mark (c : Char)
  /-- A number, character or string, as written. -/
  | literal (text : String)
  | group (bracket : Bracket) (inside : List Token)

namespace Token

mutual

/-- Tokens are equal when they are written alike. -/
def decEq : (a b : Token) → Decidable (a = b)
  | .word s, .word t =>
    if h : s = t then isTrue (by rw [h]) else isFalse fun e => h (by injection e)
  | .mark c, .mark d =>
    if h : c = d then isTrue (by rw [h]) else isFalse fun e => h (by injection e)
  | .literal s, .literal t =>
    if h : s = t then isTrue (by rw [h]) else isFalse fun e => h (by injection e)
  | .group k xs, .group l ys =>
    if h : k = l then
      match decEqList xs ys with
      | isTrue h' => isTrue (by rw [h, h'])
      | isFalse h' => isFalse fun e => h' (by injection e)
    else isFalse fun e => h (by injection e)
  | .word _, .mark _ | .word _, .literal _ | .word _, .group _ _ => isFalse fun e => by injection e
  | .mark _, .word _ | .mark _, .literal _ | .mark _, .group _ _ => isFalse fun e => by injection e
  | .literal _, .word _ | .literal _, .mark _ | .literal _, .group _ _ =>
    isFalse fun e => by injection e
  | .group _ _, .word _ | .group _ _, .mark _ | .group _ _, .literal _ =>
    isFalse fun e => by injection e
termination_by structural a => a

def decEqList : (a b : List Token) → Decidable (a = b)
  | [], [] => isTrue rfl
  | x :: xs, y :: ys =>
    match decEq x y, decEqList xs ys with
    | isTrue h, isTrue h' => isTrue (by rw [h, h'])
    | isFalse h, _ => isFalse fun e => h (by injection e)
    | _, isFalse h => isFalse fun e => h (by injection e)
  | [], _ :: _ => isFalse fun e => by injection e
  | _ :: _, [] => isFalse fun e => by injection e
termination_by structural a => a

end

instance : DecidableEq Token := decEq

def isMark (c : Char) : Token → Bool
  | .mark d => c == d
  | _ => false

def isGroup (b : Bracket) : Token → Bool
  | .group b' _ => b == b'
  | _ => false

mutual

def pieces : Token → List String
  | .word s => [s]
  | .mark c => [String.singleton c]
  | .literal s => [s]
  | .group b inside =>
    String.singleton b.opening :: (piecesAll inside ++ [String.singleton b.closing])
termination_by structural t => t

def piecesAll : List Token → List String
  | [] => []
  | t :: ts => t.pieces ++ piecesAll ts
termination_by structural ts => ts

end

/-- The tokens written out, one space between any two texts. -/
def render (ts : List Token) : String :=
  " ".intercalate (piecesAll ts)

end Token

end TableJoin.Declaration
