import TableJoin.Declaration.Token

/-!
Token trees as they stand in a text: a mark tells whether another mark follows it
at once, so that a row of marks can be told from marks with blanks between them.
-/

namespace TableJoin.Declaration

/-- A token as it stands in a text. -/
inductive TokenTree where
  | word (text : String)
  /-- A mark; joined, if another mark follows at once. -/
  | mark (c : Char) (joined : Bool)
  | literal (text : String)
  | group (bracket : Bracket) (inside : List TokenTree)

namespace TokenTree

mutual

/-- The token, however far from the next. -/
def token : TokenTree → Token
  | .word s => .word s
  | .mark c _ => .mark c
  | .literal s => .literal s
  | .group b inside => .group b (tokens inside)
termination_by structural t => t

def tokens : List TokenTree → List Token
  | [] => []
  | t :: ts => t.token :: tokens ts
termination_by structural ts => ts

end

mutual

/-- The tree of a token, each mark joined to the next. -/
def ofToken : Token → TokenTree
  | .word s => .word s
  | .mark c => .mark c true
  | .literal s => .literal s
  | .group b inside => .group b (ofTokens inside)
termination_by structural t => t

def ofTokens : List Token → List TokenTree
  | [] => []
  | t :: ts => ofToken t :: ofTokens ts
termination_by structural ts => ts

end

mutual

theorem token_ofToken (t : Token) : (ofToken t).token = t := by
  cases t with
  | group b inside => simp [ofToken, token, tokens_ofTokens inside]
  | _ => rfl
termination_by structural t

theorem tokens_ofTokens (ts : List Token) : tokens (ofTokens ts) = ts := by
  cases ts with
  | nil => rfl
  | cons t ts => simp [ofTokens, tokens, token_ofToken t, tokens_ofTokens ts]
termination_by structural ts

end

def isWord (s : String) : TokenTree → Bool
  | .word t => s == t
  | _ => false

def isGroup (b : Bracket) : TokenTree → Bool
  | .group b' _ => b == b'
  | _ => false

/-- What follows these marks, if they stand in front, each joined to the next. -/
def afterMarks : List Char → List TokenTree → Option (List TokenTree)
  | [], ts => some ts
  | [c], .mark d _ :: ts => if c = d then some ts else none
  | c :: cs, .mark d true :: ts => if c = d then afterMarks cs ts else none
  | _, _ => none

def startsWith (marks : String) (ts : List TokenTree) : Bool :=
  (afterMarks marks.toList ts).isSome

/-- The trees begin with a single point, and not with the two of a range. -/
def startsWithPoint (ts : List TokenTree) : Bool :=
  startsWith "." ts && !startsWith ".." ts

def startsWithWord (w : String) (ts : List TokenTree) : Bool :=
  ts.head?.any (·.isWord w)

def startsWithGroup (b : Bracket) (ts : List TokenTree) : Bool :=
  ts.head?.any (·.isGroup b)

def startsWithLifetime : List TokenTree → Bool
  | .mark '\'' _ :: .word _ :: _ => true
  | _ => false

/-- How many trees a literal in front takes, if one stands there: truth values are
literals, and a number may have a minus sign. -/
def literalLength? : List TokenTree → Option Nat
  | .literal _ :: _ | .word "true" :: _ | .word "false" :: _ => some 1
  | .mark '-' _ :: .literal text :: _ =>
    if text.toList.head?.any Char.isDigit then some 2 else none
  | _ => none

def startsWithLiteral (ts : List TokenTree) : Bool :=
  (literalLength? ts).isSome

end TokenTree

end TableJoin.Declaration
