import TableJoin.Declaration.Lexeme.Number
import TableJoin.Declaration.Lexeme.Quotation
import TableJoin.Declaration.TokenTree

/-!
Lexemes: a Rust text cut into words, marks, literals and single brackets, and
the brackets then matched into token trees.  Blanks and comments separate
lexemes; a comment that documents an item stands for an attribute, and other
comments are passed over.
-/

namespace TableJoin.Declaration

open Text (isBlank beginsIdentifier)

/-- What a text is cut into before brackets are matched. -/
inductive Lexeme where
  | plain (t : TokenTree)
  | opening (b : Bracket)
  | closing (b : Bracket)

namespace Lexeme

def isPunctuation (c : Char) : Bool :=
  c ∈ "~!@#$%^&*-=+|:;,<.>/?".toList

def isSpace (c : Char) : Bool :=
  isBlank c || c = '\u200e' || c = '\u200f'

/-- A mark begins here; the apostrophe of a lifetime is one, and the sign that begins
a comment is none. -/
def beginsMark : List Char → Bool
  | '/' :: '/' :: _ | '/' :: '*' :: _ => false
  | c :: _ => isPunctuation c || c = '\''
  | [] => false

/-- What a block comment of this depth holds before its end, and what follows. -/
def cutComment (depth : Nat) : List Char → Option (List Char × List Char)
  | '*' :: '/' :: cs =>
    match depth with
    | 0 => some ([], cs)
    | d + 1 => (cutComment d cs).map fun (inside, rest) => ('*' :: '/' :: inside, rest)
  | '/' :: '*' :: cs =>
    (cutComment (depth + 1) cs).map fun (inside, rest) => ('/' :: '*' :: inside, rest)
  | c :: cs => (cutComment depth cs).map fun (inside, rest) => (c :: inside, rest)
  | [] => none

/-- A literal with the word that may follow it as its suffix. -/
def literal (cs rest : List Char) : Lexeme × List Char :=
  let (suffix, rest) := cutSuffix rest
  (.plain (.literal (String.ofList (cs ++ suffix))), rest)

def neverRaw : List String := ["_", "crate", "self", "Self", "super"]

/-- The name behind the apostrophe of a lifetime begins here: it may be raw, and neither
a second apostrophe nor, behind a plain name, a number sign follows. -/
def beginsLifetime : List Char → Bool
  | 'r' :: '#' :: cs =>
    let (name, rest) := cutWord cs
    cs.head?.any beginsIdentifier && String.ofList name ∉ neverRaw && rest.head? ≠ some '\''
  | cs =>
    let rest := (cutWord cs).2
    cs.head?.any beginsIdentifier && rest.head? ≠ some '\'' && rest.head? ≠ some '#'

/-- What begins with an apostrophe: a character, or else the mark of a lifetime,
which has a name behind it. -/
def afterApostrophe (cs : List Char) : Option (Lexeme × List Char) :=
  match Quotation.characters.cutSingle cs with
  | some (inside, rest) => some (literal ('\'' :: inside) rest)
  | none =>
    if beginsLifetime cs then some (.plain (.mark '\'' true), cs) else none

/-- The identifier with the sign that makes a word raw in front of it. -/
def rawIdentifier (cs : List Char) : Option (Lexeme × List Char) :=
  let (word, rest) := cutWord cs
  if String.ofList word ∈ neverRaw then none
  else some (.plain (.word (String.ofList ("r#".toList ++ word))), rest)

/-- What begins with a word: a string or byte with these letters in front, a raw
identifier, or the word itself. -/
def afterWord (word rest : List Char) : Option (Lexeme × List Char) :=
  let name := String.ofList word
  let quoted := fun (q : Quotation) (body : List Char) =>
    (q.cutText body).map fun (inside, rest) => literal (word ++ ['"'] ++ inside) rest
  let raw := fun (q : Quotation) =>
    (cutRaw q rest).map fun (raw, rest) => literal (word ++ raw) rest
  match name, rest with
  | "b", '"' :: body => quoted .bytes body
  | "c", '"' :: body => quoted .mixed body
  | "b", '\'' :: body =>
    (Quotation.bytes.cutSingle body).map fun (inside, rest) =>
      literal (word ++ ['\''] ++ inside) rest
  | "r", '#' :: body =>
    if body.head?.any beginsIdentifier then rawIdentifier body else raw .characters
  | "r", '"' :: _ => raw .characters
  | "br", '"' :: _ | "br", '#' :: _ => raw .bytes
  | "cr", '"' :: _ | "cr", '#' :: _ => raw .mixed
  | _, _ => some (.plain (.word name), rest)

/-- The bracket a character opens or closes. -/
def bracket? (c : Char) : Option Lexeme :=
  let all := [Bracket.round, .square, .curly]
  ((all.find? (·.opening = c)).map .opening).or ((all.find? (·.closing = c)).map .closing)

/-- What stands behind the bracket of the literal that is written for unreadable code. -/
def unreadable : List Char := "/*ERROR*/)".toList

/-- The lexeme that begins with this character, and what follows it. -/
def next (c : Char) (cs : List Char) : Option (Lexeme × List Char) :=
  if c = '"' then
    (Quotation.characters.cutText cs).map fun (inside, rest) => literal ('"' :: inside) rest
  else if c = '\'' then afterApostrophe cs
  else if c.isDigit then
    (Number.cut (c :: cs)).map fun (number, rest) =>
      (.plain (.literal (String.ofList number)), rest)
  else if beginsIdentifier c then
    let (word, rest) := cutWord (c :: cs)
    afterWord word rest
  else if c = '(' && unreadable.isPrefixOf cs then
    some (.plain (.literal (String.ofList (c :: unreadable))), cs.drop unreadable.length)
  else match bracket? c with
    | some b => some (b, cs)
    | none => if isPunctuation c then some (.plain (.mark c (beginsMark cs)), cs) else none

/-- The attribute that a documenting comment with this text stands for; an inner one
documents what it stands in. -/
def documentation (isInner : Bool) (text : List Char) : List Lexeme :=
  let sign := [plain (.mark '#' false)] ++ if isInner then [plain (.mark '!' false)] else []
  sign ++ [opening .square, plain (.word "doc"), plain (.mark '=' false),
    plain (.literal (StringLiteral.ofText (String.ofList text)).written), closing .square]

/-- The text up to the end of the line, and what follows. -/
def cutLine (cs : List Char) : List Char × List Char :=
  let line := cs.takeWhile (· ≠ '\n')
  let rest := cs.drop line.length
  (if !rest.isEmpty && line.getLast? = some '\r' then line.dropLast else line, rest)

/-- The lexemes of the comment that begins here, if one does, and what follows it. -/
def comment? (cs : List Char) : Option (Option (List Lexeme × List Char)) :=
  let dropped := fun (comment : List Char × List Char) => ([], comment.2)
  let documents := fun (isInner : Bool) (comment : List Char × List Char) =>
    if hasWholeLines comment.1 then some (documentation isInner comment.1, comment.2) else none
  match cs with
  | '/' :: '/' :: cs =>
    some <|
      match cs with
      | '/' :: '/' :: _ => some (dropped (cutLine cs))
      | '/' :: cs => documents false (cutLine cs)
      | '!' :: cs => documents true (cutLine cs)
      | _ => some (dropped (cutLine cs))
  | '/' :: '*' :: cs =>
    some <|
      match cs with
      | '*' :: '*' :: _ | '*' :: '/' :: _ => (cutComment 0 cs).map dropped
      | '*' :: cs => (cutComment 0 cs).bind (documents false)
      | '!' :: cs => (cutComment 0 cs).bind (documents true)
      | _ => (cutComment 0 cs).map dropped
  | _ => none

/-- The lexemes of a text, if it has no other parts.  Every step takes at least
one character, so the length of the text is fuel enough. -/
def allFrom : Nat → List Char → Option (List Lexeme)
  | _, [] => some []
  | 0, _ => none
  | fuel + 1, c :: cs =>
    if isSpace c then allFrom fuel cs
    else
      match comment? (c :: cs) with
      | some found => found.bind fun (lexemes, rest) => (allFrom fuel rest).map (lexemes ++ ·)
      | none => (next c cs).bind fun (lexeme, rest) => (allFrom fuel rest).map (lexeme :: ·)

def all (cs : List Char) : Option (List Lexeme) :=
  allFrom cs.length cs

/-- Matches brackets: the groups still open, innermost first, each with the trees
it holds so far in reverse. -/
def matchBrackets (opened : List (Bracket × List TokenTree)) (held : List TokenTree) :
    List Lexeme → Option (List TokenTree)
  | [] => if opened.isEmpty then some held.reverse else none
  | .plain t :: rest => matchBrackets opened (t :: held) rest
  | .opening b :: rest => matchBrackets ((b, held) :: opened) [] rest
  | .closing b :: rest =>
    match opened with
    | (b', before) :: outer =>
      if b = b' then matchBrackets outer (.group b held.reverse :: before) rest else none
    | [] => none

end Lexeme

/-- The token trees of a text, before which a byte order mark may stand; none if a part
is no lexeme or a bracket has no partner. -/
def trees (s : String) : Option (List TokenTree) :=
  let cs := s.toList
  let marked := cs.head? = some '\ufeff'
  (Lexeme.all (if marked then cs.drop 1 else cs)).bind (Lexeme.matchBrackets [] [])

def tokens (s : String) : Option (List Token) :=
  (trees s).map TokenTree.tokens

end TableJoin.Declaration
