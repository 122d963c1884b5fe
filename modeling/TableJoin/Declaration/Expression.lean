import TableJoin.Declaration.Expression.Operand

/-!
Expressions: operands with operators between them.  A text is one expression
when nothing is left over, neither behind it nor in brackets inside it.
-/

namespace TableJoin.Declaration

namespace Expression

open Reader TokenTree

/-- What must not follow a cast, if it does follow. -/
def castEnd? (ts : List TokenTree) : Option CastEnd :=
  if startsWithPoint ts then
    match ts.drop 1 with
    | .word "await" :: _ => some .await
    | .word w :: after =>
      if w ∉ reserved && (startsWith "::" after || startsWithGroup .round after) then
        some .methodCall
      else some .fieldAccess
    | _ => some .fieldAccess
  else if startsWith "?" ts then some .questionMark
  else if startsWithGroup .square ts then some .indexing
  else if startsWithGroup .round ts then some .functionCall
  else none

variable (nested : Nested)

/-- The operators behind an operand that bind at least as tightly as the level, with
the operands behind them.  Every operator takes a token, so the number of tokens is
fuel enough. -/
def operators (structs : Bool) (base : Level) : Nat → Shape → Reader Shape
  | 0, s => return s
  | fuel + 1, s => do
    if s = .range then return s
    let ts ← rest
    match Operator.first? ts with
    | some (length, level) => do
      if level < base then return s
      if level = Level.comparison && s = .comparison then throw .chainedComparison
      take length
      let _ ← nested (.expression (.ofOperand structs) level.ofRight)
      operators structs base fuel (if level = Level.comparison then .comparison else .other)
    | none =>
      if Level.range ≥ base && startsWith ".." ts then
        rangeBehind nested structs
        return .range
      else if Level.cast ≥ base && startsWithWord "as" ts then
        take 1
        let _ ← nested (.type false)
        match castEnd? (← rest) with
        | some behind => throw (.unclearCast behind)
        | none => operators structs base fuel .other
      else return s

/-- The reader of what ends a statement with its block, if such begins here. -/
def statementForm? (ts : List TokenTree) : Option (Reader Unit) :=
  if startsWithLifetime ts then some (labelled nested) else blockForm? nested ts

/-- The expression at a place.  A statement that begins with a block goes on behind it
only with a member or a question mark. -/
def read (place : Place) (base : Level) : Reader Shape := do
  let structs := place.allowsRecords
  if place = .statement then
    let _ ← attributes nested
    match statementForm? nested (← rest) with
    | some x => do
      x
      let after ← rest
      if startsWithPoint after || startsWith "?" after then
        let s ← trailers nested after.length .block
        operators nested structs base after.length s
      else return .block
    | none => do
      let s ← operand nested structs
      operators nested structs base (← rest).length s
  else
    let s ← operand nested structs
    operators nested structs base (← rest).length s

def readPart : Part → Reader Shape
  | .expression place base => read nested place base
  | .operand structs => operand nested structs
  | .block attributed => do
    block nested attributed
    return .block
  | .type plus => type nested plus
  | .bound => bound nested
  | .pattern => pattern nested member

/-- The parts of an expression, nested at most this deep. -/
def nestedTo : Nat → Nested
  | 0 => fun _ => expected .expression
  | depth + 1 => readPart (nestedTo depth)

/-- The tokens of a text that is one expression.  A part inside another begins behind
its first character, so parts are nested no deeper than the text is long. -/
def ofText (s : String) : Except ExpressionFault (List Token) := do
  let some ts := trees s | throw .notTokens
  runAll (whole (nestedTo (s.length + 1))) ts

/-- The tokens of the expression that a string literal spells. -/
def ofLiteral (l : StringLiteral) : Except ExpressionFault (List Token) := do
  let ts ← ofText l.value
  if !l.suffix.isEmpty then throw (.suffixedText l.suffix)
  return ts

def writeType (ts : List Token) : List Token :=
  let depth := (Token.piecesAll ts).length + 1
  match runAll (plainType (nestedTo depth)) (TokenTree.ofTokens ts) with
  | .ok written => written
  | .error _ => withMembers ts

end Expression

end TableJoin.Declaration
