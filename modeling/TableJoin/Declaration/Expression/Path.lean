import TableJoin.Declaration.Expression.Attributes

/-!
Paths: segments between double colons, each perhaps with generic arguments.  Among
the arguments lifetimes are written first.
-/

namespace TableJoin.Declaration

namespace Expression

open Reader TokenTree

/-- What a path is, as far as it matters for what may follow. -/
structure PathForm where
  /-- The path goes through a type in angle brackets. -/
  isQualified : Bool
  /-- Colons stand in front. -/
  isAbsolute : Bool
  /-- For each segment whether it has arguments. -/
  arguments : List Bool
deriving DecidableEq, Repr

namespace PathForm

def isBare (p : PathForm) : Bool :=
  !p.isQualified && !p.arguments.any id

def isOpen (p : PathForm) : Bool :=
  p.arguments.getLast? = some false

def isSegment (p : PathForm) : Bool :=
  !p.isQualified && !p.isAbsolute && p.arguments.length = 1

end PathForm

/-- A generic argument as it is written. -/
structure Argument where
  isLifetime : Bool
  tokens : List Token
  /-- A comma follows. -/
  isClosed : Bool
deriving DecidableEq

namespace Argument

/-- The argument with its comma, behind another that may still need its own. -/
def write (a : Argument) (afterOpen : Bool) : List Token :=
  (if afterOpen then [.mark ','] else []) ++ a.tokens ++ (if a.isClosed then [.mark ','] else [])

def writeAll (afterOpen : Bool) : List Argument → List Token
  | [] => []
  | a :: rest => a.write afterOpen ++ writeAll (!a.isClosed) rest

def arrange (arguments : List Argument) : List Token :=
  writeAll false (arguments.filter (·.isLifetime) ++ arguments.filter (!·.isLifetime))

end Argument

variable (nested : Nested)

/-- A constant can stand here as an argument: a literal or a block. -/
def beginsConstant (ts : List TokenTree) : Bool :=
  startsWithLiteral ts || startsWithGroup .curly ts

def constant : Reader Unit := do
  if startsWithLiteral (← rest) then literal
  else
    let _ ← nested (.block true)

/-- Bounds behind a colon, up to one of these marks. -/
def boundsBefore (ends : List String) : Nat → Reader Unit
  | 0 => return
  | fuel + 1 => do
    let ts ← rest
    if ends.any (startsWith · ts) then return
    let _ ← nested .bound
    if ← takes "+" then boundsBefore ends fuel

/-- A generic argument: a lifetime, a constant or a type, or what a type inside is or
is bound by.  The result tells whether it is a lifetime. -/
def argument : Reader Bool := do
  let ts ← rest
  if startsWithLifetime ts && !startsWith "+" (ts.drop 2) then
    take 2
    return true
  else if beginsConstant ts then
    constant nested
    return false
  else
    if (← nested (.type true)) = .segment then
      if ← takes "=" then
        if beginsConstant (← rest) then constant nested else plainType nested
      else if ← takes ":" then boundsBefore nested [",", ">"] (← rest).length
    return false

/-- The generic arguments up to the closing mark. -/
def argumentList : Nat → Reader (List Argument)
  | 0 => return []
  | fuel + 1 => do
    if startsWith ">" (← rest) then return []
    let (isLifetime, tokens) ← captured (argument nested)
    if startsWith ">" (← rest) then return [⟨isLifetime, tokens, false⟩]
    if !startsWith "," (← rest) then expected (.mark ",")
    skip 1
    return ⟨isLifetime, tokens, true⟩ :: (← argumentList fuel)

def genericArguments : Reader Unit := do
  pass "<"
  let arguments ← argumentList nested (← rest).length
  write (Argument.arrange arguments)
  pass ">"

/-- The words that are segments without arguments. -/
def bareWords : List String := ["super", "self", "crate", "try"]

/-- A segment.  In an expression its arguments stand behind colons.  The result tells
whether it has arguments. -/
def segment (inExpression : Bool) : Reader Bool := do
  match ← rest with
  | .word w :: ts => do
    if w ∈ bareWords then
      take 1
      return false
    if w ≠ "Self" && w ∈ reserved then throw (.reservedWord w)
    take 1
    let opens := startsWith "<" ts && !startsWith "<=" ts && !startsWith "<<=" ts
    if (!inExpression && opens) || (startsWith "::" ts && startsWith "<" (ts.drop 2)) then
      let _ ← takes "::"
      genericArguments nested
      return true
    else return false
  | _ => expected .identifier

/-- The segments behind the first.  Colons before parentheses end a path, unless it goes
through a type. -/
def moreSegments (inExpression isQualified : Bool) : Nat → Reader (List Bool)
  | 0 => return []
  | fuel + 1 => do
    let ts ← rest
    if startsWith "::" ts && (isQualified || !startsWithGroup .round (ts.drop 2)) then
      take 2
      let first ← segment nested inExpression
      return first :: (← moreSegments inExpression isQualified fuel)
    else return []

def segments (inExpression isQualified : Bool) : Reader (List Bool) := do
  let first ← segment nested inExpression
  return first :: (← moreSegments nested inExpression isQualified (← rest).length)

/-- A path that does not go through a type. -/
def simplePath (inExpression : Bool) : Reader PathForm := do
  let isAbsolute ← takes "::"
  return ⟨false, isAbsolute, ← segments nested inExpression false⟩

def path (inExpression : Bool) : Reader PathForm := do
  if ← takes "<" then
    plainType nested
    if ← takesWord "as" then
      let _ ← simplePath nested false
    pass ">"
    pass "::"
    return ⟨true, false, ← segments nested inExpression true⟩
  else simplePath nested inExpression

end Expression

end TableJoin.Declaration
