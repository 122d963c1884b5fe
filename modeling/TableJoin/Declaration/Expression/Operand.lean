import TableJoin.Declaration.Expression.Item
import TableJoin.Declaration.Expression.Pattern
import TableJoin.Declaration.Expression.Types
import TableJoin.Declaration.Lexeme

/-!
Operands: what an expression is made of between its operators, with the calls,
members and indices behind it.
-/

namespace TableJoin.Declaration

namespace Expression

open Reader TokenTree

variable (nested : Nested)

def arguments : Reader Unit :=
  commaList (whole nested)

/-- The items of an array: expressions, or one expression and how often it stands. -/
def arrayItems : Reader Unit := do
  if ← atEnd then return
  whole nested
  if ← atEnd then return
  if ← takes "," then arguments nested
  else if ← takes ";" then whole nested
  else expected .commaOrSemicolon

def numberedMember (isNegative : Bool) (number : Nat) (suffix : List Char) :
    Except ExpressionFault Token :=
  if !suffix.isEmpty then .error .suffixedMember
  else if isNegative then .error .negativeMember
  else if number < UInt32.size then .ok (.literal (String.ofList (Numeral.digits number)))
  else .error .largeMember

/-- The name or number of a member.  The result tells whether it is a name. -/
def member : Reader Bool := do
  let ts ← rest
  let numbered := fun (length : Nat) (isNegative : Bool) (text : String) => do
    match Member.integer? text.toList with
    | some (number, suffix) => do
      write [← numberedMember isNegative number suffix]
      skip length
      return false
    | none => expected .member
  match ts with
  | .word w :: _ => do
    if w ∈ reserved then expected .member
    take 1
    return true
  | .literal text :: _ => numbered 1 false text
  | .mark '-' _ :: .literal text :: _ => numbered 2 true text
  | _ => expected .member

/-- What is written for one part of a number with a fraction that stands for members. -/
def fractionPart (isNegative : Bool) (part : String) : Except ExpressionFault Token :=
  match trees part with
  | some (.literal text :: _) =>
    match Member.integer? text.toList with
    | some (number, suffix) => numberedMember isNegative number suffix
    | none => .error (.expected .integer false)
  | _ => .error .notTokens

/-- A number with a fraction, which stands for two members, or for one and the point
behind it.  The result tells whether the point is missing behind it. -/
def fractionMembers (isNegative : Bool) (text : String) : Reader Bool := do
  let parts := (text.splitOn ".").filter (!·.isEmpty)
  let members ← parts.mapM fun part => liftM (fractionPart isNegative part)
  let hasPoint := text.toList.getLast? = some '.'
  write ((members.intersperse (.mark '.')) ++ if hasPoint then [.mark '.'] else [])
  skip (if isNegative then 2 else 1)
  return !hasPoint

/-- The number with a fraction that stands here, and whether it is negative. -/
def fraction? (ts : List TokenTree) : Option (Bool × String) :=
  match ts with
  | .literal text :: _ => if Member.isFraction text then some (false, text) else none
  | .mark '-' _ :: .literal text :: _ =>
    if Member.isFraction text then some (true, text) else none
  | _ => none

/-- What stands behind the name of a member: the arguments of a method. -/
def methodCall : Reader Unit := do
  if ← takes "::" then
    genericArguments nested
    inside .round (arguments nested)
  else if startsWithGroup .round (← rest) then inside .round (arguments nested)

def behindPoint : Reader Unit := do
  let isRead ←
    match fraction? (← rest) with
    | some (isNegative, text) => fractionMembers isNegative text
    | none => pure false
  if isRead then return
  if ← takesWord "await" then return
  if ← member then methodCall nested

/-- Calls, indices, members and question marks behind an operand. -/
def trailers : Nat → Shape → Reader Shape
  | 0, s => return s
  | fuel + 1, s => do
    let ts ← rest
    if startsWithGroup .round ts then
      inside .round (arguments nested)
      trailers fuel .other
    else if startsWithGroup .square ts then
      inside .square (whole nested)
      trailers fuel .other
    else if s ≠ .range && startsWith "?" ts then
      take 1
      trailers fuel .other
    else if s ≠ .range && startsWithPoint ts then
      take 1
      behindPoint nested
      trailers fuel .other
    else return s

def fieldValue : Reader Unit := do
  let _ ← attributes nested
  let isNamed ← member
  if !isNamed || startsWith ":" (← rest) then
    pass ":"
    whole nested

/-- The fields of a record; two points and an expression may stand last. -/
def recordFields : Nat → Reader Unit
  | 0 => return
  | fuel + 1 => do
    if ← atEnd then return
    if ← takes ".." then
      if ← atEnd then return
      whole nested
    else
      fieldValue nested
      if ← atEnd then return
      pass ","
      recordFields fuel

/-- A path, and the brackets that make it a call of rules by name or a record. -/
def pathOperand (structs : Bool) : Reader Shape := do
  let form ← path nested true
  let ts ← rest
  if startsWith "!" ts && !startsWith "!=" ts && form.isBare then
    take 1
    return if (← delimited) = .curly then .curlyCall else .other
  else if structs && startsWithGroup .curly ts then
    inside .curly (do recordFields nested (← rest).length)
    return .other
  else return .other

def variableDeclaration : Reader Unit := do
  passWord "let"
  let _ ← nested .pattern
  if ← takes ":" then plainType nested
  if ← takes "=" then
    whole nested
    let endsCurly := (← get).written.head?.any (·.isGroup .curly)
    if !endsCurly then
      if ← takesWord "else" then plainBlock nested
  pass ";"

/-- A call of rules by name that declares an item. -/
def ruleItem : Reader Unit := do
  barePath
  pass "!"
  take 1
  if (← delimited) ≠ .curly then pass ";"

/-- A statement.  The result tells whether another may follow at once. -/
def statement : Reader Bool := do
  let _ ← attributes nested
  match ← restBehind? barePath with
  | some (.mark '!' _ :: .group .curly _ :: after) =>
    if !startsWithPoint after && !startsWith "?" after then
      barePath
      take 2
      let _ ← takes ";"
      return true
  | some (.mark '!' _ :: .word w :: _) =>
    if w = "try" || w ∉ reserved then
      ruleItem
      return true
  | _ => pure ()
  let ts ← rest
  if startsWithWord "let" ts then
    variableDeclaration nested
    return true
  else if beginsItem ts then
    item
    return true
  else
    let s ← nested (.expression .statement Level.lowest)
    if ← takes ";" then return true
    else return s = .block || s = .curlyCall

def statements : Nat → Reader Unit
  | 0 => return
  | fuel + 1 => do
    if ← takes ";" then statements fuel
    else if ← atEnd then return
    else
      let ended ← statement nested
      if ← atEnd then return
      if !ended then throw .openStatement
      statements fuel

def block (attributed : Bool) : Reader Unit :=
  inside .curly do
    if attributed then innerAttributes nested
    statements nested (← rest).length

/-- The condition, the block and the alternatives of `if`. -/
def conditional : Nat → Reader Unit
  | 0 => expected .expression
  | fuel + 1 => do
    passWord "if"
    condition nested
    block nested false
    if ← takesWord "else" then
      let ts ← rest
      if startsWithWord "if" ts then conditional fuel
      else if startsWithGroup .curly ts then block nested false
      else expected .alternative

/-- The arms of a match: a pattern, perhaps a condition, and an expression. -/
def matchArms : Nat → Reader Unit
  | 0 => return
  | fuel + 1 => do
    if ← atEnd then return
    let _ ← attributes nested
    let _ ← alternatives nested
    if ← takesWord "if" then whole nested
    pass "=>"
    let s ← nested (.expression .statement Level.lowest)
    if !(← takes ",") then
      if s ≠ .block then
        if ← atEnd then return
        expected (.mark ",")
    matchArms fuel

def forLoop : Reader Unit := do
  passWord "for"
  let _ ← alternatives nested
  passWord "in"
  condition nested
  block nested true

/-- The lifetimes of a closure stand behind this word, and no pattern. -/
def beginsBinder (ts : List TokenTree) : Bool :=
  startsWithWord "for" ts && startsWith "<" (ts.drop 1) &&
    (startsWithLifetime (ts.drop 2) || startsWith ">" (ts.drop 2))

/-- The reader of what ends with a block of its own, if such begins here. -/
def blockForm? (ts : List TokenTree) : Option (Reader Unit) :=
  match ts with
  | .group .curly _ :: _ => some (block nested true)
  | .word "if" :: _ => some (conditional nested ts.length)
  | .word "while" :: _ =>
    some do
      take 1
      condition nested
      block nested true
  | .word "for" :: _ => if beginsBinder ts then none else some (forLoop nested)
  | .word "loop" :: _ | .word "unsafe" :: _ | .word "const" :: .group .curly _ :: _ =>
    some do
      take 1
      block nested true
  | .word "try" :: .group .curly _ :: _ =>
    some do
      take 1
      block nested false
  | .word "match" :: _ =>
    some do
      take 1
      condition nested
      inside .curly do
        innerAttributes nested
        matchArms nested (← rest).length
  | _ => none

def labelled : Reader Unit := do
  take 2
  pass ":"
  let ts ← rest
  if startsWithWord "for" ts then forLoop nested
  else if startsWithGroup .curly ts || ["loop", "while"].any (startsWithWord · ts) then
    (blockForm? nested ts).getD (expected .labelled)
  else expected .labelled

/-- A parameter of a closure, perhaps with its type. -/
def closureParameter : Reader Unit := do
  let _ ← attributes nested
  let _ ← nested .pattern
  if ← takes ":" then plainType nested

/-- The parameters of a closure up to the closing bar. -/
def closureParameters : Nat → Reader Unit
  | 0 => return
  | fuel + 1 => do
    if startsWith "|" (← rest) then return
    closureParameter nested
    if startsWith "|" (← rest) then return
    pass ","
    closureParameters fuel

/-- A closure: its parameters between bars, then an expression, or its result and a
block. -/
def closure (structs : Bool) : Reader Unit := do
  let _ ← binder nested
  for w in ["const", "static", "async", "move"] do
    let _ ← takesWord w
  pass "|"
  closureParameters nested (← rest).length
  pass "|"
  if ← takes "->" then
    plainType nested
    block nested false
  else
    let _ ← nested (.expression (.ofOperand structs) Level.lowest)

/-- The range that begins here, given whether records are allowed in its upper bound; a
closed one needs it. -/
def rangeBehind (structs : Bool) : Reader Unit := do
  if startsWith "..." (← rest) then expected .rangeMark
  let isClosed ← takes "..="
  if !isClosed then pass ".."
  if isClosed || !Operator.endsRange structs (← rest) then
    let _ ← nested (.expression (.ofOperand structs) Level.range.ofRight)

/-- What a break leaves: a label, and a value. -/
def breakValue (structs : Bool) : Reader Unit := do
  let ts ← rest
  if startsWithLifetime ts then
    if startsWith ":" (ts.drop 2) then
      whole nested
      throw .labelledBreak
    take 2
  let ts ← rest
  if Operator.beginsOperand ts && (structs || !startsWithGroup .curly ts) then whole nested

/-- The value behind a word that may have one. -/
def value : Reader Unit := do
  if Operator.beginsOperand (← rest) then whole nested

/-- The reader of what begins with a word that begins an expression, and no path. -/
def keyword? (structs : Bool) (ts : List TokenTree) : Option (Reader Unit) :=
  let next := ts.drop 1
  match ts with
  | .word "true" :: _ | .word "false" :: _ | .word "_" :: _ => some (take 1)
  | .word "async" :: _ =>
    if startsWithGroup .curly next then
      some do
        take 1
        block nested false
    else if startsWithWord "move" next && startsWithGroup .curly (next.drop 1) then
      some do
        take 2
        block nested false
    else if startsWith "|" next || startsWithWord "move" next then some (closure nested structs)
    else none
  | .word "move" :: _ | .word "static" :: _ | .word "const" :: _ | .word "for" :: _ =>
    some (closure nested structs)
  | .word "break" :: _ =>
    some do
      take 1
      breakValue nested structs
  | .word "continue" :: _ => some (take (if startsWithLifetime next then 3 else 1))
  | .word "return" :: _ | .word "yield" :: _ =>
    some do
      take 1
      value nested
  | .word "become" :: _ =>
    some do
      take 1
      whole nested
  | .word "let" :: _ =>
    some do
      take 1
      let _ ← alternatives nested
      pass "="
      let _ ← nested (.expression (.ofOperand structs) Level.comparison)
  | .word "builtin" :: .mark '#' _ :: _ =>
    some do
      take 2
      name
      if startsWithGroup .round (← rest) then take 1 else expected (.group .round)
  | _ => none

def beginsPath (ts : List TokenTree) : Bool :=
  match ts with
  | .word "try" :: after => startsWith "!" after || startsWith "::" after
  | .word w :: _ => Token.isRuleName w
  | _ => startsWith "::" ts || startsWith "<" ts

/-- An operand without what may stand around it. -/
def atom (structs : Bool) : Reader Shape := do
  let ts ← rest
  match blockForm? nested ts with
  | some x => do
    x
    return .block
  | none =>
    match keyword? nested structs ts with
    | some x => do
      x
      return .other
    | none =>
      if beginsPath ts then pathOperand nested structs
      else
        match ts with
        | .literal _ :: _ => do
          take 1
          return .other
        | .group .round _ :: _ => do
          inside .round (arguments nested)
          return .other
        | .group .square _ :: _ => do
          inside .square (arrayItems nested)
          return .other
        | _ =>
          if startsWith ".." ts then
            rangeBehind nested structs
            return .range
          else if startsWith "|" ts then
            closure nested structs
            return .other
          else if startsWithLifetime ts then
            labelled nested
            return .block
          else expected .expression

/-- An operand with its unary operators and attributes in front, and its members,
calls and indices behind it. -/
def operand (structs : Bool) : Reader Shape := do
  let isAttributed ← attributes nested
  let ts ← rest
  if startsWith "&" ts then
    take 1
    if startsWithWord "raw" (ts.drop 1) &&
        ["const", "mut"].any (startsWithWord · (ts.drop 2)) then take 2
    else
      let _ ← takesWord "mut"
    let _ ← nested (.operand structs)
    return .other
  else if ["*", "!", "-"].any (startsWith · ts) then
    take 1
    let _ ← nested (.operand structs)
    return .other
  else
    let s ← atom nested structs
    let s ← trailers nested (← rest).length s
    if isAttributed && s = .range then throw .attributedRange
    return s

end Expression

end TableJoin.Declaration
