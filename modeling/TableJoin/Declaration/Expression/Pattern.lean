import TableJoin.Declaration.Expression.Path

/-!
Patterns: what a value is compared with and taken apart by.
-/

namespace TableJoin.Declaration

namespace Expression

open Reader TokenTree

variable (nested : Nested)

def moreAlternatives : Nat → Reader Bool
  | 0 => return false
  | fuel + 1 => do
    let ts ← rest
    if startsWith "|" ts && !startsWith "||" ts && !startsWith "|=" ts then
      take 1
      let _ ← nested .pattern
      let _ ← moreAlternatives fuel
      return true
    else return false

/-- A pattern, or several with bars between them; a bar may stand in front. -/
def alternatives : Reader Shape := do
  let isBarred ← takes "|"
  let first ← nested .pattern
  let isSeveral ← moreAlternatives nested (← rest).length
  return if isBarred || isSeveral then .other else first

/-- The bounds of a range of values may be left out before these marks. -/
def endsPatternRange (ts : List TokenTree) : Bool :=
  ts.isEmpty || ["|", "=", ",", ";"].any (startsWith · ts) ||
    (startsWith ":" ts && !startsWith "::" ts) || startsWithWord "if" ts

/-- One end of a range of values, if it is not left out.  The result tells whether it
stands here. -/
def patternBound : Reader Bool := do
  let ts ← rest
  if endsPatternRange ts then return false
  else if startsWithLiteral ts then
    literal
    return true
  else if startsWithSegment ts || startsWith "::" ts || startsWith "<" ts then
    let _ ← path nested true
    return true
  else if startsWithWord "const" ts then
    take 1
    let _ ← nested (.block true)
    return true
  else expected .patternBound

/-- What stands behind the lower bound of a range of values, if a range it is.  Three
points are written as the mark of a closed range. -/
def patternRange : Reader Shape := do
  let ts ← rest
  if startsWith ".." ts then
    let isClosed := startsWith "..=" ts || startsWith "..." ts
    skip (if isClosed then 3 else 2)
    write ((if isClosed then "..=" else "..").toList.map .mark)
    if ← patternBound nested then return .other
    else if isClosed then expected .upperBound
    else return .openRange
  else return .other

/-- A range of values without a lower bound, or two points for all other items. -/
def halfRange : Reader Shape := do
  let isClosed ← takes "..="
  if !isClosed then pass ".."
  if ← patternBound nested then return .openRange
  else if isClosed then expected .upperBound
  else return .remainder

def fieldPattern (member : Reader Bool) : Reader Unit := do
  let isBoxed ← takesWord "box"
  let isReference ← takesWord "ref"
  let isMutable ← takesWord "mut"
  if isBoxed || isReference || isMutable then name
  else
    let isNamed ← member
    if !isNamed || startsWith ":" (← rest) then
      pass ":"
      let _ ← alternatives nested

/-- The fields of a record in a pattern; two points may stand last. -/
def fieldPatterns (member : Reader Bool) : Nat → Reader Unit
  | 0 => return
  | fuel + 1 => do
    if ← atEnd then return
    let _ ← attributes nested
    if ← takes ".." then return
    fieldPattern nested member
    if ← atEnd then return
    pass ","
    fieldPatterns member fuel

/-- A pattern that begins with a path: a path, a record or a row of items, the lower
bound of a range, or rules called by name. -/
def pathPattern (member : Reader Bool) : Reader Shape := do
  let form ← path nested true
  let ts ← rest
  if startsWith "!" ts && !startsWith "!=" ts && form.isBare then
    take 1
    let _ ← delimited
    return .other
  else if startsWithGroup .curly ts then
    inside .curly (do fieldPatterns nested member (← rest).length)
    return .other
  else if startsWithGroup .round ts then
    inside .round (commaList (do let _ ← alternatives nested))
    return .other
  else patternRange nested

/-- A name that a value is bound to, and perhaps a pattern for it. -/
def binding : Reader Unit := do
  let _ ← takesWord "ref"
  let _ ← takesWord "mut"
  if !(← takesWord "self") then name
  if ← takes "@" then
    let _ ← nested .pattern

def sliceItem : Reader Unit := do
  if (← alternatives nested) = .openRange then throw .openRangeInSlice

def beginsPathPattern (ts : List TokenTree) : Bool :=
  match ts with
  | .word w :: after =>
    w ∈ ["Self", "super", "crate"] || (w = "self" && startsWith "::" after) ||
      (w ∉ reserved &&
        (["::", "!", ".."].any (startsWith · after) || startsWithGroup .curly after ||
          startsWithGroup .round after))
  | _ => startsWith "::" ts || startsWith "<" ts

def pattern (member : Reader Bool) : Reader Shape := do
  let ts ← rest
  if beginsPathPattern ts then pathPattern nested member
  else
    match ts with
    | .word "_" :: _ => do
      take 1
      return .other
    | .word "box" :: _ => do
      take 1
      let _ ← nested .pattern
      return .other
    | .group .round _ :: _ => do
      inside .round (commaList (do let _ ← alternatives nested))
      return .other
    | .group .square _ :: _ => do
      inside .square (commaList (sliceItem nested))
      return .other
    | _ =>
      if startsWith "-" ts || startsWithLiteral ts || startsWithWord "const" ts then
        let _ ← patternBound nested
        patternRange nested
      else
        match ts with
        | .word w :: _ => do
          if w ∈ reserved && w ∉ ["ref", "mut", "self"] then expected .pattern
          binding nested
          return .other
        | _ => do
          if startsWith "&" ts then
            take 1
            let _ ← takesWord "mut"
            let _ ← nested .pattern
            return .other
          else if startsWith ".." ts && !startsWith "..." ts then halfRange nested
          else expected .pattern

end Expression

end TableJoin.Declaration
