import TableJoin.Declaration.Expression.Part

/-!
Attributes: what stands in square brackets behind a number sign.  Its name is a path
without arguments; behind it stand tokens in brackets, or a value.
-/

namespace TableJoin.Declaration

namespace Expression

open Reader TokenTree

/-- The word can stand in a path without arguments. -/
def startsWithSegment (ts : List TokenTree) : Bool :=
  match ts with
  | .word w :: _ => Token.isRuleName w
  | _ => false

/-- The segments of a path without arguments, the first of which stands here. -/
def bareSegments : Nat → Reader Unit
  | 0 => expected .pathSegment
  | fuel + 1 => do
    take 1
    if ← takes "::" then
      if startsWithSegment (← rest) then bareSegments fuel else expected .pathSegment

def barePath : Reader Unit := do
  let _ ← takes "::"
  let ts ← rest
  if startsWithSegment ts then bareSegments ts.length else name

variable (nested : Nested)

def attributeBody : Reader Unit := do
  if !(← takesWord "unsafe") then barePath
  match ← rest with
  | .group _ _ :: _ => take 1
  | .mark '=' _ :: value => do
    take 1
    match literalLength? value, value with
    | some n, _ => if n = value.length then take n else whole nested
    | none, .mark '#' _ :: .group .square _ :: _ => throw .nestedAttribute
    | none, _ => whole nested
  | _ => return

/-- So many attributes at most.  The result tells whether there is one. -/
def attributesTo (isInner : Bool) : Nat → Reader Bool
  | 0 => return false
  | fuel + 1 => do
    let ts ← rest
    if startsWith "#" ts && (!isInner || startsWith "!" (ts.drop 1)) then
      take (if isInner then 2 else 1)
      inside .square (attributeBody nested)
      let _ ← attributesTo isInner fuel
      return true
    else return false

/-- The attributes of what follows them.  The result tells whether there are any. -/
def attributes : Reader Bool := do
  attributesTo nested false (← rest).length

def innerAttributes : Reader Unit := do
  let _ ← attributesTo nested true (← rest).length

end Expression

end TableJoin.Declaration
