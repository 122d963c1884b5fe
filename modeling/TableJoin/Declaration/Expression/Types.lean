import TableJoin.Declaration.Expression.Path

/-!
Types, and the traits and lifetimes they are bound by.
-/

namespace TableJoin.Declaration

namespace Expression

open Reader TokenTree

variable (nested : Nested)

def lifetimeBounds : Nat → Reader Unit
  | 0 => return
  | fuel + 1 => do
    let ts ← rest
    if startsWith "," ts || startsWith ">" ts then return
    if !startsWithLifetime ts then expected .lifetime
    take 2
    if ← takes "+" then lifetimeBounds fuel

def parameter : Reader Unit := do
  let _ ← attributes nested
  let ts ← rest
  match ts with
  | .mark '\'' _ :: .word _ :: _ => do
    take 2
    if ← takes ":" then lifetimeBounds ts.length
  | .word "const" :: _ => do
    take 1
    name
    pass ":"
    plainType nested
  | .word w :: _ => do
    if w ∈ reserved then expected .parameter
    take 1
    if ← takes ":" then boundsBefore nested [",", ">", "="] ts.length
    if ← takes "=" then plainType nested
  | _ => expected .parameter

/-- Generic parameters up to the closing mark. -/
def parametersTo : Nat → Reader Unit
  | 0 => return
  | fuel + 1 => do
    if startsWith ">" (← rest) then return
    parameter nested
    if startsWith ">" (← rest) then return
    pass ","
    parametersTo fuel

/-- The lifetimes that a type is given for, if they stand here.  The result tells
whether they do. -/
def binder : Reader Bool := do
  if ← takesWord "for" then
    pass "<"
    parametersTo nested (← rest).length
    pass ">"
    return true
  else return false

/-- The result of a function type, if it states one. -/
def result? : Reader (Option Shape) := do
  if ← takes "->" then
    return some (← nested (.type false))
  else return none

/-- Types in parentheses as the arguments of a trait, and its result.  Colons in front
are not written. -/
def parenthesizedArguments : Reader (Option Shape) := do
  if startsWith "::" (← rest) then skip 2
  inside .round (commaList (plainType nested))
  result? nested

/-- Arguments in parentheses stand here, perhaps behind colons. -/
def beginsParenthesized (ts : List TokenTree) : Bool :=
  startsWithGroup .round ts || (startsWith "::" ts && startsWithGroup .round (ts.drop 2))

def traitBound : Reader Unit := do
  let isBound ← binder nested
  if ← takes "?" then
    let isBoundBehind ← binder nested
    if isBound || isBoundBehind then throw .boundMissingTrait
  if (← simplePath nested false).isOpen && beginsParenthesized (← rest) then
    let _ ← parenthesizedArguments nested

/-- A bound: a lifetime or a trait, which may stand in parentheses. -/
def bound : Reader Shape := do
  let ts ← rest
  if startsWithLifetime ts then
    take 2
    return .lifetime
  else
    if startsWithGroup .round ts then inside .round (traitBound nested) else traitBound nested
    return .trait

def beginsBound (ts : List TokenTree) : Bool :=
  match ts with
  | .word _ :: _ => true
  | _ =>
    startsWith "::" ts || startsWith "?" ts || startsWithLifetime ts ||
      startsWithGroup .round ts

/-- Bounds with plus signs between them; one may follow the last.  The result tells
whether one of them is a trait. -/
def boundsTo (plus : Bool) : Nat → Reader Bool
  | 0 => return false
  | fuel + 1 => do
    let isTrait := (← bound nested) = .trait
    if !plus then return isTrait
    let isFollowed ← takes "+"
    if isFollowed && beginsBound (← rest) then
      let more ← boundsTo plus fuel
      return more || isTrait
    else return isTrait

def bounds (plus : Bool) (fault : ExpressionFault) : Reader Unit := do
  if !(← boundsTo nested plus (← rest).length) then throw fault

/-- Further bounds, each behind a plus sign. -/
def moreBounds : Nat → Reader Unit
  | 0 => return
  | fuel + 1 => do
    if ← takes "+" then
      let _ ← bound nested
      moreBounds fuel

/-- A trait that may be missing stands in parentheses here. -/
def beginsMissingTrait (ts : List TokenTree) : Bool :=
  match ts with
  | .group .round inner :: _ => startsWith "?" inner
  | _ => false

/-- A trait that may be missing, in parentheses, and further bounds. -/
def missingTrait : Reader Shape := do
  inside .round (traitBound nested)
  let ts ← rest
  moreBounds nested ts.length
  return if startsWith "+" ts then .other else .trait

/-- A type in parentheses, or several as a tuple.  A single trait may have further
bounds behind it. -/
def roundType (plus : Bool) : Reader Shape := do
  let inner ← inside .round do
    let ts ← rest
    if ts.isEmpty then return Shape.other
    else if startsWithLifetime ts then
      bounds nested true .objectWithoutTrait
      return .parenthesized
    else
      let first ← nested (.type true)
      if ← takes "," then
        commaList (plainType nested)
        return .other
      else if first ∈ [.segment, .path, .trait] then return .trait
      else return .parenthesized
  let ts ← rest
  if inner = .trait && plus && startsWith "+" ts then
    moreBounds nested ts.length
    return .other
  else return if inner = .trait then .parenthesized else inner

/-- The trees begin with a name or an underscore, and one colon. -/
def beginsNamed (ts : List TokenTree) : Bool :=
  match ts with
  | .word w :: after =>
    (w = "_" || w ∉ reserved) && startsWith ":" after && !startsWith "::" after
  | _ => false

/-- A parameter of a function type, perhaps with its name.  The first may be the
receiver, and then needs no type. -/
def functionParameter (isFirst : Bool) : Reader Unit := do
  let isReceiver := isFirst && startsWithWord "self" ((← rest).drop
    (if startsWithWord "mut" (← rest) then 1 else 0))
  if isReceiver then
    let isMutable ← takesWord "mut"
    let after := (← rest).drop 1
    if startsWith ":" after && !startsWith "::" after then
      take 2
      plainType nested
    else if isMutable then take 1
    else plainType nested
  else
    if beginsNamed (← rest) then take 2
    plainType nested

/-- The parameters of a function type.  Three points may stand last for any more. -/
def functionParameters (isFirst : Bool) : Nat → Reader Unit
  | 0 => return
  | fuel + 1 => do
    if ← atEnd then return
    let _ ← attributes nested
    let ts ← rest
    if startsWith "..." ts || (beginsNamed ts && startsWith "..." (ts.drop 2)) then
      if !startsWith "..." ts then take 2
      pass "..."
      let _ ← takes ","
    else
      functionParameter nested isFirst
      if ← atEnd then return
      pass ","
      functionParameters false fuel

def functionType : Reader Unit := do
  let _ ← takesWord "unsafe"
  if ← takesWord "extern" then
    match ← rest with
    | .literal text :: _ => if text.toList.head?.any (· ∈ ['"', 'r']) then take 1
    | _ => pure ()
  passWord "fn"
  inside .round (do functionParameters nested true (← rest).length)
  let _ ← result? nested

/-- The bounds behind a path that stands for a trait. -/
def pathBounds : Nat → Reader Unit
  | 0 => return
  | fuel + 1 => do
    if ← takes "+" then
      if beginsBound (← rest) then
        let _ ← bound nested
        pathBounds fuel

/-- The arguments in parentheses behind a path, and the segments behind them.  The
result tells whether there are any arguments. -/
def pathArguments : Nat → Reader Bool
  | 0 => return false
  | fuel + 1 => do
    if beginsParenthesized (← rest) then
      match ← parenthesizedArguments nested with
      | none | some .parenthesized => do
        let more ← moreSegments nested false false (← rest).length
        if more.getLast? = some false then
          let _ ← pathArguments fuel
        return true
      | some _ => return true
    else return false

def pathType (plus isBound : Bool) : Reader Shape := do
  let form ← path nested false
  let isApplied ← if form.isOpen then pathArguments nested (← rest).length else pure false
  let ts ← rest
  if form.isQualified then return .other
  else if startsWith "!" ts && !startsWith "!=" ts && form.isBare && !isApplied then
    take 1
    let _ ← delimited
    return .other
  else if isBound || (plus && startsWith "+" ts) then
    if plus then pathBounds nested ts.length
    return if plus && startsWith "+" ts then .other else .trait
  else return if form.isSegment && !isApplied then .segment else .path

def type (plus : Bool) : Reader Shape := do
  let isBound ← binder nested
  match ← rest with
  | .word w :: _ =>
    if w ∈ ["fn", "unsafe", "extern"] then
      functionType nested
      return .other
    else if w ∉ reserved || w ∈ pathWords then pathType nested plus isBound
    else if isBound then expected .boundType
    else if w = "dyn" then
      take 1
      let _ ← takes "*"
      bounds nested plus .objectWithoutTrait
      return .other
    else if w = "impl" then
      take 1
      bounds nested plus .resultWithoutTrait
      return .other
    else if w = "_" then
      take 1
      return .other
    else expected .type
  | ts =>
    if isBound then expected .boundType
    else if beginsMissingTrait ts then missingTrait nested
    else if startsWithGroup .round ts then roundType nested plus
    else if startsWith "::" ts || startsWith "<" ts then pathType nested plus false
    else if startsWithGroup .square ts then
      inside .square do
        plainType nested
        if ← takes ";" then whole nested
      return .other
    else if startsWith "*" ts then
      take 1
      if !(← takesWord "const") then
        if !(← takesWord "mut") then expected .pointerWord
      let _ ← nested (.type false)
      return .other
    else if startsWith "&" ts then
      take (if startsWithLifetime (ts.drop 1) then 3 else 1)
      let _ ← takesWord "mut"
      let _ ← nested (.type false)
      return .other
    else if startsWith "!" ts then
      take 1
      return .other
    else if startsWithLifetime ts then
      bounds nested true .objectWithoutTrait
      return .other
    else expected .type

end Expression

end TableJoin.Declaration
