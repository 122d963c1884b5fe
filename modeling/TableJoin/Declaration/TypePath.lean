import TableJoin.Declaration.Token

/-!
Types that are paths, such as `Option<T>`: the last segment and what stands
between its angle brackets.  Angle brackets are marks, not groups, so their
nesting is followed here.
-/

namespace TableJoin.Declaration

/-- How deep in angle brackets the text is after a token.  The `>` of an arrow
closes nothing. -/
def angleDepth (depth : Nat) (afterDash : Bool) : Token → Nat
  | .mark '<' => depth + 1
  | .mark '>' => if afterDash then depth else depth - 1
  | _ => depth

/-- What stands before the `>` that closes the outermost angle bracket, and what
after it. -/
def cutAngles (depth : Nat) (afterDash : Bool) : List Token → Option (List Token × List Token)
  | [] => none
  | t :: ts =>
    let d := angleDepth depth afterDash t
    if d = 0 then some ([], ts)
    else (cutAngles d (t.isMark '-') ts).map fun (inside, after) => (t :: inside, after)

/-- The items between the commas that stand outside angle brackets; one empty item
without tokens. -/
def splitItems (depth : Nat) (afterDash : Bool) : List Token → List (List Token)
  | [] => [[]]
  | t :: ts =>
    if depth = 0 && t.isMark ',' then [] :: splitItems 0 false ts
    else
      match splitItems (angleDepth depth afterDash t) (t.isMark '-') ts with
      | [] => [[t]]
      | item :: items => (t :: item) :: items

/-- The items of a list in which a comma may follow the last. -/
def listItems (ts : List Token) : List (List Token) :=
  let items := splitItems 0 false ts
  if items.getLast? = some [] then items.dropLast else items

/-- A type that is a path. -/
structure TypePath where
  /-- The path goes through a type as a trait, as in `<A as B>::C`. -/
  isQualified : Bool
  /-- The identifier of the last segment. -/
  name : String
  /-- The arguments of the last segment, if it has angle brackets. -/
  arguments? : Option (List (List Token))
deriving DecidableEq

namespace TypePath

/-- The path that ends with the segments in these tokens. -/
def segments (isQualified : Bool) : Nat → List Token → Option TypePath
  | fuel + 1, .word name :: rest =>
    let onward := fun (p : TypePath) (after : List Token) =>
      match after with
      | [] => some p
      | .mark ':' :: .mark ':' :: more => segments isQualified fuel more
      | .mark '-' :: .mark '>' :: _ => some p
      | _ => none
    let angled := fun (inner : List Token) =>
      (cutAngles 1 false inner).bind fun (inside, after) =>
        onward ⟨isQualified, name, some (listItems inside)⟩ after
    match rest with
    | .mark '<' :: inner => angled inner
    | .mark ':' :: .mark ':' :: .mark '<' :: inner => angled inner
    | .group .round _ :: after => onward ⟨isQualified, name, none⟩ after
    | _ => onward ⟨isQualified, name, none⟩ rest
  | _, _ => none

/-- The path that a type is; none if it is a type of another kind. -/
def ofTokens? (ts : List Token) : Option TypePath :=
  match ts with
  | .mark '<' :: inner =>
    (cutAngles 1 false inner).bind fun (_, after) =>
      match after with
      | .mark ':' :: .mark ':' :: rest => segments true rest.length rest
      | _ => none
  | .mark ':' :: .mark ':' :: rest => segments false rest.length rest
  | _ => segments false ts.length ts

end TypePath

/-- The identifier of the last segment, for a type that is a path. -/
def typeName? (ty : List Token) : Option String :=
  (TypePath.ofTokens? ty).map (·.name)

/-- A generic argument that is a type, and not a lifetime, a constant, a binding or
a bound. -/
def isTypeArgument (argument : List Token) : Bool :=
  match argument with
  | [] => false
  | .literal _ :: _ | .mark '\'' :: _ | .mark '-' :: _ | .group .curly _ :: _ => false
  | .word _ :: .mark '=' :: _ => false
  | .word _ :: .mark ':' :: .mark ':' :: _ => true
  | .word _ :: .mark ':' :: _ => false
  | .word w :: _ => w != "true" && w != "false"
  | _ => true

end TableJoin.Declaration
