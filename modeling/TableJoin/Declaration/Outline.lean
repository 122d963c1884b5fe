import TableJoin.Declaration.TypePath

/-!
The outline of a declaration: its name, its fields, and the attributes on them.
Visibility, parameters and bounds are passed over.
-/

namespace TableJoin.Declaration

/-- How an attribute goes on after its name. -/
inductive AttributeForm where
  | bare
  | assigned
  | applied (inside : List Token)
deriving DecidableEq

/-- An attribute in front of a declaration or a field. -/
structure Attribute where
  /-- The name, unless the attribute is named by a longer path. -/
  name? : Option String
  form : AttributeForm
deriving DecidableEq

def Attribute.ofTokens : List Token → Attribute
  | [.word name] => ⟨some name, .bare⟩
  | .word name :: .mark '=' :: _ => ⟨some name, .assigned⟩
  | [.word name, .group _ inside] => ⟨some name, .applied inside⟩
  | _ => ⟨none, .bare⟩

/-- A field as declared. -/
structure Field where
  attributes : List Attribute
  ident : String
  type : List Token
deriving DecidableEq

/-- What a declaration declares. -/
inductive Body where
  | named (fields : List Field)
  | positional
  | unit
  /-- An enumeration or a union. -/
  | other
deriving DecidableEq

/-- A declaration of a type. -/
structure Outline where
  attributes : List Attribute
  ident : String
  body : Body
deriving DecidableEq

def cutAttributes : List Token → List Attribute × List Token
  | .mark '#' :: .group .square inside :: rest =>
    let (attributes, after) := cutAttributes rest
    (.ofTokens inside :: attributes, after)
  | ts => ([], ts)

/-- The tokens without the visibility that may stand in front. -/
def withoutVisibility : List Token → List Token
  | .word "pub" :: .group .round _ :: rest => rest
  | .word "pub" :: rest => rest
  | ts => ts

def Field.ofTokens? (ts : List Token) : Option Field :=
  let (attributes, rest) := cutAttributes ts
  match withoutVisibility rest with
  | .word ident :: .mark ':' :: type => some ⟨attributes, ident, type⟩
  | _ => none

/-- The fields of a struct: those between the first curly brackets outside angle
brackets, or none before a semicolon. -/
def Body.ofBounds (depth : Nat) (afterDash : Bool) : List Token → Option Body
  | [] => none
  | t :: ts =>
    match depth, t with
    | 0, .group .curly inside => ((listItems inside).mapM Field.ofTokens?).map .named
    | 0, .mark ';' => some .unit
    | _, _ => ofBounds (angleDepth depth afterDash t) (t.isMark '-') ts

/-- The body of a struct, given what follows its name. -/
def Body.ofTokens? (ts : List Token) : Option Body :=
  let bounds : List Token :=
    match ts with
    | .mark '<' :: inner => ((cutAngles 1 false inner).map Prod.snd).getD []
    | _ => ts
  match bounds with
  | .group .round _ :: _ => some .positional
  | _ => ofBounds 0 false bounds

def Outline.ofTokens? (ts : List Token) : Option Outline :=
  let (attributes, rest) := cutAttributes ts
  match withoutVisibility rest with
  | .word "struct" :: .word ident :: after =>
    (Body.ofTokens? after).map fun body => ⟨attributes, ident, body⟩
  | .word _ :: .word ident :: _ => some ⟨attributes, ident, .other⟩
  | _ => none

end TableJoin.Declaration
