import TableJoin.Declaration.Error
import TableJoin.Declaration.Outline
import TableJoin.Declaration.Quoted

/-!
Settings: the entries of the annotation `tjs`, separated by commas.  A setting
is a name, alone or with a string.
-/

namespace TableJoin.Declaration

/-- An entry of an annotation. -/
structure Setting where
  /-- The name, unless the setting is named by a longer path. -/
  name? : Option String
  /-- What follows the name. -/
  rest : List Token
  /-- Nothing follows the setting. -/
  isLast : Bool
deriving DecidableEq

namespace Setting

/-- What follows the segments of a path, given what follows the first. -/
def afterSegments (isLast : Bool) : List Token → Except DeclarationError (List Token)
  | .mark ':' :: .mark ':' :: .word _ :: rest => afterSegments isLast rest
  | .mark ':' :: .mark ':' :: rest => .error (.segmentExpected (isLast && rest.isEmpty))
  | ts => .ok ts

/-- The tokens begin with a literal, perhaps a negative number. -/
def beginsLiteral : List Token → Bool
  | .literal _ :: _ => true
  | .mark '-' :: .literal text :: _ => text.toList.head?.any Char.isDigit
  | _ => false

/-- The setting written between two commas. -/
def ofTokens (isLast : Bool) (ts : List Token) : Except DeclarationError Setting :=
  let (isAbsolute, path) :=
    match ts with
    | .mark ':' :: .mark ':' :: path => (true, path)
    | _ => (false, ts)
  match path with
  | .word name :: after =>
    (afterSegments isLast after).map fun rest =>
      ⟨if isAbsolute || rest.length < after.length then none else some name, rest, isLast⟩
  | _ =>
    if path.isEmpty && isLast then .error .settingMissing
    else .error (.settingExpected (beginsLiteral path))

def expectAlone (s : Setting) : Except DeclarationError Unit :=
  if s.rest.isEmpty then .ok () else .error .commaExpected

def string (s : Setting) : Except DeclarationError StringLiteral :=
  match s.rest with
  | [.mark '='] => .error (.stringExpected s.isLast)
  | .mark '=' :: t :: rest =>
    match StringLiteral.ofToken? t with
    | some l => if rest.isEmpty then .ok l else .error .commaExpected
    | none => .error (.stringExpected false)
  | _ => .error .equalsExpected

/-- The pieces between commas, each with whether it is the last.  A comma may
follow the last setting. -/
def pieces (ts : List Token) : List (List Token × Bool) :=
  let all := ts.splitOnP (·.isMark ',')
  if all.getLast? = some [] then all.dropLast.map fun piece => (piece, false)
  else all.dropLast.map (fun piece => (piece, false)) ++ all.getLast?.toList.map fun piece =>
    (piece, true)

/-- Takes the settings of an annotation in order; the first that is no setting, or
is not accepted, ends it. -/
def applyAll {α : Type} (accept : α → Setting → Except DeclarationError α) (a : α)
    (ts : List Token) : Except DeclarationError α :=
  (pieces ts).foldlM (fun a (piece, isLast) => do accept a (← ofTokens isLast piece)) a

/-- Takes the settings of every annotation among the attributes. -/
def applyAttributes {α : Type} (accept : α → Setting → Except DeclarationError α) (a : α)
    (attributes : List Attribute) : Except DeclarationError α :=
  (attributes.filter (·.name? = some "tjs")).foldlM (fun a annotation =>
    match annotation.form with
    | .bare => .error .argumentsMissing
    | .assigned => .error .argumentsAssigned
    | .applied inside => applyAll accept a inside) a

end Setting

end TableJoin.Declaration
