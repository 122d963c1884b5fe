import TableJoin.Declaration.Expression
import TableJoin.Declaration.Setting
import TableJoin.Markup.Name
import TableJoin.Text.Upper

/-!
The model of a record type that a declaration describes: the features in the
order of the fields, each with its representation in documents.
-/

namespace TableJoin.Declaration

/-- How many values a field holds. -/
inductive Cardinality where
  | single
  | many
deriving DecidableEq, Repr

/-- Where the values of a field stand in a document. -/
inductive Placement where
  | attribute (short? : Option String) (localName : String)
  | element (short? : Option String) (localName : String)
  /-- The character content of the record's own element. -/
  | text
deriving DecidableEq, Repr

def Placement.isElement : Placement → Bool
  | .element _ _ => true
  | _ => false

/-- What a field reads as while it is unset. -/
inductive DefaultValue where
  | text (literal : StringLiteral)
  | expression (tokens : List Token)
deriving DecidableEq

/-- A feature of the type. -/
structure FieldModel where
  /-- The identifier of the field, as written. -/
  ident : String
  /-- The name of the feature. -/
  name : String
  /-- The type of one value. -/
  type : List Token
  cardinality : Cardinality
  placement : Placement
  isRequired : Bool
  default? : Option DefaultValue
deriving DecidableEq

/-- A described record type. -/
structure TypeModel where
  /-- The identifier of the declaration, as written. -/
  ident : String
  /-- The name of the type in the schema. -/
  typeName : String
  fields : List FieldModel
deriving DecidableEq

/-- The name of the feature of a field: without the sign of a raw identifier and
without underscores behind it. -/
def featureName (ident : String) : String :=
  let cs := ident.toList
  let plain := if "r#".toList.isPrefixOf cs then cs.drop 2 else cs
  String.ofList (plain.reverse.dropWhile (· = '_')).reverse

namespace FieldModel

/-- The identifier of the feature's constant.  Of underscores alone no name is left, and there
is no empty identifier. -/
def constant? (f : FieldModel) : Option String :=
  if f.name = "" then none else some (Text.upper f.name)

def setterName (f : FieldModel) : String := "set_" ++ f.name

def mutableName (f : FieldModel) : String := f.name ++ "_mut"

def isString (f : FieldModel) : Bool := typeName? f.type = some "String"

/-- One value is a truth value or a number. -/
def isScalar (f : FieldModel) : Bool :=
  (typeName? f.type).any fun name => name ∈ ["bool", "u64", "Decimal"]

/-- The container that a type is, and the type of what it contains. -/
def container? (type : List Token) : Option (Cardinality × List Token) := do
  let path ← TypePath.ofTokens? type
  if path.isQualified then none
  let cardinality ←
    match path.name with
    | "Option" => some Cardinality.single
    | "Vec" => some Cardinality.many
    | _ => none
  let item ← (← path.arguments?).head?
  if isTypeArgument item then some (cardinality, item) else none

/-- What the annotations of a field say. -/
structure Settings where
  placement? : Option Placement := none
  isRequired : Bool := false
  default? : Option StringLiteral := none

/-- Takes a setting of a field.  Of repeated settings the last one counts. -/
def Settings.accept (s : Settings) (setting : Setting) : Except DeclarationError Settings :=
  match setting.name? with
  | some "attribute" => do
    let (short?, localName) := Markup.splitRawName (← setting.string).value.toList
    return { s with placement? := some (.attribute short? localName) }
  | some "element" => do
    let (short?, localName) := Markup.splitRawName (← setting.string).value.toList
    return { s with placement? := some (.element short? localName) }
  | some "text" => do
    setting.expectAlone
    return { s with placement? := some .text }
  | some "required" => do
    setting.expectAlone
    return { s with isRequired := true }
  | some "default" => do
    return { s with default? := some (← setting.string) }
  | _ => .error .unknownFieldSetting

/-- The default that a literal gives: the text itself for a string, and the
expression it spells for any other type.  Lists have none. -/
def defaultOf (cardinality : Cardinality) (type : List Token) (l : StringLiteral) :
    Except DeclarationError DefaultValue :=
  if cardinality = .many then .error .listWithDefault
  else if typeName? type = some "String" then .ok (.text l)
  else ((Expression.ofLiteral l).mapError .badDefault).map .expression

def ofField (field : Field) : Except DeclarationError FieldModel := do
  let some (cardinality, type) := container? field.type | throw .notContainer
  let settings ← Setting.applyAttributes Settings.accept {} field.attributes
  let some placement := settings.placement? | throw .placementMissing
  if cardinality = .many && !placement.isElement then throw .listNotElement
  let default? ← settings.default?.mapM (defaultOf cardinality type)
  return ⟨field.ident, featureName field.ident, Expression.writeType type, cardinality, placement,
    settings.isRequired, default?⟩

end FieldModel

namespace TypeModel

/-- Takes a setting of a type, which is its name. -/
def acceptName (_ : String) (setting : Setting) : Except DeclarationError String :=
  match setting.name? with
  | some "name" => setting.string.map (·.value)
  | _ => .error .unknownTypeSetting

def textField? (m : TypeModel) : Option FieldModel :=
  m.fields.find? fun f => f.placement = .text

def elementFields (m : TypeModel) : List FieldModel :=
  m.fields.filter fun f => f.placement.isElement

def ofOutline (o : Outline) : Except DeclarationError TypeModel := do
  let typeName ← Setting.applyAttributes acceptName o.ident o.attributes
  let fields ←
    match o.body with
    | .named fields => fields.mapM FieldModel.ofField
    | .unit => pure []
    | .positional => throw .fieldsNotNamed
    | .other => throw .notStruct
  let texts := fields.filter fun f => f.placement = .text
  if 1 < texts.length then throw .secondText
  if !texts.isEmpty && fields.any (·.placement.isElement) then throw .textWithElements
  return ⟨o.ident, typeName, fields⟩

/-- The type that the text of a declaration describes. -/
def ofText (s : String) : Except DeclarationError TypeModel :=
  match (tokens s).bind Outline.ofTokens? with
  | some outline => ofOutline outline
  | none => .error .notDeclaration

end TypeModel

end TableJoin.Declaration
