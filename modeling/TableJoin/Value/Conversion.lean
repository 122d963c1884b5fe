import TableJoin.Value.Basic

/-!
Conversion: which values a feature accepts, and as what it stores them.
-/

namespace TableJoin

open Schema

/-- Why a feature cannot be read or changed. -/
inductive ModelError where
  /-- The type has no feature at the position. -/
  | noFeature (type : RecordType) (position : Nat)
  /-- The type has no feature of the name. -/
  | noFeatureNamed (type : RecordType) (name : String)
  /-- A value of another kind than the feature stores. -/
  | mismatch (owner feature : String) (expected found : Kind)
  /-- A text that is no lexical form of its type. -/
  | lexical (error : LexicalError)
  /-- No enumeration has the name. -/
  | unknownEnumeration (name : String)
deriving DecidableEq, Repr

def ModelError.message : ModelError → String
  | .noFeature type position => s!"type '{type.name}' has no feature with id {position}"
  | .noFeatureNamed type name => s!"type '{type.name}' has no feature named '{name}'"
  | .mismatch owner feature expected found =>
    s!"feature '{owner}.{feature}' expects {expected.describe}, found {found.describe}"
  | .lexical error => error.message
  | .unknownEnumeration name => s!"invalid enumeration value '{name}'"

/-- The literal of the enumeration with the given schema name. -/
def readLiteralOf (enumeration literal : String) : Except ModelError Literal :=
  match Enumeration.ofName? enumeration with
  | none => .error (.unknownEnumeration enumeration)
  | some e => (SimpleType.readLiteral e literal).mapError .lexical

namespace Schema

/-- The scalar of a simple type that a value without parts stands for: one of the type itself, an
integer for a decimal if it fits, and for a literal that the enumeration declares its text, alone
or with the enumeration's name. -/
def SimpleType.accept? (t : SimpleType) (d : Datum) : Option Scalar :=
  match t, d with
  | .text, .text s => some (.text s)
  | .boolean, .boolean b => some (.boolean b)
  | .integer, .integer n => some (.integer n)
  | .decimal, .decimal d => some (.decimal d)
  | .decimal, .integer n =>
    if n.toNat ≤ Int64.maxValue.toNatClampNeg then some (.decimal ⟨Int64.ofNat n.toNat, 0⟩)
    else none
  | .enumeration e, .literal type literal =>
    if type = e.name then (Literal.ofText? e literal).map .literal else none
  | .enumeration e, .text literal => (Literal.ofText? e literal).map .literal
  | _, _ => none

/-- The item of a type that a value stands for. -/
def ItemType.accept? (t : ItemType) (v : Value) : Option Item :=
  match t, v with
  | .simple t, .scalar d => (t.accept? d).map .scalar
  | .record t, .record r => if r.type = t then some (.record r) else none
  | _, _ => none

/-- Converts one value for the feature of an owner, both given by name. -/
def ItemType.convert (t : ItemType) (owner feature : String) (v : Value) :
    Except ModelError Item :=
  match t.accept? v with
  | some item => .ok item
  | none => .error (.mismatch owner feature t.kind v.kind)

/-- Converts a list of values; the first one that does not fit is reported. -/
def ItemType.convertList (t : ItemType) (owner feature : String) (v : Value) :
    Except ModelError (List Item) :=
  match v with
  | .list items => items.mapM (t.convert owner feature)
  | _ => .error (.mismatch owner feature .list v.kind)

/-- The items that a value gives a feature: one, or those of a list. -/
def Feature.convert (f : Feature) (owner : String) (v : Value) : Except ModelError (List Item) :=
  if f.isList then f.itemType.convertList owner f.name v
  else (f.itemType.convert owner f.name v).map fun item => [item]

end Schema

end TableJoin
