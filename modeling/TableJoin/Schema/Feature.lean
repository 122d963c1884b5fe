import TableJoin.Markup.Name
import TableJoin.Schema.RecordType
import TableJoin.Schema.Simple

/-!
Features: what a record of a type holds, how often, and where it stands in the
document.
-/

namespace TableJoin.Schema

/-- What one item of a feature is. -/
inductive ItemType where
  | simple (t : SimpleType)
  | record (t : RecordType)
deriving DecidableEq, Repr

def ItemType.isRecord : ItemType → Bool
  | .simple _ => false
  | .record _ => true

/-- Where a feature stands in the document, and what it may hold there. -/
inductive Shape where
  /-- An attribute of the record's start tag. -/
  | attribute (t : SimpleType)
  /-- The character content of the record's own element. -/
  | body (t : SimpleType)
  /-- A child element; a list has any number of them. -/
  | element (t : ItemType) (isList : Bool)
deriving DecidableEq, Repr

/-- A feature of a record type. -/
structure Feature where
  /-- The name by which programs ask for the feature. -/
  name : String
  /-- The name of the attribute or element. -/
  xmlName : Markup.QName
  shape : Shape
  /-- At least one item has to be present, unless there is a default. -/
  isRequired : Bool
  /-- What the feature reads as while it is unset. -/
  default? : Option Scalar
deriving DecidableEq, Repr

namespace Feature

def attr (name : String) (xmlName : Markup.QName) (t : SimpleType) : Feature :=
  ⟨name, xmlName, .attribute t, false, none⟩

/-- An optional child element with character content. -/
def leaf (name : String) (xmlName : Markup.QName) (t : SimpleType) : Feature :=
  ⟨name, xmlName, .element (.simple t) false, false, none⟩

/-- An optional child element that is a record. -/
def child (name : String) (xmlName : Markup.QName) (t : RecordType) : Feature :=
  ⟨name, xmlName, .element (.record t) false, false, none⟩

/-- The optional character content of the record itself. -/
def body (name : String) (t : SimpleType) : Feature :=
  ⟨name, .plain "", .body t, false, none⟩

def needed (f : Feature) : Feature := { f with isRequired := true }

/-- The feature, made a list if it is an element. -/
def listed (f : Feature) : Feature :=
  match f.shape with
  | .element t _ => { f with shape := .element t true }
  | _ => f

def defaulting (s : Scalar) (f : Feature) : Feature := { f with default? := some s }

def itemType (f : Feature) : ItemType :=
  match f.shape with
  | .attribute t => .simple t
  | .body t => .simple t
  | .element t _ => t

/-- The feature may hold any number of items. -/
def isList (f : Feature) : Bool :=
  match f.shape with
  | .element _ isList => isList
  | _ => false

/-- A feature with a default tells whether it is explicitly set. -/
def isUnsettable (f : Feature) : Bool := f.default?.isSome

def isContainment (f : Feature) : Bool := f.itemType.isRecord

def lowerBound (f : Feature) : Nat := if f.isRequired then 1 else 0

/-- The greatest number of items, if there is one. -/
def upperBound? (f : Feature) : Option Nat := if f.isList then none else some 1

end Feature

end TableJoin.Schema
