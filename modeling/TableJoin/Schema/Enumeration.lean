import TableJoin.Text.Blank

/-!
Enumerations: the simple types that list their literals.  The first literal of
an enumeration is its default.
-/

namespace TableJoin.Schema

/-- The enumerated simple types. -/
inductive Enumeration where
  /-- Class of data held by an attribute column. -/
  | dataClass
  /-- Whether uncertainty values follow a Gaussian distribution. -/
  | gaussian
  /-- Role of a column in a dataset. -/
  | purpose
  /-- Service type of a capabilities request. -/
  | requestService
  /-- Datatype of a column. -/
  | dataType
  /-- Whether a join updates previously joined data. -/
  | update
  /-- Protocol version accepted by a capabilities request. -/
  | acceptedVersion
  /-- Protocol version of an operation request. -/
  | requestVersion
  /-- Name of an operation. -/
  | operationName
deriving DecidableEq, Repr, Inhabited

namespace Enumeration

/-- The enumerations in the order in which they are published. -/
def all : List Enumeration :=
  [.dataClass, .gaussian, .purpose, .requestService, .dataType, .update, .acceptedVersion,
   .requestVersion, .operationName]

def name : Enumeration → String
  | .dataClass => "DataClassType"
  | .gaussian => "gaussianType"
  | .purpose => "purposeType"
  | .requestService => "RequestServiceType"
  | .dataType => "typeType"
  | .update => "updateType"
  | .acceptedVersion => "VersionType"
  | .requestVersion => "versionType"
  | .operationName => "RequestName"

def ofName? (s : String) : Option Enumeration :=
  all.find? (·.name = s)

theorem name_inj {e e' : Enumeration} : e.name = e'.name ↔ e = e' := by
  cases e <;> cases e' <;> decide

def literals : Enumeration → List String
  | .dataClass => ["nominal", "ordinal", "measure", "count"]
  | .gaussian => ["true", "false", "unknown"]
  | .purpose =>
    ["SpatialComponentIdentifier", "SpatialComponentProportion", "SpatialComponentPercentage",
     "TemporalIdentifier", "TemporalValue", "VerticalIdentifier", "VerticalValue",
     "OtherSpatialIdentifier", "NonSpatialIdentifier", "Attribute"]
  | .requestService => ["TJS"]
  | .dataType =>
    ["string", "boolean", "integer", "decimal", "float", "double", "datetime"].map
      ("http://www.w3.org/TR/xmlschema-2/#" ++ ·)
  | .update => ["true", "false"]
  | .acceptedVersion => ["1.0"]
  | .requestVersion => ["1", "1.0", "1.0.0"]
  | .operationName =>
    ["GetCapabilities", "DescribeFrameworks", "DescribeDatasets", "DescribeData",
     "DescribeJoinAbilities", "DescribeKey", "GetData", "JoinData"]

def defaultText (e : Enumeration) : String :=
  e.literals.headD ""

theorem defaultText_mem (e : Enumeration) : e.defaultText ∈ e.literals := by
  cases e <;> simp [defaultText, literals]

end Enumeration

/-- A literal together with the enumeration that declares it. -/
structure Literal where
  type : Enumeration
  text : String
  declared : text ∈ type.literals
deriving DecidableEq, Repr

namespace Literal

instance : Inhabited Literal := ⟨⟨.update, "true", by decide⟩⟩

/-- The literal of an enumeration with exactly the given text. -/
def ofText? (e : Enumeration) (s : String) : Option Literal :=
  if h : s ∈ e.literals then some ⟨e, s, h⟩ else none

def first (e : Enumeration) : Literal := ⟨e, e.defaultText, e.defaultText_mem⟩

theorem eq_of_ofText? {e : Enumeration} {s : String} {l : Literal}
    (h : ofText? e s = some l) : l.type = e ∧ l.text = s := by
  unfold ofText? at h
  split at h
  · cases h
    exact ⟨rfl, rfl⟩
  · cases h

@[simp] theorem ofText?_text (l : Literal) : ofText? l.type l.text = some l := by
  simp [ofText?, l.declared]

end Literal

end TableJoin.Schema
