import TableJoin.Declaration.Accessors
import TableJoin.Declaration.FeatureTable

/-!
Reflection: the generated code that reads and changes features by their
position.  Each operation is a dispatch with one arm for every field, in the
order of the fields, and one for all other positions.
-/

namespace TableJoin.Declaration

open Phrase

/-- An arm of a dispatch on the position of a feature. -/
structure Arm where
  index : Nat
  action : Phrase
deriving DecidableEq

def Arm.phrase (a : Arm) : Phrase := join [position a.index, marks "=>", a.action]

namespace FieldModel

variable (f : FieldModel)

/-- The conversion of the parameter by a function of the library, which names type
and feature in its error. -/
def conversion (function : String) : Phrase :=
  join [core ["value", function], round [ownTypeName, ',', quoted f.name, ',', "value"], '?']

/-- Reads the feature; an unset one with a default reads as the default. -/
def getAction : Phrase :=
  let held := selfField f.ident
  let toValue := core ["FieldValue", "to_value"]
  match f.cardinality with
  | .single =>
    match f.default? with
    | some default =>
      join [ok [present [toValue, round ['&', held, call "clone" [],
        call "unwrap_or_else" [marks "||", default.phrase], ',']]], ',']
    | none => join [ok [held, call "as_ref" [], call "map" [toValue]], ',']
  | .many =>
    join [ok [present [core ["Value", "List"], round [held, call "iter" [], call "map" [toValue],
      call "collect" [], ','], ',']], ',']

def setAction : Phrase :=
  let held := selfField f.ident
  match f.cardinality with
  | .single => curly [held, '=', present [f.conversion "convert", ','], ';']
  | .many => curly [held, '=', f.conversion "convert_list", ';']

/-- Makes the feature hold nothing. -/
def unsetAction : Phrase :=
  let held := selfField f.ident
  match f.cardinality with
  | .single => join [held, '=', absent, ',']
  | .many => join [held, call "clear" [], ',']

/-- Tells whether the feature holds anything. -/
def isSetAction : Phrase :=
  let held := selfField f.ident
  match f.cardinality with
  | .single => join [ok [held, call "is_some" []], ',']
  | .many => join [ok ['!', held, call "is_empty" []], ',']

/-- Appends to a list; a single feature is none. -/
def addAction : Phrase :=
  match f.cardinality with
  | .single =>
    curly ["return", err [core ["Error", "TypeMismatch"], curly [
      "type_name", ':', ownTypeName, ',',
      "feature", ':', quoted f.name, ',',
      "expected", ':', f.valueKind, ',',
      "found", ':', core ["ValueKind", "List"], ',']], ';']
  | .many => join [selfField f.ident, call "push" [f.conversion "convert"], ',']

/-- Compares the feature with that of another record. -/
def agreeAction : Phrase :=
  join [selfField f.ident, marks "==", "other", '.', f.ident, ',']

/-- Shows the records that the feature at a position holds to a visitor. -/
def visit (i : Nat) : Phrase :=
  join ["for", "item", "in", selfField f.ident, call "iter" [], curly [
    "if", "let", present ["child"], '=', core ["FieldValue", "as_reflective"], round ["item"],
    curly ["visitor", round ['&', "features", square [position i], ',', "child"], ';']]]

end FieldModel

namespace TypeModel

variable (m : TypeModel)

def arms (action : FieldModel → Phrase) : List Arm :=
  m.fields.zipIdx.map fun (f, i) => ⟨i, action f⟩

def getArms : List Arm := m.arms FieldModel.getAction

def setArms : List Arm := m.arms FieldModel.setAction

def addArms : List Arm := m.arms FieldModel.addAction

def unsetArms : List Arm := m.arms FieldModel.unsetAction

def isSetArms : List Arm := m.arms FieldModel.isSetAction

def agreeArms : List Arm := m.arms FieldModel.agreeAction

/-- The visits to the fields that stand in child elements. -/
def visits : List Phrase :=
  (m.fields.zipIdx.filter fun (f, _) => f.placement.isElement).map fun (f, i) => f.visit i

end TypeModel

namespace Phrase

def invalidField : Phrase :=
  err [core ["Error", "invalid_field"], round [ownTypeName, ',', "index"], ',']

def dispatch (arms : List Arm) (fallback : Phrase) : Phrase :=
  join ["match", "feature", call "index" [], curly [join (arms.map Arm.phrase), fallback]]

def invalidArm : Phrase := join ["index", marks "=>", invalidField, ',']

/-- The last arm of a dispatch that changes the record. -/
def invalidReturn : Phrase := join ["index", marks "=>", curly ["return", invalidField, ';']]

def featureParameter : Phrase := join ["feature", ':', core ["FeatureId"]]

def anyValueParameter : Phrase := join ["value", ':', core ["Value"]]

/-- The result of an operation that may fail. -/
def resultOf (type : Phrase) : Phrase := applied (core ["Result"]) type

def change (name : String) (parameters : List Phrase) (arms : List Arm) : Phrase :=
  method name parameters (some (resultOf (round [])))
    [dispatch arms invalidReturn, ok [round []]]

def dynReflective : Phrase := join ["dyn", core ["Reflective"]]

def dynAny : Phrase := join ["dyn", std ["any", "Any"]]

def boxOf (type : Phrase) : Phrase := applied (std ["boxed", "Box"]) type

/-- Another record, taken for one of the same type. -/
def otherAsSelf : Phrase :=
  join ["other", call "as_any" [], '.', "downcast_ref", marks "::", '<', "Self", '>', round []]

def ownFeatures : Phrase :=
  join ['<', "Self", "as", core ["TypeInfo"], '>', marks "::", "FEATURES"]

def ownCopy : Phrase := join [std ["clone", "Clone", "clone"], round ["self"]]

end Phrase

/-- The item that reads and changes features by position. -/
def TypeModel.reflectionItem (m : TypeModel) : Phrase :=
  join [allowing ["unused_variables", "unused_mut", "unreachable_code"],
    implementation "Reflective" m.ident [
      method "type_name" [receiver] (some (join [staticRef, "str"])) [ownTypeName],
      method "features" [receiver] (some (join [staticRef, square [core ["FeatureDef"]]]))
        [ownFeatures],
      method "e_get" [receiver, ',', featureParameter, ',']
        (some (resultOf (optional (core ["Value"])))) [dispatch m.getArms invalidArm],
      change "e_set" [receiverMut, ',', featureParameter, ',', anyValueParameter, ','] m.setArms,
      change "e_add" [receiverMut, ',', featureParameter, ',', anyValueParameter, ','] m.addArms,
      change "e_unset" [receiverMut, ',', featureParameter] m.unsetArms,
      method "e_is_set" [receiver, ',', featureParameter] (some (resultOf "bool"))
        [dispatch m.isSetArms invalidArm],
      method "e_eq_feature"
        [receiver, ',', featureParameter, ',', "other", ':', '&', dynReflective, ','] (some "bool")
        ["let", present ["other"], '=', otherAsSelf, "else", curly ["return", "false", ';'], ';',
          dispatch m.agreeArms (join ["_", marks "=>", "false", ','])],
      method "visit_children"
        [receiver, ',', "visitor", ':', '&', "mut", "dyn", "FnMut",
          round [staticRef, core ["FeatureDef"], ',', '&', dynReflective, ','], ',']
        none
        [join ["let", "features", '=', ownFeatures, ';'], join m.visits],
      method "as_any" [receiver] (some (join ['&', dynAny])) ["self"],
      method "as_any_mut" [receiverMut] (some (join ['&', "mut", dynAny])) ["self"],
      method "into_any" ["self", ':', boxOf "Self"] (some (boxOf dynAny)) ["self"],
      method "clone_boxed" [receiver] (some (boxOf dynReflective))
        [std ["boxed", "Box", "new"], round [ownCopy]],
      method "eq_dyn" [receiver, ',', "other", ':', '&', dynReflective] (some "bool")
        [otherAsSelf, marks "==", present ["self"]]]]

/-- The item by which records of the type are values of fields. -/
def TypeModel.fieldValueItem (m : TypeModel) : Phrase :=
  implementation "FieldValue" m.ident [
    "const", "KIND", ':', core ["ValueKind"], '=', core ["ValueKind", "Object"],
      round [ownTypeName], ';',
    method "to_value" [receiver] (some (core ["Value"]))
      [core ["Value", "Object"], round [std ["boxed", "Box", "new"], round [ownCopy]]],
    method "from_value" [anyValueParameter, ',']
      (some (join [std ["result", "Result"], '<', "Self", ',', core ["ValueKind"], '>']))
      ["value", '.', "downcast", marks "::", '<', "Self", '>', round []],
    method "as_reflective" [receiver] (some (optional (join ['&', dynReflective])))
      [present ["self"]]]

end TableJoin.Declaration
