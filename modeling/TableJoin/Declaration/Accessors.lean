import TableJoin.Declaration.Model
import TableJoin.Declaration.Phrase

/-!
Accessors: the constants that identify the features, and the methods by which
programs read and change them.
-/

namespace TableJoin.Declaration

open Phrase

def DefaultValue.phrase : DefaultValue → Phrase
  | .text l => join [std ["string", "String", "from"], round [[.literal l.written]]]
  | .expression ts => ts

/-- The parameter of a method that sets, converted to what the field holds. -/
def convertedValue : Phrase := join ["value", call "into" []]

namespace FieldModel

variable (f : FieldModel)

/-- The constant that identifies the feature at a position, if it can be named. -/
def constantItem? (i : Nat) : Option Phrase :=
  f.constant?.map fun constant =>
    join [documented s!"Identifier of the `{f.name}` feature.", "pub", "const", constant, ':',
      core ["FeatureId"], '=', core ["FeatureId", "new"], round [position i], ';']

/-- A public method with its documentation; the result of some must not be
dropped. -/
def publicMethod (text : String) (mustUse : Bool) (name : String) (parameters : List Phrase)
    (result : Option Phrase) (body : List Phrase) : Phrase :=
  join [documented text, if mustUse then tagged ["must_use"] else [], "pub",
    method name parameters result body]

def getter : Phrase :=
  let held := selfField f.ident
  let unsetDoc := s!"Returns `{f.name}`, `None` if unset."
  match f.default? with
  | some (.text l) =>
    publicMethod s!"Returns `{f.name}`, or the default `{l.value}` if unset." true f.ident
      [receiver] (some (join ['&', "str"]))
      [held, call "as_deref" [], call "unwrap_or" [[.literal l.written]]]
  | some default =>
    publicMethod s!"Returns `{f.name}`, or its default if unset." true f.ident [receiver]
      (some f.type)
      [held, call "clone" [], call "unwrap_or_else" [marks "||", default.phrase]]
  | none =>
    if f.isString then
      publicMethod unsetDoc true f.ident [receiver] (some (optional (join ['&', "str"])))
        [held, call "as_deref" []]
    else if f.isScalar then
      publicMethod unsetDoc true f.ident [receiver] (some (optional f.type)) [held]
    else
      publicMethod unsetDoc true f.ident [receiver] (some (optional (join ['&', f.type])))
        [held, call "as_ref" []]

/-- A parameter that anything convertible to the type can be given for. -/
def valueParameter : Phrase :=
  join ["value", ':', "impl", applied (std ["convert", "Into"]) f.type]

/-- The methods of a field that holds a single value. -/
def singleAccessors : Phrase :=
  let held := selfField f.ident
  let assign := fun (value : Phrase) => join [held, '=', value, ';']
  join [f.getter,
    publicMethod s!"Returns a mutable reference to `{f.name}`, `None` if unset." false
      f.mutableName [receiverMut] (some (optional (join ['&', "mut", f.type])))
      [held, call "as_mut" []],
    publicMethod s!"Sets `{f.name}`." false f.setterName
      [receiverMut, ',', f.valueParameter] none [assign (present [convertedValue])],
    publicMethod s!"Returns `self` with `{f.name}` set." true ("with_" ++ f.name)
      ["mut", "self", ',', f.valueParameter] (some "Self")
      [assign (present [convertedValue]), "self"],
    publicMethod s!"Returns true if `{f.name}` holds an explicit value." true ("is_set_" ++ f.name)
      [receiver] (some "bool") [held, call "is_some" []],
    publicMethod s!"Returns `{f.name}` to its unset state." false ("unset_" ++ f.name)
      [receiverMut] none [assign absent],
    publicMethod s!"Removes and returns the value of `{f.name}`, leaving it unset." false
      ("take_" ++ f.name) [receiverMut] (some (optional f.type)) [held, call "take" []]]

/-- The methods of a field that holds a list. -/
def manyAccessors : Phrase :=
  let held := selfField f.ident
  let vec := applied (std ["vec", "Vec"]) f.type
  let push := join [held, call "push" [convertedValue], ';']
  join [
    publicMethod s!"Returns the values of `{f.name}`." true f.ident [receiver]
      (some (join ['&', square [f.type]])) ['&', held],
    publicMethod s!"Returns the mutable list of `{f.name}`." false f.mutableName [receiverMut]
      (some (join ['&', "mut", vec])) ['&', "mut", held],
    publicMethod s!"Appends a value to `{f.name}`." false ("add_" ++ f.name)
      [receiverMut, ',', f.valueParameter] none [push],
    publicMethod s!"Returns `self` with a value appended to `{f.name}`." true ("with_" ++ f.name)
      ["mut", "self", ',', f.valueParameter] (some "Self") [push, "self"],
    publicMethod s!"Returns true if `{f.name}` is not empty." true ("is_set_" ++ f.name)
      [receiver] (some "bool") ['!', held, call "is_empty" []],
    publicMethod s!"Clears `{f.name}`." false ("unset_" ++ f.name) [receiverMut] none
      [held, call "clear" [], ';'],
    publicMethod s!"Removes and returns every value of `{f.name}`." false ("take_" ++ f.name)
      [receiverMut] (some vec) [std ["mem", "take"], round ['&', "mut", held]]]

def accessors : Phrase :=
  match f.cardinality with
  | .single => f.singleAccessors
  | .many => f.manyAccessors

end FieldModel

namespace TypeModel

/-- The constants of all features, in the order of the fields; none if one cannot be named. -/
def constantItems? (m : TypeModel) : Option (List Phrase) :=
  m.fields.zipIdx.mapM fun (f, i) => f.constantItem? i

/-- The item that holds the constants and methods of the type. -/
def accessorItem? (m : TypeModel) : Option Phrase :=
  m.constantItems?.map fun constants =>
    join [allowing ["dead_code"], "impl", m.ident,
      curly (constants ++ m.fields.map (·.accessors))]

end TypeModel

end TableJoin.Declaration
