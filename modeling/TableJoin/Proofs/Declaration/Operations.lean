import TableJoin.Declaration.Reflection
import TableJoin.Proofs.Declaration.Code

/-!
Operations: in the generated code every operation on a feature is a dispatch with one arm for
each position, in which the operation is done to the field at that position and to no other one.
-/

namespace TableJoin.Declaration

open Code Phrase Scan

/-- What an arm does, and to which field. -/
inductive Deed where
  /-- Hands out the item that the field holds, if there is one. -/
  | give (field : String)
  /-- Hands out the item that the field holds, or else what an expression makes. -/
  | giveOr (field : String) (expression : List Token)
  | giveAll (field : String)
  /-- Makes the field hold the value, once that is converted under the name of a feature. -/
  | assign (field feature : String)
  | assignAll (field feature : String)
  /-- Appends the value to what the field holds, once it is converted. -/
  | append (field feature : String)
  /-- Fails, since a feature of values of a type is no list. -/
  | refuse (feature : String) (type : List Token)
  | assignNone (field : String)
  | clear (field : String)
  | tellWhetherSome (field : String)
  | tellWhetherNonempty (field : String)
  /-- Compares the field with that of another record. -/
  | compare (field : String)
deriving DecidableEq

namespace Scan

def gives : Scan Deed :=
  .give <$> between [] ownField
    (join [call "as_ref" [], call "map" [core ["FieldValue", "to_value"]]])

def givesOr : Scan Deed := between (core ["FieldValue", "to_value"]) (inside .round givenOr) []
where
  givenOr := do
    let field ← between '&' ownField (join [call "clone" [], '.', "unwrap_or_else"])
    let expression ← inside .round (skip (marks "||") >>= fun _ => upTo [])
    between [] (pure (.giveOr field expression)) ','

def givesAll : Scan Deed :=
  let items := between [] ownField
    (join [call "iter" [], call "map" [core ["FieldValue", "to_value"]], call "collect" [], ','])
  .giveAll <$> between (core ["Value", "List"]) (inside .round items) ','

def getDeed : Scan Deed :=
  let present :=
    between (std ["option", "Option", "Some"]) (inside .round (givesOr <|> givesAll)) []
  between (std ["result", "Result", "Ok"]) (inside .round (present <|> gives)) ','

/-- The conversion of the value by a function of the library, under the name of a feature of the
type at hand. -/
def converted (function : String) : Scan String :=
  let arguments := between (join [ownTypeName, ',']) text (join [',', "value"])
  between (core ["value", function]) (inside .round arguments) '?'

def assigns (field : String) : Scan Deed :=
  .assign field <$> between (std ["option", "Option", "Some"])
    (inside .round (between [] (converted "convert") ',')) []

def assignsAll (field : String) : Scan Deed :=
  .assignAll field <$> converted "convert_list"

def setDeed : Scan Deed :=
  inside .curly do
    let field ← between [] ownField '='
    between [] (assigns field <|> assignsAll field) ';'

def refuses : Scan Deed :=
  inside .curly (between (join ["return", std ["result", "Result", "Err"]])
    (inside .round (between (core ["Error", "TypeMismatch"]) (inside .curly mismatch) [])) ';')
where
  mismatch := do
    let feature ← between (join ["type_name", ':', ownTypeName, ',', "feature", ':']) text ','
    skip (join ["expected", ':', '<'])
    .refuse feature <$> upTo (join ["as", core ["FieldValue"], '>', marks "::", "KIND", ',',
      "found", ':', core ["ValueKind", "List"], ','])

def appends : Scan Deed := do
  let field ← between [] ownField (join ['.', "push"])
  .append field <$> between [] (inside .round (converted "convert")) ','

def addDeed : Scan Deed := refuses <|> appends

def assignsNone : Scan Deed := .assignNone <$> between [] ownField (join ['=', absent, ','])

def clears : Scan Deed := .clear <$> between [] ownField (join [call "clear" [], ','])

def unsetDeed : Scan Deed := assignsNone <|> clears

def tellsSome : Scan Deed := .tellWhetherSome <$> between [] ownField (call "is_some" [])

def tellsNonempty : Scan Deed := .tellWhetherNonempty <$> between '!' ownField (call "is_empty" [])

def isSetDeed : Scan Deed :=
  between (std ["result", "Result", "Ok"]) (inside .round (tellsSome <|> tellsNonempty)) ','

def agreeDeed : Scan Deed := do
  let field ← between [] ownField (join [marks "==", "other", '.'])
  between (join [field, ',']) (pure (.compare field)) []

def arm (deed : Scan Deed) : Scan (Nat × Deed) := do
  let i ← between [] position (marks "=>")
  (i, ·) <$> deed

/-- A dispatch on the position of a feature, with an arm for all other positions behind the
arms. -/
def dispatch (deed : Scan Deed) (fallback : Phrase) : Scan (List (Nat × Deed)) :=
  between (join ["match", "feature", call "index" []])
    (inside .curly (manyBefore (arm deed) fallback)) []

/-- A loop over the items of a field that shows the record in each to the visitor, with the
feature at a position. -/
def visit : Scan (String × Nat) := do
  let ident ← between (join ["for", "item", "in"]) ownField (call "iter" [])
  let feature := between (join ['&', "features"]) (inside .square position) (join [',', "child"])
  (ident, ·) <$> inside .curly (between
    (join ["if", "let", present ["child"], '=',
      core ["FieldValue", "as_reflective"], round ["item"]])
    (inside .curly (between "visitor" (inside .round feature) ';')) [])

end Scan

/-- What the arms do in a method that is a dispatch between two phrases. -/
def armsOf? (name : String) (front : Phrase) (deed : Scan Deed) (fallback back : Phrase)
    (item : List Token) : Option (List (Nat × Deed)) :=
  (between front (Scan.dispatch deed fallback) back).all (methodBody name item)

/-- The error for a position that is none of a feature of the type at hand. -/
def noFeature : Phrase :=
  err [core ["Error", "invalid_field"], round [ownTypeName, ',', "index"], ',']

def givesNoFeature : Phrase := join ["index", marks "=>", noFeature, ',']

def returnsNoFeature : Phrase := join ["index", marks "=>", curly ["return", noFeature, ';']]

def done : Phrase := ok [round []]

/-- The fields that a method visits, and the positions of their features. -/
def visitsOf? (item : List Token) : Option (List (String × Nat)) :=
  Scan.all (skip (join ["let", "features", '=', '<', "Self", "as", core ["TypeInfo"], '>',
    marks "::", "FEATURES", ';']) >>= fun _ => many visit) (methodBody "visit_children" item)

/-- The other record is one of the same type, or else they differ. -/
def sameType : Phrase :=
  join ["let", present ["other"], '=', "other", call "as_any" [], '.', "downcast_ref",
    marks "::", '<', "Self", '>', round [], "else", curly ["return", "false", ';'], ';']

namespace FieldModel

variable (f : FieldModel)

def getDeed : Deed :=
  match f.cardinality with
  | .many => .giveAll f.ident
  | .single => f.default?.elim (.give f.ident) fun default => .giveOr f.ident default.phrase

def setDeed : Deed :=
  match f.cardinality with
  | .many => .assignAll f.ident f.name
  | .single => .assign f.ident f.name

def addDeed : Deed :=
  match f.cardinality with
  | .many => .append f.ident f.name
  | .single => .refuse f.name f.type

def unsetDeed : Deed :=
  match f.cardinality with
  | .many => .clear f.ident
  | .single => .assignNone f.ident

def isSetDeed : Deed :=
  match f.cardinality with
  | .many => .tellWhetherNonempty f.ident
  | .single => .tellWhetherSome f.ident

def agreeDeed : Deed := .compare f.ident

theorem spells_converted (function : String) :
    Spells (converted function) (f.conversion function) f.name :=
  (((spells_text f.name).between _ _).inside .round).between _ _

theorem spells_getDeed : Spells Scan.getDeed f.getAction f.getDeed := by
  unfold getAction getDeed
  cases f.cardinality with
  | single =>
    cases f.default? with
    | none =>
      have hgives : Spells gives _ (.give f.ident) := ((spells_ownField _).between _ _).map _
      exact ((hgives.right fun _ => rfl).inside .round).between _ _
    | some default =>
      have hexpression : Scan.all (skip (marks "||") >>= fun _ => upTo [])
          (join [marks "||", default.phrase]) = some default.phrase :=
        all_bind (spells_skip _) (all_upTo _ _)
      have hgiven : Spells givesOr.givenOr (join ['&', selfField f.ident, call "clone" [],
          call "unwrap_or_else" [marks "||", default.phrase], ','])
          (.giveOr f.ident default.phrase) :=
        ((spells_ownField _).between _ _).bind ((spells_inside_of_all hexpression .round).bind
          ((spells_pure _).between _ _))
      have hgives : Spells givesOr _ (.giveOr f.ident default.phrase) :=
        (hgiven.inside .round).between _ _
      exact (((((hgives.left _).inside .round).between _ _).left _).inside .round).between _ _
  | many =>
    have hgives : Spells givesAll _ (.giveAll f.ident) :=
      ((((spells_ownField f.ident).between _ _).inside .round).between _ _).map _
    exact ((((((hgives.right fun _ => rfl).inside .round).between _ _).left _).inside
      .round).between _ _)

theorem spells_setDeed : Spells Scan.setDeed f.setAction f.setDeed := by
  unfold setAction setDeed
  cases f.cardinality with
  | single =>
    have hassigns : Spells (assigns f.ident) (present [f.conversion "convert", ','])
        (.assign f.ident f.name) :=
      ((((f.spells_converted _).between _ _).inside .round).between _ _).map _
    exact (((spells_ownField _).between _ _).bind ((hassigns.left _).between _ _)).inside .curly
  | many =>
    have hassigns : Spells (assignsAll f.ident) (f.conversion "convert_list")
        (.assignAll f.ident f.name) := (f.spells_converted _).map _
    exact (((spells_ownField _).between _ _).bind
      ((hassigns.right fun _ => rfl).between _ _)).inside .curly

theorem spells_addDeed : Spells Scan.addDeed f.addAction f.addDeed := by
  unfold addAction addDeed
  cases f.cardinality with
  | single =>
    have hmismatch : refuses.mismatch.all (join ["type_name", ':', ownTypeName, ',',
        "feature", ':', quoted f.name, ',', "expected", ':', f.valueKind, ',',
        "found", ':', core ["ValueKind", "List"], ',']) = some (.refuse f.name f.type) := by
      have hcode : join ["type_name", ':', ownTypeName, ',', "feature", ':', quoted f.name, ',',
          "expected", ':', f.valueKind, ',', "found", ':', core ["ValueKind", "List"], ','] =
          (join ["type_name", ':', ownTypeName, ',', "feature", ':'] ++
            (quoted f.name ++ [.mark ','])) ++
            (join ["expected", ':', '<'] ++ (f.type ++ join ["as", core ["FieldValue"], '>',
              marks "::", "KIND", ',', "found", ':', core ["ValueKind", "List"], ','])) := by
        simp [join, valueKind]
      rw [hcode]
      exact all_bind ((spells_text f.name).between _ _)
        (all_bind (spells_skip _) (all_map (all_upTo _ _) _))
    exact (((((spells_inside_of_all hmismatch .curly).between _ _).inside .round).between _
      _).inside .curly).left _
  | many =>
    have happends : Spells appends (join [selfField f.ident, call "push" [f.conversion "convert"],
        ',']) (.append f.ident f.name) :=
      ((spells_ownField _).between _ _).bind
        ((((f.spells_converted _).inside .round).between _ _).map _)
    exact happends.right fun _ => rfl

theorem spells_unsetDeed : Spells Scan.unsetDeed f.unsetAction f.unsetDeed := by
  unfold unsetAction unsetDeed
  cases f.cardinality with
  | single =>
    have hassigns : Spells assignsNone _ (.assignNone f.ident) :=
      ((spells_ownField _).between _ _).map _
    exact hassigns.left _
  | many =>
    have hclears : Spells clears _ (.clear f.ident) := ((spells_ownField _).between _ _).map _
    exact hclears.right fun _ => rfl

theorem spells_isSetDeed : Spells Scan.isSetDeed f.isSetAction f.isSetDeed := by
  unfold isSetAction isSetDeed
  cases f.cardinality with
  | single =>
    have htells : Spells tellsSome _ (.tellWhetherSome f.ident) :=
      ((spells_ownField _).between _ _).map _
    exact ((htells.left _).inside .round).between _ _
  | many =>
    have htells : Spells tellsNonempty _ (.tellWhetherNonempty f.ident) :=
      ((spells_ownField _).between _ _).map _
    exact ((htells.right fun _ => rfl).inside .round).between _ _

theorem spells_agreeDeed : Spells Scan.agreeDeed f.agreeAction f.agreeDeed :=
  ((spells_ownField _).between _ _).bind ((spells_pure _).between _ _)

end FieldModel

namespace TypeModel

variable (m : TypeModel)

/-- For each field in turn its position and what is done to it. -/
def deeds (deed : FieldModel → Deed) : List (Nat × Deed) :=
  m.fields.zipIdx.map fun (f, i) => (i, deed f)

/-- The six operations on a feature, each with one arm for each field in turn that does to this
field what the operation is to do, and one more arm for the positions of no feature. -/
structure Operates (item : List Token) : Prop where
  get : armsOf? "e_get" [] getDeed givesNoFeature [] item = some (m.deeds FieldModel.getDeed)
  set : armsOf? "e_set" [] setDeed returnsNoFeature done item = some (m.deeds FieldModel.setDeed)
  add : armsOf? "e_add" [] addDeed returnsNoFeature done item = some (m.deeds FieldModel.addDeed)
  unset : armsOf? "e_unset" [] unsetDeed returnsNoFeature done item =
    some (m.deeds FieldModel.unsetDeed)
  isSet : armsOf? "e_is_set" [] isSetDeed givesNoFeature [] item =
    some (m.deeds FieldModel.isSetDeed)
  agree : armsOf? "e_eq_feature" sameType agreeDeed (join ["_", marks "=>", "false", ',']) [] item =
    some (m.deeds FieldModel.agreeDeed)

theorem spells_dispatch {action : FieldModel → Phrase} {deed : Scan Deed}
    {does : FieldModel → Deed} (hdeed : ∀ f, Spells deed (action f) (does f)) {fallback : Phrase}
    (hstop : ∀ ts, arm deed (fallback ++ ts) = none) :
    Spells (Scan.dispatch deed fallback) (Phrase.dispatch (m.arms action) fallback)
      (m.deeds does) := by
  have harm : ∀ p ∈ m.fields.zipIdx,
      Spells (arm deed) (Arm.phrase ⟨p.2, action p.1⟩) (p.2, does p.1) := by
    rintro ⟨f, i⟩ -
    have hspells : Spells (arm deed) (position i ++ marks "=>" ++ action f) (i, does f) :=
      ((spells_position i).between [] _).bind ((hdeed f).map _)
    simpa [Arm.phrase, join] using hspells
  have harms := spells_manyBefore harm rfl hstop
  have hspells := (harms.inside .curly).between (join ["match", "feature", call "index" []]) []
  have hphrase : Phrase.dispatch (m.arms action) fallback =
      join ["match", "feature", call "index" []] ++ ([.group .curly
        (m.fields.zipIdx.flatMap (fun p => Arm.phrase ⟨p.2, action p.1⟩) ++ fallback)] ++ []) := by
    simp [Phrase.dispatch, join, curly, arms, List.flatMap_def, Function.comp_def]
  rw [hphrase]
  exact hspells

theorem armsOf?_eq {item : List Token} {name : String} {action : FieldModel → Phrase}
    {deed : Scan Deed} {does : FieldModel → Deed} {front fallback back : Phrase}
    (hbody : methodBody name item =
      front ++ (Phrase.dispatch (m.arms action) fallback ++ back))
    (hdeed : ∀ f, Spells deed (action f) (does f))
    (hstop : ∀ ts, arm deed (fallback ++ ts) = none) :
    armsOf? name front deed fallback back item = some (m.deeds does) := by
  rw [armsOf?, hbody]
  exact ((m.spells_dispatch hdeed hstop).between front back).all

theorem operates : m.Operates m.reflectionItem where
  get := m.armsOf?_eq rfl FieldModel.spells_getDeed fun _ => rfl
  set := m.armsOf?_eq rfl FieldModel.spells_setDeed fun _ => rfl
  add := m.armsOf?_eq rfl FieldModel.spells_addDeed fun _ => rfl
  unset := m.armsOf?_eq rfl FieldModel.spells_unsetDeed fun _ => rfl
  isSet := m.armsOf?_eq rfl FieldModel.spells_isSetDeed fun _ => rfl
  agree := m.armsOf?_eq rfl FieldModel.spells_agreeDeed fun _ => rfl

theorem spells_visit (f : FieldModel) (i : Nat) : Spells visit (f.visit i) (f.ident, i) := by
  have hfeature := ((spells_position i).inside .square).between (join ['&', "features"])
    (join [',', "child"])
  exact ((spells_ownField f.ident).between _ _).bind
    ((((((hfeature.inside .round).between _ _).inside .curly).between _ _).inside .curly).map _)

/-- The fields that stand in child elements are visited, each with its own position. -/
theorem visitsOf?_reflectionItem : visitsOf? m.reflectionItem =
    some ((m.fields.zipIdx.filter fun (f, _) => f.placement.isElement).map fun (f, i) =>
      (f.ident, i)) := by
  have hvisits : (many visit).all (join m.visits) = _ :=
    all_many (fun p _ => spells_visit p.1 p.2) rfl
  rw [← List.append_nil (join m.visits)] at hvisits
  exact all_bind (spells_skip _) hvisits

end TypeModel

end TableJoin.Declaration
