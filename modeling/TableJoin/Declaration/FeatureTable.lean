import TableJoin.Declaration.Model
import TableJoin.Declaration.Phrase

/-!
The feature table: what the generated code says about the type and its features.
-/

namespace TableJoin.Declaration

open Phrase

def namespaceName : Markup.Namespace → String
  | .unqualified => "Unqualified"
  | .tjs => "Tjs"
  | .ows => "Ows"
  | .xlink => "Xlink"

/-- The namespace that a short name stands for; one that is not known stands for
none. -/
def namespaceOf (short : String) : Markup.Namespace :=
  (Markup.Namespace.bound.find? (·.shortName? = some short)).getD .unqualified

namespace Placement

/-- The qualified name of the attribute or element.  Without a short name attributes
belong to no namespace and elements to Table Joining. -/
def qname : Placement → Markup.QName
  | .attribute short? localName => ⟨(short?.map namespaceOf).getD .unqualified, localName⟩
  | .element short? localName => ⟨(short?.map namespaceOf).getD .tjs, localName⟩
  | .text => .plain ""

def kindName : Placement → String
  | .attribute _ _ => "Attribute"
  | .element _ _ => "Element"
  | .text => "Text"

end Placement

namespace FieldModel

variable (f : FieldModel)

def qnamePhrase : Phrase :=
  let name := f.placement.qname
  join [core ["QName", "new"],
    round [core ["Namespace", namespaceName name.space], ',', quoted name.localName]]

def multiplicityName : String :=
  match f.cardinality, f.isRequired with
  | .single, false => "Optional"
  | .single, true => "Required"
  | .many, false => "Many"
  | .many, true => "OneOrMore"

def valueKind : Phrase := join ['<', f.type, "as", core ["FieldValue"], '>', marks "::", "KIND"]

/-- The entry of the table for the feature at a position. -/
def tableEntry (i : Nat) : Phrase :=
  join [core ["FeatureDef"], curly [
    "id", ':', core ["FeatureId", "new"], round [position i], ',',
    "name", ':', quoted f.name, ',',
    "xml_name", ':', f.qnamePhrase, ',',
    "kind", ':', core ["FeatureKind", f.placement.kindName], ',',
    "multiplicity", ':', core ["Multiplicity", f.multiplicityName], ',',
    "value_kind", ':', f.valueKind, ',',
    "unsettable", ':', if f.default?.isSome then "true" else "false", ',']]

end FieldModel

namespace TypeModel

/-- The entries of the table, in the order of the fields. -/
def tableEntries (m : TypeModel) : List Phrase :=
  m.fields.zipIdx.map fun (f, i) => f.tableEntry i

/-- The item that holds the name of the type and its table. -/
def tableItem (m : TypeModel) : Phrase :=
  implementation "TypeInfo" m.ident [
    "const", "TYPE_NAME", ':', staticRef, "str", '=', quoted m.typeName, ';',
    "const", "FEATURES", ':', staticRef, square [core ["FeatureDef"]], '=', '&',
      square [commaSeparated m.tableEntries], ';']

end TypeModel

end TableJoin.Declaration
