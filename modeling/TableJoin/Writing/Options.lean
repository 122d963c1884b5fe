import TableJoin.Markup.Name

/-!
Options of encoding: indentation, the XML declaration, the short names of the
namespaces and the schema location.
-/

namespace TableJoin.Writing

open Markup

/-- How a document is written. -/
structure EncodeOptions where
  /-- The indentation per level; none for a text without line breaks. -/
  indent : Option Nat := some 2
  declaration : Bool := true
  tjsShort : String := "tjs"
  owsShort : String := "ows"
  xlinkShort : String := "xlink"
  schemaLocation : Option String := none
deriving DecidableEq, Repr

namespace EncodeOptions

/-- Two blanks per level, a declaration, the conventional short names. -/
def standard : EncodeOptions := {}

/-- The short name of a namespace; names without a namespace have none. -/
def shortName? (o : EncodeOptions) : Namespace → Option String
  | .unqualified => none
  | .tjs => some o.tjsShort
  | .ows => some o.owsShort
  | .xlink => some o.xlinkShort

/-- The options with another short name for a namespace. -/
def withShortName (o : EncodeOptions) (space : Namespace) (short : String) : EncodeOptions :=
  match space with
  | .unqualified => o
  | .tjs => { o with tjsShort := short }
  | .ows => { o with owsShort := short }
  | .xlink => { o with xlinkShort := short }

/-- A name as it is written under the options. -/
def qualify (o : EncodeOptions) (name : QName) : String :=
  QName.join (o.shortName? name.space) name.localName

/-- The attribute that binds a namespace, if it has a URI. -/
def binding? (o : EncodeOptions) (space : Namespace) : Option (String × String) :=
  match o.shortName? space, space.uri? with
  | some short, some uri =>
    some (if short.isEmpty then "xmlns" else s!"xmlns:{short}", uri)
  | _, _ => none

/-- The attributes that only the first tag of a document has. -/
def rootAttributes (o : EncodeOptions) : List (String × String) :=
  Namespace.bound.filterMap o.binding? ++
    match o.schemaLocation with
    | none => []
    | some location =>
      [("xmlns:xsi", Namespace.schemaInstanceUri), ("xsi:schemaLocation", location)]

end EncodeOptions

end TableJoin.Writing
