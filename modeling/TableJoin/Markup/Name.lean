/-!
Namespaces of the documents and qualified names.
-/

namespace TableJoin.Markup

/-- The namespaces that names of a document belong to. -/
inductive Namespace where
  /-- No namespace: plain attributes and character content. -/
  | unqualified
  /-- Table Joining Service. -/
  | tjs
  /-- Web Services Common. -/
  | ows
  /-- XML Linking Language. -/
  | xlink
deriving DecidableEq, Repr, Inhabited

namespace Namespace

/-- The namespaces that have a URI, in the order of their declarations. -/
def bound : List Namespace := [.tjs, .ows, .xlink]

def uri? : Namespace → Option String
  | .unqualified => none
  | .tjs => some "http://www.opengis.net/tjs/1.0"
  | .ows => some "http://www.opengis.net/ows/1.1"
  | .xlink => some "http://www.w3.org/1999/xlink"

def shortName? : Namespace → Option String
  | .unqualified => none
  | .tjs => some "tjs"
  | .ows => some "ows"
  | .xlink => some "xlink"

def schemaInstanceUri : String := "http://www.w3.org/2001/XMLSchema-instance"

end Namespace

/-- A name in a namespace. -/
structure QName where
  space : Namespace
  localName : String
deriving DecidableEq, Repr, Inhabited

namespace QName

def plain (localName : String) : QName := ⟨.unqualified, localName⟩

def tjs (localName : String) : QName := ⟨.tjs, localName⟩

def ows (localName : String) : QName := ⟨.ows, localName⟩

def xlink (localName : String) : QName := ⟨.xlink, localName⟩

/-- A local name after a short name and a colon; an absent or empty short name
leaves the local name alone. -/
def join (shortName : Option String) (localName : String) : String :=
  match shortName with
  | none => localName
  | some short => if short.isEmpty then localName else s!"{short}:{localName}"

/-- The name with the conventional short name of its namespace. -/
def display (name : QName) : String :=
  join name.space.shortName? name.localName

end QName

/-- A raw tag or attribute name, cut at its first colon. -/
def splitRawName (raw : List Char) : Option String × String :=
  match raw.dropWhile (· != ':') with
  | [] => (none, String.ofList raw)
  | _ :: rest => (some (String.ofList (raw.takeWhile (· != ':'))), String.ofList rest)

end TableJoin.Markup
