import Mathlib.Data.Option.Basic
import TableJoin.Proofs.Markup.Name
import TableJoin.Proofs.Markup.Source
import TableJoin.Proofs.Reading.Views

/-!
Scoping of namespaces: tags bind short names to URIs for themselves and for what is
inside them, and what the name of an element or of an attribute means depends on what
is in scope where it stands.
-/

namespace TableJoin.Markup

/-- A name with the URI of its namespace in place of a short name. -/
structure ExpandedName where
  uri? : Option String
  localName : String
deriving DecidableEq, Repr

def QName.expanded (name : QName) : ExpandedName := ⟨name.space.uri?, name.localName⟩

/-- The short names in scope with the URIs that they are bound to, the innermost first.
The empty short name is that of the default namespace. -/
abbrev Scope := List (String × String)

namespace Scope

/-- What a raw name means, if it is one; without a short name it is in the given
namespace. -/
def expand? (scope : Scope) (unprefixed : Option String) (raw : List Char) :
    Option ExpandedName :=
  match splitRawName raw with
  | (none, name) => if isLocalName name then some ⟨unprefixed, name⟩ else none
  | (some short, name) =>
    if isLocalName short && isLocalName name then
      (scope.lookup short).map fun uri => ⟨some uri, name⟩
    else none

/-- What the name of an element means.  An empty URI undoes the default namespace. -/
def element? (scope : Scope) (raw : List Char) : Option ExpandedName :=
  scope.expand? ((scope.lookup "").filter fun uri => !uri.isEmpty) raw

/-- What the name of an attribute means; the default namespace is not for attributes. -/
def attribute? (scope : Scope) (raw : List Char) : Option ExpandedName :=
  scope.expand? none raw

variable {scope : Scope} {unprefixed : Option String} {short name : String}

theorem expand?_of_isLocalName (h : isLocalName name = true) :
    scope.expand? unprefixed name.toList = some ⟨unprefixed, name⟩ := by
  simp only [expand?, splitRawName_of_isLocalName h, h, ↓reduceIte]

theorem expand?_join (hshort : isLocalName short = true) (hname : isLocalName name = true) :
    scope.expand? unprefixed (short.toList ++ ':' :: name.toList) =
      (scope.lookup short).map fun uri => ⟨some uri, name⟩ := by
  simp only [expand?, splitRawName_join hshort, hshort, hname, Bool.and_self, ↓reduceIte]

end Scope

/-- The short name that an attribute with the key binds, if it binds one. -/
def boundBy? (key : List Char) : Option String :=
  if key = "xmlns".toList then some ""
  else if (splitRawName key).1 = some "xmlns" then some (splitRawName key).2
  else none

/-- An attribute that binds a short name is none of an element's own. -/
theorem isReservedKey_of_boundBy? {key : List Char} {short : String}
    (h : boundBy? key = some short) : isReservedKey key = true := by
  unfold boundBy? at h
  split at h
  · next hkey =>
    rw [hkey]
    decide
  · split at h
    · next hsplit =>
      have hcut := List.takeWhile_append_dropWhile (p := (· != ':')) (l := key)
      unfold splitRawName at hsplit
      split at hsplit
      · cases hsplit
      · next c rest hrest =>
        have hcolon : c = ':' := by
          have hhead := List.head?_dropWhile_not (· != ':') key
          rw [hrest] at hhead
          simpa using hhead
        injection hsplit with hshort
        have hchars : key.takeWhile (· != ':') = "xmlns".toList := by
          rw [← hshort, String.toList_ofList]
        rw [hchars, hrest, hcolon] at hcut
        rw [← hcut]
        simp [isReservedKey, List.isPrefixOf_cons_cons]
    · cases h

/-- The short name may be bound to the URI.  Two of them are never bound anew, and only
the default namespace may be undone. -/
def mayBind (short uri : String) : Bool :=
  short.isEmpty ||
    (isLocalName short && short ≠ "xml" && short ≠ "xmlns" && !uri.isEmpty)

namespace SourceAttribute

def text? (a : SourceAttribute) : Option String :=
  (unescape a.value).toOption.map String.ofList

/-- What attributes bind; none if they bind what may not be bound. -/
def declared? : List SourceAttribute → Option Scope
  | [] => some []
  | a :: rest =>
    match boundBy? a.key with
    | none => declared? rest
    | some short => do
      let uri ← a.text?
      guard (mayBind short uri)
      return (short, uri) :: (← declared? rest)

/-- The attributes that bind nothing, by what their names mean. -/
def resolve? (scope : Scope) : List SourceAttribute → Option (List (ExpandedName × String))
  | [] => some []
  | a :: rest =>
    match boundBy? a.key with
    | some _ => resolve? scope rest
    | none => do
      let name ← scope.attribute? a.key
      let value ← a.text?
      return (name, value) :: (← resolve? scope rest)

variable {a : SourceAttribute} {scope : Scope} (as : List SourceAttribute)

theorem declared?_cons_of_bound {short uri : String} (hkey : boundBy? a.key = some short)
    (htext : a.text? = some uri) (hmay : mayBind short uri = true) :
    declared? (a :: as) = (declared? as).map ((short, uri) :: ·) := by
  cases hrest : declared? as <;> simp [declared?, hkey, htext, hmay, hrest]

theorem declared?_cons_of_free (hkey : boundBy? a.key = none) :
    declared? (a :: as) = declared? as := by
  simp only [declared?, hkey]

theorem resolve?_cons_of_bound {short : String} (hkey : boundBy? a.key = some short) :
    resolve? scope (a :: as) = resolve? scope as := by
  simp only [resolve?, hkey]

theorem resolve?_cons_of_free {name : ExpandedName} {value : String}
    (hkey : boundBy? a.key = none) (hname : scope.attribute? a.key = some name)
    (htext : a.text? = some value) :
    resolve? scope (a :: as) = (resolve? scope as).map ((name, value) :: ·) := by
  cases hrest : resolve? scope as <;> simp [resolve?, hkey, hname, htext, hrest]

end SourceAttribute

/-- A tag with its names understood: what it binds, and the attributes besides. -/
structure ResolvedTag where
  name : ExpandedName
  declared : Scope
  attributes : List (ExpandedName × String)
deriving DecidableEq, Repr

/-- An element with its names understood. -/
inductive ResolvedElement where
  /-- A self-closing one. -/
  | empty (tag : ResolvedTag)
  /-- One around a text and child elements. -/
  | around (tag : ResolvedTag) (text : String) (children : List ResolvedElement)

/-- The tag where the scope is that of the element around it.  What it binds counts for
its own names, and no two of its attributes may have names that mean the same. -/
def SourceTag.resolve? (scope : Scope) (tag : SourceTag) : Option ResolvedTag := do
  let declared ← SourceAttribute.declared? tag.attributes
  let name ← Scope.element? (declared ++ scope) tag.name
  let attributes ← SourceAttribute.resolve? (declared ++ scope) tag.attributes
  guard (attributes.map (·.1)).Nodup
  return ⟨name, declared, attributes⟩

/-- The text of content with the given child elements.  Where lines are broken, blank
text around elements is layout. -/
def SourcePart.textAround (indented : Bool) (children : List ResolvedElement)
    (ps : List SourcePart) : String :=
  if indented && !children.isEmpty && Text.isBlankText (SourcePart.ownText ps) then ""
  else SourcePart.ownText ps

mutual

/-- The element where the scope is that of the element around it; `indented` says
whether lines are broken. -/
def SourceElement.resolve? (indented : Bool) (scope : Scope) :
    SourceElement → Option ResolvedElement
  | .empty tag => (tag.resolve? scope).map .empty
  | .around tag parts _ => do
    let resolved ← tag.resolve? scope
    let children ← SourcePart.resolve? indented (resolved.declared ++ scope) parts
    return .around resolved (SourcePart.textAround indented children parts) children
termination_by structural e => e

def SourcePart.resolve? (indented : Bool) (scope : Scope) :
    List SourcePart → Option (List ResolvedElement)
  | [] => some []
  | p :: rest =>
    match p with
    | .element e => do
      let first ← e.resolve? indented scope
      return first :: (← SourcePart.resolve? indented scope rest)
    | _ => SourcePart.resolve? indented scope rest
termination_by structural ps => ps

end

section Resolving

variable {indented : Bool} {scope : Scope}

theorem SourceTag.resolve?_eq {tag : SourceTag} {name : ExpandedName} {declared : Scope}
    {attributes : List (ExpandedName × String)}
    (hdeclared : SourceAttribute.declared? tag.attributes = some declared)
    (hname : Scope.element? (declared ++ scope) tag.name = some name)
    (hattributes : SourceAttribute.resolve? (declared ++ scope) tag.attributes = some attributes)
    (hdistinct : (attributes.map (·.1)).Nodup) :
    tag.resolve? scope = some ⟨name, declared, attributes⟩ := by
  simp [SourceTag.resolve?, hdeclared, hname, hattributes, hdistinct]

theorem SourcePart.resolve?_append {ps qs : List SourcePart} {xs ys : List ResolvedElement}
    (hps : SourcePart.resolve? indented scope ps = some xs)
    (hqs : SourcePart.resolve? indented scope qs = some ys) :
    SourcePart.resolve? indented scope (ps ++ qs) = some (xs ++ ys) := by
  induction ps generalizing xs with
  | nil =>
    cases hps
    exact hqs
  | cons p ps ih =>
    cases p with
    | element e =>
      simp only [SourcePart.resolve?, Option.bind_eq_bind, Option.bind_eq_some_iff,
        Option.pure_def, Option.some.injEq] at hps
      obtain ⟨first, hfirst, more, hmore, rfl⟩ := hps
      simp [SourcePart.resolve?, hfirst, ih hmore]
    | _ => exact ih hps

theorem SourcePart.resolve?_of_elements_eq_nil {ps : List SourcePart}
    (h : SourcePart.elements ps = []) : SourcePart.resolve? indented scope ps = some [] := by
  induction ps with
  | nil => rfl
  | cons p ps ih =>
    cases p with
    | element e => cases h
    | _ => exact ih h

end Resolving

end TableJoin.Markup
