import TableJoin.Proofs.Markup.Element
import TableJoin.Reading.Records

/-!
Decoding by declaration: what an element means as a record, feature by feature,
and what it is refused for, in the order of the document.  No place in a text is
kept and nothing is consumed.
-/

namespace TableJoin.Markup

open Schema

def Attribute.lastNamed? (name : String) (as : List Attribute) : Option Attribute :=
  as.reverse.find? (·.localName = name)

/-- The items that a text gives a feature of a simple type. -/
def textItems (s : SimpleType) (text : String) : List Item :=
  (s.read text).toOption.toList.map .scalar

/-- What an attribute feature holds: the value of the last attribute of its name. -/
def attributeItems (s : SimpleType) (name : String) (as : List Attribute) : List Item :=
  (Attribute.lastNamed? name as).elim [] fun a => textItems s a.value

/-- What a feature for character content holds: the text, unless it is blank. -/
def bodyItems (s : SimpleType) (text : String) : List Item :=
  if Text.isBlankText text then [] else textItems s text

/-- What a feature holds in the record that an element amounts to, given the items
that the element's children are. -/
def Element.itemsWith (e : Element) (children : ItemType → Bool → String → List Item)
    (f : Feature) : List Item :=
  match f.shape with
  | .attribute s => attributeItems s f.xmlName.localName e.attributes
  | .body s => bodyItems s e.ownText
  | .element s isList => children s isList f.xmlName.localName

mutual

/-- The item that an element amounts to; none if its text is no lexical form. -/
def Element.item? : ItemType → Element → Option Item
  | .simple s, e => (s.read e.ownText).toOption.map .scalar
  | .record t, .empty nsPrefix name attributes =>
    some (.record ⟨t, t.features.map
      (Element.itemsWith (.empty nsPrefix name attributes) fun _ _ _ => [])⟩)
  | .record t, .around nsPrefix name attributes parts =>
    some (.record ⟨t, t.features.map
      (Element.itemsWith (.around nsPrefix name attributes parts)
        fun s isList name => Part.items s isList name parts)⟩)
termination_by structural _ e => e

/-- The items of the child elements with the local name: of all of them for a
list, else of the first one. -/
def Part.items (s : ItemType) (isList : Bool) (name : String) : List Part → List Item
  | [] => []
  | .text _ :: rest => Part.items s isList name rest
  | .element e :: rest =>
    if e.name = name then
      (e.item? s).toList ++ if isList then Part.items s isList name rest else []
    else Part.items s isList name rest
termination_by structural ps => ps

end

/-- What a feature holds in the record that an element amounts to. -/
def Element.itemsOf (e : Element) (f : Feature) : List Item :=
  e.itemsWith (fun s isList name => Part.items s isList name e.parts) f

/-- The record that an element amounts to, whatever the mode. -/
def Element.record (t : RecordType) (e : Element) : Record :=
  ⟨t, t.features.map e.itemsOf⟩

/-- What a text is refused for as the content of an element. -/
def contentFaults (s : SimpleType) (element text : String) : List ReadError :=
  match s.read text with
  | .ok _ => []
  | .error cause => [.invalidContent element cause]

/-- What the value of a declared attribute is refused for. -/
def valueFaults (s : SimpleType) (context : String) (a : Attribute) : List ReadError :=
  match s.read a.value with
  | .ok _ => []
  | .error cause => [.invalidAttribute a.localName context cause]

def attributeFaults (strict : Bool) (t : RecordType) (a : Attribute) : List ReadError :=
  match t.attribute? a.localName with
  | none => if strict then [.unknownAttribute a.localName t.name] else []
  | some (_, s) => valueFaults s t.name a

/-- What character data is refused for where only elements may stand. -/
def strayFaults (strict : Bool) (t : RecordType) (s : String) : List ReadError :=
  if Text.isBlankText s then [] else if strict then [.unexpectedText s t.name] else []

/-- What an element is refused for, given what its children are refused for where
the record type has element features. -/
def Element.faultsWith (strict : Bool) (t : ItemType) (e : Element)
    (children : RecordType → List ReadError) : List ReadError :=
  match t with
  | .simple s => contentFaults s e.name e.ownText
  | .record t =>
    e.attributes.flatMap (attributeFaults strict t) ++
      match t.body? with
      | some (_, s) => if Text.isBlankText e.ownText then [] else contentFaults s e.name e.ownText
      | none => children t

mutual

/-- What an element is refused for, in the order of the document. -/
def Element.faults (strict : Bool) (t : ItemType) : Element → List ReadError
  | .empty nsPrefix name attributes =>
    Element.faultsWith strict t (.empty nsPrefix name attributes) fun _ => []
  | .around nsPrefix name attributes parts =>
    Element.faultsWith strict t (.around nsPrefix name attributes parts)
      fun t => Part.faults strict t [] parts
termination_by structural e => e

/-- What the parts of a record's content are refused for; `seen` are the local
names of the elements before them. -/
def Part.faults (strict : Bool) (t : RecordType) (seen : List String) :
    List Part → List ReadError
  | [] => []
  | .text s :: rest => strayFaults strict t s ++ Part.faults strict t seen rest
  | .element e :: rest =>
    (match t.element? e.name with
      | none => if strict then [.unknownElement e.name t.name] else []
      | some (_, s, isList) =>
        if !isList && seen.contains e.name then
          if strict then [.duplicateElement e.name t.name] else []
        else e.faults strict s) ++
      Part.faults strict t (e.name :: seen) rest
termination_by structural ps => ps

end

/-- What one part of a record's content is refused for. -/
def Part.ownFaults (strict : Bool) (t : RecordType) (seen : List String) :
    Part → List ReadError
  | .text s => strayFaults strict t s
  | .element e =>
    match t.element? e.name with
    | none => if strict then [.unknownElement e.name t.name] else []
    | some (_, s, isList) =>
      if !isList && seen.contains e.name then
        if strict then [.duplicateElement e.name t.name] else []
      else e.faults strict s

/-- The local names of the elements up to a part and with it. -/
def Part.seen (seen : List String) : Part → List String
  | .text _ => seen
  | .element e => e.name :: seen

theorem Part.faults_cons (strict : Bool) (t : RecordType) (seen : List String) (p : Part)
    (rest : List Part) : Part.faults strict t seen (p :: rest) =
      p.ownFaults strict t seen ++ Part.faults strict t (p.seen seen) rest := by
  cases p <;> rfl

def Part.elements : List Part → List Element
  | [] => []
  | .text _ :: rest => Part.elements rest
  | .element e :: rest => e :: Part.elements rest

/-- A list feature takes all children of its name, in the order of the document. -/
theorem Part.items_list (s : ItemType) (name : String) (parts : List Part) :
    Part.items s true name parts =
      ((Part.elements parts).filter (·.name = name)).filterMap (·.item? s) := by
  induction parts with
  | nil => rfl
  | cons p rest ih =>
    cases p with
    | text _ => exact ih
    | element e =>
      by_cases hname : e.name = name
      · cases hitem : e.item? s <;> simp [Part.items, Part.elements, hname, hitem, ih]
      · simp [Part.items, Part.elements, hname, ih]

/-- A single-valued feature takes the first child of its name. -/
theorem Part.items_single (s : ItemType) (name : String) (parts : List Part) :
    Part.items s false name parts =
      ((Part.elements parts).find? (·.name = name)).toList.filterMap (·.item? s) := by
  induction parts with
  | nil => rfl
  | cons p rest ih =>
    cases p with
    | text _ => exact ih
    | element e =>
      by_cases hname : e.name = name
      · cases hitem : e.item? s <;> simp [Part.items, Part.elements, hname, hitem]
      · simp [Part.items, Part.elements, hname, ih]

/-- The record that an element is decoded to, or else the first fault. -/
def Element.decode (strict : Bool) (t : RecordType) (e : Element) : Except ReadError Record :=
  match e.faults strict (.record t) with
  | [] => .ok (e.record t)
  | fault :: _ => .error fault

theorem Element.item?_record (t : RecordType) (e : Element) :
    e.item? (.record t) = some (.record (e.record t)) := by
  cases e <;> rfl

theorem Element.item?_simple (s : SimpleType) (e : Element) :
    e.item? (.simple s) = (s.read e.ownText).toOption.map .scalar := by
  cases e <;> rfl

theorem Element.faults_simple (strict : Bool) (s : SimpleType) (e : Element) :
    e.faults strict (.simple s) = contentFaults s e.name e.ownText := by
  cases e <;> rfl

theorem Element.faults_record (strict : Bool) (t : RecordType) (e : Element) :
    e.faults strict (.record t) = e.attributes.flatMap (attributeFaults strict t) ++
      match t.body? with
      | some (_, s) => if Text.isBlankText e.ownText then [] else contentFaults s e.name e.ownText
      | none => Part.faults strict t [] e.parts := by
  cases e <;> rfl

end TableJoin.Markup
