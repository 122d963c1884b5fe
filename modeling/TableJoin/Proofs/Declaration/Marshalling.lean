import Mathlib.Logic.Function.Basic
import TableJoin.Proofs.Declaration.Sites
import TableJoin.Reading.Cursor
import TableJoin.Writing.Mark

/-!
Marshalling: what the generated markup code does when it runs.  It goes through its parts in
order, sends every name that it reads to the first arm for that local name, and leaves the
items themselves to the code of their types, of which nothing is known here.
-/

namespace TableJoin

open Markup Reading Schema Writing

namespace Declaration

namespace Placement

/-- The local name of the attribute that the value stands in. -/
def attributeName? : Placement → Option String
  | .attribute _ localName => some localName
  | _ => none

/-- The local name of the child elements that the values stand in. -/
def elementName? : Placement → Option String
  | .element _ localName => some localName
  | _ => none

end Placement

/-- The types of items, by the tokens that name them, with the code that the generated code
calls: for attributes and character content the text of an item and its parser, for child
elements its writer and its reader. -/
structure ItemTypes where
  Value : List Token → Type
  toText : {type : List Token} → Value type → String
  parse : (type : List Token) → String → Except LexicalError (Value type)
  marks : {type : List Token} → QName → Value type → List Mark
  read : (type : List Token) → StartTag → Step ReadError (Value type)

/-- What a field holds: items, of which a single one has one at most. -/
@[ext]
structure Held (T : ItemTypes) (f : FieldModel) where
  items : List (T.Value f.type)
  single : f.cardinality = .single → items.length ≤ 1

namespace Held

variable {T : ItemTypes} {f : FieldModel}

def unset : Held T f := ⟨[], fun _ => Nat.zero_le 1⟩

def one (x : T.Value f.type) : Held T f := ⟨[x], fun _ => Nat.le_refl 1⟩

/-- Another item can be added: the field is a list, or it is unset. -/
def takes (h : Held T f) : Bool := f.cardinality = .many || h.items.isEmpty

/-- One item more, behind the others. -/
def add (h : Held T f) (x : T.Value f.type) (htakes : h.takes = true) : Held T f where
  items := h.items ++ [x]
  single hsingle := by
    have hempty : h.items = [] := by simpa [takes, hsingle] using htakes
    simp [hempty]

def map (g : T.Value f.type → T.Value f.type) (h : Held T f) : Held T f where
  items := h.items.map g
  single hsingle := by
    rw [List.length_map]
    exact h.single hsingle

/-- The attribute that the item is written as if there is one. -/
def attribute? (name : QName) (h : Held T f) : Option (QName × String) :=
  h.items.head?.map fun x => (name, T.toText x)

def elements (name : QName) (h : Held T f) : List Mark := h.items.flatMap (T.marks name)

def filter (p : T.Value f.type → Bool) (h : Held T f) : Held T f where
  items := h.items.filter p
  single hsingle := Nat.le_trans (List.length_filter_le p h.items) (h.single hsingle)

end Held

namespace TypeModel

/-- The place of a field among the fields. -/
abbrev Place (m : TypeModel) : Type := Fin m.fields.length

def field (m : TypeModel) (i : m.Place) : FieldModel := m.fields[i]

theorem field_mem (m : TypeModel) (i : m.Place) : m.field i ∈ m.fields := List.getElem_mem i.isLt

/-- A value of the type: what each of its fields holds. -/
abbrev Value (m : TypeModel) (T : ItemTypes) : Type := (i : m.Place) → Held T (m.field i)

section Places

variable (m : TypeModel)

/-- The place of the field that an identifier stands for.  There must be one, and it must hold as
many values as what is done to it needs, or else the code is not compiled. -/
def placeOf? (field : FieldUse) : Option m.Place :=
  (m.fields.findFinIdx? fun f => f.ident = field.ident).filter fun i =>
    field.cardinality?.all fun c => c = (m.field i).cardinality

end Places

end TypeModel

section Placing

variable {α β ν : Type} (place? : α → Option β)

/-- Parts of code with places in place of fields, if every field has one. -/
def placeAll? (parts : List (ν × α)) : Option (List (ν × β)) :=
  parts.mapM fun (name, field) => (place? field).map (name, ·)

def ReadCode.placed? (code : ReadCode α) : Option (ReadCode β) := do
  let attributes ← placeAll? place? code.attributes
  let content ←
    match code.content with
    | .text field => ReadContent.text <$> place? field
    | .children arms => ReadContent.children <$> placeAll? place? arms
  return ⟨attributes, content⟩

def WriteCode.placed? (code : WriteCode α) : Option (WriteCode β) := do
  let attributes ← placeAll? place? code.attributes
  let content ←
    match code.content with
    | .text field => WriteContent.text <$> place? field
    | .children tests loops =>
      WriteContent.children <$> tests.mapM place? <*> placeAll? place? loops
  return ⟨attributes, content⟩

def MarkupCode.placed? (code : MarkupCode α) : Option (MarkupCode β) :=
  MarkupCode.mk <$> code.reader.placed? place? <*> code.writer.placed? place?

end Placing

/-- The markup code of the generated item with the fields that its identifiers stand for, if it is
compiled. -/
def TypeModel.compiled? (m : TypeModel) : Option (MarkupCode m.Place) := do
  let code ← MarkupCode.ofItem? m.markupItem
  code.placed? m.placeOf?

section Arms

variable {α : Type} (arms : List (String × α)) (name : String)

def armFor? : Option (Fin arms.length) := arms.findFinIdx? fun arm => arm.1 = name

/-- The field of the arm that a name is sent to. -/
def fieldFor? : Option α := (armFor? arms name).map fun k => arms[k].2

end Arms

namespace TypeModel

variable (m : TypeModel) (T : ItemTypes)

/-- Reads an attribute.  Of attributes that are sent to one field the last one counts. -/
def readAttribute (arms : List (String × m.Place)) (v : m.Value T) (a : Markup.Attribute) :
    Step ReadError (m.Value T) :=
  match fieldFor? arms a.localName with
  | some i =>
    match T.parse (m.field i).type a.value with
    | .ok x => return Function.update v i (.one x)
    | .error cause => Step.fail (.invalidAttribute a.localName m.typeName cause)
  | none => do
    unknownAttribute m.typeName a
    return v

/-- Reads a child element that is sent to a field.  Of elements for a single field the first one
counts. -/
def readElement (i : m.Place) (child : StartTag) (v : m.Value T) : Step ReadError (m.Value T) := do
  if htakes : (v i).takes = true then
    let x ← T.read (m.field i).type child
    return Function.update v i ((v i).add x htakes)
  else
    duplicateElement m.typeName child
    return v

/-- Reads child elements up to the end of the element around them.  Every child takes a node at
least, so that the number of nodes ahead is fuel enough. -/
def readChildren (arms : List (String × m.Place)) :
    Nat → StartTag → m.Value T → Step ReadError (m.Value T)
  | 0, tag, _ => do Step.fail ((← Step.here).ending tag.name)
  | fuel + 1, tag, v => do
    match ← nextChild tag with
    | none => return v
    | some (.text s) =>
      unexpectedText m.typeName s
      readChildren arms fuel tag v
    | some (.element child) =>
      match fieldFor? arms child.name with
      | none =>
        unknownElement m.typeName child
        readChildren arms fuel tag v
      | some i => readChildren arms fuel tag (← m.readElement T i child v)

/-- Reads the character content into a field unless it is blank. -/
def readBody (i : m.Place) (tag : StartTag) (v : m.Value T) : Step ReadError (m.Value T) := do
  let text ← readText tag
  if Text.isBlankText text then return v
  match T.parse (m.field i).type text with
  | .ok x => return Function.update v i (.one x)
  | .error cause => Step.fail (.invalidContent tag.name cause)

end TypeModel

section Running

variable {m : TypeModel} {T : ItemTypes}

/-- What a method that reads makes of an element: a value that nothing is set in, then the
attributes, then the content. -/
def ReadCode.run (code : ReadCode m.Place) (T : ItemTypes) (tag : StartTag) :
    Step ReadError (m.Value T) := do
  let v ← tag.attributes.foldlM (m.readAttribute T code.attributes) fun _ => .unset
  match code.content with
  | .text i => m.readBody T i tag v
  | .children arms =>
    let c ← Step.here
    m.readChildren T arms (c.ahead.length + 1) tag v

namespace WriteCode

variable (code : WriteCode m.Place) (v : m.Value T)

def attributesOf : List (QName × String) :=
  code.attributes.filterMap fun (name, i) => (v i).attribute? name

/-- What a method that writes makes of a value; an element without content closes itself. -/
def run (name : QName) : List Mark :=
  match code.content with
  | .text i =>
    match (v i).items with
    | x :: _ => textElement name (code.attributesOf v) (T.toText x)
    | [] => [.empty name (code.attributesOf v)]
  | .children tests loops =>
    if tests.all fun i => (v i).items.isEmpty then [.empty name (code.attributesOf v)]
    else
      .start name (code.attributesOf v) ::
        loops.flatMap (fun (child, i) => (v i).elements child) ++ [.close name]

end WriteCode

end Running

end Declaration

end TableJoin
