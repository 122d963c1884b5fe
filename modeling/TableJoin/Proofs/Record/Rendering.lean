import TableJoin.Proofs.Markup.Scoping
import TableJoin.Proofs.Record.Fits
import TableJoin.Proofs.Schema.Table
import TableJoin.Writing.Records

/-!
The element that a record amounts to, with names that mean something: its explicit
attributes, and its own text or the elements of its items.  Nothing is said here about
short names, lines or characters.
-/

namespace TableJoin

open Markup Schema

/-- An element that holds the text and the child elements, self-closing if it holds
neither. -/
def Markup.ResolvedElement.holding (tag : ResolvedTag) (text : String)
    (children : List ResolvedElement) : ResolvedElement :=
  if text = "" ∧ children.isEmpty then .empty tag else .around tag text children

/-- The attributes that are set explicitly, in the order of the features. -/
def Record.explicitAttributes (r : Record) : List (ExpandedName × String) :=
  r.entries.filterMap fun (f, items) =>
    if f.shape.isAttribute then items.head?.map fun x => (f.xmlName.expanded, x.toText) else none

/-- The text that a record holds as its own content. -/
def Record.ownText (r : Record) : String :=
  ((r.entries.find? fun p => p.1.shape.isBody).bind fun p => p.2.head?).elim "" Item.toText

mutual

def Record.rendered (name : QName) : Record → ResolvedElement
  | ⟨t, slots⟩ =>
    .holding ⟨name.expanded, [], Record.explicitAttributes ⟨t, slots⟩⟩ (Record.ownText ⟨t, slots⟩)
      (Item.renderedSlots t.features slots)
termination_by structural r => r

/-- The element that an item of a feature for child elements amounts to. -/
def Item.rendered (name : QName) : Item → ResolvedElement
  | .scalar s => .holding ⟨name.expanded, [], []⟩ s.toText []
  | .record r => r.rendered name
termination_by structural x => x

/-- The elements of the items of one feature, in their order. -/
def Item.renderedList (name : QName) : List Item → List ResolvedElement
  | [] => []
  | x :: xs => x.rendered name :: Item.renderedList name xs
termination_by structural xs => xs

/-- The elements of the items of all features for child elements, in the order of the
features. -/
def Item.renderedSlots : List Feature → List (List Item) → List ResolvedElement
  | f :: fs, items :: slots =>
    (if f.shape.isElement then Item.renderedList f.xmlName items else []) ++
      Item.renderedSlots fs slots
  | _, _ => []
termination_by structural _ slots => slots

end

/-- The child elements that an entry of a record amounts to. -/
def childElements (p : Feature × List Item) : List ResolvedElement :=
  if p.1.shape.isElement then p.2.map (Item.rendered p.1.xmlName) else []

theorem Item.renderedList_eq (name : QName) (xs : List Item) :
    Item.renderedList name xs = xs.map (Item.rendered name) := by
  induction xs with
  | nil => rfl
  | cons x xs ih => rw [Item.renderedList, ih, List.map_cons]

theorem Item.renderedSlots_eq (slots : List (List Item)) :
    ∀ fs, Item.renderedSlots fs slots = (fs.zip slots).flatMap childElements := by
  induction slots with
  | nil => intro fs; cases fs <;> rfl
  | cons xs slots ih =>
    intro fs
    cases fs with
    | nil => rfl
    | cons f fs =>
      rw [Item.renderedSlots, ih, Item.renderedList_eq, List.zip_cons_cons, List.flatMap_cons]
      rfl

namespace Record

theorem rendered_eq (name : QName) (r : Record) :
    r.rendered name = .holding ⟨name.expanded, [], r.explicitAttributes⟩ r.ownText
      (r.entries.flatMap childElements) := by
  cases r with
  | mk t slots => rw [rendered, Item.renderedSlots_eq, entries]

/-- The explicit attributes are those that are written, by what their names mean. -/
theorem explicitAttributes_eq (r : Record) :
    r.explicitAttributes = r.attributes.map fun a => (a.1.expanded, a.2) := by
  rw [explicitAttributes, attributes, List.map_filterMap]
  congr 1
  funext ⟨f, items⟩
  cases hshape : f.shape <;> cases items <;> simp [hshape, Shape.isAttribute]

end Record

end TableJoin
