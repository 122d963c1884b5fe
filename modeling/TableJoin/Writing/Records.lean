import TableJoin.Record.Basic
import TableJoin.Writing.Mark

/-!
Writing records: one element for each record and each scalar child, in the order
of the features and of their items.
-/

namespace TableJoin

open Markup Schema Writing

def Item.toText : Item → String
  | .scalar s => s.toText
  | .record _ => ""

/-- The attributes of a record: the explicit ones, in feature order. -/
def Record.attributes (r : Record) : List (QName × String) :=
  r.entries.filterMap fun (f, items) =>
    match f.shape, items with
    | .attribute _, item :: _ => some (f.xmlName, item.toText)
    | _, _ => none

mutual

/-- The marks of a record as an element with the given name. -/
def Record.marks (name : QName) : Record → List Mark
  | ⟨t, slots⟩ => enclose name (Record.attributes ⟨t, slots⟩) (Item.slotMarks t.features slots)
termination_by structural r => r

/-- The marks of an item as an element with the given name. -/
def Item.marks (name : QName) : Item → List Mark
  | .scalar s => textElement name [] s.toText
  | .record r => r.marks name
termination_by structural x => x

/-- The marks of the items of one element feature. -/
def Item.listMarks (name : QName) : List Item → List Mark
  | [] => []
  | item :: rest => item.marks name ++ Item.listMarks name rest
termination_by structural xs => xs

/-- The content of a record: its own text, or the elements of its features. -/
def Item.slotMarks : List Feature → List (List Item) → List Mark
  | f :: fs, items :: slots =>
    (match f.shape with
      | .attribute _ => []
      | .body _ => textContent (items.head?.elim "" Item.toText)
      | .element _ _ => Item.listMarks f.xmlName items) ++ Item.slotMarks fs slots
  | _, _ => []
termination_by structural _ slots => slots

end

end TableJoin
