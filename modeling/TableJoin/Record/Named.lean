import TableJoin.Record.Access

/-!
Direct access by name, for code that knows the type of the record: what is stored
has the feature's type already, so nothing is converted and nothing fails.
-/

namespace TableJoin

open Schema

namespace Record

/-- The items of the feature with the given name; none if there is no such feature. -/
def itemsNamed (r : Record) (name : String) : List Item :=
  (r.type.indexOf? name).elim [] r.items

/-- The record with the given items in the feature with the given name. -/
def having (r : Record) (name : String) (items : List Item) : Record :=
  (r.type.indexOf? name).elim r (r.put · items)

/-- Whether the feature with the given name is set. -/
def holdsNamed (r : Record) (name : String) : Bool :=
  !(r.itemsNamed name).isEmpty

/-- The value of the feature with the given name, its default included. -/
def valueNamed? (r : Record) (name : String) : Option Value :=
  ((r.type.indexOf? name).bind r.type.feature?).bind (·.read (r.itemsNamed name))

/-- The text or literal of the feature with the given name, its default included. -/
def textNamed? (r : Record) (name : String) : Option String :=
  match r.valueNamed? name with
  | some (.scalar (.text s)) => some s
  | some (.scalar (.literal _ text)) => some text
  | _ => none

/-- The contained records of the feature with the given name. -/
def recordsNamed (r : Record) (name : String) : List Record :=
  (r.itemsNamed name).filterMap Item.record?

/-- How many of the features with the given names are set. -/
def countSet (r : Record) (names : List String) : Nat :=
  (names.filter r.holdsNamed).length

/-- Appends an item to a list feature, or sets a single-valued one. -/
def give (r : Record) (i : Nat) (item : Item) : Record :=
  match r.type.feature? i with
  | some f => if f.isList then r.put i (r.items i ++ [item]) else r.put i [item]
  | none => r

/-- Replaces the item of a single-valued feature if there is one. -/
def amend (r : Record) (i : Nat) (item : Item) : Record :=
  if r.holds i then r.put i [item] else r

/-- Takes the items of a feature out of the record. -/
def take (r : Record) (i : Nat) : List Item × Record :=
  (r.items i, r.put i [])

end Record

end TableJoin
