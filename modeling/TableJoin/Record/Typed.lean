import TableJoin.Record.Named
import TableJoin.Value.Basic

/-!
Typed access: the calls that a record offers for each of its features.  What is passed in and
what is handed out is of the feature's own type, so that nothing is converted and nothing fails.
-/

namespace TableJoin

open Schema

/-- What is handed out of a feature. -/
inductive View where
  /-- There is always an item, the default if there is no other. -/
  | item (x : Item)
  | optional (x : Option Item)
  | list (xs : List Item)
deriving DecidableEq

/-- What is seen, as a value; none if there is nothing to see. -/
def View.value? : View → Option Value
  | item x => some (.ofItem x)
  | optional x => x.map .ofItem
  | list xs => some (.ofItems xs)

namespace Schema.Feature

/-- What the getter of a feature hands out if it holds the given items. -/
def view (f : Feature) (items : List Item) : View :=
  if f.isList then .list items
  else
    match f.default? with
    | some s => .item (items.head?.getD (.scalar s))
    | none => .optional items.head?

/-- What is handed out if the given items are taken out of a feature.  A default cannot be
taken, since it is not held. -/
def taken (f : Feature) (items : List Item) : View :=
  if f.isList then .list items else .optional items.head?

/-- Whether a feature that holds the given items is set: a list if it is not empty. -/
def isSetBy (f : Feature) (items : List Item) : Bool :=
  if f.isList then !items.isEmpty else items.head?.isSome

end Schema.Feature

namespace Record

/-- What the getter of the feature at a position hands out. -/
def view? (r : Record) (i : Nat) : Option View :=
  (r.type.feature? i).map (·.view (r.items i))

/-- Whether the feature at a position is set. -/
def viewsSet? (r : Record) (i : Nat) : Option Bool :=
  (r.type.feature? i).map (·.isSetBy (r.items i))

end Record

/-- A change through the accessors of a feature. -/
inductive TypedCall where
  /-- Sets a single feature. -/
  | set (i : Nat) (x : Item)
  /-- Appends to a list. -/
  | add (i : Nat) (x : Item)
  /-- Sets a single feature or appends to a list, and hands the record on. -/
  | give (i : Nat) (x : Item)
  /-- Replaces a list as a whole. -/
  | replace (i : Nat) (xs : List Item)
  | unset (i : Nat)
  /-- Takes out what is held. -/
  | take (i : Nat)

/-- What a call hands out, if anything, and the record afterwards. -/
def TypedCall.perform (r : Record) : TypedCall → Option View × Record
  | set i x => (none, r.put i [x])
  | add i x => (none, r.put i (r.items i ++ [x]))
  | give i x => (none, r.give i x)
  | replace i xs => (none, r.put i xs)
  | unset i => (none, r.put i [])
  | take i => ((r.type.feature? i).map (·.taken (r.take i).1), (r.take i).2)

end TableJoin
