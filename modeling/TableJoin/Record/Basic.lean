import TableJoin.Schema.Table

/-!
Records: values of the complex types.  A record keeps, for each feature of its
type, the items that were given explicitly; a feature without items is unset.
-/

namespace TableJoin

open Schema

mutual

/-- A record: its type and the items of each feature, by the feature's position. -/
structure Record where
  type : RecordType
  slots : List (List Item)

/-- One item of a feature. -/
inductive Item where
  | scalar (s : Scalar)
  | record (r : Record)

end

mutual

/-- Records are equal when their types and all their items are. -/
def Record.decEq : (a b : Record) → Decidable (a = b)
  | ⟨s, xs⟩, ⟨t, ys⟩ =>
    if h : s = t then
      match Item.decEqSlots xs ys with
      | isTrue h' => isTrue (by rw [h, h'])
      | isFalse h' => isFalse fun e => h' (by injection e)
    else isFalse fun e => h (by injection e)
termination_by structural a => a

/-- Items are equal when they are the same scalar or equal records. -/
def Item.decEq : (a b : Item) → Decidable (a = b)
  | .scalar s, .scalar t =>
    if h : s = t then isTrue (by rw [h]) else isFalse fun e => h (by injection e)
  | .record r, .record s =>
    match Record.decEq r s with
    | isTrue h => isTrue (by rw [h])
    | isFalse h => isFalse fun e => h (by injection e)
  | .scalar _, .record _ => isFalse fun e => by injection e
  | .record _, .scalar _ => isFalse fun e => by injection e
termination_by structural a => a

def Item.decEqList : (a b : List Item) → Decidable (a = b)
  | [], [] => isTrue rfl
  | x :: xs, y :: ys =>
    match Item.decEq x y, Item.decEqList xs ys with
    | isTrue h, isTrue h' => isTrue (by rw [h, h'])
    | isFalse h, _ => isFalse fun e => h (by injection e)
    | _, isFalse h => isFalse fun e => h (by injection e)
  | [], _ :: _ => isFalse fun e => by injection e
  | _ :: _, [] => isFalse fun e => by injection e
termination_by structural a => a

def Item.decEqSlots : (a b : List (List Item)) → Decidable (a = b)
  | [], [] => isTrue rfl
  | x :: xs, y :: ys =>
    match Item.decEqList x y, Item.decEqSlots xs ys with
    | isTrue h, isTrue h' => isTrue (by rw [h, h'])
    | isFalse h, _ => isFalse fun e => h (by injection e)
    | _, isFalse h => isFalse fun e => h (by injection e)
  | [], _ :: _ => isFalse fun e => by injection e
  | _ :: _, [] => isFalse fun e => by injection e
termination_by structural a => a

end

instance : DecidableEq Record := Record.decEq

instance : DecidableEq Item := Item.decEq

namespace Record

/-- The record of a type in which nothing is set. -/
def empty (t : RecordType) : Record :=
  ⟨t, t.features.map fun _ => []⟩

instance : Inhabited Record := ⟨empty default⟩

/-- The items of the feature at a position; none beyond the last feature. -/
def items (r : Record) (i : Nat) : List Item :=
  r.slots.getD i []

/-- The record with other items at a position. -/
def put (r : Record) (i : Nat) (items : List Item) : Record :=
  ⟨r.type, r.slots.set i items⟩

/-- A feature is set when it holds an item. -/
def holds (r : Record) (i : Nat) : Bool :=
  !(r.items i).isEmpty

/-- Each feature of the type with its items, in the order of the features. -/
def entries (r : Record) : List (Feature × List Item) :=
  r.type.features.zip r.slots

@[simp] theorem type_put (r : Record) (i : Nat) (items : List Item) :
    (r.put i items).type = r.type := rfl

@[simp] theorem type_empty (t : RecordType) : (empty t).type = t := rfl

theorem items_put_self (r : Record) {i : Nat} (h : i < r.slots.length) (items : List Item) :
    (r.put i items).items i = items := by
  simp [put, Record.items, List.getD, h]

theorem items_put_of_ne (r : Record) {i j : Nat} (h : i ≠ j) (items : List Item) :
    (r.put i items).items j = r.items j := by
  simp [put, Record.items, List.getD, List.getElem?_set_ne h]

end Record

def Item.record? : Item → Option Record
  | .scalar _ => none
  | .record r => some r

def Item.type : Item → ItemType
  | .scalar s => .simple s.type
  | .record r => .record r.type

end TableJoin
