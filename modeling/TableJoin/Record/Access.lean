import TableJoin.Doing
import TableJoin.Value.Conversion

/-!
Access to the features of a record by position or by name.
-/

namespace TableJoin

open Schema

/-- What a feature reads as with the given items: all of them for a list, else
the one item or the schema default. -/
def Schema.Feature.read (f : Feature) (items : List Item) : Option Value :=
  if f.isList then some (.ofItems items)
  else
    match items with
    | item :: _ => some (.ofItem item)
    | [] => f.default?.map .ofScalar

namespace Record

def feature (r : Record) (i : Nat) : Except ModelError Feature :=
  match r.type.feature? i with
  | some f => .ok f
  | none => .error (.noFeature r.type i)

/-- The position of the feature with the given name. -/
def indexOf (r : Record) (name : String) : Except ModelError Nat :=
  match r.type.indexOf? name with
  | some i => .ok i
  | none => .error (.noFeatureNamed r.type name)

/-- The value of a feature; none if it is unset and has no default. -/
def get (r : Record) (i : Nat) : Except ModelError (Option Value) := do
  let f ← r.feature i
  return f.read (r.items i)

/-- Whether a feature holds an explicit value. -/
def isSet (r : Record) (i : Nat) : Except ModelError Bool := do
  let _ ← r.feature i
  return r.holds i

def getNamed (r : Record) (name : String) : Except ModelError (Option Value) := do
  r.get (← r.indexOf name)

/-- The record of the type with the given schema name in which nothing is set. -/
def create? (typeName : String) : Option Record :=
  (RecordType.ofName? typeName).map empty

/-- Whether two records of one type agree in a feature, in its items and in
whether it is set. -/
def agree (r s : Record) (i : Nat) : Bool :=
  r.type = s.type && i < r.type.features.length && r.items i = s.items i

/-- The contained records with the features that hold them, in feature order. -/
def children (r : Record) : List (Feature × Record) :=
  r.entries.flatMap fun (f, items) =>
    if f.isContainment then (items.filterMap Item.record?).map (f, ·) else []

/-- The features that are set, by name, with their values. -/
def explicit (r : Record) : List (String × Value) :=
  r.entries.filterMap fun (f, items) =>
    if items.isEmpty then none else (f.read items).map (f.name, ·)

end Record

/-- What is done to a record. -/
abbrev Editing (α : Type) := Doing ModelError Record α

namespace Editing

def set (i : Nat) (v : Value) : Editing Unit := do
  let r ← get
  let f ← r.feature i
  let items ← f.convert r.type.name v
  modify (·.put i items)

/-- Appends a value to a list feature. -/
def add (i : Nat) (v : Value) : Editing Unit := do
  let r ← get
  let f ← r.feature i
  if f.isList then
    let item ← f.itemType.convert r.type.name f.name v
    modify fun r => r.put i (r.items i ++ [item])
  else throw (.mismatch r.type.name f.name f.itemType.kind .list)

/-- Removes the explicit value of a feature. -/
def unset (i : Nat) : Editing Unit := do
  let _ ← (← get).feature i
  modify (·.put i [])

def setNamed (name : String) (v : Value) : Editing Unit := do
  set (← (← get).indexOf name) v

section Perform

variable (r : Record) (i : Nat) (v : Value)

open Doing

/-- Nothing is stored before the value is converted. -/
theorem perform_set : (set i v).perform r =
    match r.feature i with
    | .error e => (.error e, r)
    | .ok f =>
      match f.convert r.type.name v with
      | .error e => (.error e, r)
      | .ok items => (.ok (), r.put i items) := by
  rw [set, perform_get_bind, perform_bind, perform_lift]
  cases r.feature i with
  | error e => rfl
  | ok f =>
    simp only
    rw [perform_bind, perform_lift]
    cases f.convert r.type.name v <;> rfl

theorem perform_add : (add i v).perform r =
    match r.feature i with
    | .error e => (.error e, r)
    | .ok f =>
      if f.isList then
        match f.itemType.convert r.type.name f.name v with
        | .error e => (.error e, r)
        | .ok item => (.ok (), r.put i (r.items i ++ [item]))
      else (.error (.mismatch r.type.name f.name f.itemType.kind .list), r) := by
  rw [add, perform_get_bind, perform_bind, perform_lift]
  cases r.feature i with
  | error e => rfl
  | ok f =>
    simp only
    split
    · rw [perform_bind, perform_lift]
      cases f.itemType.convert r.type.name f.name v <;> rfl
    · rfl

theorem perform_unset : (unset i).perform r =
    match r.feature i with
    | .error e => (.error e, r)
    | .ok _ => (.ok (), r.put i []) := by
  rw [unset, perform_get_bind, perform_bind, perform_lift]
  cases r.feature i <;> rfl

theorem perform_setNamed (name : String) : (setNamed name v).perform r =
    match r.indexOf name with
    | .error e => (.error e, r)
    | .ok i => (set i v).perform r := by
  rw [setNamed, perform_get_bind, perform_bind, perform_lift]
  cases r.indexOf name <;> rfl

end Perform

end Editing

namespace Record

def set (r : Record) (i : Nat) (v : Value) : Except ModelError Record :=
  (Editing.set i v).after r

def add (r : Record) (i : Nat) (v : Value) : Except ModelError Record :=
  (Editing.add i v).after r

def unset (r : Record) (i : Nat) : Except ModelError Record :=
  (Editing.unset i).after r

def setNamed (r : Record) (name : String) (v : Value) : Except ModelError Record :=
  (Editing.setNamed name v).after r

end Record

end TableJoin
