import TableJoin.Event
import TableJoin.Record.Access

/-!
Observation: records whose changes are told to observers.  Where there is somebody to
tell, an operation reads what it changes before and after the change.
-/

namespace TableJoin

open Schema

inductive ChangeKind where
  | set
  | unset
  | add
deriving DecidableEq, Repr

/-- What an observer is told about one change.  For an addition the new value is
the value that was passed in, and there is no old value. -/
structure Notification where
  type : RecordType
  position : Nat
  feature : String
  kind : ChangeKind
  old : Option Value
  new : Option Value
deriving DecidableEq

/-- A change that left the value as it was. -/
def Notification.isTouch (n : Notification) : Bool :=
  n.kind ≠ .add && n.old = n.new

/-- An observer with what it has been told and not yet fetched. -/
structure Observer where
  /-- Notifications go through a channel, whose receiver can disappear. -/
  viaChannel : Bool
  /-- Somebody still fetches the notifications. -/
  attended : Bool
  inbox : List Notification

/-- Tells an observer about a change; one that nobody attends keeps nothing. -/
def Observer.receive (o : Observer) (n : Notification) : Observer :=
  if o.attended then { o with inbox := o.inbox ++ [n] } else o

/-- A channel whose receiver is gone reports each notification it loses. -/
def Observer.lost? (o : Observer) (n : Notification) : Option Event :=
  if o.viaChannel && !o.attended then some (.receiverGone n.type.name n.feature) else none

/-- A record, its observers, whether they are told, and the events so far. -/
structure Observed where
  target : Record
  observers : List Observer := []
  delivers : Bool := true
  events : List Event := []

namespace Observed

def delivering (o : Observed) : Bool :=
  o.delivers && !o.observers.isEmpty

def observe (o : Observed) (viaChannel : Bool) : Observed :=
  { o with observers := o.observers ++ [⟨viaChannel, true, []⟩] }

/-- The observers stay, but nobody fetches from them any more. -/
def dropReceivers (o : Observed) : Observed :=
  { o with observers := o.observers.map fun x => ⟨x.viaChannel, false, []⟩ }

def setDelivers (o : Observed) (delivers : Bool) : Observed :=
  { o with delivers := delivers }

/-- The notifications of each attended observer, and the observed record after
they are fetched. -/
def fetch (o : Observed) : List (List Notification) × Observed :=
  ((o.observers.filter (·.attended)).map (·.inbox),
    { o with observers := o.observers.map fun x => { x with inbox := [] } })

/-- Tells every observer about a change. -/
def tell (o : Observed) (n : Notification) : Observed :=
  { o with
    observers := o.observers.map (·.receive n)
    events := o.events ++ o.observers.filterMap (·.lost? n) }

end Observed

/-- What is done to an observed record. -/
abbrev Observing (α : Type) := Doing ModelError Observed α

namespace Observing

def read (i : Nat) : Observing (Option Value) := do
  (← get).target.get i

/-- Changes the target, which is left as the change leaves it, also if that fails. -/
def change (x : Editing Unit) : Observing Unit := do
  let o ← get
  let (answer, target) := x.perform o.target
  MonadState.set { o with target := target }
  liftM answer

/-- Tells about a change of a feature, if there is somebody to tell. -/
def report (i : Nat) (kind : ChangeKind) (old new : Option Value) : Observing Unit := do
  let o ← get
  if o.delivering then
    let f ← o.target.feature i
    MonadState.set (o.tell ⟨o.target.type, i, f.name, kind, old, new⟩)

/-- Changes a feature and tells its values before and after. -/
def changeFeature (kind : ChangeKind) (i : Nat) (x : Editing Unit) : Observing Unit := do
  if (← get).delivering then
    let old ← read i
    change x
    let new ← read i
    report i kind old new
  else change x

def set (i : Nat) (v : Value) : Observing Unit :=
  changeFeature .set i (.set i v)

/-- Removes the explicit value of a feature. -/
def unset (i : Nat) : Observing Unit :=
  changeFeature .unset i (.unset i)

/-- Appends a value to a list feature, and tells the value as it was passed in. -/
def add (i : Nat) (v : Value) : Observing Unit := do
  let passed := if (← get).delivering then some v else none
  change (.add i v)
  report i .add none passed

/-- Tells about a feature if the target differs in it from what it was. -/
def reportDifference (before : Record) (i : Nat) : Observing Unit := do
  let target := (← get).target
  unless target.agree before i do
    let old ← before.get i
    let new ← read i
    let kind := if ← target.isSet i then .set else .unset
    report i kind old new

/-- Applies any change to the target itself, and tells about the features in which it
differs afterwards, in feature order. -/
def edit {α : Type} (change : Record → α × Record) : Observing α := do
  let o ← get
  let (result, target) := change o.target
  MonadState.set { o with target := target }
  if o.delivering then
    (List.range target.type.features.length).forM (reportDifference o.target)
  return result

end Observing

namespace Observed

/-- Applies any change to the record itself.  Reading what it has changed does not fail,
so there is always its result. -/
def edit {α : Type} (o : Observed) (change : Record → α × Record) : α × Observed :=
  ((change o.target).1, ((Observing.edit change).perform o).2)

end Observed

end TableJoin
