import TableJoin.Record.Basic

/-!
Values: what programs pass to features and read from them, before it is known
whether it fits.
-/

namespace TableJoin

open Schema

/-- What kind of value something is, or has to be. -/
inductive Kind where
  | text
  | boolean
  | integer
  | decimal
  /-- A literal of the enumeration with the name. -/
  | enumeration (name : String)
  /-- An object of the type with the name. -/
  | object (name : String)
  | list
deriving DecidableEq, Repr

def Kind.describe : Kind → String
  | .text => "text"
  | .boolean => "boolean"
  | .integer => "integer"
  | .decimal => "decimal"
  | .enumeration name => "enum " ++ name
  | .object name => "object " ++ name
  | .list => "list"

def Kind.isObject : Kind → Bool
  | .object _ => true
  | _ => false

namespace Schema

def SimpleType.kind : SimpleType → Kind
  | .text => .text
  | .boolean => .boolean
  | .integer => .integer
  | .decimal => .decimal
  | .enumeration e => .enumeration e.name

/-- The kind that every item of the type has as a value. -/
def ItemType.kind : ItemType → Kind
  | .simple t => t.kind
  | .record t => .object t.name

end Schema

/-- A value without parts. -/
inductive Datum where
  | text (s : String)
  | boolean (b : Bool)
  | integer (n : UInt64)
  | decimal (d : Decimal)
  /-- A literal by its text and the name of its enumeration, whether or not there is such an
  enumeration and whether or not it declares the literal. -/
  | literal (type text : String)
  /-- An object of a type that is not in the schema, of which only the type's name is looked at. -/
  | foreign (type : String)
deriving DecidableEq, Repr, Inhabited

def Datum.kind : Datum → Kind
  | text _ => .text
  | boolean _ => .boolean
  | integer _ => .integer
  | decimal _ => .decimal
  | literal type _ => .enumeration type
  | foreign type => .object type

def Schema.Scalar.datum : Scalar → Datum
  | .text s => .text s
  | .boolean b => .boolean b
  | .integer n => .integer n
  | .decimal d => .decimal d
  | .literal l => .literal l.type.name l.text

@[simp] theorem Schema.Scalar.kind_datum (s : Scalar) : s.datum.kind = s.type.kind := by
  cases s <;> rfl

theorem Schema.Scalar.datum_inj {s t : Scalar} : s.datum = t.datum ↔ s = t := by
  refine ⟨fun h => ?_, congrArg datum⟩
  cases s with
  | literal l =>
    cases t with
    | literal m =>
      obtain ⟨htype, htext⟩ := Datum.literal.inj h
      obtain ⟨e, text, hl⟩ := l
      obtain ⟨e', text', hm⟩ := m
      cases Enumeration.name_inj.mp htype
      cases htext
      rfl
    | _ => cases h
  | _ =>
    cases t <;> cases h
    rfl

/-- A value of any kind; lists may hold anything. -/
inductive Value where
  | scalar (d : Datum)
  | record (r : Record)
  | list (items : List Value)
deriving Inhabited

mutual

/-- Values are equal when they have the same kind and the same parts. -/
def Value.decEq : (a b : Value) → Decidable (a = b)
  | .scalar s, .scalar t =>
    if h : s = t then isTrue (by rw [h]) else isFalse fun e => h (by injection e)
  | .record r, .record s =>
    if h : r = s then isTrue (by rw [h]) else isFalse fun e => h (by injection e)
  | .list xs, .list ys =>
    match Value.decEqList xs ys with
    | isTrue h => isTrue (by rw [h])
    | isFalse h => isFalse fun e => h (by injection e)
  | .scalar _, .record _ | .scalar _, .list _ | .record _, .scalar _
  | .record _, .list _ | .list _, .scalar _ | .list _, .record _ =>
    isFalse fun e => by injection e
termination_by structural a => a

def Value.decEqList : (a b : List Value) → Decidable (a = b)
  | [], [] => isTrue rfl
  | x :: xs, y :: ys =>
    match Value.decEq x y, Value.decEqList xs ys with
    | isTrue h, isTrue h' => isTrue (by rw [h, h'])
    | isFalse h, _ => isFalse fun e => h (by injection e)
    | _, isFalse h => isFalse fun e => h (by injection e)
  | [], _ :: _ => isFalse fun e => by injection e
  | _ :: _, [] => isFalse fun e => by injection e
termination_by structural a => a

end

instance : DecidableEq Value := Value.decEq

namespace Value

def text (s : String) : Value := .scalar (.text s)

def literal (l : Literal) : Value := .scalar (.literal l.type.name l.text)

def ofScalar (s : Scalar) : Value := .scalar s.datum

def kind : Value → Kind
  | scalar d => d.kind
  | record r => .object r.type.name
  | list _ => .list

def text? : Value → Option String
  | scalar (.text s) => some s
  | _ => none

def literal? : Value → Option String
  | scalar (.literal _ text) => some text
  | _ => none

def record? : Value → Option Record
  | record r => some r
  | _ => none

def list? : Value → Option (List Value)
  | list items => some items
  | _ => none

def ofItem : Item → Value
  | .scalar s => ofScalar s
  | .record r => record r

def ofItems (items : List Item) : Value :=
  list (items.map ofItem)

@[simp] theorem kind_ofItem (x : Item) : (ofItem x).kind = x.type.kind := by
  cases x with
  | scalar s => exact s.kind_datum
  | record r => rfl

end Value

end TableJoin
