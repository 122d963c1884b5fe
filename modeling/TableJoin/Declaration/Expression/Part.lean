import TableJoin.Declaration.Expression.Operator
import TableJoin.Declaration.Expression.Reader

/-!
The parts an expression is made of.  Parts stand in one another, so each is read by
a reader that is given the readers of the parts inside it.
-/

namespace TableJoin.Declaration

namespace Expression

/-- Where an expression stands. -/
inductive Place where
  | anywhere
  /-- Before the curly brackets of a block, so that they do not make a record. -/
  | beforeBlock
  /-- As a statement, which a block ends. -/
  | statement
deriving DecidableEq, Repr

/-- A path before curly brackets is a record here. -/
def Place.allowsRecords (p : Place) : Bool :=
  p ≠ .beforeBlock

/-- The place of an operand, given whether records are allowed. -/
def Place.ofOperand (structs : Bool) : Place :=
  if structs then .anywhere else .beforeBlock

/-- The parts that stand in others. -/
inductive Part where
  /-- An expression, up to an operator that binds less tightly than the level. -/
  | expression (place : Place) (base : Level)
  /-- What stands between two operators. -/
  | operand (structs : Bool)
  /-- A block; attributes may stand first in it. -/
  | block (attributed : Bool)
  /-- A type; traits may be added to it. -/
  | type (plus : Bool)
  /-- A trait or lifetime that a type is bound by. -/
  | bound
  | pattern
deriving DecidableEq, Repr

/-- What was read, as far as it matters for what may follow. -/
inductive Shape where
  /-- An expression that ends with a block of its own. -/
  | block
  /-- Rules called by name with curly brackets. -/
  | curlyCall
  | comparison
  /-- A range of values, as an expression. -/
  | range
  /-- A type that is a path of one segment. -/
  | segment
  /-- A type that is another path. -/
  | path
  /-- A type that is a single trait. -/
  | trait
  /-- A type in parentheses. -/
  | parenthesized
  | lifetime
  /-- A pattern for all other items. -/
  | remainder
  /-- A pattern that is a range with one bound. -/
  | openRange
  | other
deriving DecidableEq, Repr

abbrev Nested : Type := Part → Reader Shape

variable (nested : Nested)

def whole : Reader Unit := do
  let _ ← nested (.expression .anywhere Level.lowest)

def condition : Reader Unit := do
  let _ ← nested (.expression .beforeBlock Level.lowest)

/-- A type to which traits may be added. -/
def plainType : Reader Unit := do
  let _ ← nested (.type true)

/-- A block in which no attributes stand first. -/
def plainBlock : Reader Unit := do
  let _ ← nested (.block false)

end Expression

end TableJoin.Declaration
