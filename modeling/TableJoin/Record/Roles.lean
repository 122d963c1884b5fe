import TableJoin.Record.Named

/-!
What records of particular types say: the class of a value domain, the state of a
join, the keys and cells of a row, the outputs of a join and their parameters.
-/

namespace TableJoin

open Schema

namespace Record

/-- The alternatives of a value domain, each named like its class of data. -/
def domainClasses : List String := ["nominal", "ordinal", "count", "measure"]

/-- The class of data of a value domain; of several the first one counts. -/
def dataClass? (r : Record) : Option Literal :=
  (domainClasses.find? r.holdsNamed).bind (Literal.ofText? .dataClass)

/-- A join is finished once it is completed or has failed. -/
def isFinished (r : Record) : Bool :=
  r.holdsNamed "completed" || r.holdsNamed "failed"

def keyText (r : Record) : String :=
  (r.textNamed? "value").getD ""

def isNullCell (r : Record) : Bool :=
  r.valueNamed? "null" = some (.scalar (.boolean true))

/-- The value of a cell, unless the cell is null. -/
def cellText? (r : Record) : Option String :=
  if r.isNullCell then none else some ((r.textNamed? "value").getD "")

def rowKeys (r : Record) : List String :=
  (r.recordsNamed "k").map keyText

def rowCells (r : Record) : List (Option String) :=
  (r.recordsNamed "v").map cellText?

def joinOutputs (r : Record) : List Record :=
  (r.recordsNamed "joined_outputs").flatMap (·.recordsNamed "output")

/-- The value of the first access parameter of a resource with the given name. -/
def parameterValue? (r : Record) (name : String) : Option String :=
  ((r.recordsNamed "parameter").find? fun p => p.textNamed? "name" = some name).bind
    (·.textNamed? "value")

end Record

end TableJoin
