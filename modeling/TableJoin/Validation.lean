import TableJoin.Record.Named
import TableJoin.Sections

/-!
Validation: the constraints of the schema that a record under construction may
violate.  Violations come in the order of the document, a record before what it
contains.
-/

namespace TableJoin

open Schema Markup

/-- What is wrong with a record. -/
inductive Problem where
  /-- A required feature is not set. -/
  | missing (name : QName)
  /-- A list that must not be empty is empty. -/
  | noItems (name : QName)
  /-- Not exactly one of several alternatives is set. -/
  | choice (alternatives : String) (found : Nat)
  /-- A text is no list of section names. -/
  | badSections (text : String)
deriving DecidableEq, Repr

def Problem.message : Problem → String
  | .missing name => s!"'{name.display}' is required"
  | .noItems name => s!"at least one '{name.display}' is required"
  | .choice alternatives found => s!"exactly one of {alternatives} is required, found {found}"
  | .badSections text => s!"invalid Sections '{text}'"

/-- A problem of a record at a path from the root. -/
structure Violation where
  path : String
  type : RecordType
  problem : Problem
deriving DecidableEq, Repr

def Violation.message (v : Violation) : String :=
  s!"{v.path}: {v.problem.message}"

/-- The features of a type of which exactly one has to be set, and how they are
called together. -/
def Schema.RecordType.choice? : RecordType → Option (List String × String)
  | .values =>
    some (["nominal", "ordinal", "count", "measure"], "Nominal, Ordinal, Count or Measure")
  | .joinStatus => some (["accepted", "completed", "failed"], "Accepted, Completed or Failed")
  | .attributeData => some (["get_data_url", "get_data_xml"], "GetDataURL or GetDataXML")
  | .joinedOutput => some (["resource", "exception_report"], "Resource or ExceptionReport")
  | _ => none

namespace Record

/-- The problem of a feature with the given items, if it has to be set and is not.
A default makes up for an item. -/
def missing? (f : Feature) (items : List Item) : Option Problem :=
  if f.isRequired && !f.isUnsettable && items.isEmpty then
    some (if f.isList then .noItems f.xmlName else .missing f.xmlName)
  else none

/-- The problem with the choice that the type demands, if there is one. -/
def choiceProblem? (r : Record) : Option Problem :=
  match r.type.choice? with
  | some (names, alternatives) =>
    let found := r.countSet names
    if found = 1 then none else some (.choice alternatives found)
  | none => none

/-- The problem with the section list of a request for service metadata. -/
def sectionsProblem? (r : Record) : Option Problem :=
  if r.type = .getCapabilities then
    match r.textNamed? "sections" with
    | some text => if isSectionList text then none else some (.badSections text)
    | none => none
  else none

/-- The problems of a record itself: missing features in their order, then the
rule of its type. -/
def ownProblems (r : Record) : List Problem :=
  r.entries.filterMap (fun (f, items) => missing? f items) ++
    r.choiceProblem?.toList ++ r.sectionsProblem?.toList

end Record

/-- The path of a contained record; the records of a list are counted from one. -/
def childPath (path : String) (f : Feature) (n : Nat) : String :=
  if f.isList then s!"{path}/{f.xmlName.localName}[{n}]" else s!"{path}/{f.xmlName.localName}"

mutual

/-- The violations of a record at a path and of everything it contains. -/
def Record.violationsFrom (path : String) : Record → List Violation
  | ⟨t, slots⟩ =>
    (Record.ownProblems ⟨t, slots⟩).map (⟨path, t, ·⟩) ++
      Item.slotViolations path t.features slots
termination_by structural r => r

def Item.violations (path : String) : Item → List Violation
  | .scalar _ => []
  | .record r => r.violationsFrom path
termination_by structural x => x

/-- The violations of the items of a feature, the first of which has the number `n`. -/
def Item.listViolations (path : String) (f : Feature) (n : Nat) : List Item → List Violation
  | [] => []
  | item :: rest =>
    item.violations (childPath path f n) ++ Item.listViolations path f (n + 1) rest
termination_by structural xs => xs

def Item.slotViolations (path : String) : List Feature → List (List Item) → List Violation
  | f :: fs, items :: slots =>
    Item.listViolations path f 1 items ++ Item.slotViolations path fs slots
  | _, _ => []
termination_by structural _ slots => slots

end

/-- The violations of a record and of everything it contains, with paths that
begin at the name of its type. -/
def Record.violations (r : Record) : List Violation :=
  r.violationsFrom r.type.name

end TableJoin
