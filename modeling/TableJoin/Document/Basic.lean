import TableJoin.Document.Root
import TableJoin.Reading.Error
import TableJoin.Record.Access
import TableJoin.Validation

/-!
Documents: a root element and the record it holds.
-/

namespace TableJoin

open Schema

/-- A request or response. -/
structure Document where
  root : Root
  content : Record
  typed : content.type = root.type
deriving DecidableEq

/-- Why something cannot be done with a document. -/
inductive DocumentError where
  | read (error : ReadError)
  | model (error : ModelError)
  /-- The root element is none of those that documents have. -/
  | unknownRoot (name : String)
  /-- There is no element at all. -/
  | noRoot
  | invalid (path message : String)
deriving DecidableEq, Repr

def DocumentError.message : DocumentError → String
  | .read error => "XML error: " ++ error.message
  | .model error => "model error: " ++ error.message
  | .unknownRoot name => s!"unknown root element '{name}'"
  | .noRoot => "document has no root element"
  | .invalid path message => s!"validation error at {path}: {message}"

namespace Editing

variable (r : Record) (v : Value)

theorem type_perform_set (i : Nat) : ((set i v).perform r).2.type = r.type := by
  rw [perform_set]
  split
  · rfl
  · split <;> rfl

theorem type_perform_setNamed (name : String) :
    ((setNamed name v).perform r).2.type = r.type := by
  rw [perform_setNamed]
  split
  · rfl
  · exact type_perform_set r v _

end Editing

namespace Document

/-- The document whose root holds records of this type, if there is one. -/
def ofRecord? (r : Record) : Option Document :=
  match h : Root.ofType? r.type with
  | some root => some ⟨root, r, (Root.type_of_ofType? h).symm⟩
  | none => none

/-- Sets a feature of the document's record: the answer, and the document afterwards. -/
def setNamed (d : Document) (name : String) (v : Value) : Except ModelError Unit × Document :=
  let result := (Editing.setNamed name v).perform d.content
  (result.1, ⟨d.root, result.2, (Editing.type_perform_setNamed d.content v name).trans d.typed⟩)

/-- The violations of the document, with paths that begin at its root element. -/
def violations (d : Document) : List Violation :=
  d.content.violationsFrom d.root.name

def check (d : Document) : Except DocumentError Unit :=
  match d.violations with
  | [] => .ok ()
  | v :: _ => .error (.invalid v.path v.problem.message)

end Document

end TableJoin
