import TableJoin.Document.Basic
import TableJoin.Reading.Records
import TableJoin.Writing.Records

/-!
The text of documents: decoding, strictly or leniently, and encoding.
-/

namespace TableJoin

open Schema Reading Writing Markup

namespace Reading

/-- Reads the root element as a record of the given type, whatever its name. -/
def fragment (t : RecordType) : Step DocumentError Record := do
  match ← root.mapError .read with
  | none => Step.fail .noRoot
  | some tag => (readRecord t tag).mapError .read

/-- Reads a document from its root element; what follows that is not looked at. -/
def document : Step DocumentError Document := do
  match ← root.mapError .read with
  | none => Step.fail .noRoot
  | some tag =>
    Step.report [.decoding tag.name (← Step.here).strict]
    match Root.ofName? tag.name with
    | none => Step.fail (.unknownRoot tag.name)
    | some root =>
      let read := (readRecord root.type tag).attach (type_readRecord root.type tag)
      let ⟨r, typed⟩ ← read.mapError .read
      return ⟨root, r, typed⟩

end Reading

namespace Document

def decodeReporting (strict : Bool) (xml : String) :
    Except DocumentError Document × List Event :=
  let (result, c) := Reading.document.run (.ofText xml strict)
  (result, c.events)

/-- Decodes a text.  A strict reader rejects what the schema does not declare; a
lenient one passes over it. -/
def decode (strict : Bool) (xml : String) : Except DocumentError Document :=
  (decodeReporting strict xml).1

def marks (d : Document) : List Mark :=
  .declaration :: d.content.marks (.tjs d.root.name)

def encode (o : EncodeOptions) (d : Document) : String :=
  write o d.marks

def encodingEvents (d : Document) (xml : String) : List Event :=
  [.encoded d.root.name xml.utf8ByteSize]

end Document

def Violation.event (v : Violation) : Event :=
  .violation v.path v.type.name v.problem.message

def Document.validationEvents (d : Document) : List Event :=
  match d.violations with
  | [] => []
  | v :: vs =>
    (v :: vs).map Violation.event ++ [.invalidDocument d.root.name (v :: vs).length v.message]

end TableJoin
