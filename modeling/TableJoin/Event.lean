/-!
Events: what the library reports about its work, in order, beside its results.
-/

namespace TableJoin

inductive Level where
  | trace
  | debug
  | info
  | warn
  | error
deriving DecidableEq, Repr

def Level.name : Level → String
  | .trace => "TRACE"
  | .debug => "DEBUG"
  | .info => "INFO"
  | .warn => "WARN"
  | .error => "ERROR"

/-- A report of something that happened during an operation. -/
inductive Event where
  /-- An element inside character content, whose own text is passed over. -/
  | markupInText (element nested : String)
  /-- An element that the enclosing record type does not declare. -/
  | unknownElement (element context : String)
  /-- A further occurrence of a single-valued element. -/
  | repeatedElement (element context : String)
  /-- An attribute that the record type does not declare. -/
  | unknownAttribute (attributeName context : String)
  /-- Character data in element-only content. -/
  | strayText (context : String)
  /-- An observer whose receiving end is gone. -/
  | receiverGone (typeName feature : String)
  /-- Decoding starts at the root element. -/
  | decoding (root : String) (strict : Bool)
  /-- A document was encoded. -/
  | encoded (root : String) (bytes : Nat)
  /-- A document has violations. -/
  | invalidDocument (root : String) (count : Nat) (first : String)
  /-- An empty record was made for a type name. -/
  | created (typeName : String)
  /-- A single violation. -/
  | violation (path typeName message : String)
deriving DecidableEq, Repr

namespace Event

def level : Event → Level
  | .markupInText .. | .created .. => .trace
  | .unknownElement .. | .unknownAttribute .. | .strayText .. | .receiverGone ..
  | .decoding .. | .encoded .. | .violation .. => .debug
  | .repeatedElement .. | .invalidDocument .. => .warn

def message : Event → String
  | .markupInText .. => "skipping markup in text content"
  | .unknownElement .. => "skipping unknown element"
  | .repeatedElement .. => "skipping repeated single-valued element"
  | .unknownAttribute .. => "ignoring unknown attribute"
  | .strayText .. => "ignoring character data in element-only content"
  | .receiverGone .. => "notification receiver disconnected"
  | .decoding .. => "decoding TJS document"
  | .encoded .. => "encoded TJS document"
  | .invalidDocument .. => "document failed validation"
  | .created .. => "creating schema object"
  | .violation _ _ message => message

/-- The named details of the event, in order. -/
def fields : Event → List (String × String)
  | .markupInText element nested => [("element", element), ("nested", nested)]
  | .unknownElement element context => [("element", element), ("context", context)]
  | .repeatedElement element context => [("element", element), ("context", context)]
  | .unknownAttribute name context => [("attribute", name), ("context", context)]
  | .strayText context => [("context", context)]
  | .receiverGone typeName feature => [("type_name", typeName), ("feature", feature)]
  | .decoding root strict => [("root", root), ("strict", if strict then "true" else "false")]
  | .encoded root bytes => [("root", root), ("bytes", toString bytes)]
  | .invalidDocument root count first =>
    [("root", root), ("count", toString count), ("first", first)]
  | .created typeName => [("type_name", typeName)]
  | .violation path typeName _ => [("path", path), ("type_name", typeName)]

end Event

end TableJoin
