import TableJoin.Markup.Fault
import TableJoin.Schema.Simple

/-!
Errors of reading: what stops a reader, and in which words it says so.
-/

namespace TableJoin

open Markup Schema

/-- Why a record or a part of it cannot be read. -/
inductive ReadError where
  /-- The text is not well-formed. -/
  | malformed (fault : Fault)
  /-- An element that the enclosing type does not declare. -/
  | unknownElement (element context : String)
  /-- A further occurrence of a single-valued element. -/
  | duplicateElement (element context : String)
  /-- An attribute that the type does not declare. -/
  | unknownAttribute (attributeName context : String)
  /-- Character data where only elements may stand. -/
  | unexpectedText (text context : String)
  /-- The input ends inside the element. -/
  | unexpectedEnd (element : String)
  /-- An attribute value that is no lexical form of its type. -/
  | invalidAttribute (attributeName context : String) (cause : LexicalError)
  /-- Element content that is no lexical form of its type. -/
  | invalidContent (element : String) (cause : LexicalError)
deriving DecidableEq, Repr

def ReadError.message : ReadError → String
  | .malformed fault => fault.message
  | .unknownElement element context => s!"unknown element '{element}' in '{context}'"
  | .duplicateElement element context => s!"duplicate element '{element}' in '{context}'"
  | .unknownAttribute name context => s!"unknown attribute '{name}' on '{context}'"
  | .unexpectedText text context => s!"unexpected text '{text}' in '{context}'"
  | .unexpectedEnd element => s!"unexpected end of input inside '{element}'"
  | .invalidAttribute name context cause =>
    s!"invalid value for attribute '{name}' on '{context}': {cause.message}"
  | .invalidContent element cause =>
    s!"invalid content in element '{element}': {cause.message}"

end TableJoin
