import TableJoin.Numeral.Decimal
import TableJoin.Numeral.Unsigned
import TableJoin.Schema.Enumeration

/-!
Simple types and scalars: the values of attributes and of character content, with
their lexical forms.
-/

namespace TableJoin.Schema

/-- The types of attributes and of character content. -/
inductive SimpleType where
  | text
  | boolean
  | integer
  | decimal
  | enumeration (e : Enumeration)
deriving DecidableEq, Repr, Inhabited

/-- A value of a simple type. -/
inductive Scalar where
  | text (s : String)
  | boolean (b : Bool)
  | integer (n : UInt64)
  | decimal (d : Decimal)
  | literal (l : Literal)
deriving DecidableEq, Repr, Inhabited

/-- Why a text is not a lexical form of a simple type. -/
inductive LexicalError where
  | boolean (text : String)
  | integer (text : String)
  | decimal (text : String)
  | literal (e : Enumeration) (text : String)
deriving DecidableEq, Repr

def LexicalError.message : LexicalError → String
  | .boolean text => s!"invalid boolean value '{text}'"
  | .integer text => s!"invalid integer value '{text}'"
  | .decimal text => s!"invalid decimal value '{text}'"
  | .literal e text => s!"invalid literal '{text}' for enumeration '{e.name}'"

namespace Scalar

def type : Scalar → SimpleType
  | .text _ => .text
  | .boolean _ => .boolean
  | .integer _ => .integer
  | .decimal _ => .decimal
  | .literal l => .enumeration l.type

def toText : Scalar → String
  | .text s => s
  | .boolean b => if b then "true" else "false"
  | .integer n => Numeral.unsignedText n
  | .decimal d => d.toText
  | .literal l => l.text

end Scalar

namespace SimpleType

def readLiteral (e : Enumeration) (s : String) : Except LexicalError Literal :=
  match Literal.ofText? e s with
  | some l => .ok l
  | none => .error (.literal e s)

def readBoolean (s : String) : Except LexicalError Bool :=
  let body := Text.trim s
  if body = "true" ∨ body = "1" then .ok true
  else if body = "false" ∨ body = "0" then .ok false
  else .error (.boolean body)

/-- Reads a lexical form.  Text is taken as it stands; the other types leave
blanks at the ends aside. -/
def read (t : SimpleType) (s : String) : Except LexicalError Scalar :=
  match t with
  | .text => .ok (.text s)
  | .boolean => (readBoolean s).map .boolean
  | .integer =>
    match Numeral.unsigned? s with
    | some n => .ok (.integer n)
    | none => .error (.integer (Text.trim s))
  | .decimal =>
    match Decimal.ofText? s with
    | some d => .ok (.decimal d)
    | none => .error (.decimal s)
  | .enumeration e => (readLiteral e (Text.trim s)).map .literal

end SimpleType

end TableJoin.Schema
