/-!
Faults: the ways in which a text fails to be markup, with their wording.
Positions count the UTF-8 bytes of a tag's content or of an attribute value.
-/

namespace TableJoin.Markup

/-- Why a numeric character reference names no character. -/
inductive CharacterFault where
  | numberSign
  | noDigits
  | notADigit
  | tooLarge
  | null
  | notACodePoint (n : Nat)
deriving DecidableEq, Repr

/-- Why a reference cannot be resolved. -/
inductive ReferenceFault where
  /-- No semicolon closes the ampersand at `start` in a text of `size` bytes. -/
  | unterminated (start size : Nat)
  /-- The name between `start` and `stop` is not a predefined entity. -/
  | unknownEntity (start stop : Nat) (name : String)
  | badCharacter (fault : CharacterFault)
deriving DecidableEq, Repr

/-- Why a tag's attributes cannot be read; `position` says where. -/
inductive AttributeFault where
  | noEquals (position : Nat)
  | duplicated (position earlier : Nat)
  | unquoted (position : Nat)
  | quoteNotClosed (position : Nat) (quote : Char)
  | noValue (position : Nat)
deriving DecidableEq, Repr

/-- Why a text cannot be cut into tags and character data. -/
inductive MarkupFault where
  | tagNotClosed
  | valueNotClosed (quote : Char)
  | instructionNotClosed
  | declarationNotClosed
  | commentNotClosed
  | characterDataNotClosed
  | doctypeNotClosed
  | doctypeUnnamed
  | unknownMarkup
  | referenceNotClosed
  | mismatchedEnd (expected found : String)
  | strayEnd (found : String)
deriving DecidableEq, Repr

/-- A fault of the text, by the layer that meets it. -/
inductive Fault where
  | markup (fault : MarkupFault)
  | attributes (fault : AttributeFault)
  | reference (fault : ReferenceFault)
deriving DecidableEq, Repr

def CharacterFault.message : CharacterFault → String
  | .numberSign => "unexpected number sign"
  | .noDigits => "cannot parse integer from empty string"
  | .notADigit => "invalid digit found in string"
  | .tooLarge => "number too large to fit in target type"
  | .null => "0x0 character is not permitted in XML"
  | .notACodePoint n => s!"`{n}` is not a valid codepoint"

def ReferenceFault.message : ReferenceFault → String
  | .unterminated start size =>
    s!"Error while escaping character at range {start}..{size}: Cannot find ';' after '&'"
  | .unknownEntity start stop name => s!"at {start}..{stop}: unrecognized entity `{name}`"
  | .badCharacter fault => "invalid character reference: " ++ fault.message

def AttributeFault.reason : AttributeFault → String
  | .noEquals _ => "attribute key must be directly followed by `=` or space"
  | .duplicated _ earlier =>
    s!"duplicated attribute, previous declaration at position {earlier}"
  | .unquoted _ => "attribute value must be enclosed in `\"` or `'`"
  | .quoteNotClosed _ quote => s!"missing closing quote `{quote}` in attribute value"
  | .noValue _ => "`=` must be followed by an attribute value"

def AttributeFault.position : AttributeFault → Nat
  | .noEquals position => position
  | .duplicated position _ => position
  | .unquoted position => position
  | .quoteNotClosed position _ => position
  | .noValue position => position

def AttributeFault.message (fault : AttributeFault) : String :=
  s!"position {fault.position}: " ++ fault.reason

def notClosed (what mark : String) : String :=
  s!"syntax error: {what} not closed: `{mark}` not found before end of input"

def MarkupFault.message : MarkupFault → String
  | .tagNotClosed => notClosed "tag" ">"
  | .valueNotClosed quote => notClosed "attribute value" quote.toString
  | .instructionNotClosed => notClosed "processing instruction" "?>"
  | .declarationNotClosed => notClosed "XML declaration" "?>"
  | .commentNotClosed => notClosed "comment" "-->"
  | .characterDataNotClosed => notClosed "CDATA" "]]>"
  | .doctypeNotClosed => notClosed "DOCTYPE" ">"
  | .doctypeUnnamed =>
    "ill-formed document: `<!DOCTYPE>` declaration does not contain a name of a document type"
  | .unknownMarkup => "syntax error: unknown or missed symbol in markup"
  | .referenceNotClosed =>
    "ill-formed document: entity or character reference not closed: " ++
      "`;` not found before end of input"
  | .mismatchedEnd expected found =>
    s!"ill-formed document: expected `</{expected}>`, but `</{found}>` was found"
  | .strayEnd found =>
    s!"ill-formed document: close tag `</{found}>` does not match any open tag"

/-- The fault in words, with the layer that met it. -/
def Fault.message : Fault → String
  | .markup fault => "XML parsing error: " ++ fault.message
  | .attributes fault => "attribute error: " ++ fault.message
  | .reference fault => "escape error: " ++ fault.message

end TableJoin.Markup
