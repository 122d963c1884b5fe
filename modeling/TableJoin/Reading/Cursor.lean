import TableJoin.Reading.Error
import TableJoin.Reading.Step

/-!
What a reader does at a cursor: it moves to the root element, takes an element's
content part by part or as text, and passes over what is not declared.
-/

namespace TableJoin.Reading

open Markup Schema

/-- A part of an element's content. -/
inductive Child where
  | element (tag : StartTag)
  | text (s : String)
deriving DecidableEq, Repr

/-- The error of a reader that finds no further node inside an element. -/
def Cursor.ending (c : Cursor) (element : String) : ReadError :=
  match c.fault with
  | some fault => .malformed fault
  | none => .unexpectedEnd element

/-- Character data that is blank throughout. -/
def isLayout : Node → Bool
  | .text s => Text.isBlankText s
  | _ => false

/-- Passes over layout and takes the next node; none at the end of the input. -/
def nextNode : Step ReadError (Option Node) := do
  let c ← Step.here
  match c.ahead.dropWhile isLayout with
  | node :: rest =>
    Step.goTo { c with ahead := rest }
    return some node
  | [] =>
    Step.goTo { c with ahead := [] }
    match c.fault with
    | some fault => Step.fail (.malformed fault)
    | none => return none

/-- Moves to the root element.  Other text than layout may not stand before it. -/
def root : Step ReadError (Option StartTag) := do
  match ← nextNode with
  | some (.start tag) => return some tag
  | some (.text s) => Step.fail (.unexpectedText s "document")
  | some .close => return none
  | none => return none

/-- The next part of an element's content other than layout; none once the
element's end is consumed. -/
def nextChild (parent : StartTag) : Step ReadError (Option Child) := do
  if parent.selfClosing then return none
  match ← nextNode with
  | some (.start tag) => return some (.element tag)
  | some (.text s) => return some (.text s)
  | some .close => return none
  | none => Step.fail (.unexpectedEnd parent.name)

/-- The nodes before the end of the innermost open element, `depth` elements
having been opened since, and the nodes after that end if it comes. -/
def splitContent : Nat → List Node → List Node × Option (List Node)
  | _, [] => ([], none)
  | 0, .close :: rest => ([], some rest)
  | depth + 1, .close :: rest =>
    let (inside, after) := splitContent depth rest
    (.close :: inside, after)
  | depth, .text s :: rest =>
    let (inside, after) := splitContent depth rest
    (.text s :: inside, after)
  | depth, .start tag :: rest =>
    let (inside, after) := splitContent (if tag.selfClosing then depth else depth + 1) rest
    (.start tag :: inside, after)

/-- The character data that does not stand inside nested elements. -/
def ownText : Nat → List Node → String
  | _, [] => ""
  | depth, .close :: rest => ownText (depth - 1) rest
  | 0, .text s :: rest => s ++ ownText 0 rest
  | depth + 1, .text _ :: rest => ownText (depth + 1) rest
  | depth, .start tag :: rest =>
    ownText (if tag.selfClosing then depth else depth + 1) rest

/-- The elements that start among the nodes. -/
def startNames : List Node → List String
  | [] => []
  | .start tag :: rest => tag.name :: startNames rest
  | _ :: rest => startNames rest

/-- Consumes the content of an element through its end, and hands the content
out if the end comes. -/
def content (tag : StartTag) (reported : List Node → List Event) : Step ReadError (List Node) := do
  if tag.selfClosing then return []
  let c ← Step.here
  let (inside, after) := splitContent 0 c.ahead
  Step.goTo { c with ahead := after.getD [], events := c.events ++ reported inside }
  match after with
  | some _ => return inside
  | none => Step.fail (c.ending tag.name)

/-- The character content of an element, blanks included.  Text inside nested
elements does not count. -/
def readText (tag : StartTag) : Step ReadError String := do
  let inside ← content tag fun nodes =>
    (startNames nodes).map fun nested => .markupInText tag.name nested
  return ownText 0 inside

/-- Consumes an element and everything inside it. -/
def skip (tag : StartTag) : Step ReadError Unit := do
  let _ ← content tag fun _ => []
  return ()

/-- Passes over what only a lenient reader accepts, or fails. -/
def lenient (error : ReadError) (event : Event) : Step ReadError Unit := do
  if (← Step.here).strict then Step.fail error
  else Step.report [event]

/-- Deals with an element that the context does not declare. -/
def unknownElement (context : String) (tag : StartTag) : Step ReadError Unit := do
  lenient (.unknownElement tag.name context) (.unknownElement tag.name context)
  skip tag

/-- Deals with a further occurrence of a single-valued element; the first one
stays. -/
def duplicateElement (context : String) (tag : StartTag) : Step ReadError Unit := do
  lenient (.duplicateElement tag.name context) (.repeatedElement tag.name context)
  skip tag

/-- Deals with an attribute that the context does not declare. -/
def unknownAttribute (context : String) (a : Attribute) : Step ReadError Unit :=
  lenient (.unknownAttribute a.localName context) (.unknownAttribute a.localName context)

/-- Deals with character data where only elements may stand. -/
def unexpectedText (context text : String) : Step ReadError Unit :=
  lenient (.unexpectedText text context) (.strayText context)

def parseAttribute (t : SimpleType) (context : String) (a : Attribute) : Step ReadError Scalar :=
  match t.read a.value with
  | .ok s => return s
  | .error cause => Step.fail (.invalidAttribute a.localName context cause)

def parseContent (t : SimpleType) (tag : StartTag) (text : String) : Step ReadError Scalar :=
  match t.read text with
  | .ok s => return s
  | .error cause => Step.fail (.invalidContent tag.name cause)

def readSimple (t : SimpleType) (tag : StartTag) : Step ReadError Scalar := do
  parseContent t tag (← readText tag)

end TableJoin.Reading
