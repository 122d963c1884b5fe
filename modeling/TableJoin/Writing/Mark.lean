import TableJoin.Markup.Reference
import TableJoin.Writing.Options

/-!
Marks: what a document is written as, before names are given short names and
lines are broken; and the writing of marks as text.
-/

namespace TableJoin.Writing

open Markup

/-- One thing that is written. -/
inductive Mark where
  | declaration
  | start (name : QName) (attributes : List (QName × String))
  | empty (name : QName) (attributes : List (QName × String))
  | text (s : String)
  | close (name : QName)
deriving DecidableEq, Repr

/-- An element around content, self-closing if there is none. -/
def enclose (name : QName) (attributes : List (QName × String)) (content : List Mark) :
    List Mark :=
  if content.isEmpty then [.empty name attributes]
  else .start name attributes :: content ++ [.close name]

/-- Character content; an empty text leaves nothing. -/
def textContent (s : String) : List Mark :=
  if s.isEmpty then [] else [.text s]

def textElement (name : QName) (attributes : List (QName × String)) (s : String) : List Mark :=
  enclose name attributes (textContent s)

/-- Where the writer is: how deep, whether the next tag goes on a new line, and
whether a tag has been written. -/
structure Position where
  depth : Nat := 0
  breakLine : Bool := false
  rootWritten : Bool := false

/-- A line break and the indentation in front of a tag, if the options and the
place want them. -/
def lineBreak (o : EncodeOptions) (p : Position) : List Char :=
  match o.indent with
  | some width => if p.breakLine then '\n' :: List.replicate (p.depth * width) ' ' else []
  | none => []

def attributeChars (key value : String) : List Char :=
  ' ' :: key.toList ++ "=\"".toList ++ escape value.toList ++ ['"']

/-- A tag's content: its name and attributes, those of the root first. -/
def tagChars (o : EncodeOptions) (p : Position) (name : QName)
    (attributes : List (QName × String)) : List Char :=
  let rootOnes := if p.rootWritten then [] else o.rootAttributes
  let own := attributes.map fun (key, value) => (o.qualify key, value)
  (o.qualify name).toList ++ (rootOnes ++ own).flatMap fun (key, value) => attributeChars key value

/-- The written form of a mark, and the place after it. -/
def Mark.write (o : EncodeOptions) (p : Position) : Mark → List Char × Position
  | .declaration =>
    if o.declaration then
      (lineBreak o p ++ "<?xml version=\"1.0\" encoding=\"UTF-8\"?>".toList,
        { p with breakLine := true })
    else ([], p)
  | .start name attributes =>
    (lineBreak o p ++ '<' :: tagChars o p name attributes ++ ['>'], ⟨p.depth + 1, true, true⟩)
  | .empty name attributes =>
    (lineBreak o p ++ '<' :: tagChars o p name attributes ++ "/>".toList, ⟨p.depth, true, true⟩)
  | .text s => (escape s.toList, { p with breakLine := false })
  | .close name =>
    let p := { p with depth := p.depth - 1 }
    (lineBreak o p ++ "</".toList ++ (o.qualify name).toList ++ ['>'],
      { p with breakLine := true })

/-- The written form of marks from a place on. -/
def writeFrom (o : EncodeOptions) : Position → List Mark → List Char
  | _, [] => []
  | p, mark :: rest =>
    let (cs, p') := mark.write o p
    cs ++ writeFrom o p' rest

def write (o : EncodeOptions) (marks : List Mark) : String :=
  String.ofList (writeFrom o {} marks)

end TableJoin.Writing
