import TableJoin.Markup.Fault
import TableJoin.Text.Cut

/-!
Tokens: the cut of a text into character data, references, tags and what is
passed over.  No token looks at the meaning of its content.
-/

namespace TableJoin.Markup

open Text (cutAt)

def isSpace (c : Char) : Bool :=
  c = ' ' || c = '\t' || c = '\n' || c = '\r'

/-- Both kinds of quotation mark. -/
def isQuote (c : Char) : Bool :=
  c = '"' || c = '\''

/-- The smallest parts of a marked-up text. -/
inductive Token where
  /-- Character data without references. -/
  | text (cs : List Char)
  /-- The name between `&` and `;`. -/
  | reference (name : List Char)
  /-- A start tag's content between the angle brackets. -/
  | startTag (content : List Char)
  /-- A self-closing tag's content, without the final slash. -/
  | emptyTag (content : List Char)
  /-- The name of an end tag. -/
  | endTag (name : List Char)
  /-- A comment, processing instruction or document type declaration. -/
  | aside
deriving DecidableEq, Repr

/-- What stands before the first `>` outside quotation marks, and what after it;
without one, the quotation mark still open at the end. -/
def cutTag (quote : Option Char) : List Char → Except (Option Char) (List Char × List Char)
  | [] => .error quote
  | c :: cs =>
    match quote with
    | some q =>
      (cutTag (if c = q then none else some q) cs).map fun (before, after) => (c :: before, after)
    | none =>
      if c = '>' then .ok ([], cs)
      else
        (cutTag (if isQuote c then some c else none) cs).map fun (before, after) =>
          (c :: before, after)

/-- Cuts a tag, or says what is left open. -/
def tagContent (cs : List Char) : Except MarkupFault (List Char × List Char) :=
  (cutTag none cs).mapError fun quote =>
    match quote with
    | none => .tagNotClosed
    | some q => .valueNotClosed q

/-- An end tag's name: trailing space goes, unless there is nothing else. -/
def endName (content : List Char) : List Char :=
  if content.all isSpace then content
  else (content.reverse.dropWhile isSpace).reverse

/-- What follows the `]` that closes an internal subset.  Comments, instructions
and declarations in it are passed over as wholes. -/
def afterSubset : Nat → List Char → Option (List Char)
  | 0, _ => none
  | fuel + 1, cs =>
    match cs.dropWhile fun c => c != ']' && c != '<' with
    | ']' :: rest => some rest
    | '<' :: rest =>
      let after :=
        if "!--".toList.isPrefixOf rest then (cutAt "-->".toList (rest.drop 3)).map (·.2)
        else if "?".toList.isPrefixOf rest then (cutAt "?>".toList rest).map (·.2)
        else if ["!ENTITY", "!ATTLIST", "!NOTATION"].any (·.toList.isPrefixOf rest) then
          (cutTag none rest).toOption.map (·.2)
        else (cutAt ['>'] rest).map (·.2)
      after.bind (afterSubset fuel)
    | _ => none

/-- What follows the `>` that ends a document type declaration. -/
def afterDoctype (quote : Option Char) : List Char → Option (List Char)
  | [] => none
  | c :: cs =>
    match quote with
    | some q => afterDoctype (if c = q then none else some q) cs
    | none =>
      if c = '>' then some cs
      else if c = '[' then
        (afterSubset cs.length cs).bind fun rest => (cutAt ['>'] rest).map (·.2)
      else afterDoctype (if isQuote c then some c else none) cs

/-- What follows a document type declaration, given what follows its `<!`. -/
def doctype (cs : List Char) : Except MarkupFault (List Char) :=
  let keyword := "DOCTYPE".toList
  if (cs.take keyword.length).map Char.toUpper = keyword then
    let body := cs.drop keyword.length
    match afterDoctype none body with
    | none => .error .doctypeNotClosed
    | some rest =>
      if (body.dropWhile isSpace).head? = some '>' then .error .doctypeUnnamed else .ok rest
  else .error .doctypeNotClosed

/-- A processing instruction, given what follows its `<`. -/
def instruction (cs : List Char) : Except MarkupFault (List Char) :=
  match cutAt "?>".toList cs with
  | some ([], _) => .error .instructionNotClosed
  | some (_, rest) => .ok rest
  | none =>
    let follows := cs.drop "?xml".length
    if "?xml".toList.isPrefixOf cs && follows.head?.all fun c => isSpace c || c = '?' then
      .error .declarationNotClosed
    else .error .instructionNotClosed

/-- Markup that begins with `<!`, given what follows these. -/
def bang (cs : List Char) : Except MarkupFault (Token × List Char) :=
  match cs with
  | '-' :: rest =>
    match rest with
    | '-' :: body =>
      match cutAt "-->".toList body with
      | some (_, after) => .ok (.aside, after)
      | none => .error .commentNotClosed
    | _ => .error .commentNotClosed
  | '[' :: rest =>
    if "CDATA[".toList.isPrefixOf rest then
      match cutAt "]]>".toList (rest.drop 6) with
      | some (data, after) => .ok (.text data, after)
      | none => .error .characterDataNotClosed
    else .error .characterDataNotClosed
  | c :: _ =>
    if c = 'D' ∨ c = 'd' then (doctype cs).map fun after => (.aside, after)
    else .error .unknownMarkup
  | [] => .error .unknownMarkup

/-- The first token of the characters and what follows it; no characters, no token. -/
def nextToken (cs : List Char) : Except MarkupFault (Option (Token × List Char)) :=
  match cs with
  | [] => .ok none
  | '<' :: rest =>
    match rest with
    | '!' :: body => (bang body).map some
    | '?' :: _ => (instruction rest).map fun after => some (.aside, after)
    | '/' :: body =>
      (tagContent body).map fun (content, after) => some (.endTag (endName content), after)
    | _ =>
      (tagContent rest).map fun (content, after) =>
        if content.getLast? = some '/' then some (.emptyTag content.dropLast, after)
        else some (.startTag content, after)
  | '&' :: rest =>
    let name := rest.takeWhile fun c => c != ';' && c != '&' && c != '<'
    match rest.drop name.length with
    | ';' :: after => .ok (some (.reference name, after))
    | _ => .error .referenceNotClosed
  | _ =>
    let plain := cs.takeWhile fun c => c != '<' && c != '&'
    .ok (some (.text plain, cs.drop plain.length))

/-- The tokens up to the end or the first fault.  Every token takes at least one
character, so the length of the text is fuel enough. -/
def tokensFrom : Nat → List Char → List Token × Option MarkupFault
  | 0, _ => ([], none)
  | fuel + 1, cs =>
    match nextToken cs with
    | .error fault => ([], some fault)
    | .ok none => ([], none)
    | .ok (some (token, rest)) =>
      let (tokens, fault) := tokensFrom fuel rest
      (token :: tokens, fault)

/-- The tokens of a text.  One byte order mark in front is dropped. -/
def tokens (cs : List Char) : List Token × Option MarkupFault :=
  let body := if cs.head? = some '\ufeff' then cs.drop 1 else cs
  tokensFrom body.length body

end TableJoin.Markup
