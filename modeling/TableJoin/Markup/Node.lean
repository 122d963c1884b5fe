import TableJoin.Markup.Tag

/-!
Nodes: what a reader of a document sees, in order.  The nodes of a text do not
depend on who reads them, so the whole text is turned into them at once.
-/

namespace TableJoin.Markup

/-- A step of the document as a reader meets it. -/
inductive Node where
  | start (tag : StartTag)
  | text (s : String)
  | close
deriving DecidableEq, Repr

/-- The nodes of a text, and the fault that stops them if it is not the end. -/
structure NodeStream where
  nodes : List Node
  fault : Option Fault
deriving DecidableEq, Repr

namespace NodeStream

def stopped (fault : Option Fault) : NodeStream := ⟨[], fault⟩

def cons (node : Node) (stream : NodeStream) : NodeStream :=
  ⟨node :: stream.nodes, stream.fault⟩

/-- The nodes that tokens amount to, inside elements with the raw names `opened`,
innermost first.  An end tag has to repeat the innermost name. -/
def ofTokens (fault : Option MarkupFault) : List (List Char) → List Token → NodeStream
  | _, [] => stopped (fault.map .markup)
  | opened, .aside :: rest => ofTokens fault opened rest
  | opened, .text cs :: rest => (ofTokens fault opened rest).cons (.text (String.ofList cs))
  | opened, .reference name :: rest =>
    match resolve 1 name with
    | .error bad => stopped (some (.reference bad))
    | .ok c => (ofTokens fault opened rest).cons (.text (String.ofList [c]))
  | opened, .startTag content :: rest =>
    match StartTag.ofContent content false with
    | .error bad => stopped (some bad)
    | .ok tag => (ofTokens fault (rawName content :: opened) rest).cons (.start tag)
  | opened, .emptyTag content :: rest =>
    match StartTag.ofContent content true with
    | .error bad => stopped (some bad)
    | .ok tag => (ofTokens fault opened rest).cons (.start tag)
  | [], .endTag name :: _ => stopped (some (.markup (.strayEnd (String.ofList name))))
  | expected :: opened, .endTag name :: rest =>
    if name = expected then (ofTokens fault opened rest).cons .close
    else
      stopped (some (.markup (.mismatchedEnd (String.ofList expected) (String.ofList name))))

def ofText (xml : String) : NodeStream :=
  let (found, fault) := tokens xml.toList
  ofTokens fault [] found

end NodeStream

end TableJoin.Markup
