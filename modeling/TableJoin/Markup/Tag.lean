import TableJoin.Markup.Name
import TableJoin.Markup.Reference
import TableJoin.Markup.Token

/-!
Start tags: the element name and the attributes with their values resolved.
-/

namespace TableJoin.Markup

open Text (cutAt)

/-- An attribute with its value resolved. -/
structure Attribute where
  nsPrefix : Option String
  localName : String
  value : String
deriving DecidableEq, Repr, Inhabited

/-- A start tag.  A self-closing one is a whole element. -/
structure StartTag where
  nsPrefix : Option String
  name : String
  attributes : List Attribute
  selfClosing : Bool
deriving DecidableEq, Repr, Inhabited

/-- The value of the first attribute with the local name. -/
def StartTag.attribute? (tag : StartTag) (localName : String) : Option String :=
  (tag.attributes.find? (·.localName = localName)).map (·.value)

/-- Namespace declarations and schema-instance attributes, which describe the
document and not the element. -/
def isReservedKey (key : List Char) : Bool :=
  key = "xmlns".toList || "xmlns:".toList.isPrefixOf key || "xsi:".toList.isPrefixOf key

/-- An attribute as it stands in a tag: its key, where the key begins, its raw
value, and what follows the closing quotation mark with the place of that. -/
structure RawAttribute where
  key : List Char
  keyAt : Nat
  value : List Char
  rest : List Char
  restAt : Nat

/-- Reads the first attribute of a tag's content of `size` bytes, from the byte
`offset` on.  `seen` holds the keys before it with their places.  The key's first
character belongs to the key whatever it is. -/
def nextAttribute (size : Nat) (seen : List (List Char × Nat)) (offset : Nat) (cs : List Char) :
    Except AttributeFault (Option RawAttribute) :=
  let gap := cs.takeWhile isSpace
  match cs.drop gap.length with
  | [] => .ok none
  | first :: rest =>
    let more := rest.takeWhile fun c => c != '=' && !isSpace c
    let key := first :: more
    let keyAt := offset + byteLength gap
    let afterKey := rest.drop more.length
    let gap := afterKey.takeWhile isSpace
    let equalsAt := keyAt + byteLength key + byteLength gap
    match afterKey.drop gap.length with
    | '=' :: afterEquals =>
      match seen.lookup key with
      | some earlier => .error (.duplicated keyAt earlier)
      | none =>
        let gap := afterEquals.takeWhile isSpace
        let valueAt := equalsAt + 1 + byteLength gap
        match afterEquals.drop gap.length with
        | [] => .error (.noValue size)
        | quote :: body =>
          if isQuote quote then
            match cutAt [quote] body with
            | none => .error (.quoteNotClosed size quote)
            | some (value, rest) =>
              .ok (some ⟨key, keyAt, value, rest, valueAt + byteLength value + 2⟩)
          else .error (.unquoted valueAt)
    | [] => .error (.noEquals size)
    | _ :: _ => .error (.noEquals equalsAt)

/-- The attributes in order, the reserved ones left out.  Each one is checked and
its value resolved before the next is looked at. -/
def attributesFrom (size : Nat) :
    Nat → List (List Char × Nat) → Nat → List Char → Except Fault (List Attribute)
  | 0, _, _, _ => .ok []
  | fuel + 1, seen, offset, cs =>
    match nextAttribute size seen offset cs with
    | .error fault => .error (.attributes fault)
    | .ok none => .ok []
    | .ok (some raw) =>
      let further := attributesFrom size fuel ((raw.key, raw.keyAt) :: seen) raw.restAt raw.rest
      if isReservedKey raw.key then further
      else
        match unescape raw.value with
        | .error fault => .error (.reference fault)
        | .ok value =>
          let (nsPrefix, localName) := splitRawName raw.key
          further.map (⟨nsPrefix, localName, String.ofList value⟩ :: ·)

/-- The raw name at the front of a tag's content. -/
def rawName (content : List Char) : List Char :=
  content.takeWhile (!isSpace ·)

def StartTag.ofContent (content : List Char) (selfClosing : Bool) : Except Fault StartTag :=
  let raw := rawName content
  let (nsPrefix, name) := splitRawName raw
  (attributesFrom (byteLength content) content.length [] (byteLength raw)
    (content.drop raw.length)).map fun attributes => ⟨nsPrefix, name, attributes, selfClosing⟩

end TableJoin.Markup
