import TableJoin.Proofs.Markup.Token
import TableJoin.Proofs.Reading.Decoding

/-!
Source trees: elements with every character that they are written with.  A text
is cut at each character of its content, so that there is one place for anything
that is put in, and one tree for each text.
-/

namespace TableJoin.Markup

/-- An attribute as it is written. -/
structure SourceAttribute where
  /-- The space in front of the key. -/
  gap : List Char
  key : List Char
  beforeEquals : List Char
  afterEquals : List Char
  quote : Char
  /-- The value, its references unresolved. -/
  value : List Char
deriving DecidableEq, Repr

/-- A tag as it is written, without its brackets. -/
structure SourceTag where
  name : List Char
  attributes : List SourceAttribute
  /-- The space behind the last attribute. -/
  gap : List Char
deriving DecidableEq, Repr

mutual

/-- An element as it is written. -/
inductive SourceElement where
  /-- A self-closing tag. -/
  | empty (tag : SourceTag)
  /-- A start tag, content, and what stands between `</` and `>`. -/
  | around (tag : SourceTag) (parts : List SourcePart) (close : List Char)

/-- A part of content as it is written. -/
inductive SourcePart where
  /-- One character that stands for itself. -/
  | plain (c : Char)
  /-- The name between `&` and `;`. -/
  | reference (name : List Char)
  /-- The text of a section of unparsed character data. -/
  | data (cs : List Char)
  /-- A comment, processing instruction or document type declaration. -/
  | aside (own : List Char)
  | element (e : SourceElement)

end

/-- A document as it is written: what stands in front of the root element, the root
element, and what follows it. -/
structure SourceDocument where
  /-- A byte order mark comes first. -/
  mark : Bool
  front : List SourcePart
  root : SourceElement
  rest : List Char

section Characters

def SourceAttribute.chars (a : SourceAttribute) : List Char :=
  a.gap ++ (a.key ++ (a.beforeEquals ++ '=' :: (a.afterEquals ++ a.quote :: (a.value ++ [a.quote]))))

def SourceTag.behindName (tag : SourceTag) : List Char :=
  tag.attributes.flatMap SourceAttribute.chars ++ tag.gap

def SourceTag.chars (tag : SourceTag) : List Char := tag.name ++ tag.behindName

mutual

def SourceElement.chars : SourceElement → List Char
  | .empty tag => '<' :: (tag.chars ++ "/>".toList)
  | .around tag parts close =>
    '<' :: (tag.chars ++ '>' :: (SourcePart.chars parts ++ '<' :: '/' :: (close ++ ['>'])))
termination_by structural e => e

def SourcePart.own : SourcePart → List Char
  | .plain c => [c]
  | .reference name => '&' :: (name ++ [';'])
  | .data cs => "<![CDATA[".toList ++ (cs ++ "]]>".toList)
  | .aside own => own
  | .element e => e.chars
termination_by structural p => p

def SourcePart.chars : List SourcePart → List Char
  | [] => []
  | p :: rest => p.own ++ SourcePart.chars rest
termination_by structural ps => ps

end

def SourceDocument.chars (s : SourceDocument) : List Char :=
  (if s.mark then ['\ufeff'] else []) ++ (SourcePart.chars s.front ++ (s.root.chars ++ s.rest))

def SourceDocument.text (s : SourceDocument) : String := String.ofList s.chars

@[simp] theorem SourcePart.own_plain (c : Char) : (SourcePart.plain c).own = [c] := rfl

@[simp] theorem SourcePart.own_reference (name : List Char) :
    (SourcePart.reference name).own = '&' :: (name ++ [';']) := rfl

@[simp] theorem SourcePart.own_data (cs : List Char) :
    (SourcePart.data cs).own = "<![CDATA[".toList ++ (cs ++ "]]>".toList) := rfl

@[simp] theorem SourcePart.own_aside (own : List Char) : (SourcePart.aside own).own = own := rfl

@[simp] theorem SourcePart.own_element (e : SourceElement) :
    (SourcePart.element e).own = e.chars := rfl

@[simp] theorem SourcePart.chars_nil : SourcePart.chars [] = [] := rfl

@[simp] theorem SourcePart.chars_cons (p : SourcePart) (ps : List SourcePart) :
    SourcePart.chars (p :: ps) = p.own ++ SourcePart.chars ps := rfl

theorem SourcePart.chars_append (ps qs : List SourcePart) :
    SourcePart.chars (ps ++ qs) = SourcePart.chars ps ++ SourcePart.chars qs := by
  induction ps with
  | nil => rfl
  | cons p ps ih => simp [ih]

end Characters

section WellFormed

def isToken (own : List Char) (token : Token) : Bool :=
  match nextToken own with
  | .ok (some (found, [])) => found = token
  | _ => false

/-- The characters may be the key of an attribute. -/
def isKey : List Char → Bool
  | [] => false
  | first :: more => !isSpace first && more.all fun c => c != '=' && !isSpace c

/-- Each character of the attribute stands where it does for what it is. -/
structure SourceAttribute.IsDelimited (a : SourceAttribute) : Prop where
  gap : a.gap.all isSpace = true
  key : isKey a.key = true
  beforeEquals : a.beforeEquals.all isSpace = true
  afterEquals : a.afterEquals.all isSpace = true
  quote : isQuote a.quote = true
  value : a.quote ∉ a.value

instance (a : SourceAttribute) : Decidable a.IsDelimited :=
  decidable_of_iff (a.gap.all isSpace = true ∧ isKey a.key = true ∧
      a.beforeEquals.all isSpace = true ∧ a.afterEquals.all isSpace = true ∧
      isQuote a.quote = true ∧ a.quote ∉ a.value)
    ⟨fun ⟨h₁, h₂, h₃, h₄, h₅, h₆⟩ => ⟨h₁, h₂, h₃, h₄, h₅, h₆⟩,
      fun ⟨h₁, h₂, h₃, h₄, h₅, h₆⟩ => ⟨h₁, h₂, h₃, h₄, h₅, h₆⟩⟩

/-- The attribute is one, and the references in its value stand for something. -/
def SourceAttribute.isWellFormed (a : SourceAttribute) : Bool :=
  decide a.IsDelimited && (isReservedKey a.key || (unescape a.value).isOk)

/-- The tag has a name, and attributes with different keys. -/
def SourceTag.isWellFormed (tag : SourceTag) : Bool :=
  tag.name.all (!isSpace ·) && tag.behindName.head?.all isSpace &&
    tag.attributes.all SourceAttribute.isWellFormed && tag.gap.all isSpace &&
    decide (tag.attributes.map (·.key)).Nodup

mutual

/-- Tags are well-formed, and every start tag has its end tag. -/
def SourceElement.isWellFormed : SourceElement → Bool
  | .empty tag =>
    tag.isWellFormed && isToken ('<' :: (tag.chars ++ "/>".toList)) (.emptyTag tag.chars)
  | .around tag parts close =>
    tag.isWellFormed && isToken ('<' :: (tag.chars ++ ['>'])) (.startTag tag.chars) &&
      isToken ('<' :: '/' :: (close ++ ['>'])) (.endTag tag.name) &&
      SourcePart.areWellFormed parts
termination_by structural e => e

/-- The part is what it says it is, and a reference stands for something. -/
def SourcePart.isWellFormed : SourcePart → Bool
  | .plain c => isPlain c
  | .reference name =>
    isToken ('&' :: (name ++ [';'])) (.reference name) && (resolve 1 name).isOk
  | .data cs => isToken ("<![CDATA[".toList ++ (cs ++ "]]>".toList)) (.text cs)
  | .aside own => isToken own .aside
  | .element e => e.isWellFormed
termination_by structural p => p

def SourcePart.areWellFormed : List SourcePart → Bool
  | [] => true
  | p :: rest => p.isWellFormed && SourcePart.areWellFormed rest
termination_by structural ps => ps

end

theorem SourcePart.areWellFormed_cons {p : SourcePart} {ps : List SourcePart} :
    SourcePart.areWellFormed (p :: ps) = true ↔
      p.isWellFormed = true ∧ SourcePart.areWellFormed ps = true := by
  rw [SourcePart.areWellFormed, Bool.and_eq_true]

theorem SourcePart.areWellFormed_append {ps qs : List SourcePart} :
    SourcePart.areWellFormed (ps ++ qs) = true ↔
      SourcePart.areWellFormed ps = true ∧ SourcePart.areWellFormed qs = true := by
  induction ps with
  | nil => simp [SourcePart.areWellFormed]
  | cons p ps ih =>
    rw [List.cons_append, SourcePart.areWellFormed_cons, SourcePart.areWellFormed_cons, ih,
      and_assoc]

theorem SourcePart.isWellFormed_reference {name : List Char} :
    (SourcePart.reference name).isWellFormed = true ↔
      isToken ('&' :: (name ++ [';'])) (.reference name) = true ∧
        (resolve 1 name).isOk = true := by
  rw [SourcePart.isWellFormed, Bool.and_eq_true]

theorem SourceElement.isWellFormed_empty {tag : SourceTag} :
    (SourceElement.empty tag).isWellFormed = true ↔ tag.isWellFormed = true ∧
      isToken ('<' :: (tag.chars ++ "/>".toList)) (.emptyTag tag.chars) = true := by
  rw [SourceElement.isWellFormed, Bool.and_eq_true]

theorem SourceElement.isWellFormed_around {tag : SourceTag} {parts : List SourcePart}
    {close : List Char} :
    (SourceElement.around tag parts close).isWellFormed = true ↔ tag.isWellFormed = true ∧
      isToken ('<' :: (tag.chars ++ ['>'])) (.startTag tag.chars) = true ∧
      isToken ('<' :: '/' :: (close ++ ['>'])) (.endTag tag.name) = true ∧
      SourcePart.areWellFormed parts = true := by
  simp only [SourceElement.isWellFormed, Bool.and_eq_true, and_assoc]

end WellFormed

section Views

/-- The attribute as a reader sees it; reserved ones are not seen. -/
def SourceAttribute.view? (a : SourceAttribute) : Option Attribute :=
  if isReservedKey a.key then none
  else
    some ⟨(splitRawName a.key).1, (splitRawName a.key).2,
      String.ofList ((unescape a.value).toOption.getD [])⟩

def SourceTag.attributesSeen (tag : SourceTag) : List Attribute :=
  tag.attributes.filterMap SourceAttribute.view?

def SourceTag.view (tag : SourceTag) (selfClosing : Bool) : StartTag :=
  ⟨(splitRawName tag.name).1, (splitRawName tag.name).2, tag.attributesSeen, selfClosing⟩

/-- The part for a run of characters that stand for themselves; none for no character. -/
def Part.ofRun (run : List Char) : List Part :=
  if run = [] then [] else [.text (String.ofList run)]

/-- The character that a reference stands for. -/
def referred (name : List Char) : List Char := (resolve 1 name).toOption.toList

mutual

def SourceElement.view : SourceElement → Element
  | .empty tag => .empty (splitRawName tag.name).1 (splitRawName tag.name).2 tag.attributesSeen
  | .around tag parts _ =>
    .around (splitRawName tag.name).1 (splitRawName tag.name).2 tag.attributesSeen
      (SourcePart.views parts [])
termination_by structural e => e

/-- Content as a reader sees it, behind a run of characters that stand for themselves.
Only what stands between such characters divides them. -/
def SourcePart.views : List SourcePart → List Char → List Part
  | [], run => Part.ofRun run
  | p :: rest, run =>
    match p with
    | .plain c => SourcePart.views rest (run ++ [c])
    | .reference name =>
      Part.ofRun run ++ .text (String.ofList (referred name)) :: SourcePart.views rest []
    | .data cs => Part.ofRun run ++ .text (String.ofList cs) :: SourcePart.views rest []
    | .aside _ => Part.ofRun run ++ SourcePart.views rest []
    | .element e => Part.ofRun run ++ .element e.view :: SourcePart.views rest []
termination_by structural ps => ps

end

/-- The elements that stand in content, those within them left out. -/
def SourcePart.elements : List SourcePart → List SourceElement
  | [] => []
  | .element e :: rest => e :: SourcePart.elements rest
  | _ :: rest => SourcePart.elements rest

/-- The characters that a part stands for in the text around it. -/
def SourcePart.stands : SourcePart → List Char
  | .plain c => [c]
  | .reference name => referred name
  | .data cs => cs
  | .aside _ => []
  | .element _ => []

end Views

/-- The root element is well-formed, and in front of it stands layout. -/
def SourceDocument.isWellFormed (s : SourceDocument) : Bool :=
  SourcePart.areWellFormed s.front && (SourcePart.elements s.front).isEmpty &&
    (s.front.flatMap SourcePart.stands).all Text.isBlank && s.root.isWellFormed

/-- The document is what the text is written as. -/
def SourceDocument.Spells (s : SourceDocument) (xml : String) : Prop :=
  s.isWellFormed = true ∧ s.text = xml

end TableJoin.Markup
