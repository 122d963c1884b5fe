import TableJoin.Declaration.MarkupCode
import TableJoin.Proofs.Declaration.Code

/-!
Methods: what the generated methods that read a record from its element and write it as one do,
as data that is read from their code.
-/

namespace TableJoin.Declaration

open Code Markup Phrase Scan

/-- A field as code uses it: by its identifier, and as one that holds so many values if what is
done to it tells. -/
structure FieldUse where
  ident : String
  cardinality? : Option Cardinality
deriving DecidableEq

namespace FieldUse

def asSingle (ident : String) : FieldUse := ⟨ident, some .single⟩

def asMany (ident : String) : FieldUse := ⟨ident, some .many⟩

def asAny (ident : String) : FieldUse := ⟨ident, none⟩

end FieldUse

/-- What is read between the tags of an element. -/
inductive ReadContent (α : Type) where
  /-- The text, unless it is blank. -/
  | text (field : α)
  /-- Child elements, by the local names of the arms.  Of elements for a single field the first
  one counts, and any other is reported as a duplicate. -/
  | children (arms : List (String × α))
deriving DecidableEq

/-- What a method reads: the attributes of the start tag, by the local names of the arms, and
then the content. -/
structure ReadCode (α : Type) where
  attributes : List (String × α)
  content : ReadContent α
deriving DecidableEq

/-- What is written between the tags of an element. -/
inductive WriteContent (α : Type) where
  | text (field : α)
  /-- For each item in the fields that are looped over an element of the name, if there is
  something in the fields that are tested. -/
  | children (tests : List α) (loops : List (QName × α))
deriving DecidableEq

/-- What a method writes: an attribute of the name for each field that is set, and then the
content. -/
structure WriteCode (α : Type) where
  attributes : List (QName × α)
  content : WriteContent α
deriving DecidableEq

structure MarkupCode (α : Type) where
  reader : ReadCode α
  writer : WriteCode α
deriving DecidableEq

namespace Scan

section Reading

/-- What makes an item of a child element. -/
def readChild : Phrase :=
  join [core ["XmlValue", "read_xml"], round ["reader", ',', '&', "child"], '?']

def attributeArm : Scan (String × FieldUse) := do
  let name ← between [] text (marks "=>")
  let parsed := present
    [core ["codec", "parse_attribute"], round [ownTypeName, ',', "attr"], '?', ',']
  let ident ← inside .curly (between (join ["value", '.']) word (join ['=', parsed, ';']))
  return (name, .asSingle ident)

/-- Reads a child element unless there is one already. -/
def readsFirst : Scan FieldUse :=
  inside .curly do
    let ident ← between (join ["if", "value", '.']) word (call "is_some" [])
    skip (curly ["reader", call "duplicate_element" [ownTypeName, ',', '&', "child"], '?', ';'])
    skip (join ["else", curly ["value", '.', ident, '=', present [readChild], ';']])
    return .asSingle ident

def readsEach : Scan FieldUse :=
  .asMany <$> between (join ["value", '.']) word (join [call "push" [readChild], ','])

def elementArm : Scan (String × FieldUse) := do
  let name ← between [] text (marks "=>")
  (name, ·) <$> (readsFirst <|> readsEach)

def readsText : Scan (ReadContent FieldUse) := do
  skip (join ["let", "text", '=', "reader", call "read_text" ["tag"], '?', ';'])
  skip (join ["if", '!', "text", call "trim" [], call "is_empty" []])
  let parsed := present [core ["codec", "parse_content"], round ["tag", ',', '&', "text"], '?', ',']
  (.text <| .asSingle ·) <$>
    inside .curly (between (join ["value", '.']) word (join ['=', parsed, ';']))

def unknownElement : Phrase :=
  join ["_", marks "=>", "reader", call "unknown_element" [ownTypeName, ',', '&', "child"],
    '?', ',']

def unexpectedText : Phrase :=
  join [core ["Child", "Text"], round ["text"], marks "=>",
    "reader", call "unexpected_text" [ownTypeName, ',', '&', "text"], '?', ',']

def readsChildren : Scan (ReadContent FieldUse) := do
  let ofElement := join [core ["Child", "Element"], round ["child"], marks "=>",
    "match", "child", '.', "name", call "as_str" []]
  let arms := inside .curly (manyBefore elementArm unknownElement)
  let child := inside .curly (between ofElement arms (join [',', unexpectedText]))
  skip (join ["while", "let", present ["child"], '=', "reader", call "next_child" ["tag"], '?'])
  .children <$> inside .curly (between (join ["match", "child"]) child [])

def unknownAttribute : Phrase :=
  join ["_", marks "=>", "reader", call "unknown_attribute" [ownTypeName, ',', "attr"], '?', ',']

def readMethod : Scan (ReadCode FieldUse) := do
  skip (join ["let", "mut", "value", '=', '<', "Self", "as", std ["default", "Default"], '>',
    marks "::", "default", round [], ';'])
  skip (join ["for", "attr", "in", '&', "tag", '.', "attributes"])
  let arms := inside .curly (manyBefore attributeArm unknownAttribute)
  let attributes ← inside .curly
    (between (join ["match", "attr", '.', "local", call "as_str" []]) arms [])
  let content ← readsText <|> readsChildren
  skip (ok ["value"])
  return ⟨attributes, content⟩

end Reading

section Writing

def space : Scan Namespace := fun
  | .word "Unqualified" :: ts => some (.unqualified, ts)
  | .word "Tjs" :: ts => some (.tjs, ts)
  | .word "Ows" :: ts => some (.ows, ts)
  | .word "Xlink" :: ts => some (.xlink, ts)
  | _ => none

def qname : Scan QName := do
  skip (core ["QName", "new"])
  inside .round do
    let space ← between (join [core ["Namespace"], marks "::"]) space ','
    (⟨space, ·⟩) <$> text

def push : Scan (QName × FieldUse) := do
  let ident ← between (join ["if", "let", present ["item"], '=', '&']) ownField []
  let item := join [',', core ["XmlText", "to_text"], round ["item"]]
  let name ← inside .curly (between (join ["start", '.', "push_attribute"])
    (inside .round (between [] qname item)) ';')
  return (name, .asSingle ident)

def writesText : Scan (WriteContent FieldUse) := do
  let ident ← between (join ["match", '&']) ownField []
  let item := join ['&', core ["XmlText", "to_text"], round ["item"]]
  skip (curly [
    present ["item"], marks "=>", curly ["writer", call "write_text_element" ["start", ',', item]],
    absent, marks "=>", "writer", call "write_empty" ["start"], ','])
  return .text (.asSingle ident)

def testsSome : Scan FieldUse :=
  .asSingle <$> between [] ownField (call "is_some" [])

def testsNonempty : Scan FieldUse :=
  .asMany <$> between '!' ownField (call "is_empty" [])

def test : Scan FieldUse := between (marks "||") (testsSome <|> testsNonempty) []

def loop : Scan (QName × FieldUse) := do
  let ident ← between (join ["for", "item", "in"]) ownField (call "iter" [])
  let arguments := inside .round (between (join ["item", ',', "writer", ',']) qname [])
  let name ← inside .curly (between (core ["XmlValue", "write_xml"]) arguments (join ['?', ';']))
  return (name, .asAny ident)

def writesChildren : Scan (WriteContent FieldUse) := do
  skip (join ["let", "has_content", '=', "false"])
  let tests ← manyBefore test ';'
  skip (join ["if", '!', "has_content",
    curly ["return", "writer", call "write_empty" ["start"], ';']])
  skip (join ["writer", call "write_start" ["start"], '?', ';'])
  .children tests <$> manyBefore loop (join ["writer", call "write_end" ["name"]])

def writeMethod : Scan (WriteCode FieldUse) := do
  skip (join ["let", "mut", "start", '=', core ["ElementStart", "new"], round ["name"], ';'])
  let attributes ← many push
  let content ← writesText <|> writesChildren
  return ⟨attributes, content⟩

end Writing

end Scan

def MarkupCode.ofItem? (item : List Token) : Option (MarkupCode FieldUse) := do
  let reader ← readMethod.all (methodBody "read_xml" item)
  let writer ← writeMethod.all (methodBody "write_xml" item)
  return ⟨reader, writer⟩

def Placement.isAttribute : Placement → Bool
  | .attribute _ _ => true
  | _ => false

theorem Placement.isAttribute_eq_true_iff {p : Placement} :
    p.isAttribute = true ↔ ∃ short? localName, p = .attribute short? localName := by
  cases p <;> simp [isAttribute]

theorem Placement.isElement_eq_true_iff {p : Placement} :
    p.isElement = true ↔ ∃ short? localName, p = .element short? localName := by
  cases p <;> simp [isElement]

/-- The parts that only some fields have, one after the other. -/
theorem join_filterMap {part? : FieldModel → Option Phrase} {p : FieldModel → Bool}
    (h : ∀ f, (part? f).isSome = p f) (fields : List FieldModel) :
    join (fields.filterMap part?) = (fields.filter p).flatMap fun f => (part? f).getD [] := by
  induction fields with
  | nil => rfl
  | cons f fields ih =>
    have hf := h f
    cases hpart : part? f with
    | none =>
      rw [hpart] at hf
      rw [List.filterMap_cons_none hpart, ih, List.filter_cons_of_neg (by simp [← hf])]
    | some part =>
      rw [hpart] at hf
      rw [List.filterMap_cons_some hpart, List.filter_cons_of_pos hf.symm, List.flatMap_cons,
        hpart, ← ih]
      rfl

namespace FieldModel

variable (f : FieldModel)

/-- The name of the field's attribute or elements, without what it is qualified by. -/
def localName : String := f.placement.qname.localName

theorem isSome_attributeArm? : f.attributeArm?.isSome = f.placement.isAttribute := by
  unfold attributeArm?
  cases f.placement <;> rfl

theorem isSome_elementArm? : f.elementArm?.isSome = f.placement.isElement := by
  unfold elementArm?
  cases f.placement <;> cases f.cardinality <;> rfl

theorem isSome_pushAttribute? : f.pushAttribute?.isSome = f.placement.isAttribute := by
  unfold pushAttribute?
  cases f.placement <;> rfl

theorem spells_attributeArm (h : f.placement.isAttribute = true) :
    Spells attributeArm (f.attributeArm?.getD []) (f.localName, .asSingle f.ident) := by
  obtain ⟨short?, localName, hp⟩ := Placement.isAttribute_eq_true_iff.mp h
  simp only [attributeArm?, FieldModel.localName, hp]
  exact ((spells_text localName).between _ _).bind
    ((((spells_word f.ident).between _ _).inside .curly).bind (spells_pure _))

theorem spells_elementArm (h : f.placement.isElement = true) :
    Spells elementArm (f.elementArm?.getD []) (f.localName, ⟨f.ident, some f.cardinality⟩) := by
  obtain ⟨short?, localName, hp⟩ := Placement.isElement_eq_true_iff.mp h
  simp only [elementArm?, FieldModel.localName, hp]
  have hname := (spells_text localName).between [] (marks "=>")
  cases f.cardinality with
  | single =>
    have hfirst : Spells readsFirst _ (.asSingle f.ident) :=
      (((spells_word f.ident).between _ _).bind (((spells_pure _).after _).after _)).inside .curly
    exact hname.bind ((hfirst.left _).map _)
  | many =>
    have heach : Spells readsEach _ (.asMany f.ident) :=
      ((spells_word f.ident).between _ _).map _
    exact hname.bind ((heach.right fun _ => rfl).map _)

theorem spells_readsText : Spells readsText f.readBody (.text (.asSingle f.ident)) :=
  (((((spells_word f.ident).between _ _).inside .curly).map _).after _).after _

theorem spells_qname : Spells qname f.qnamePhrase f.placement.qname := by
  have hspace : Spells space (namespaceName f.placement.qname.space) f.placement.qname.space := by
    cases f.placement.qname.space <;> exact fun _ => rfl
  exact (((hspace.between _ _).bind ((spells_text _).map _)).inside .round).after _

theorem spells_push (h : f.placement.isAttribute = true) :
    Spells push (f.pushAttribute?.getD []) (f.placement.qname, .asSingle f.ident) := by
  obtain ⟨short?, localName, hp⟩ := Placement.isAttribute_eq_true_iff.mp h
  have hname := f.spells_qname
  simp only [pushAttribute?, hp] at hname ⊢
  exact ((spells_ownField f.ident).between _ _).bind
    (((((hname.between _ _).inside .round).between _ _).inside .curly).bind (spells_pure _))

theorem spells_writesText : Spells writesText f.writeBody (.text (.asSingle f.ident)) :=
  ((spells_ownField f.ident).between _ _).bind ((spells_pure _).after _)

theorem spells_test :
    Spells test (join [marks "||", f.hasContent]) ⟨f.ident, some f.cardinality⟩ := by
  unfold hasContent
  cases f.cardinality with
  | single =>
    have hsome : Spells testsSome _ (.asSingle f.ident) :=
      ((spells_ownField f.ident).between _ _).map _
    exact (hsome.left _).between _ _
  | many =>
    have hnonempty : Spells testsNonempty _ (.asMany f.ident) :=
      ((spells_ownField f.ident).between _ _).map _
    exact (hnonempty.right fun _ => rfl).between _ _

theorem spells_loop : Spells loop f.writeElements (f.placement.qname, .asAny f.ident) :=
  ((spells_ownField f.ident).between _ _).bind
    ((((((f.spells_qname).between _ _).inside .round).between _ _).inside .curly).bind
      (spells_pure _))

end FieldModel

namespace TypeModel

variable (m : TypeModel)

def attributeFields : List FieldModel := m.fields.filter (·.placement.isAttribute)

/-- What the generated reader of the type does. -/
def readCode : ReadCode FieldUse where
  attributes := m.attributeFields.map fun f => (f.localName, .asSingle f.ident)
  content :=
    match m.textField? with
    | some f => .text (.asSingle f.ident)
    | none => .children (m.elementFields.map fun f => (f.localName, ⟨f.ident, some f.cardinality⟩))

/-- What the generated writer of the type does. -/
def writeCode : WriteCode FieldUse where
  attributes := m.attributeFields.map fun f => (f.placement.qname, .asSingle f.ident)
  content :=
    match m.textField? with
    | some f => .text (.asSingle f.ident)
    | none =>
      .children (m.elementFields.map fun f => ⟨f.ident, some f.cardinality⟩)
        (m.elementFields.map fun f => (f.placement.qname, .asAny f.ident))

/-- What stands between the tags is read into the field of the text, or else by the arms of the
fields that stand in child elements. -/
theorem spells_readContent :
    Spells (readsText <|> readsChildren) m.readContent m.readCode.content := by
  rw [readContent, readCode]
  cases m.textField? with
  | some f => exact f.spells_readsText.left _
  | none =>
    have harms : Spells (manyBefore elementArm unknownElement)
        (join m.elementArms ++ unknownElement)
        (m.elementFields.map fun f => (f.localName, ⟨f.ident, some f.cardinality⟩)) := by
      rw [elementArms, join_filterMap FieldModel.isSome_elementArm?]
      exact spells_manyBefore (fun f hf => f.spells_elementArm (List.mem_filter.mp hf).2) rfl
        fun _ => rfl
    have hmatch := (harms.inside .curly).between (join [core ["Child", "Element"], round ["child"],
      marks "=>", "match", "child", '.', "name", call "as_str" []]) (join [',', unexpectedText])
    have hchildren : Spells readsChildren _ (.children _) :=
      ((((hmatch.inside .curly).between _ _).inside .curly).map _).after _
    exact hchildren.right fun _ => rfl

theorem all_readMethod :
    readMethod.all (methodBody "read_xml" m.markupItem) = some m.readCode := by
  have harms : Spells (manyBefore attributeArm unknownAttribute)
      (join m.attributeArms ++ unknownAttribute)
      (m.attributeFields.map fun f => (f.localName, .asSingle f.ident)) := by
    rw [attributeArms, join_filterMap FieldModel.isSome_attributeArm?]
    exact spells_manyBefore (fun f hf => f.spells_attributeArm (List.mem_filter.mp hf).2) rfl
      fun _ => rfl
  have hloop := ((harms.inside .curly).between (join ["match", "attr", '.', "local",
    call "as_str" []]) []).inside .curly
  have hmethod : Spells readMethod _ m.readCode :=
    ((hloop.bind (m.spells_readContent.bind ((spells_pure _).after _))).after _).after _
  exact hmethod.all

theorem spells_writeContent :
    Spells (writesText <|> writesChildren) m.writeContent m.writeCode.content := by
  rw [writeContent, writeCode]
  cases m.textField? with
  | some f => exact f.spells_writesText.left _
  | none =>
    have htests : Spells (manyBefore test ';')
        (m.elementFields.flatMap (fun f => join [marks "||", f.hasContent]) ++ [.mark ';'])
        (m.elementFields.map fun f => ⟨f.ident, some f.cardinality⟩) :=
      spells_manyBefore (fun f _ => f.spells_test) rfl fun _ => rfl
    have hloops : Spells (manyBefore loop (join ["writer", call "write_end" ["name"]]))
        (m.elementFields.flatMap FieldModel.writeElements ++
          join ["writer", call "write_end" ["name"]])
        (m.elementFields.map fun f => (f.placement.qname, .asAny f.ident)) :=
      spells_manyBefore (fun f _ => f.spells_loop) rfl fun _ => rfl
    have hchildren : Spells writesChildren _ (.children _ _) :=
      (htests.bind (((hloops.map _).after _).after _)).after _
    refine Spells.right ?_ fun _ => rfl
    simpa [join, List.flatMap_def] using hchildren

theorem all_writeMethod :
    writeMethod.all (methodBody "write_xml" m.markupItem) = some m.writeCode := by
  have hstop : ∀ ts, push (m.writeContent ++ ts) = none := by
    rw [writeContent]
    cases m.textField? <;> exact fun _ => rfl
  have hpushes : Spells (do
      let attributes ← many push
      let content ← writesText <|> writesChildren
      return ⟨attributes, content⟩)
      (join m.pushAttributes ++ (m.writeContent ++ [])) m.writeCode := by
    rw [pushAttributes, join_filterMap FieldModel.isSome_pushAttribute?]
    refine Spells.many_bind (fun f hf => f.spells_push (List.mem_filter.mp hf).2) rfl ?_
      (m.spells_writeContent.bind (spells_pure _))
    simpa using hstop
  have hmethod : Spells writeMethod _ m.writeCode := hpushes.after _
  exact hmethod.all

theorem ofItem?_markupItem :
    MarkupCode.ofItem? m.markupItem = some ⟨m.readCode, m.writeCode⟩ := by
  rw [MarkupCode.ofItem?, all_readMethod, all_writeMethod]
  rfl

end TypeModel

end TableJoin.Declaration
