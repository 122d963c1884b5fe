import TableJoin.Declaration.Reflection

/-!
Markup code: the generated code that reads a record from its element and writes
it as one.
-/

namespace TableJoin.Declaration

open Phrase

namespace FieldModel

variable (f : FieldModel)

def valueField : Phrase := join ["value", '.', f.ident]

/-- The arm that reads the field from an attribute, if it stands in one. -/
def attributeArm? : Option Phrase :=
  match f.placement with
  | .attribute _ localName =>
    let read := join [core ["codec", "parse_attribute"], round [ownTypeName, ',', "attr"], '?']
    some (join [quoted localName, marks "=>",
      curly [f.valueField, '=', present [read, ','], ';']])
  | _ => none

/-- The arm that reads the field from a child element, if it stands in one.  Of a
single element only the first counts. -/
def elementArm? : Option Phrase :=
  let read := join [core ["XmlValue", "read_xml"], round ["reader", ',', '&', "child"], '?']
  match f.placement with
  | .element _ localName =>
    match f.cardinality with
    | .single =>
      some (join [quoted localName, marks "=>", curly [
        "if", f.valueField, call "is_some" [],
        curly ["reader", call "duplicate_element" [ownTypeName, ',', '&', "child"], '?', ';'],
        "else", curly [f.valueField, '=', present [read], ';']]])
    | .many =>
      some (join [quoted localName, marks "=>", f.valueField, call "push" [read], ','])
  | _ => none

/-- Reads the field from the text of the element; blank text leaves it unset. -/
def readBody : Phrase :=
  join ["let", "text", '=', "reader", call "read_text" ["tag"], '?', ';',
    "if", '!', "text", call "trim" [], call "is_empty" [],
    curly [f.valueField, '=',
      present [core ["codec", "parse_content"], round ["tag", ',', '&', "text"], '?', ','], ';']]

/-- Adds the field to the start tag when it is set, if it stands in an attribute. -/
def pushAttribute? : Option Phrase :=
  match f.placement with
  | .attribute _ _ =>
    let text := join [core ["XmlText", "to_text"], round ["item"]]
    some (join ["if", "let", present ["item"], '=', '&', selfField f.ident,
      curly ["start", call "push_attribute" [f.qnamePhrase, ',', text], ';']])
  | _ => none

/-- Tells whether the field has elements to write. -/
def hasContent : Phrase :=
  match f.cardinality with
  | .single => join [selfField f.ident, call "is_some" []]
  | .many => join ['!', selfField f.ident, call "is_empty" []]

def writeElements : Phrase :=
  join ["for", "item", "in", selfField f.ident, call "iter" [], curly [
    core ["XmlValue", "write_xml"], round ["item", ',', "writer", ',', f.qnamePhrase], '?', ';']]

def writeBody : Phrase :=
  join ["match", '&', selfField f.ident, curly [
    present ["item"], marks "=>", curly ["writer",
      call "write_text_element" ["start", ',', '&', core ["XmlText", "to_text"], round ["item"]]],
    absent, marks "=>", "writer", call "write_empty" ["start"], ',']]

end FieldModel

namespace TypeModel

variable (m : TypeModel)

/-- The arms that read attributes, in the order of the fields. -/
def attributeArms : List Phrase := m.fields.filterMap (·.attributeArm?)

/-- The arms that read child elements, in the order of the fields. -/
def elementArms : List Phrase := m.fields.filterMap (·.elementArm?)

/-- The parts that write attributes, in the order of the fields. -/
def pushAttributes : List Phrase := m.fields.filterMap (·.pushAttribute?)

/-- Reads what stands between the tags: text if a field holds it, else elements. -/
def readContent : Phrase :=
  match m.textField? with
  | some f => f.readBody
  | none =>
    join ["while", "let", present ["child"], '=', "reader", call "next_child" ["tag"], '?', curly [
      "match", "child", curly [
        core ["Child", "Element"], round ["child"], marks "=>",
          "match", "child", '.', "name", call "as_str" [], curly [join m.elementArms,
            "_", marks "=>", "reader", call "unknown_element" [ownTypeName, ',', '&', "child"], '?',
            ','], ',',
        core ["Child", "Text"], round ["text"], marks "=>",
          "reader", call "unexpected_text" [ownTypeName, ',', '&', "text"], '?', ',']]]

/-- Writes what stands between the tags; an element without content closes
itself. -/
def writeContent : Phrase :=
  match m.textField? with
  | some f => f.writeBody
  | none =>
    join ["let", "has_content", '=', "false",
      join (m.elementFields.map fun f => join [marks "||", f.hasContent]), ';',
      "if", '!', "has_content", curly ["return", "writer", call "write_empty" ["start"], ';'],
      "writer", call "write_start" ["start"], '?', ';',
      join (m.elementFields.map (·.writeElements)),
      "writer", call "write_end" ["name"]]

/-- The item that reads the type from its element and writes it. -/
def markupItem : Phrase :=
  let resultOf := fun (type : Phrase) =>
    join [std ["result", "Result"], '<', type, ',', core ["XmlError"], '>']
  join [allowing ["unused_variables", "unused_mut"],
    implementation "XmlValue" m.ident [
      method "read_xml"
        ["reader", ':', '&', "mut", core ["XmlReader"], '<', '\'', "_", '>', ',',
          "tag", ':', '&', core ["StartTag"], ',']
        (some (resultOf "Self"))
        ["let", "mut", "value", '=', '<', "Self", "as", std ["default", "Default"], '>',
            marks "::", "default", round [], ';',
          "for", "attr", "in", '&', "tag", '.', "attributes", curly [
            "match", "attr", '.', "local", call "as_str" [], curly [join m.attributeArms,
              "_", marks "=>", "reader", call "unknown_attribute" [ownTypeName, ',', "attr"], '?',
              ',']],
          m.readContent,
          ok ["value"]],
      method "write_xml"
        [receiver, ',', "writer", ':', '&', "mut", core ["XmlWriter"], ',',
          "name", ':', core ["QName"], ',']
        (some (resultOf (round [])))
        ["let", "mut", "start", '=', core ["ElementStart", "new"], round ["name"], ';',
          join m.pushAttributes, m.writeContent]]]

/-- The code generated for the type, item by item; none if a constant cannot be named. -/
def items? : Option (List Phrase) :=
  m.accessorItem?.map fun accessors =>
    [accessors, m.tableItem, m.reflectionItem, m.fieldValueItem, m.markupItem]

end TypeModel

end TableJoin.Declaration
