import TableJoin.Declaration.Expression.Fault

/-!
What is wrong with a declaration.
-/

namespace TableJoin.Declaration

/-- Why a declaration describes no record type. -/
inductive DeclarationError where
  /-- The text is not a declaration of a type. -/
  | notDeclaration
  /-- The declaration is an enumeration or a union. -/
  | notStruct
  /-- The fields of the struct have no names. -/
  | fieldsNotNamed
  /-- The setting is none of a type. -/
  | unknownTypeSetting
  /-- The setting is none of a field. -/
  | unknownFieldSetting
  /-- The annotation has no arguments. -/
  | argumentsMissing
  /-- The annotation is assigned to instead of applied. -/
  | argumentsAssigned
  /-- Something else stands where the name of a setting has to. -/
  | settingExpected (isLiteral : Bool)
  /-- Nothing stands where the name of a setting has to. -/
  | settingMissing
  /-- Nothing or something else stands where the path of a setting has to go on. -/
  | segmentExpected (atEnd : Bool)
  | commaExpected
  | equalsExpected
  | stringExpected (atEnd : Bool)
  /-- The type of the field is neither optional nor a list. -/
  | notContainer
  /-- Nothing says how the field is represented. -/
  | placementMissing
  /-- A list is represented otherwise than by elements. -/
  | listNotElement
  /-- A list has a default. -/
  | listWithDefault
  /-- The default of the field is no expression. -/
  | badDefault (fault : ExpressionFault)
  | secondText
  /-- There are elements beside the text content. -/
  | textWithElements
deriving DecidableEq, Repr

def DeclarationError.message : DeclarationError → String
  | .notDeclaration => "expected the declaration of a type"
  | .notStruct => "TjsType can only be derived for structs"
  | .fieldsNotNamed => "TjsType requires named fields"
  | .unknownTypeSetting => "unsupported type attribute, expected `name`"
  | .unknownFieldSetting =>
    "unsupported field attribute, expected `attribute`, `element`, `text`, `required` or `default`"
  | .argumentsMissing => "expected attribute arguments in parentheses: #[tjs(...)]"
  | .argumentsAssigned => "expected parentheses: #[tjs(...)]"
  | .settingExpected true => "unexpected literal in nested attribute, expected ident"
  | .settingExpected false => "unexpected token in nested attribute, expected ident"
  | .settingMissing => "unexpected end of input, expected nested attribute"
  | .segmentExpected true => "unexpected end of input, expected ident"
  | .segmentExpected false => "expected ident"
  | .commaExpected => "expected `,`"
  | .equalsExpected => "expected `=`"
  | .stringExpected true => "unexpected end of input, expected string literal"
  | .stringExpected false => "expected string literal"
  | .notContainer => "feature fields must be `Option<T>` or `Vec<T>`"
  | .placementMissing =>
    "missing `#[tjs(attribute = ..)]`, `#[tjs(element = ..)]` or `#[tjs(text)]`"
  | .listNotElement => "only element features can be multi-valued"
  | .listWithDefault => "multi-valued features cannot have a default"
  | .badDefault fault => fault.message
  | .secondText => "at most one field can hold text content"
  | .textWithElements => "text content cannot be mixed with child elements"

end TableJoin.Declaration
