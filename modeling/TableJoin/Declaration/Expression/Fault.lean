import TableJoin.Declaration.Token

/-!
Why a text is not one expression.
-/

namespace TableJoin.Declaration

/-- What has to stand at a place. -/
inductive Wanted where
  /-- These marks. -/
  | mark (text : String)
  /-- This word. -/
  | word (text : String)
  /-- A group in these brackets. -/
  | group (bracket : Bracket)
  | expression
  | type
  /-- A type behind the lifetimes it is given for. -/
  | boundType
  | pointerWord
  | parameter
  | pattern
  /-- One end of a range of values. -/
  | patternBound
  | upperBound
  | rangeMark
  | identifier
  | lifetime
  | pathSegment
  | member
  | integer
  | commaOrSemicolon
  | delimiter
  | alternative
  | labelled
deriving DecidableEq, Repr

namespace Wanted

def text : Wanted → String
  | .mark text => s!"`{text}`"
  | .word text => s!"`{text}`"
  | .group .round => "parentheses"
  | .group .square => "square brackets"
  | .group .curly => "curly braces"
  | .expression => "an expression"
  | .type =>
    "one of: `for`, parentheses, `fn`, `unsafe`, `extern`, identifier, `::`, `<`, `dyn`, " ++
      "square brackets, `*`, `&`, `!`, `impl`, `_`, lifetime"
  | .boundType =>
    "one of: identifier, `fn`, `unsafe`, `extern`, `super`, `self`, `Self`, `crate`"
  | .pointerWord => "`const` or `mut`"
  | .parameter => "one of: identifier, lifetime, `const`"
  | .pattern =>
    "one of: identifier, `::`, `<`, `_`, literal, `const`, `ref`, `mut`, `&`, parentheses, " ++
      "square brackets, `..`"
  | .patternBound =>
    "one of: literal, identifier, `::`, `<`, `self`, `Self`, `super`, `crate`, `const`"
  | .upperBound => "range upper bound"
  | .rangeMark => "`..` or `..=`"
  | .identifier => "identifier"
  | .lifetime => "lifetime"
  | .pathSegment => "path segment after `::`"
  | .member => "identifier or integer"
  | .integer => "integer literal"
  | .commaOrSemicolon => "`,` or `;`"
  | .delimiter => "delimiter"
  | .alternative => "`if` or curly braces"
  | .labelled => "loop or block expression"

/-- Marks are wanted by name alone: whether the text ends is not told. -/
def isMark : Wanted → Bool
  | .mark _ => true
  | _ => false

end Wanted

/-- What must not follow a cast without parentheses. -/
inductive CastEnd where
  | await
  | methodCall
  | fieldAccess
  | questionMark
  | indexing
  | functionCall
deriving DecidableEq, Repr

def CastEnd.text : CastEnd → String
  | .await => "`.await`"
  | .methodCall => "a method call"
  | .fieldAccess => "a field access"
  | .questionMark => "`?`"
  | .indexing => "indexing"
  | .functionCall => "a function call"

/-- Why a text is not one expression. -/
inductive ExpressionFault where
  /-- The text has parts that are no tokens, or a bracket without its partner. -/
  | notTokens
  /-- Letters stand behind the quotation mark that ends the text. -/
  | suffixedText (suffix : String)
  /-- Something else stands where this has to, or nothing does. -/
  | expected (wanted : Wanted) (atEnd : Bool)
  /-- A reserved word stands where a name has to. -/
  | reservedWord (word : String)
  /-- Tokens are left after the expression, or in brackets. -/
  | leftover (inside? : Option Bracket)
  | chainedComparison
  | unclearCast (behind : CastEnd)
  /-- The number of a member has a suffix. -/
  | suffixedMember
  /-- The number of a member does not fit in 32 bits. -/
  | largeMember
  /-- The number of a member has a minus sign. -/
  | negativeMember
  /-- A labelled loop is the value of a break. -/
  | labelledBreak
  /-- A statement does not end. -/
  | openStatement
  /-- An attribute stands before a range without a lower bound. -/
  | attributedRange
  /-- A range with one bound is an item of a slice. -/
  | openRangeInSlice
  /-- An attribute is the value of an attribute. -/
  | nestedAttribute
  /-- The type of an object names no trait. -/
  | objectWithoutTrait
  /-- The type of a result names no trait. -/
  | resultWithoutTrait
  /-- A trait that may be missing is given for lifetimes. -/
  | boundMissingTrait
deriving DecidableEq, Repr

def ExpressionFault.message : ExpressionFault → String
  | .notTokens => "cannot parse string into token stream"
  | .suffixedText suffix => s!"unexpected suffix `{suffix}` on string literal"
  | .expected wanted atEnd =>
    (if atEnd && !wanted.isMark then "unexpected end of input, " else "") ++
      "expected " ++ wanted.text
  | .reservedWord word => s!"expected identifier, found keyword `{word}`"
  | .leftover none => "unexpected token"
  | .leftover (some b) => s!"unexpected token, expected `{b.closing}`"
  | .chainedComparison => "comparison operators cannot be chained"
  | .unclearCast behind => "casts cannot be followed by " ++ behind.text
  | .suffixedMember => "expected unsuffixed integer"
  | .largeMember => "number too large to fit in target type"
  | .negativeMember => "invalid digit found in string"
  | .labelledBreak => "parentheses required"
  | .openStatement => "unexpected token, expected `;`"
  | .attributedRange => "attributes are not allowed on range expressions starting with `..`"
  | .openRangeInSlice => "range pattern is not allowed unparenthesized inside slice pattern"
  | .nestedAttribute => "unexpected attribute inside of attribute"
  | .objectWithoutTrait => "at least one trait is required for an object type"
  | .resultWithoutTrait => "at least one trait must be specified"
  | .boundMissingTrait =>
    "`for<...>` binder not allowed with `?` trait polarity modifier"

end TableJoin.Declaration
