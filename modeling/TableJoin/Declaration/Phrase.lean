import TableJoin.Declaration.Quoted

/-!
Phrases: rows of tokens, and how longer ones are put together.  In a list of
parts a text stands for a word, a character for a mark.
-/

namespace TableJoin.Declaration

abbrev Phrase := List Token

namespace Phrase

scoped instance : Coe String Phrase := ⟨fun word => [.word word]⟩

scoped instance : Coe Char Phrase := ⟨fun mark => [.mark mark]⟩

def join (parts : List Phrase) : Phrase := parts.flatten

def round (parts : List Phrase) : Phrase := [.group .round (join parts)]

def square (parts : List Phrase) : Phrase := [.group .square (join parts)]

def curly (parts : List Phrase) : Phrase := [.group .curly (join parts)]

def commaSeparated (parts : List Phrase) : Phrase := join (parts.intersperse [.mark ','])

def marks (operator : String) : Phrase := operator.toList.map .mark

def quoted (text : String) : Phrase := [.literal (StringLiteral.ofText text).written]

def position (i : Nat) : Phrase := [.literal (String.ofList (Numeral.digits i) ++ "usize")]

/-- A path from the root through all names. -/
def path (names : List String) : Phrase :=
  names.flatMap fun name => [.mark ':', .mark ':', .word name]

def std (names : List String) : Phrase := path ("std" :: names)

/-- A path into the library of the generated code. -/
def core (names : List String) : Phrase := path ("tjs_core" :: names)

/-- A call of a method: its name and arguments, to stand behind a receiver. -/
def call (name : String) (arguments : List Phrase) : Phrase := join ['.', name, round arguments]

def selfField (ident : String) : Phrase := join ["self", '.', ident]

def applied (type argument : Phrase) : Phrase := join [type, '<', argument, '>']

def optional (type : Phrase) : Phrase := applied (std ["option", "Option"]) type

def present (value : List Phrase) : Phrase := join [std ["option", "Option", "Some"], round value]

def absent : Phrase := std ["option", "Option", "None"]

def ok (value : List Phrase) : Phrase := join [std ["result", "Result", "Ok"], round value]

def err (error : List Phrase) : Phrase := join [std ["result", "Result", "Err"], round error]

def tagged (parts : List Phrase) : Phrase := join ['#', square parts]

def documented (text : String) : Phrase := tagged ["doc", '=', quoted text]

/-- An attribute that permits what is named. -/
def allowing (names : List String) : Phrase :=
  tagged ["allow", round [commaSeparated (names.map fun name => [.word name])]]

def receiver : Phrase := join ['&', "self"]

def receiverMut : Phrase := join ['&', "mut", "self"]

def staticRef : Phrase := join ['&', '\'', "static"]

def method (name : String) (parameters : List Phrase) (result : Option Phrase)
    (body : List Phrase) : Phrase :=
  let returns :=
    match result with
    | some type => join [marks "->", type]
    | none => []
  join ["fn", name, round parameters, returns, curly body]

def implementation (trait : String) (type : String) (body : List Phrase) : Phrase :=
  join ["impl", core [trait], "for", type, curly body]

/-- The name of the type at hand in its schema. -/
def ownTypeName : Phrase :=
  join ['<', "Self", "as", core ["TypeInfo"], '>', marks "::", "TYPE_NAME"]

end Phrase

end TableJoin.Declaration
