import TableJoin.Markup.Fault
import TableJoin.Numeral.Digits

/-!
References and escaping: the five predefined entities, numeric character
references, and the writing of text so that reading gives it back.
-/

namespace TableJoin.Markup

open Numeral (baseDigit?)

/-- The number of UTF-8 bytes of the characters. -/
def byteLength (cs : List Char) : Nat :=
  cs.foldr (fun c length => c.utf8Size + length) 0

def entity? (name : List Char) : Option Char :=
  [("lt".toList, '<'), ("gt".toList, '>'), ("amp".toList, '&'), ("apos".toList, '\''),
    ("quot".toList, '"')].lookup name

/-- Reads digits from the left into `acc`, which stays below `2 ^ 32`. -/
def readBase (base acc : Nat) : List Char → Except CharacterFault Nat
  | [] => .ok acc
  | c :: cs =>
    match baseDigit? base c with
    | none => .error .notADigit
    | some v =>
      if acc * base + v < 2 ^ 32 then readBase base (acc * base + v) cs else .error .tooLarge

/-- The number of a character reference, without `&#` and `;`. -/
def readCode (cs : List Char) : Except CharacterFault Nat :=
  let (base, run) :=
    match cs with
    | 'x' :: rest => (16, rest)
    | _ => (10, cs)
  match run with
  | [] => .error .noDigits
  | c :: _ => if c = '+' ∨ c = '-' then .error .numberSign else readBase base 0 run

def readCharacter (cs : List Char) : Except CharacterFault Char :=
  match readCode cs with
  | .error fault => .error fault
  | .ok n =>
    if n = 0 then .error .null
    else if n.isValidChar then .ok (Char.ofNat n)
    else .error (.notACodePoint n)

/-- The character that the name between `&` and `;` stands for; the name begins
at the byte `start`. -/
def resolve (start : Nat) (name : List Char) : Except ReferenceFault Char :=
  match name with
  | '#' :: cs => (readCharacter cs).mapError .badCharacter
  | _ =>
    match entity? name with
    | some c => .ok c
    | none => .error (.unknownEntity start (start + byteLength name) (String.ofList name))

/-- Resolves the references in a run that begins at the byte `offset` of a text
of `size` bytes.  `pending` holds the name read so far, in reverse, while a
reference is open, and where it began. -/
def unescapeFrom (size offset : Nat) (pending : Option (Nat × List Char)) :
    List Char → Except ReferenceFault (List Char)
  | [] =>
    match pending with
    | none => .ok []
    | some (start, _) => .error (.unterminated (start - 1) size)
  | c :: cs =>
    let next := offset + c.utf8Size
    match pending with
    | none =>
      if c = '&' then unescapeFrom size next (some (next, [])) cs
      else (unescapeFrom size next none cs).map (c :: ·)
    | some (start, name) =>
      if c = ';' then
        match resolve start name.reverse with
        | .error fault => .error fault
        | .ok r => (unescapeFrom size next none cs).map (r :: ·)
      else if c = '&' then .error (.unterminated (start - 1) size)
      else unescapeFrom size next (some (start, c :: name)) cs

def unescape (cs : List Char) : Except ReferenceFault (List Char) :=
  unescapeFrom (byteLength cs) 0 none cs

/-- The written form of one character: a reference for those that delimit markup. -/
def escapeChar (c : Char) : List Char :=
  match c with
  | '<' => "&lt;".toList
  | '>' => "&gt;".toList
  | '&' => "&amp;".toList
  | '\'' => "&apos;".toList
  | '"' => "&quot;".toList
  | _ => [c]

/-- The written form of characters in text and in attribute values. -/
def escape (cs : List Char) : List Char :=
  cs.flatMap escapeChar

end TableJoin.Markup
