import TableJoin.Declaration.Expression.Part

/-!
Items: declarations between the statements of a block.  They are taken as they
stand, with their numbered members taken apart.
-/

namespace TableJoin.Declaration

namespace Expression

open Reader TokenTree

def itemWords : List String :=
  ["pub", "extern", "use", "fn", "mod", "type", "struct", "enum", "trait", "impl", "macro"]

def beginsItem (ts : List TokenTree) : Bool :=
  let isWord := fun (ts : List TokenTree) (ws : List String) => ws.any (startsWithWord · ts)
  let isName := fun (ts : List TokenTree) =>
    match ts with
    | .word w :: _ => w ∉ reserved
    | _ => false
  match ts with
  | .word w :: next =>
    w ∈ itemWords ||
      match w with
      | "static" => isWord next ["mut"] || isName next
      | "const" =>
        !(startsWithGroup .curly next || isWord next ["static", "move"] || startsWith "|" next ||
          (isWord next ["async"] && !isWord (next.drop 1) ["unsafe", "extern", "fn"]))
      | "unsafe" => !startsWithGroup .curly next
      | "async" => isWord next ["unsafe", "extern", "fn"]
      | "union" => isName next
      | "auto" => isWord next ["trait"]
      | "default" => isWord next ["unsafe", "impl"]
      | _ => false
  | _ => false

/-- How many trees stand before the end of an item, and the end with them: a semicolon,
or a curly group, if it may. -/
def lengthToEnd? (curly : Bool) : List TokenTree → Option Nat
  | [] => none
  | .mark ';' _ :: _ => some 1
  | .group .curly _ :: ts => if curly then some 1 else (lengthToEnd? curly ts).map (· + 1)
  | _ :: ts => (lengthToEnd? curly ts).map (· + 1)

/-- The item without the visibility that may stand in front. -/
def behindVisibility : List TokenTree → List TokenTree
  | .word "pub" :: .group .round _ :: ts => ts
  | .word "pub" :: ts => ts
  | ts => ts

/-- A curly group ends the item that begins here. -/
def mayEndCurly (ts : List TokenTree) : Bool :=
  match behindVisibility ts with
  | .word "const" :: .word next :: _ => next ∈ ["fn", "unsafe", "async", "extern"]
  | .word "use" :: _ | .word "type" :: _ | .word "static" :: _ => false
  | _ => true

def item : Reader Unit := do
  let ts ← rest
  match lengthToEnd? (mayEndCurly ts) ts with
  | some n => do
    write (withMembers (tokens (ts.take n)))
    skip n
  | none => throw (.expected (.mark ";") true)

end Expression

end TableJoin.Declaration
