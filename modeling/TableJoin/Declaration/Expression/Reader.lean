import TableJoin.Declaration.Expression.Fault
import TableJoin.Declaration.Member
import TableJoin.Declaration.TokenTree

/-!
A reader of token trees: what is left to read, what is written of what was read,
and the first brackets in which something was left.  Such a leftover counts only
when nothing else is wrong.
-/

namespace TableJoin.Declaration

/-- How far reading has come. -/
structure Reading where
  rest : List TokenTree
  /-- The tokens written so far, the last first. -/
  written : List Token
  /-- The first brackets that were not read to their end. -/
  spilled? : Option Bracket

/-- A reader of some trees; it fails with a fault. -/
abbrev Reader : Type → Type := StateT Reading (Except ExpressionFault)

namespace Reader

open TokenTree (afterMarks startsWith startsWithWord)

def rest : Reader (List TokenTree) := do
  return (← get).rest

def atEnd : Reader Bool := do
  return (← rest).isEmpty

def write (ts : List Token) : Reader Unit :=
  modify fun r => { r with written := ts.reverse ++ r.written }

/-- Passes so many trees without writing them. -/
def skip (n : Nat) : Reader Unit :=
  modify fun r => { r with rest := r.rest.drop n }

/-- Takes so many trees as they stand. -/
def take (n : Nat) : Reader Unit := do
  write (TokenTree.tokens ((← rest).take n))
  skip n

/-- Fails because something else stands here, or nothing does. -/
def expected {α : Type} (wanted : Wanted) : Reader α := do
  throw (.expected wanted (← atEnd))

/-- Takes these marks if they stand here, and tells whether they do. -/
def takes (marks : String) : Reader Bool := do
  if startsWith marks (← rest) then
    take marks.length
    return true
  else return false

/-- Takes these marks, which have to stand here. -/
def pass (marks : String) : Reader Unit := do
  if !(← takes marks) then expected (.mark marks)

/-- Takes this word if it stands here, and tells whether it does. -/
def takesWord (w : String) : Reader Bool := do
  if startsWithWord w (← rest) then
    take 1
    return true
  else return false

def passWord (w : String) : Reader Unit := do
  if !(← takesWord w) then expected (.word w)

def name : Reader Unit := do
  match ← rest with
  | .word w :: _ => if w ∈ reserved then throw (.reservedWord w) else take 1
  | _ => expected .identifier

def literal : Reader Unit := do
  take ((TokenTree.literalLength? (← rest)).getD 0)

/-- Takes a group in any brackets as it stands, and tells in which. -/
def delimited : Reader Bracket := do
  match ← rest with
  | .group b _ :: _ => do
    take 1
    return b
  | _ => expected .delimiter

/-- Reads what stands in these brackets, and goes on behind them. -/
def inside {α : Type} (b : Bracket) (x : Reader α) : Reader α := do
  match ← get with
  | ⟨.group b' inner :: after, written, spilled?⟩ => do
    if b ≠ b' then expected (.group b)
    set (Reading.mk inner [] spilled?)
    let a ← x
    modify fun r =>
      ⟨after, .group b r.written.reverse :: written,
        r.spilled?.or (if r.rest.isEmpty then none else some b)⟩
    return a
  | _ => expected (.group b)

/-- What is read, and its tokens, which are not written. -/
def captured {α : Type} (x : Reader α) : Reader (α × List Token) := do
  let before := (← get).written
  modify fun r => { r with written := [] }
  let a ← x
  let tokens := (← get).written.reverse
  modify fun r => { r with written := before }
  return (a, tokens)

/-- What would be left behind this, if it can be read here. -/
def restBehind? (x : Reader Unit) : Reader (Option (List TokenTree)) := do
  match x.run (← get) with
  | .ok (_, r) => return some r.rest
  | .error _ => return none

/-- Reads items with commas between them up to the end; a comma may follow the last.
Every item takes a token, so the number of tokens is fuel enough. -/
def commaItems (item : Reader Unit) : Nat → Reader Unit
  | 0 => return
  | fuel + 1 => do
    if ← atEnd then return
    item
    if ← atEnd then return
    pass ","
    commaItems item fuel

/-- Reads items with commas between them up to the end. -/
def commaList (item : Reader Unit) : Reader Unit := do
  commaItems item (← rest).length

/-- What is written of these trees, read to their end. -/
def runAll (x : Reader Unit) (ts : List TokenTree) : Except ExpressionFault (List Token) := do
  let ((), r) ← x.run ⟨ts, [], none⟩
  match r.spilled? with
  | some b => throw (.leftover (some b))
  | none => if r.rest.isEmpty then return r.written.reverse else throw (.leftover none)

end Reader

end TableJoin.Declaration
