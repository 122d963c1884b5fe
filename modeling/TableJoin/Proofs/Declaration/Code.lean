import TableJoin.Declaration.Phrase
import TableJoin.Proofs.Declaration.Quoted
import TableJoin.Proofs.Numeral.Canonical

/-!
Reading code: what stands in a row of tokens, read from the front without regard to how the
tokens came about.
-/

namespace TableJoin.Declaration

/-- Reads what stands in front, and leaves what follows. -/
abbrev Scan (α : Type) := StateT (List Token) Option α

namespace Scan

open Phrase

variable {α β : Type}

section Definitions

/-- A phrase that has nothing to tell. -/
def skip (phrase : Phrase) : Scan Unit := fun ts =>
  if phrase <+: ts then some ((), ts.drop phrase.length) else none

def word : Scan String := fun
  | .word w :: ts => some (w, ts)
  | _ => none

/-- A string literal, as the text that it stands for. -/
def text : Scan String := fun
  | .literal s :: ts => some ((StringLiteral.mk s).value, ts)
  | _ => none

/-- The number that a literal spells in front of the type of positions. -/
def positionOf? (literal : String) : Option Nat :=
  let cs := literal.toList
  let type := "usize".toList
  let digits := cs.take (cs.length - type.length)
  if digits ++ type = cs then Numeral.natOfDigits? digits else none

def position : Scan Nat := fun
  | .literal s :: ts => (positionOf? s).map (·, ts)
  | _ => none

def all (x : Scan α) (ts : List Token) : Option α :=
  match x ts with
  | some (a, []) => some a
  | _ => none

/-- What stands in brackets, read to their end. -/
def inside (b : Bracket) (x : Scan α) : Scan α := fun
  | .group b' within :: ts => if b' = b then (x.all within).map (·, ts) else none
  | _ => none

def between (front : Phrase) (x : Scan α) (back : Phrase) : Scan α := do
  skip front
  let a ← x
  skip back
  return a

def ownField : Scan String := between (join ["self", '.']) word []

/-- Whatever stands in front of a phrase with which the tokens end. -/
def upTo (back : Phrase) : Scan (List Token) := fun ts =>
  if back <:+ ts then some (ts.take (ts.length - back.length), []) else none

/-- What is read again and again, and what is left then. -/
def repeatedly (x : Scan α) (ts : List Token) : List α × List Token :=
  match x ts with
  | none => ([], ts)
  | some (a, rest) =>
    if rest.length < ts.length then
      let (as, rest) := repeatedly x rest
      (a :: as, rest)
    else ([], ts)
termination_by ts.length

def many (x : Scan α) : Scan (List α) := fun ts => some (repeatedly x ts)

/-- As many of these as stand in front of a phrase. -/
def manyBefore (x : Scan α) (back : Phrase) : Scan (List α) := do
  let as ← many x
  skip back
  return as

end Definitions

section Spelling

variable {x y : Scan α} {f : α → Scan β} {a : α} {b : β} {xs ys ts : List Token}

theorem run_bind_of_eq_some (h : x xs = some (a, ts)) (f : α → Scan β) :
    (x >>= f) xs = f a ts := by
  change (x xs).bind _ = _
  rw [h]
  rfl

/-- The scan reads a phrase as this, whatever follows. -/
def Spells (x : Scan α) (phrase : List Token) (a : α) : Prop :=
  ∀ ts, x (phrase ++ ts) = some (a, ts)

theorem spells_pure (a : α) : Spells (pure a) [] a := fun _ => rfl

theorem Spells.bind (h : Spells x xs a) (h' : Spells (f a) ys b) :
    Spells (x >>= f) (xs ++ ys) b := by
  intro ts
  rw [List.append_assoc, run_bind_of_eq_some (h _) f, h']

theorem all_eq_some_iff : x.all xs = some a ↔ x xs = some (a, []) := by
  unfold Scan.all
  split
  · next a' hrun => simp [hrun]
  · next hrun =>
    simp only [reduceCtorEq, false_iff]
    exact hrun a

theorem Spells.all (h : Spells x xs a) : x.all xs = some a := by
  have hrun := h []
  rw [List.append_nil] at hrun
  exact all_eq_some_iff.mpr hrun

theorem all_bind (h : Spells x xs a) (h' : (f a).all ys = some b) :
    (x >>= f).all (xs ++ ys) = some b := by
  rw [← h', Scan.all, Scan.all, run_bind_of_eq_some (h ys) f]

theorem all_map (h : x.all xs = some a) (g : α → β) : (g <$> x).all xs = some (g a) := by
  rw [all_eq_some_iff] at h ⊢
  change (x xs).bind _ = _
  rw [h]
  rfl

theorem spells_skip (phrase : Phrase) : Spells (skip phrase) phrase () := by
  intro ts
  rw [skip, if_pos (List.prefix_append _ _), List.drop_left]

theorem Spells.map (h : Spells x xs a) (g : α → β) : Spells (g <$> x) xs (g a) := by
  intro ts
  change (x (xs ++ ts)).bind _ = _
  rw [h]
  rfl

theorem Spells.after (h : Spells x xs a) (front : Phrase) :
    Spells (skip front >>= fun _ => x) (front ++ xs) a :=
  (spells_skip front).bind h

theorem Spells.between (h : Spells x xs a) (front back : Phrase) :
    Spells (between front x back) (front ++ (xs ++ back)) a := by
  intro ts
  have hall : Spells (Scan.between front x back) (front ++ (xs ++ (back ++ []))) a :=
    Spells.after (h.bind ((spells_pure a).after back)) front
  rw [List.append_nil] at hall
  exact hall ts

theorem spells_word (w : String) : Spells word [.word w] w := fun _ => rfl

theorem spells_ownField (ident : String) : Spells ownField (selfField ident) ident :=
  (spells_word ident).between _ _

theorem spells_text (s : String) : Spells text (quoted s) s := by
  intro ts
  have hvalue := StringLiteral.value_written_ofText s
  simp only [quoted, List.cons_append, List.nil_append, text, hvalue]

theorem spells_position (i : Nat) : Spells position (Phrase.position i) i := by
  intro ts
  have hspelled : positionOf? (String.ofList (Numeral.digits i) ++ "usize") = some i := by
    simp [positionOf?, Numeral.natOfDigits?_digits]
  simp only [Phrase.position, List.cons_append, List.nil_append, position, hspelled,
    Option.map_some]

theorem spells_inside_of_all (h : x.all xs = some a) (k : Bracket) :
    Spells (inside k x) [.group k xs] a := by
  intro ts
  simp only [List.cons_append, List.nil_append, inside, if_pos, h, Option.map_some]

theorem Spells.inside (h : Spells x xs a) (k : Bracket) : Spells (inside k x) [.group k xs] a :=
  spells_inside_of_all h.all k

theorem Spells.left (h : Spells x xs a) (y : Scan α) : Spells (x <|> y) xs a := by
  intro ts
  change (x (xs ++ ts)).orElse _ = _
  rw [h]
  rfl

theorem Spells.right (h : Spells y xs a) (hnot : ∀ ts, x (xs ++ ts) = none) :
    Spells (x <|> y) xs a := by
  intro ts
  change (x (xs ++ ts)).orElse _ = _
  rw [hnot]
  exact h ts

theorem all_upTo (xs back : List Token) : (upTo back).all (xs ++ back) = some xs := by
  simp [Scan.all, upTo]

theorem Spells.ne_nil (h : Spells x xs a) (hnil : x [] = none) : xs ≠ [] := by
  rintro rfl
  cases (h []).symm.trans hnil

/-- What is read again and again from phrases that stand one after the other. -/
theorem repeatedly_flatMap {γ : Type} {code : γ → List Token} {found : γ → α} {as : List γ}
    (h : ∀ c ∈ as, Spells x (code c) (found c)) (hnil : x [] = none) (hstop : x ts = none) :
    repeatedly x (as.flatMap code ++ ts) = (as.map found, ts) := by
  induction as with
  | nil =>
    rw [List.flatMap_nil, List.nil_append, repeatedly, hstop]
    rfl
  | cons c as ih =>
    obtain ⟨hc, has⟩ := List.forall_mem_cons.mp h
    have hshorter : (as.flatMap code ++ ts).length <
        (code c ++ (as.flatMap code ++ ts)).length := by
      have hlength := List.length_pos_iff.mpr (hc.ne_nil hnil)
      simp only [List.length_append]
      omega
    rw [List.flatMap_cons, List.append_assoc, repeatedly, hc]
    simp only [hshorter, ↓reduceIte, ih has, List.map_cons]

/-- Phrases that stand one after the other, in front of something else. -/
theorem Spells.many_bind {γ : Type} {code : γ → List Token} {found : γ → α} {as : List γ}
    {f : List α → Scan β} (h : ∀ c ∈ as, Spells x (code c) (found c)) (hnil : x [] = none)
    (hstop : ∀ ts, x (ys ++ ts) = none)
    (h' : Spells (f (as.map found)) ys b) :
    Spells (many x >>= f) (as.flatMap code ++ ys) b := by
  intro ts
  have hmany : many x (as.flatMap code ++ (ys ++ ts)) = some (as.map found, ys ++ ts) :=
    congrArg some (repeatedly_flatMap h hnil (hstop ts))
  rw [List.append_assoc, run_bind_of_eq_some hmany f, h']

theorem spells_manyBefore {γ : Type} {code : γ → List Token} {found : γ → α} {as : List γ}
    {back : Phrase} (h : ∀ c ∈ as, Spells x (code c) (found c)) (hnil : x [] = none)
    (hstop : ∀ ts, x (back ++ ts) = none) :
    Spells (manyBefore x back) (as.flatMap code ++ back) (as.map found) := by
  have hback := (spells_pure (as.map found)).after back
  rw [List.append_nil] at hback
  exact Spells.many_bind h hnil hstop hback

theorem all_many {γ : Type} {code : γ → List Token} {found : γ → α} {as : List γ}
    (h : ∀ c ∈ as, Spells x (code c) (found c)) (hnil : x [] = none) :
    (many x).all (as.flatMap code) = some (as.map found) := by
  have hmany := repeatedly_flatMap h hnil hnil
  rw [List.append_nil] at hmany
  simp only [Scan.all, many, hmany]

end Spelling

end Scan

namespace Code

section Definitions

/-- What stands in the first brackets of a kind. -/
def firstGroup (b : Bracket) : List Token → List Token
  | [] => []
  | .group b' inside :: ts => if b' = b then inside else firstGroup b ts
  | _ :: ts => firstGroup b ts

def beginsWith : List String → List Token → Bool
  | [], _ => true
  | w :: ws, .word v :: ts => w == v && beginsWith ws ts
  | _, _ => false

/-- The tokens from the first place on where these words stand. -/
def findWords (words : List String) : List Token → List Token
  | [] => []
  | t :: ts => if beginsWith words (t :: ts) then t :: ts else findWords words ts

def methodBody (name : String) (item : List Token) : List Token :=
  firstGroup .curly (findWords ["fn", name] (firstGroup .curly item))

/-- The list that a constant of an implementation is defined as. -/
def listOf (name : String) (item : List Token) : List Token :=
  let definition := findWords ["const", name] (firstGroup .curly item)
  firstGroup .square (definition.dropWhile (· ≠ .mark '='))

/-- What stands in each of the curly brackets. -/
def blocks : List Token → List (List Token)
  | .group .curly inside :: ts => inside :: blocks ts
  | _ :: ts => blocks ts
  | [] => []

/-- What is given for a key, up to the comma. -/
def valueOf (key : String) : List Token → List Token
  | .word k :: .mark ':' :: ts => if k = key then ts.takeWhile (· ≠ .mark ',') else valueOf key ts
  | _ :: ts => valueOf key ts
  | [] => []

end Definitions

theorem blocks_append (xs ys : List Token) : blocks (xs ++ ys) = blocks xs ++ blocks ys := by
  fun_induction blocks xs with
  | case1 inside ts ih => rw [List.cons_append, blocks, ih, List.cons_append]
  | case2 t ts h ih => rw [List.cons_append, blocks, ih]; exact h
  | case3 => rfl

end Code

end TableJoin.Declaration
