import TableJoin.Event
import TableJoin.Markup.Node

/-!
Steps of a reader through the nodes of a document.  A step may fail; what it
consumed and reported until then stays consumed and reported.
-/

namespace TableJoin.Reading

open Markup

/-- The nodes ahead, the fault behind them if the text is malformed there, the
mode, and the events so far. -/
structure Cursor where
  ahead : List Node
  fault : Option Fault
  strict : Bool
  events : List Event

def Cursor.ofText (xml : String) (strict : Bool) : Cursor :=
  let stream := NodeStream.ofText xml
  ⟨stream.nodes, stream.fault, strict, []⟩

/-- A step from one place to another that returns a value or fails. -/
def Step (ε α : Type) : Type := Cursor → Except ε α × Cursor

namespace Step

variable {ε ε' α β : Type}

def run (x : Step ε α) (c : Cursor) : Except ε α × Cursor := x c

instance : Monad (Step ε) where
  pure a := fun c => (.ok a, c)
  bind x f := fun c =>
    match x c with
    | (.ok a, c') => f a c'
    | (.error e, c') => (.error e, c')

def fail (e : ε) : Step ε α := fun c => (.error e, c)

def here : Step ε Cursor := fun c => (.ok c, c)

def goTo (c : Cursor) : Step ε Unit := fun _ => (.ok (), c)

/-- The step with its error put another way. -/
def mapError (g : ε → ε') (x : Step ε α) : Step ε' α := fun c =>
  match x c with
  | (.ok a, c') => (.ok a, c')
  | (.error e, c') => (.error (g e), c')

def report (events : List Event) : Step ε Unit := fun c =>
  (.ok (), { c with events := c.events ++ events })

@[simp] theorem run_pure (a : α) (c : Cursor) : (pure a : Step ε α).run c = (.ok a, c) := rfl

@[simp] theorem run_fail (e : ε) (c : Cursor) :
    (fail e : Step ε α).run c = (.error e, c) := rfl

theorem run_bind (x : Step ε α) (f : α → Step ε β) (c : Cursor) :
    (x >>= f).run c =
      match x.run c with
      | (.ok a, c') => (f a).run c'
      | (.error e, c') => (.error e, c') := rfl

/-- Whatever the step returns has the property. -/
def Ensures (x : Step ε α) (P : α → Prop) : Prop :=
  ∀ c a, (x.run c).1 = .ok a → P a

/-- The step with a proof of the property beside what it returns. -/
def attach {P : α → Prop} (x : Step ε α) (h : x.Ensures P) : Step ε { a // P a } := fun c =>
  match hx : x.run c with
  | (.ok a, c') => (.ok ⟨a, h c a (by rw [hx])⟩, c')
  | (.error e, c') => (.error e, c')

theorem ensures_true (x : Step ε α) : x.Ensures fun _ => True :=
  fun _ _ _ => True.intro

theorem ensures_pure {P : α → Prop} {a : α} (h : P a) : (pure a : Step ε α).Ensures P := by
  intro c b hb
  cases hb
  exact h

theorem ensures_fail {P : α → Prop} (e : ε) : (fail e : Step ε α).Ensures P := by
  intro c b hb
  cases hb

theorem ensures_bind {P : β → Prop} {Q : α → Prop} {x : Step ε α} {f : α → Step ε β}
    (hx : x.Ensures Q) (hf : ∀ a, Q a → (f a).Ensures P) : (x >>= f).Ensures P := by
  intro c b hb
  rw [run_bind] at hb
  cases hc : x.run c with
  | mk r c' =>
    rw [hc] at hb
    cases r with
    | error e => cases hb
    | ok a => exact hf a (hx c a (by rw [hc])) c' b hb

theorem ensures_foldlM {P : β → Prop} {f : β → α → Step ε β}
    (hf : ∀ b a, P b → (f b a).Ensures P) (as : List α) :
    ∀ {b : β}, P b → (as.foldlM f b).Ensures P := by
  induction as with
  | nil => exact fun hb => ensures_pure hb
  | cons a rest ih =>
    intro b hb
    rw [List.foldlM_cons]
    exact ensures_bind (hf b a hb) fun b' hb' => ih hb'

end Step

end TableJoin.Reading
