import Mathlib.Data.List.Forall2

/-!
Computations that may fail, one after another and over lists.
-/

namespace TableJoin

variable {ε α β γ : Type}

theorem Except.bind_eq_ok_iff {x : Except ε α} {f : α → Except ε β} {b : β} :
    x >>= f = .ok b ↔ ∃ a, x = .ok a ∧ f a = .ok b := by
  cases x with
  | error e => exact iff_of_false nofun (fun ⟨a, h, _⟩ => nomatch h)
  | ok a => exact ⟨fun h => ⟨a, rfl, h⟩, fun ⟨_, h, hb⟩ => by cases h; exact hb⟩

/-- What is made of each element of a list, if something is made of all. -/
theorem forall₂_of_mapM {f : α → Except ε β} :
    ∀ {as : List α} {bs : List β}, as.mapM f = .ok bs → List.Forall₂ (fun a b => f a = .ok b) as bs
  | [], bs, h => by
    cases h
    exact .nil
  | a :: as, bs, h => by
    rw [List.mapM_cons] at h
    obtain ⟨b, hb, h⟩ := Except.bind_eq_ok_iff.mp h
    obtain ⟨bs', hbs, h⟩ := Except.bind_eq_ok_iff.mp h
    cases h
    exact .cons hb (forall₂_of_mapM hbs)

/-- A fold in pieces is a fold over all that the pieces stand for. -/
theorem foldlM_flatMap {f : γ → β → Except ε γ} {g : γ → α → Except ε γ} {parts : α → List β}
    (hstep : ∀ a x b, g a x = .ok b → (parts x).foldlM f a = .ok b) :
    ∀ {xs : List α} {a b : γ}, xs.foldlM g a = .ok b → (xs.flatMap parts).foldlM f a = .ok b
  | [], _, _, h => h
  | x :: xs, a, b, h => by
    rw [List.foldlM_cons] at h
    obtain ⟨c, hc, h⟩ := Except.bind_eq_ok_iff.mp h
    rw [List.flatMap_cons, List.foldlM_append, hstep a x c hc]
    exact foldlM_flatMap hstep h

end TableJoin
