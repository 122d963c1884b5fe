/-!
What is done to something that changes: it may fail, and what it has changed until then stays
changed.
-/

namespace TableJoin

abbrev Doing (ε σ α : Type) := ExceptT ε (StateM σ) α

namespace Doing

variable {ε σ α β : Type}

def perform (x : Doing ε σ α) (s : σ) : Except ε α × σ :=
  x.run.run s

/-- The state afterwards, if nothing fails. -/
def after (x : Doing ε σ α) (s : σ) : Except ε σ :=
  match x.perform s with
  | (.ok _, s') => .ok s'
  | (.error e, _) => .error e

section Rules

variable (s : σ)

@[simp] theorem perform_pure (a : α) : (pure a : Doing ε σ α).perform s = (.ok a, s) := rfl

@[simp] theorem perform_throw (e : ε) : (throw e : Doing ε σ α).perform s = (.error e, s) := rfl

@[simp] theorem perform_modify (f : σ → σ) :
    (modify f : Doing ε σ PUnit).perform s = (.ok ⟨⟩, f s) := rfl

@[simp] theorem perform_lift (x : Except ε α) : (liftM x : Doing ε σ α).perform s = (x, s) := by
  cases x <;> rfl

theorem perform_get_bind (f : σ → Doing ε σ β) : (get >>= f).perform s = (f s).perform s := rfl

theorem perform_put_bind (s' : σ) (f : PUnit → Doing ε σ β) :
    (MonadState.set s' >>= f).perform s = (f ⟨⟩).perform s' := rfl

theorem perform_bind (x : Doing ε σ α) (f : α → Doing ε σ β) :
    (x >>= f).perform s =
      match x.perform s with
      | (.ok a, s') => (f a).perform s'
      | (.error e, s') => (.error e, s') := by
  change (ExceptT.bindCont f (x.run.run s).1).run (x.run.run s).2 = _
  rw [perform]
  cases x.run.run s with
  | mk answer s' => cases answer <;> rfl

variable {s} {s' : σ} {x : Doing ε σ α}

theorem perform_bind_of_ok {a : α} (h : x.perform s = (.ok a, s')) (f : α → Doing ε σ β) :
    (x >>= f).perform s = (f a).perform s' := by
  rw [perform_bind, h]

theorem perform_bind_of_error {e : ε} (h : x.perform s = (.error e, s'))
    (f : α → Doing ε σ β) : (x >>= f).perform s = (.error e, s') := by
  rw [perform_bind, h]

theorem after_eq_ok {x : Doing ε σ Unit} : x.after s = .ok s' ↔ x.perform s = (.ok (), s') := by
  rw [after]
  rcases x.perform s with ⟨answer, s''⟩
  cases answer <;> simp

theorem after_eq_error {e : ε} : x.after s = .error e ↔ (x.perform s).1 = .error e := by
  rw [after]
  rcases x.perform s with ⟨answer, s''⟩
  cases answer <;> simp

end Rules

end Doing

end TableJoin
