import TableJoin.Proofs.Observation.Run

/-!
Observation and outcome: an observed record answers and moves as a plain one, whoever
observes it and whether or not that is told.
-/

namespace TableJoin

open Schema

/-- A change that a program makes to a record itself.  Whatever it does, the record keeps
its type and holds what the type provides for. -/
structure Edit (α : Type) where
  run : Record → α × Record
  type_eq : ∀ r, (run r).2.type = r.type
  fitsSchema : ∀ r, r.FitsSchema → (run r).2.FitsSchema

/-- An operation on a record; edits give a result. -/
inductive Operation (α : Type) where
  | set (i : Nat) (v : Value)
  | unset (i : Nat)
  | add (i : Nat) (v : Value)
  | edit (e : Edit α)

/-- The answer to an operation: an error, or the result of an edit, or that it is done. -/
abbrev Answer (α : Type) := Except ModelError (Option α)

namespace Editing

variable {α : Type} {x : Editing Unit} {r s : Record}

def answering (x : Editing Unit) : Editing (Option α) :=
  x >>= fun _ => pure none

theorem perform_answering_of_ok (h : x.after r = .ok s) :
    (x.answering : Editing (Option α)).perform r = (.ok none, s) := by
  rw [answering, Doing.perform_bind_of_ok (Doing.after_eq_ok.mp h), Doing.perform_pure]

theorem perform_answering_of_error (hatomic : x.IsAtomic) {e : ModelError}
    (h : x.after r = .error e) : (x.answering : Editing (Option α)).perform r = (.error e, r) := by
  rw [answering, Doing.perform_bind_of_error (hatomic.perform_of_after h)]

/-- A change that fails where it changes nothing leaves the record, or it is made. -/
theorem perform_answering_cases (hatomic : x.IsAtomic) (r : Record) :
    (∃ e, x.after r = .error e ∧
        (x.answering : Editing (Option α)).perform r = (.error e, r)) ∨
      ∃ s, x.after r = .ok s ∧ (x.answering : Editing (Option α)).perform r = (.ok none, s) := by
  cases h : x.after r with
  | error e => exact .inl ⟨e, rfl, perform_answering_of_error hatomic h⟩
  | ok s => exact .inr ⟨s, rfl, perform_answering_of_ok h⟩

/-- Changes that fail where they change nothing are the same if they succeed and fail alike. -/
theorem perform_answering_congr {y : Editing Unit} (hx : x.IsAtomic) (hy : y.IsAtomic)
    (h : x.after r = y.after r) :
    (x.answering : Editing (Option α)).perform r = y.answering.perform r := by
  rcases perform_answering_cases hx r with ⟨e, he, hperform⟩ | ⟨s, hs, hperform⟩
  · rw [hperform, perform_answering_of_error hy (h ▸ he)]
  · rw [hperform, perform_answering_of_ok (h ▸ hs)]

end Editing

namespace Operation

variable {α : Type}

def observed : Operation α → Observing (Option α)
  | set i v => Observing.set i v >>= fun _ => pure none
  | unset i => Observing.unset i >>= fun _ => pure none
  | add i v => Observing.add i v >>= fun _ => pure none
  | edit e => Observing.edit e.run >>= fun a => pure (some a)

def plain (r : Record) : Operation α → Answer α × Record
  | set i v => (Editing.set i v).answering.perform r
  | unset i => (Editing.unset i).answering.perform r
  | add i v => (Editing.add i v).answering.perform r
  | edit e => (.ok (some (e.run r).1), (e.run r).2)

/-- What is told of the operation if it is made on a record; nothing if it fails. -/
def changes (r : Record) : Operation α → List Notification
  | set i v => (r.set i v).toOption.toList.flatMap (r.changeAt .set · i)
  | unset i => (r.unset i).toOption.toList.flatMap (r.changeAt .unset · i)
  | add i v => (r.add i v).toOption.toList.flatMap (·.additionAt i v)
  | edit e => r.differences (e.run r).2

/-- Where an observed operation fails as a plain one does and else makes the same change,
both answer and move in the same way. -/
theorem perform_of_mirrored {x : Observing Unit} {y : Editing Unit} (hatomic : y.IsAtomic)
    {told : Record → List Notification} {o : Observed}
    (herror : ∀ {e}, y.after o.target = .error e → x.perform o = (.error e, o))
    (hok : ∀ {s}, y.after o.target = .ok s → x.perform o = (.ok (), o.moveTo s (told s))) :
    (x >>= fun _ => pure (none : Option α)).perform o =
      ((y.answering.perform o.target).1,
        o.moveTo ((y.answering : Editing (Option α)).perform o.target).2
          ((y.after o.target).toOption.toList.flatMap told)) := by
  rcases y.perform_answering_cases hatomic o.target with ⟨e, he, hy⟩ | ⟨s, hs, hy⟩
  · rw [Doing.perform_bind_of_error (herror he), hy, he]
    exact congrArg _ (o.moveTo_self).symm
  · rw [Doing.perform_bind_of_ok (hok hs), hy, hs]
    simp [Except.toOption]

/-- An observed record answers and moves as a plain one, and its changes are told. -/
theorem perform_observed (op : Operation α) (o : Observed) :
    op.observed.perform o =
      ((op.plain o.target).1, o.moveTo (op.plain o.target).2 (op.changes o.target)) := by
  cases op with
  | set i v =>
    apply perform_of_mirrored (Editing.isAtomic_set i v)
    · exact Observing.perform_changeFeature_of_error (Observing.actsAt_set i v) .set
    · exact Observing.perform_changeFeature_of_ok (Observing.actsAt_set i v) .set
  | unset i =>
    apply perform_of_mirrored (Editing.isAtomic_unset i)
    · exact Observing.perform_changeFeature_of_error (Observing.actsAt_unset i) .unset
    · exact Observing.perform_changeFeature_of_ok (Observing.actsAt_unset i) .unset
  | add i v =>
    apply perform_of_mirrored (Editing.isAtomic_add i v)
    · exact Observing.perform_add_of_error
    · exact Observing.perform_add_of_ok
  | edit e =>
    rw [observed, Doing.perform_bind_of_ok (Observing.perform_edit e.run (e.type_eq _))]
    rfl

/-- An operation that fails leaves a plain record, and there is nothing to tell. -/
theorem plain_of_error {op : Operation α} {r : Record} {e : ModelError}
    (h : (op.plain r).1 = .error e) : (op.plain r).2 = r ∧ op.changes r = [] := by
  have hfailed : ∀ {y : Editing Unit} {told : Record → List Notification}, y.IsAtomic →
      ((y.answering : Editing (Option α)).perform r).1 = .error e →
        ((y.answering : Editing (Option α)).perform r).2 = r ∧
          (y.after r).toOption.toList.flatMap told = [] := by
    intro y told hatomic hy
    rcases y.perform_answering_cases (α := α) hatomic r with ⟨e', he, hperform⟩ | ⟨s, -, hperform⟩
    · rw [hperform, he]
      exact ⟨rfl, rfl⟩
    · rw [hperform] at hy
      cases hy
  cases op with
  | set i v => exact hfailed (Editing.isAtomic_set i v) h
  | unset i => exact hfailed (Editing.isAtomic_unset i) h
  | add i v => exact hfailed (Editing.isAtomic_add i v) h
  | edit e => cases h

end Operation

/-- What happens to an observed record: operations on it, and all that concerns only who
is told. -/
inductive Act (α : Type) where
  | operate (op : Operation α)
  | observe (viaChannel : Bool)
  | dropReceivers
  | deliver (on : Bool)
  | fetch

namespace Act

variable {α : Type}

/-- The answers, one for an operation, and the observed record afterwards. -/
def observed (o : Observed) : Act α → List (Answer α) × Observed
  | operate op => ([(op.observed.perform o).1], (op.observed.perform o).2)
  | observe viaChannel => ([], o.observe viaChannel)
  | dropReceivers => ([], o.dropReceivers)
  | deliver on => ([], o.setDelivers on)
  | fetch => ([], o.fetch.2)

/-- The same for a plain record, which nobody observes. -/
def plain (r : Record) : Act α → List (Answer α) × Record
  | operate op => ([(op.plain r).1], (op.plain r).2)
  | _ => ([], r)

/-- The answers of a run in order, and the observed record after it. -/
def runObserved (o : Observed) : List (Act α) → List (Answer α) × Observed
  | [] => ([], o)
  | a :: rest =>
    let (answers, o') := runObserved (a.observed o).2 rest
    ((a.observed o).1 ++ answers, o')

/-- The answers of the same run of a plain record, and the record after it. -/
def runPlain (r : Record) : List (Act α) → List (Answer α) × Record
  | [] => ([], r)
  | a :: rest =>
    let (answers, r') := runPlain (a.plain r).2 rest
    ((a.plain r).1 ++ answers, r')

/-- One act gives the same answers and the same target. -/
theorem observed_eq_plain (a : Act α) (o : Observed) :
    (a.observed o).1 = (a.plain o.target).1 ∧ (a.observed o).2.target = (a.plain o.target).2 := by
  cases a with
  | operate op =>
    simp only [observed, plain, Operation.perform_observed, Observed.target_moveTo, and_self]
  | _ => exact ⟨rfl, rfl⟩

/-- A run gives the same answers and the same target. -/
theorem runObserved_target (acts : List (Act α)) : ∀ o : Observed,
    (runObserved o acts).1 = (runPlain o.target acts).1 ∧
      (runObserved o acts).2.target = (runPlain o.target acts).2 := by
  induction acts with
  | nil => exact fun o => ⟨rfl, rfl⟩
  | cons a rest ih =>
    intro o
    obtain ⟨hanswers, htarget⟩ := observed_eq_plain a o
    obtain ⟨hrest, hfinal⟩ := ih (a.observed o).2
    rw [htarget] at hrest hfinal
    constructor
    · simp only [runObserved, runPlain, hanswers, hrest]
    · simp only [runObserved, runPlain, hfinal]

/-- Observation changes no outcome: in every run, whoever observes and whenever that is
told, the answers and the target are those of a plain record.  Where an operation fails
on the plain record, it fails with the same error on the observed one, to which nothing
has happened then. -/
theorem runObserved_eq_runPlain (acts : List (Act α)) (o : Observed) :
    ((runObserved o acts).1 = (runPlain o.target acts).1 ∧
      (runObserved o acts).2.target = (runPlain o.target acts).2) ∧
    ∀ (op : Operation α) (e : ModelError),
      (op.plain (runPlain o.target acts).2).1 = .error e →
        op.observed.perform (runObserved o acts).2 = (.error e, (runObserved o acts).2) := by
  have hrun := runObserved_target acts o
  refine ⟨hrun, fun op e h => ?_⟩
  rw [← hrun.2] at h
  obtain ⟨hplain, hchanges⟩ := Operation.plain_of_error h
  rw [Operation.perform_observed, h, hplain, hchanges, Observed.moveTo_self]

/-- An empty record, and one observer that is told. -/
def watched : Observed := { target := .empty .describeKey, observers := [⟨true, true, []⟩] }

/-- A feature is set and told, and unset when nothing is told any more. -/
def watchedActs : List (Act Unit) :=
  [.operate (.set 3 (.text "u")), .deliver false, .operate (.unset 3)]

theorem runObserved_eq_runPlain_watched :
    ((Operation.unset 9 : Operation Unit).plain (runPlain watched.target watchedActs).2).1 =
        .error (.noFeature .describeKey 9) ∧
      (Operation.unset 9 : Operation Unit).observed.perform (runObserved watched watchedActs).2 =
        (.error (.noFeature .describeKey 9), (runObserved watched watchedActs).2) :=
  ⟨rfl, (runObserved_eq_runPlain watchedActs watched).2 _ _ rfl⟩

end Act

end TableJoin
