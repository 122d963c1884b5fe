import TableJoin.Observation
import TableJoin.Proofs.Record.Building
import TableJoin.Proofs.Record.Reads

/-!
What is done to an observed record, step by step: each operation moves the target as
the plain operation does, and tells the changes that it makes.
-/

namespace TableJoin

open Schema

namespace Record

/-- What is told of a feature when one record changes into another. -/
def changeAt (kind : ChangeKind) (before after : Record) (i : Nat) : List Notification :=
  (after.type.feature? i).toList.map fun f =>
    ⟨after.type, i, f.name, kind, f.read (before.items i), f.read (after.items i)⟩

/-- What is told of a value that is added to a feature. -/
def additionAt (after : Record) (i : Nat) (v : Value) : List Notification :=
  (after.type.feature? i).toList.map fun f => ⟨after.type, i, f.name, .add, none, some v⟩

/-- What is told of a feature in which two records may differ. -/
def differenceAt (before after : Record) (i : Nat) : List Notification :=
  if after.agree before i then []
  else changeAt (if after.holds i then .set else .unset) before after i

/-- What is told of all features in which two records differ. -/
def differences (before after : Record) : List Notification :=
  (List.range after.type.features.length).flatMap (differenceAt before after)

end Record

namespace Observed

/-- Tells every observer about several changes. -/
def tellAll (o : Observed) (changes : List Notification) : Observed :=
  changes.foldl tell o

/-- The target becomes another one, and the changes are told if there is somebody to
tell. -/
def moveTo (o : Observed) (target : Record) (changes : List Notification) : Observed :=
  if o.delivering then tellAll { o with target := target } changes
  else { o with target := target }

variable {o : Observed}

@[simp] theorem tellAll_nil (o : Observed) : o.tellAll [] = o := rfl

theorem tellAll_append (o : Observed) (ns ms : List Notification) :
    o.tellAll (ns ++ ms) = (o.tellAll ns).tellAll ms :=
  List.foldl_append

@[simp] theorem target_tell (o : Observed) (n : Notification) : (o.tell n).target = o.target := rfl

@[simp] theorem delivering_tell (o : Observed) (n : Notification) :
    (o.tell n).delivering = o.delivering := by
  simp [delivering, tell]

/-- Telling leaves the target, and whether there is somebody to tell. -/
theorem tellAll_keeps (changes : List Notification) : ∀ o : Observed,
    (o.tellAll changes).target = o.target ∧ (o.tellAll changes).delivering = o.delivering := by
  induction changes with
  | nil => exact fun o => ⟨rfl, rfl⟩
  | cons n rest ih =>
    intro o
    obtain ⟨htarget, hdelivering⟩ := ih (o.tell n)
    constructor
    · exact htarget.trans (target_tell o n)
    · exact hdelivering.trans (delivering_tell o n)

@[simp] theorem target_moveTo (o : Observed) (target : Record) (changes : List Notification) :
    (o.moveTo target changes).target = target := by
  rw [moveTo]
  by_cases h : o.delivering = true
  · rw [if_pos h]
    exact (tellAll_keeps changes _).1
  · rw [if_neg h]

@[simp] theorem delivering_moveTo (o : Observed) (target : Record)
    (changes : List Notification) : (o.moveTo target changes).delivering = o.delivering := by
  rw [moveTo]
  by_cases h : o.delivering = true
  · rw [if_pos h]
    exact (tellAll_keeps changes _).2
  · rw [if_neg h]
    rfl

@[simp] theorem moveTo_self (o : Observed) : o.moveTo o.target [] = o := by
  rw [moveTo, tellAll_nil, ite_self]

end Observed

namespace Observing

variable {α β : Type}

open Doing

section Steps

variable {o : Observed} {i : Nat} {f : Feature} {x : Editing Unit}

theorem perform_read (i : Nat) (o : Observed) : (read i).perform o = (o.target.get i, o) := by
  rw [read, perform_get_bind, perform_lift]

theorem perform_change (x : Editing Unit) (o : Observed) : (change x).perform o =
    ((x.perform o.target).1, { o with target := (x.perform o.target).2 }) := by
  rw [change, perform_get_bind]
  exact perform_lift _ _

theorem perform_change_of_ok {s : Record} (h : x.after o.target = .ok s) :
    (change x).perform o = (.ok (), { o with target := s }) := by
  rw [perform_change, after_eq_ok.mp h]

theorem perform_change_of_error (hatomic : x.IsAtomic) {e : ModelError}
    (h : x.after o.target = .error e) : (change x).perform o = (.error e, o) := by
  rw [perform_change, hatomic.perform_of_after h]

theorem perform_report (h : o.target.type.feature? i = some f) (kind : ChangeKind)
    (old new : Option Value) :
    (report i kind old new).perform o = (.ok (),
      if o.delivering then o.tell ⟨o.target.type, i, f.name, kind, old, new⟩ else o) := by
  rw [report, perform_get_bind]
  by_cases hdelivering : o.delivering = true
  · rw [if_pos hdelivering, if_pos hdelivering]
    apply perform_bind_of_ok
    rw [perform_lift, Record.feature_of_feature? h]
  · rw [if_neg hdelivering, if_neg hdelivering]
    rfl

/-- A plain operation on the feature at a position: it fails if there is none, and else
keeps the type. -/
structure ActsAt (i : Nat) (x : Editing Unit) : Prop where
  atomic : x.IsAtomic
  undeclared : ∀ r, r.type.feature? i = none → x.after r = .error (.noFeature r.type i)
  type_eq : ∀ {r s}, x.after r = .ok s → s.type = r.type

theorem actsAt_set (i : Nat) (v : Value) : ActsAt i (.set i v) where
  atomic := Editing.isAtomic_set i v
  undeclared r h := by
    rw [after_eq_error, Editing.perform_set, Record.feature_of_undeclared h]
  type_eq h := by
    obtain ⟨_, _, _, _, rfl⟩ := Record.set_eq_ok.mp h
    rfl

theorem actsAt_unset (i : Nat) : ActsAt i (.unset i) where
  atomic := Editing.isAtomic_unset i
  undeclared r h := by
    rw [after_eq_error, Editing.perform_unset, Record.feature_of_undeclared h]
  type_eq h := by
    obtain ⟨_, _, rfl⟩ := Record.unset_eq_ok.mp h
    rfl

/-- A change that fails is the same for observed records and for others. -/
theorem perform_changeFeature_of_error (hacts : ActsAt i x) (kind : ChangeKind)
    {e : ModelError} (h : x.after o.target = .error e) :
    (changeFeature kind i x).perform o = (.error e, o) := by
  rw [changeFeature, perform_get_bind]
  by_cases hdelivering : o.delivering = true
  · rw [if_pos hdelivering]
    cases hf : o.target.type.feature? i with
    | none =>
      -- The value before the change is missed for the same reason.
      rw [hacts.undeclared _ hf] at h
      cases h
      apply perform_bind_of_error
      rw [perform_read, Record.get_of_undeclared hf]
    | some f =>
      have hold : (read i).perform o = (.ok (f.read (o.target.items i)), o) := by
        rw [perform_read, Record.get_of_feature? hf]
      rw [perform_bind_of_ok hold]
      exact perform_bind_of_error (perform_change_of_error hacts.atomic h) _
  · rw [if_neg hdelivering]
    exact perform_change_of_error hacts.atomic h

/-- A change that is made moves the target, and is told with the values before and
after it. -/
theorem perform_changeFeature_of_ok (hacts : ActsAt i x) (kind : ChangeKind) {s : Record}
    (h : x.after o.target = .ok s) :
    (changeFeature kind i x).perform o =
      (.ok (), o.moveTo s (o.target.changeAt kind s i)) := by
  have htype := hacts.type_eq h
  rw [changeFeature, perform_get_bind, Observed.moveTo]
  by_cases hdelivering : o.delivering = true
  · rw [if_pos hdelivering, if_pos hdelivering]
    cases hf : o.target.type.feature? i with
    | none =>
      rw [hacts.undeclared _ hf] at h
      cases h
    | some f =>
      have hs : s.type.feature? i = some f := by rw [htype, hf]
      have hold : (read i).perform o = (.ok (f.read (o.target.items i)), o) := by
        rw [perform_read, Record.get_of_feature? hf]
      have hnew : (read i).perform { o with target := s } =
          (.ok (f.read (s.items i)), { o with target := s }) := by
        rw [perform_read, Record.get_of_feature? hs]
      rw [perform_bind_of_ok hold, perform_bind_of_ok (perform_change_of_ok h),
        perform_bind_of_ok hnew, perform_report hs]
      have hdelivering' : Observed.delivering { o with target := s } = true := hdelivering
      rw [if_pos hdelivering', Record.changeAt, hs]
      rfl
  · rw [if_neg hdelivering, if_neg hdelivering]
    exact perform_change_of_ok h

theorem perform_add_of_error {v : Value} {e : ModelError} (h : o.target.add i v = .error e) :
    (add i v).perform o = (.error e, o) := by
  rw [add, perform_get_bind]
  exact perform_bind_of_error (perform_change_of_error (Editing.isAtomic_add i v) h) _

/-- A value that is added moves the target, and is told as it was passed in. -/
theorem perform_add_of_ok {v : Value} {s : Record} (h : o.target.add i v = .ok s) :
    (add i v).perform o = (.ok (), o.moveTo s (s.additionAt i v)) := by
  have hs : ∃ f, s.type.feature? i = some f := by
    obtain ⟨f, _, hf, _, _, rfl⟩ := Record.add_eq_ok.mp h
    exact ⟨f, hf⟩
  obtain ⟨f, hf⟩ := hs
  have hkept : Observed.delivering { o with target := s } = o.delivering := rfl
  rw [add, perform_get_bind, perform_bind_of_ok (perform_change_of_ok h), perform_report hf,
    hkept, Observed.moveTo, Record.additionAt, hf]
  by_cases hdelivering : o.delivering = true
  · simp only [if_pos hdelivering]
    rfl
  · simp only [if_neg hdelivering]

/-- A feature is told where it differs, and not where it agrees. -/
theorem perform_reportDifference {before : Record} (hdelivering : o.delivering = true)
    (htype : before.type = o.target.type) (hf : o.target.type.feature? i = some f) :
    (reportDifference before i).perform o =
      (.ok (), o.tellAll (before.differenceAt o.target i)) := by
  rw [reportDifference, perform_get_bind, Record.differenceAt]
  by_cases hagree : o.target.agree before i = true
  · simp only [hagree, ↓reduceIte]
    rfl
  · have hbefore : before.type.feature? i = some f := by rw [htype, hf]
    have hread : (read i).perform o = (.ok (f.read (o.target.items i)), o) := by
      rw [perform_read, Record.get_of_feature? hf]
    have hset : (liftM (o.target.isSet i) : Observing Bool).perform o =
        (.ok (o.target.holds i), o) := by
      rw [perform_lift, Record.isSet_of_feature? hf]
    have hold : (liftM (before.get i) : Observing (Option Value)).perform o =
        (.ok (f.read (before.items i)), o) := by
      rw [perform_lift, Record.get_of_feature? hbefore]
    simp only [hagree, Bool.false_eq_true, ↓reduceIte]
    rw [perform_bind_of_ok hold, perform_bind_of_ok hread, perform_bind_of_ok hset,
      perform_report hf, if_pos hdelivering, Record.changeAt, hf]
    rfl

/-- Features are told one after the other, and none of them fails. -/
theorem perform_reportDifferences (before : Record) (is : List Nat) :
    ∀ o : Observed, o.delivering = true → before.type = o.target.type →
      (∀ i ∈ is, i < o.target.type.features.length) →
      (is.forM (reportDifference before)).perform o =
        (.ok ⟨⟩, o.tellAll (is.flatMap (before.differenceAt o.target))) := by
  induction is with
  | nil => exact fun o _ _ _ => rfl
  | cons i rest ih =>
    intro o hdelivering htype his
    obtain ⟨hi, hrest⟩ := List.forall_mem_cons.mp his
    obtain ⟨htarget, hkept⟩ := o.tellAll_keeps (before.differenceAt o.target i)
    have hfirst := perform_reportDifference hdelivering htype (List.getElem?_eq_getElem hi)
    have hthen := ih (o.tellAll (before.differenceAt o.target i)) (hkept.trans hdelivering)
      (by rw [htarget, htype]) (by rwa [htarget])
    rw [List.forM_eq_forM, List.forM_cons, perform_bind_of_ok hfirst, ← List.forM_eq_forM,
      hthen, htarget, List.flatMap_cons, Observed.tellAll_append]

/-- An edit gives its result, whatever is told of it. -/
theorem perform_edit (change : Record → α × Record)
    (htype : (change o.target).2.type = o.target.type) :
    (edit change).perform o = (.ok (change o.target).1,
      o.moveTo (change o.target).2 (o.target.differences (change o.target).2)) := by
  rw [edit, perform_get_bind]
  simp only
  rw [perform_put_bind, Observed.moveTo]
  by_cases hdelivering : o.delivering = true
  · rw [if_pos hdelivering, if_pos hdelivering]
    have htold := perform_reportDifferences o.target
      (List.range (change o.target).2.type.features.length)
      { o with target := (change o.target).2 } hdelivering htype.symm
      (fun i hi => List.mem_range.mp hi)
    rw [perform_bind_of_ok htold]
    rfl
  · rw [if_neg hdelivering, if_neg hdelivering]
    rfl

end Steps

end Observing

end TableJoin
