import TableJoin.Proofs.Observation.Transparency

/-!
Notifications as a journal: replayed on a copy of a record by plain operations, they lead
to where the observed record has come.
-/

namespace TableJoin

open Schema

/-- Makes the change of a notification on a record, by the plain operation of its kind. -/
def Notification.replay (n : Notification) (r : Record) : Option Record :=
  match n.kind, n.new with
  | .set, some v => (r.set n.position v).toOption
  | .unset, _ => (r.unset n.position).toOption
  | .add, some v => (r.add n.position v).toOption
  | .set, none | .add, none => none

namespace Record

/-- Makes the changes of notifications, one after the other; all of them have to
succeed. -/
def replayAll (r : Record) (journal : List Notification) : Option Record :=
  journal.foldlM (fun r n => n.replay r) r

variable {r s q : Record} {i : Nat} {f : Feature}

@[simp] theorem replayAll_nil (r : Record) : r.replayAll [] = some r := rfl

theorem replayAll_append (r : Record) (ns ms : List Notification) :
    r.replayAll (ns ++ ms) = (r.replayAll ns).bind (·.replayAll ms) :=
  List.foldlM_append

theorem replayAll_singleton (r : Record) (n : Notification) : r.replayAll [n] = n.replay r := by
  simp [replayAll]

/-- Storing the items that a feature holds changes nothing. -/
theorem put_items (r : Record) (i : Nat) : r.put i (r.items i) = r := by
  obtain ⟨t, slots⟩ := r
  rw [put, items]
  congr 1
  by_cases hi : i < slots.length
  · simp [List.getD, hi]
  · exact List.set_eq_of_length_le (Nat.le_of_not_lt hi)

/-- Replaying that a feature was set stores its items. -/
theorem replayAll_set (hs : s.FitsSchema) (htype : q.type = s.type)
    (hf : s.type.feature? i = some f) (hset : f.isList = true ∨ s.items i ≠ []) :
    q.replayAll (r.changeAt .set s i) = some (q.put i (s.items i)) := by
  have hexists : ∃ v, f.read (s.items i) = some v ∧ f.convert q.type.name v = .ok (s.items i) ∧
      _ := (hs.admits_items hf).exists_convert hset
  obtain ⟨v, hread, hconvert, -⟩ := hexists
  have hq : q.type.feature? i = some f := by rw [htype, hf]
  have hdone : q.set i v = .ok (q.put i (s.items i)) := set_eq_ok.mpr ⟨f, _, hq, hconvert, rfl⟩
  rw [changeAt, hf]
  simp [replayAll_singleton, Notification.replay, hread, hdone, Except.toOption]

/-- Replaying that a feature was unset leaves no items in it. -/
theorem replayAll_unset (htype : q.type = s.type) (hf : s.type.feature? i = some f) :
    q.replayAll (r.changeAt .unset s i) = some (q.put i []) := by
  have hq : q.type.feature? i = some f := by rw [htype, hf]
  have hdone : q.unset i = .ok (q.put i []) := unset_eq_ok.mpr ⟨f, hq, rfl⟩
  rw [changeAt, hf]
  simp [replayAll_singleton, Notification.replay, hdone, Except.toOption]

/-- Replaying an addition makes it. -/
theorem replayAll_add {v : Value} (hadd : r.add i v = .ok s) :
    r.replayAll (s.additionAt i v) = some s := by
  have hf : ∃ f, s.type.feature? i = some f := by
    obtain ⟨f, _, hf, _, _, rfl⟩ := add_eq_ok.mp hadd
    exact ⟨f, hf⟩
  obtain ⟨f, hf⟩ := hf
  rw [additionAt, hf]
  simp [replayAll_singleton, Notification.replay, hadd, Except.toOption]

/-- The record is on the way from one record to another: each of its features is still
that of the first or already that of the second. -/
structure Between (r s q : Record) : Prop where
  type_eq : q.type = s.type
  complete : q.IsComplete
  items_eq : ∀ j, q.items j = r.items j ∨ q.items j = s.items j

/-- Storing the items of the second record goes on with the way. -/
theorem Between.put (h : Between r s q) (hf : s.type.feature? i = some f) :
    Between r s (q.put i (s.items i)) := by
  have hq : q.type.feature? i = some f := by rw [h.type_eq, hf]
  refine ⟨h.type_eq, h.complete.put i _, fun j => ?_⟩
  by_cases hij : i = j
  · subst hij
    exact .inr (h.complete.items_put hq _)
  · rw [items_put_of_ne q hij]
    exact h.items_eq j

/-- Replaying what is told of a feature in which two records may differ makes it that of
the second. -/
theorem Between.replayAll (h : Between r s q) (hs : s.FitsSchema)
    (hf : s.type.feature? i = some f) :
    q.replayAll (r.differenceAt s i) = some (q.put i (s.items i)) := by
  rw [differenceAt]
  by_cases hagree : s.agree r i = true
  · rw [if_pos hagree, replayAll_nil]
    have heq : s.items i = r.items i := by
      simp only [agree, Bool.and_eq_true, decide_eq_true_eq] at hagree
      exact hagree.2
    have hitems : q.items i = s.items i := by
      rcases h.items_eq i with hold | hnew
      · rw [hold, heq]
      · exact hnew
    rw [← hitems, put_items]
  · rw [if_neg hagree]
    by_cases hholds : s.holds i = true
    · rw [if_pos hholds]
      apply replayAll_set hs h.type_eq hf
      right
      simpa [holds] using hholds
    · rw [if_neg hholds]
      have hnil : s.items i = [] := by simpa [holds] using hholds
      rw [replayAll_unset h.type_eq hf, hnil]

/-- Replaying what is told of some features makes all of them those of the second
record. -/
theorem exists_replayAll (hs : s.FitsSchema) (is : List Nat) :
    ∀ q, Between r s q → (∀ i ∈ is, i < s.type.features.length) →
      ∃ q', q.replayAll (is.flatMap (r.differenceAt s)) = some q' ∧ Between r s q' ∧
        (∀ i, q.items i = s.items i → q'.items i = s.items i) ∧
        ∀ i ∈ is, q'.items i = s.items i := by
  induction is with
  | nil => exact fun q hq _ => ⟨q, rfl, hq, fun _ h => h, fun _ h => absurd h List.not_mem_nil⟩
  | cons i rest ih =>
    intro q hq his
    obtain ⟨hi, hrest⟩ := List.forall_mem_cons.mp his
    have hf : s.type.feature? i = some s.type.features[i] := List.getElem?_eq_getElem hi
    have hself : (q.put i (s.items i)).items i = s.items i :=
      hq.complete.items_put (by rw [hq.type_eq, hf]) _
    obtain ⟨q', hreplay, hbetween, hkept, hdone⟩ := ih _ (hq.put hf) hrest
    refine ⟨q', ?_, hbetween, fun j hj => ?_, fun j hj => ?_⟩
    · rw [List.flatMap_cons, replayAll_append, hq.replayAll hs hf]
      exact hreplay
    · apply hkept
      by_cases hij : i = j
      · subst hij
        exact hself
      · rwa [items_put_of_ne q hij]
    · rcases List.mem_cons.mp hj with rfl | hj
      · exact hkept j hself
      · exact hdone j hj

/-- Replaying the differences between two records on the first gives the second. -/
theorem replayAll_differences (hr : r.FitsSchema) (hs : s.FitsSchema) (htype : r.type = s.type) :
    r.replayAll (r.differences s) = some s := by
  have hstart : Between r s r := ⟨htype, hr.complete, fun _ => .inl rfl⟩
  obtain ⟨q, hreplay, hbetween, -, hdone⟩ := exists_replayAll hs
    (List.range s.type.features.length) r hstart fun i hi => List.mem_range.mp hi
  have heq : q = s := by
    apply ext_items hbetween.type_eq hbetween.complete hs.complete
    intro i f hf
    rw [hbetween.type_eq] at hf
    exact hdone i (List.mem_range.mpr (lt_of_feature? hf))
  rw [differences, hreplay, heq]

end Record

namespace Operation

open Record

variable {α : Type} {r : Record}

theorem fitsSchema_plain (op : Operation α) (h : r.FitsSchema) : (op.plain r).2.FitsSchema := by
  have hmade : ∀ {y : Editing Unit}, y.IsAtomic → (∀ {s}, y.after r = .ok s → s.FitsSchema) →
      ((y.answering : Editing (Option α)).perform r).2.FitsSchema := by
    intro y hatomic hy
    rcases y.perform_answering_cases (α := α) hatomic r with ⟨e, -, hperform⟩ | ⟨s, hs, hperform⟩
    · rw [hperform]
      exact h
    · rw [hperform]
      exact hy hs
  cases op with
  | set i v => exact hmade (Editing.isAtomic_set i v) h.of_set
  | unset i => exact hmade (Editing.isAtomic_unset i) h.of_unset
  | add i v => exact hmade (Editing.isAtomic_add i v) h.of_add
  | edit e => exact e.fitsSchema r h

/-- What is told of an operation, replayed, makes the change of the operation. -/
theorem replayAll_changes (op : Operation α) (h : r.FitsSchema) :
    r.replayAll (op.changes r) = some (op.plain r).2 := by
  have hmade : ∀ {y : Editing Unit} {told : Record → List Notification}, y.IsAtomic →
      (∀ {s}, y.after r = .ok s → r.replayAll (told s) = some s) →
        r.replayAll ((y.after r).toOption.toList.flatMap told) =
          some ((y.answering : Editing (Option α)).perform r).2 := by
    intro y told hatomic hy
    rcases y.perform_answering_cases (α := α) hatomic r with ⟨e, he, hperform⟩ | ⟨s, hs, hperform⟩
    · rw [hperform, he]
      rfl
    · rw [hperform, hs]
      simpa [Except.toOption] using hy hs
  cases op with
  | set i v =>
    apply hmade (Editing.isAtomic_set i v)
    intro s hset
    have hs := h.of_set hset
    obtain ⟨f, xs, hf, hxs, rfl⟩ := set_eq_ok.mp hset
    have hitems : (r.put i xs).items i = xs := h.complete.items_put hf xs
    have hset' : f.isList = true ∨ (r.put i xs).items i ≠ [] := by
      rw [hitems]
      exact Feature.isSet_of_convert hxs
    rw [replayAll_set (q := r) hs rfl hf hset', hitems]
  | unset i =>
    apply hmade (Editing.isAtomic_unset i)
    intro s hunset
    obtain ⟨f, hf, rfl⟩ := unset_eq_ok.mp hunset
    exact replayAll_unset rfl hf
  | add i v => exact hmade (Editing.isAtomic_add i v) replayAll_add
  | edit e => exact replayAll_differences h (e.fitsSchema r h) (e.type_eq r).symm

end Operation

/-- What an observer has after several notifications: all of them, if somebody attends. -/
theorem Observed.observers_tellAll (ns : List Notification) : ∀ o : Observed,
    (o.tellAll ns).observers = o.observers.map fun w =>
      if w.attended then { w with inbox := w.inbox ++ ns } else w := by
  induction ns with
  | nil =>
    intro o
    simp
  | cons n rest ih =>
    intro o
    have hthen : (o.tellAll (n :: rest)) = (o.tell n).tellAll rest := rfl
    rw [hthen, ih, tell, List.map_map]
    apply List.map_congr_left
    intro w _
    by_cases hattended : w.attended = true
    · simp [Observer.receive, hattended]
    · simp [Observer.receive, hattended]

namespace Act

variable {α : Type}

/-- The notifications are a journal: whoever observes from the start and attends is told
the same changes, and these, replayed on a copy of the record, succeed one after the other
and lead to the final target. -/
theorem exists_journal (ops : List (Operation α)) : ∀ o : Observed, o.target.FitsSchema →
    o.delivering = true → ∃ journal : List Notification,
      (runObserved o (ops.map .operate)).2.observers =
        o.observers.map (fun w =>
          if w.attended then { w with inbox := w.inbox ++ journal } else w) ∧
      o.target.replayAll journal = some (runObserved o (ops.map .operate)).2.target := by
  induction ops with
  | nil =>
    intro o _ _
    refine ⟨[], ?_, rfl⟩
    simp [runObserved]
  | cons op rest ih =>
    intro o hfits hdelivering
    have hmoved : (op.observed.perform o).2 =
        o.moveTo (op.plain o.target).2 (op.changes o.target) := by
      rw [Operation.perform_observed]
    have htarget : (op.observed.perform o).2.target = (op.plain o.target).2 := by
      rw [hmoved, Observed.target_moveTo]
    have hobservers : (op.observed.perform o).2.observers = o.observers.map fun w =>
        if w.attended then { w with inbox := w.inbox ++ op.changes o.target } else w := by
      rw [hmoved, Observed.moveTo, if_pos hdelivering, Observed.observers_tellAll]
    have hkept : (op.observed.perform o).2.delivering = true := by
      rw [hmoved, Observed.delivering_moveTo, hdelivering]
    obtain ⟨journal, htold, hreplay⟩ := ih (op.observed.perform o).2
      (htarget ▸ op.fitsSchema_plain hfits) hkept
    refine ⟨op.changes o.target ++ journal, ?_, ?_⟩
    · simp only [List.map_cons, runObserved, observed, htold, hobservers, List.map_map]
      apply List.map_congr_left
      intro w _
      by_cases hattended : w.attended = true
      · simp [hattended]
      · simp [hattended]
    · rw [Record.replayAll_append, op.replayAll_changes hfits]
      rw [htarget] at hreplay
      exact hreplay

/-- An empty list of languages, and one observer that is told. -/
def watchedLanguages : Observed :=
  { target := .empty .languages, observers := [⟨true, true, []⟩] }

/-- Languages are set, one is added, a text in their place is refused, and an edit removes
them. -/
def languageOperations : List (Operation Unit) :=
  [.set 0 (.list [.text "en", .text "fr"]), .add 0 (.text "de"), .set 0 (.text "de"),
    .edit ⟨fun r => ((), .empty r.type), fun _ => rfl, fun r _ => Record.fitsSchema_empty r.type⟩]

theorem exists_journal_languages :
    watchedLanguages.target.FitsSchema ∧ watchedLanguages.delivering = true ∧
      ∃ journal : List Notification,
        (runObserved watchedLanguages (languageOperations.map .operate)).2.observers =
          watchedLanguages.observers.map (fun w =>
            if w.attended then { w with inbox := w.inbox ++ journal } else w) ∧
        watchedLanguages.target.replayAll journal =
          some (runObserved watchedLanguages (languageOperations.map .operate)).2.target :=
  ⟨Record.fitsSchema_empty _, rfl,
    exists_journal languageOperations watchedLanguages (Record.fitsSchema_empty _) rfl⟩

end Act

end TableJoin
