import TableJoin.Proofs.Record.Store
import TableJoin.Proofs.Schema.Table
import TableJoin.Record.Construction

/-!
Rebuilding records: one in which nothing is set becomes a copy of another one, if what can be
read of that is set in it, feature by feature and in any order.
-/

namespace TableJoin

open Schema

/-- The record in which a feature is set, by its name, to what it reads as in the original;
none if it cannot be read or set. -/
def Record.copyFeature? (original r : Record) (i : Nat) : Option Record := do
  let f ← original.type.feature? i
  let v ← (original.get i).toOption.join
  (r.setNamed f.name v).toOption

namespace Schema

variable {f : Feature} {v : Value} {xs : List Item}

/-- A feature can be given what the items that it admits read as. -/
theorem Feature.Admits.takes_read (h : f.Admits xs) (hne : xs ≠ [])
    (hread : f.read xs = some v) : f.Takes v v := by
  obtain ⟨w, hw, hconvert, -⟩ := h.exists_convert (.inr hne)
  cases hread.symm.trans hw
  exact (Feature.takes_iff "").mpr ⟨xs, hconvert, hread⟩

/-- A feature can be given what it reads as, be that its default or nothing in a list. -/
theorem Feature.Admits.takes_get {t : RecordType} {i : Nat} (h : f.Admits xs)
    (hf : t.feature? i = some f) (hread : f.read xs = some v) : f.Takes v v := by
  by_cases hne : xs = []
  · subst hne
    rw [Feature.read_nil] at hread
    cases hlist : f.isList with
    | true =>
      rw [hlist, if_pos rfl, Option.some.injEq] at hread
      exact hread ▸ .list hlist .nil
    | false =>
      rw [hlist, if_neg Bool.false_ne_true] at hread
      obtain ⟨s, hs, rfl⟩ := Option.map_eq_some_iff.mp hread
      have htype := (t.type_of_default? f (List.mem_of_getElem? hf) s hs).2
      exact .single hlist (htype ▸ ItemType.takes_ofItem (.scalar s))
  · exact h.takes_read hne hread

end Schema

namespace Record

variable {o r s : Record} {i j : Nat} {f : Feature} {v w : Value}

/-- What a feature that is set reads as is converted back to what it holds. -/
theorem FitsSchema.exists_get (h : o.FitsSchema) (hset : o.isSet i = .ok true) :
    ∃ f v, o.type.feature? i = some f ∧ o.get i = .ok (some v) ∧
      ∀ r : Record, r.type = o.type → r.set i v = .ok (r.put i (o.items i)) := by
  obtain ⟨f, hf, hne⟩ := isSet_eq_ok_true.mp hset
  obtain ⟨v, hread, hconvert, -⟩ := (h.admits_items hf).exists_convert (.inr hne)
  refine ⟨f, v, hf, ?_, fun r htype => ?_⟩
  · rw [get_of_feature? hf, hread]
  · exact set_eq_ok.mpr ⟨f, _, by rw [htype, hf], by rw [htype, hconvert], rfl⟩

theorem setNamed_of_feature? (hf : r.type.feature? i = some f) (v : Value) :
    r.setNamed f.name v = r.set i v := by
  have hindex : r.indexOf f.name = .ok i := by
    rw [indexOf, RecordType.indexOf?_of_feature? hf]
  rw [setNamed, set, Doing.after, Editing.perform_setNamed, hindex]
  rfl

theorem FitsSchema.copyFeature?_eq_some (h : o.FitsSchema) (htype : r.type = o.type)
    (hset : o.isSet i = .ok true) : o.copyFeature? r i = some (r.put i (o.items i)) := by
  obtain ⟨f, v, hf, hget, hback⟩ := h.exists_get hset
  have hr : r.type.feature? i = some f := by rw [htype, hf]
  simp [copyFeature?, hf, hget, setNamed_of_feature? hr, hback r htype, Except.toOption]

/-- Copying features that are set does not fail, and copies what these features hold and
nothing else. -/
theorem FitsSchema.exists_copy (h : o.FitsSchema) (order : List Nat) : ∀ r : Record,
    r.type = o.type → r.IsComplete → (∀ i ∈ order, o.isSet i = .ok true) →
      ∃ s, order.foldlM o.copyFeature? r = some s ∧ s.type = o.type ∧ s.IsComplete ∧
        ∀ j, s.items j = if j ∈ order then o.items j else r.items j := by
  induction order with
  | nil => exact fun r htype hr _ => ⟨r, rfl, htype, hr, fun j => rfl⟩
  | cons i rest ih =>
    intro r htype hr hset
    obtain ⟨hi, hrest⟩ := List.forall_mem_cons.mp hset
    -- the rest is copied to a record that has the first feature already
    obtain ⟨s, hs, hstype, hcomplete, hitems⟩ :=
      ih (r.put i (o.items i)) htype (hr.put i _) hrest
    refine ⟨s, ?_, hstype, hcomplete, fun j => ?_⟩
    · rw [List.foldlM_cons, h.copyFeature?_eq_some htype hi]
      exact hs
    · rw [hitems j]
      by_cases hj : i = j
      · subst hj
        obtain ⟨f, hf, -⟩ := isSet_eq_ok_true.mp hi
        rw [← htype] at hf
        simp [hr.items_put hf]
      · simp [Ne.symm hj, items_put_of_ne r hj]

theorem put_comm (r : Record) (hij : i ≠ j) (xs ys : List Item) :
    (r.put i xs).put j ys = (r.put j ys).put i xs :=
  congrArg (Record.mk r.type) (List.set_comm xs ys hij)

/-- Where one feature and then another one can be set, they can be set the other way round,
to the same result. -/
theorem set_swap (hij : i ≠ j) (h : (r.set i v >>= (·.set j w)) = .ok s) :
    (r.set j w >>= (·.set i v)) = .ok s := by
  cases hv : r.set i v with
  | error e =>
    rw [hv] at h
    cases h
  | ok t =>
    rw [hv] at h
    obtain ⟨f, xs, hf, hxs, rfl⟩ := set_eq_ok.mp hv
    obtain ⟨g, ys, hg, hys, rfl⟩ := set_eq_ok.mp h
    have hw : r.set j w = .ok (r.put j ys) := set_eq_ok.mpr ⟨g, ys, hg, hys, rfl⟩
    rw [hw]
    exact set_eq_ok.mpr ⟨f, xs, hf, hxs, r.put_comm hij.symm ys xs⟩

/-- A record is rebuilt from what can be read of it: the features that are set can be set in
a new record of the type with its name, in any order, and that leads to an equal record.
What a feature reads as is what it takes, and where it is set, as what it holds.  Setting
different features commutes. -/
theorem FitsSchema.rebuilt (h : o.FitsSchema) :
    (∀ order : List Nat, (∀ i, i ∈ order ↔ o.isSet i = .ok true) →
      (create? o.type.name).bind (fun r => order.foldlM o.copyFeature? r) = some o) ∧
    (∀ r : Record, r.type = o.type → r.IsComplete → ∀ i v, o.get i = .ok (some v) →
      ∃ s, r.set i v = .ok s ∧ s.get i = .ok (some v) ∧
        (o.isSet i = .ok true → s.items i = o.items i)) ∧
    ∀ (r s : Record) (i j : Nat) (v w : Value), i ≠ j →
      ((r.set i v >>= (·.set j w)) = .ok s ↔ (r.set j w >>= (·.set i v)) = .ok s) := by
  refine ⟨fun order horder => ?_, fun r htype hr i v hget => ?_, fun r s i j v w hij => ?_⟩
  · obtain ⟨s, hs, hstype, hcomplete, hitems⟩ := h.exists_copy order (empty o.type) rfl
      (isComplete_empty o.type) fun i hi => (horder i).mp hi
    have heq : s = o := by
      apply ext_items hstype hcomplete h.complete
      intro j f hf
      rw [hitems j, items_empty]
      by_cases hj : j ∈ order
      · rw [if_pos hj]
      · -- what is not set holds nothing, as in the new record
        rw [hstype] at hf
        rw [if_neg hj]
        by_contra hne
        exact hj ((horder j).mpr (isSet_eq_ok_true.mpr ⟨f, hf, fun hnil => hne hnil.symm⟩))
    rw [create?, RecordType.ofName?_name]
    exact heq ▸ hs
  · cases hf : o.type.feature? i with
    | none =>
      rw [get_of_undeclared hf] at hget
      cases hget
    | some f =>
      have hrf : r.type.feature? i = some f := by rw [htype, hf]
      have htakes : f.Takes v v := by
        rw [get_of_feature? hf, Except.ok.injEq] at hget
        exact (h.admits_items hf).takes_get hf hget
      obtain ⟨s, hs, hsget, -⟩ := hr.exists_set hrf htakes
      refine ⟨s, hs, hsget, fun hset => ?_⟩
      obtain ⟨g, v', -, hget', hback⟩ := h.exists_get hset
      rw [hget', Except.ok.injEq, Option.some.injEq] at hget
      rw [← hget, hback r htype, Except.ok.injEq] at hs
      rw [← hs, hr.items_put hrf]
  · exact ⟨set_swap hij, set_swap hij.symm⟩

/-- A row with a key, and with a cell that is explicitly marked as the default says. -/
def markedRow : Record :=
  ((empty .dataRow).having "k" (Construction.record (Construction.key "1"))).having "v"
    (Construction.record ((Construction.cell "a").having "null" (Construction.truth false)))

/-- The cells of a row can be set before its keys. -/
theorem rebuilt_markedRow : markedRow.FitsSchema ∧
    (∀ i, i ∈ [1, 0] ↔ markedRow.isSet i = .ok true) ∧
    (create? markedRow.type.name).bind (fun r => [1, 0].foldlM markedRow.copyFeature? r) =
      some markedRow := by
  have hfits : markedRow.FitsSchema := by decide +kernel
  have horder : ∀ i, i ∈ [1, 0] ↔ markedRow.isSet i = .ok true := by
    rintro (_ | _ | i)
    · exact iff_of_true (by decide) rfl
    · exact iff_of_true (by decide) rfl
    · exact iff_of_false (by simp) nofun
  exact ⟨hfits, horder, hfits.rebuilt.1 [1, 0] horder⟩

end Record

end TableJoin
