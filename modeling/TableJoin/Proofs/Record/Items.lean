import TableJoin.Record.Basic

/-!
The items of a record, feature by feature: what each operation does to them, and
that a record with an entry for each feature is determined by them.
-/

namespace TableJoin.Record

open Schema

/-- The record keeps an entry for each feature of its type, and no other. -/
def IsComplete (r : Record) : Prop :=
  r.slots.length = r.type.features.length

theorem isComplete_empty (t : RecordType) : (empty t).IsComplete := by
  simp [IsComplete, empty]

theorem IsComplete.put {r : Record} (h : r.IsComplete) (i : Nat) (items : List Item) :
    (r.put i items).IsComplete := by
  simpa [IsComplete, Record.put] using h

theorem items_empty (t : RecordType) (i : Nat) : (empty t).items i = [] := by
  rw [items, empty, List.getD_eq_getElem?_getD, List.getElem?_map]
  cases t.features[i]? <;> rfl

/-- A record given by a rule holds what the rule says of each feature. -/
theorem items_of_rule {t : RecordType} {i : Nat} {f : Feature} (rule : Feature → List Item)
    (h : t.feature? i = some f) : (⟨t, t.features.map rule⟩ : Record).items i = rule f := by
  rw [RecordType.feature?] at h
  simp [items, h]

theorem lt_of_feature? {t : RecordType} {i : Nat} {f : Feature} (h : t.feature? i = some f) :
    i < t.features.length :=
  (List.getElem?_eq_some_iff.mp h).1

theorem IsComplete.items_put {r : Record} (h : r.IsComplete) {i : Nat} {f : Feature}
    (hf : r.type.feature? i = some f) (items : List Item) : (r.put i items).items i = items := by
  apply items_put_self
  rw [h]
  exact lt_of_feature? hf

/-- Complete records of one type with the same items in every feature are equal. -/
theorem ext_items {r s : Record} (htype : r.type = s.type) (hr : r.IsComplete)
    (hs : s.IsComplete) (h : ∀ i f, r.type.feature? i = some f → r.items i = s.items i) :
    r = s := by
  obtain ⟨t, xs⟩ := r
  obtain ⟨t', ys⟩ := s
  obtain rfl : t = t' := htype
  simp only [IsComplete] at hr hs
  congr 1
  apply List.ext_getElem (hr.trans hs.symm)
  intro i hx hy
  have hlt : i < t.features.length := hr ▸ hx
  have hitems := h i t.features[i] (List.getElem?_eq_getElem hlt)
  simpa [items, hx, hy] using hitems

/-- The second record comes from the first one by a rule that says what becomes of
the items of each feature. -/
structure Becomes (rule : Feature → List Item → List Item) (r s : Record) : Prop where
  type_eq : s.type = r.type
  complete : s.IsComplete
  items_eq : ∀ i f, r.type.feature? i = some f → s.items i = rule f (r.items i)

theorem Becomes.trans {rule rule' : Feature → List Item → List Item} {r s u : Record}
    (h : r.Becomes rule s) (h' : s.Becomes rule' u) :
    r.Becomes (fun f items => rule' f (rule f items)) u := by
  refine ⟨h'.type_eq.trans h.type_eq, h'.complete, fun i f hf => ?_⟩
  have hs : s.type.feature? i = some f := by rw [h.type_eq]; exact hf
  rw [h'.items_eq i f hs, h.items_eq i f hf]

/-- Only the rule's effect on the features of the type counts. -/
theorem Becomes.congr {rule rule' : Feature → List Item → List Item} {r s : Record}
    (h : r.Becomes rule s)
    (heq : ∀ i f, r.type.feature? i = some f → rule f (r.items i) = rule' f (r.items i)) :
    r.Becomes rule' s :=
  ⟨h.type_eq, h.complete, fun i f hf => (h.items_eq i f hf).trans (heq i f hf)⟩

theorem IsComplete.becomes_self {r : Record} (h : r.IsComplete)
    {rule : Feature → List Item → List Item}
    (heq : ∀ i f, r.type.feature? i = some f → rule f (r.items i) = r.items i) :
    r.Becomes rule r :=
  ⟨rfl, h, fun i f hf => (heq i f hf).symm⟩

/-- A rule that sets every feature anew determines the record. -/
theorem Becomes.eq_of_rule {rule : Feature → List Item} {r s : Record}
    (h : r.Becomes (fun f _ => rule f) s) : s = ⟨r.type, r.type.features.map rule⟩ := by
  refine ext_items (s := ⟨r.type, r.type.features.map rule⟩) h.type_eq h.complete ?_ ?_
  · simp [IsComplete]
  · intro i f hf
    rw [h.type_eq] at hf
    rw [h.items_eq i f hf, items_of_rule rule hf]

/-- Storing items in one feature follows every rule that gives that feature these
items and leaves the others alone. -/
theorem IsComplete.becomes_put {r : Record} (h : r.IsComplete) {i : Nat} {f : Feature}
    (hf : r.type.feature? i = some f) {items : List Item}
    {rule : Feature → List Item → List Item} (hself : rule f (r.items i) = items)
    (hother : ∀ j g, r.type.feature? j = some g → i ≠ j → rule g (r.items j) = r.items j) :
    r.Becomes rule (r.put i items) := by
  refine ⟨rfl, h.put i items, fun j g hg => ?_⟩
  by_cases hij : i = j
  · subst hij
    rw [hf] at hg
    injection hg with hfg
    rw [← hfg, hself, h.items_put hf]
  · rw [items_put_of_ne r hij, hother j g hg hij]

end TableJoin.Record
