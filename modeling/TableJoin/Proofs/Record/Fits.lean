import TableJoin.Proofs.Record.Items
import TableJoin.Proofs.Record.Within
import TableJoin.Proofs.Schema.Lexical

/-!
Records that hold what their types provide for: an entry for each feature, items of
the feature's type in it, and no more than one where one is all there may be.
-/

namespace TableJoin

open Schema

/-- The feature may hold the items. -/
structure Schema.Feature.Admits (f : Feature) (items : List Item) : Prop where
  type_eq : ∀ x ∈ items, x.type = f.itemType
  single : f.isList = false → items.length ≤ 1

instance (f : Feature) (items : List Item) : Decidable (f.Admits items) :=
  decidable_of_iff ((∀ x ∈ items, x.type = f.itemType) ∧ (f.isList = false → items.length ≤ 1))
    ⟨fun ⟨h, h'⟩ => ⟨h, h'⟩, fun ⟨h, h'⟩ => ⟨h, h'⟩⟩

theorem Schema.Feature.admits_nil (f : Feature) : f.Admits [] :=
  ⟨fun _ hx => absurd hx List.not_mem_nil, fun _ => Nat.zero_le 1⟩

theorem Schema.Feature.admits_singleton (f : Feature) {x : Item} (hx : x.type = f.itemType) :
    f.Admits [x] :=
  ⟨fun _ hy => List.mem_singleton.mp hy ▸ hx, fun _ => Nat.le_refl 1⟩

theorem Schema.Feature.Admits.eq_singleton {f : Feature} {xs : List Item} {x : Item}
    (h : f.Admits xs) (hsingle : f.isList = false) (hx : x ∈ xs) : xs = [x] := by
  match xs, h.single hsingle, hx with
  | [y], _, hx => rw [List.mem_singleton.mp hx]

/-- Some text is read as the item; contained records are not asked. -/
def Item.IsReadable : Item → Prop
  | .scalar s => s.IsReadable
  | .record _ => True

instance (x : Item) : Decidable x.IsReadable := by
  unfold Item.IsReadable
  split <;> infer_instance

namespace Record

/-- The record has an entry for each feature of its type, which the feature admits. -/
structure FitsSchema (r : Record) : Prop where
  complete : r.IsComplete
  admits : ∀ p ∈ r.entries, p.1.Admits p.2

instance (r : Record) : Decidable r.FitsSchema :=
  decidable_of_iff
    (r.slots.length = r.type.features.length ∧ ∀ p ∈ r.entries, p.1.Admits p.2)
    ⟨fun ⟨h, h'⟩ => ⟨h, h'⟩, fun ⟨h, h'⟩ => ⟨h, h'⟩⟩

/-- Every decimal that the record itself holds is one that some text is read as. -/
def IsReadable (r : Record) : Prop :=
  ∀ xs ∈ r.slots, ∀ x ∈ xs, x.IsReadable

instance (r : Record) : Decidable r.IsReadable := by
  unfold IsReadable
  infer_instance

theorem IsComplete.mem_entries {r : Record} (h : r.IsComplete) {p : Feature × List Item} :
    p ∈ r.entries ↔ ∃ i, r.type.feature? i = some p.1 ∧ r.items i = p.2 := by
  rw [entries, List.mem_iff_getElem?]
  constructor
  · rintro ⟨i, hi⟩
    obtain ⟨hf, hxs⟩ := List.getElem?_zip_eq_some.mp hi
    exact ⟨i, hf, by rw [items, List.getD_eq_getElem?_getD, hxs]; rfl⟩
  · rintro ⟨i, hf, hxs⟩
    refine ⟨i, List.getElem?_zip_eq_some.mpr ⟨hf, ?_⟩⟩
    have hlt : i < r.slots.length := by
      rw [h]
      exact lt_of_feature? hf
    rw [items, List.getD_eq_getElem?_getD, List.getElem?_eq_getElem hlt] at hxs
    rw [List.getElem?_eq_getElem hlt]
    exact congrArg some hxs

theorem IsComplete.items_mem_slots {r : Record} (h : r.IsComplete) {i : Nat} {f : Feature}
    (hf : r.type.feature? i = some f) : r.items i ∈ r.slots := by
  have hlt : i < r.slots.length := by
    rw [h]
    exact lt_of_feature? hf
  rw [items, List.getD_eq_getElem?_getD, List.getElem?_eq_getElem hlt]
  exact List.getElem_mem hlt

/-- Every slot of a complete record holds the items of a feature. -/
theorem IsComplete.exists_feature {r : Record} (h : r.IsComplete) {xs : List Item}
    (hxs : xs ∈ r.slots) : ∃ i f, r.type.feature? i = some f ∧ r.items i = xs := by
  obtain ⟨i, hi⟩ := List.mem_iff_getElem?.mp hxs
  have hlt : i < r.type.features.length := by
    rw [← h]
    exact (List.getElem?_eq_some_iff.mp hi).1
  refine ⟨i, r.type.features[i], List.getElem?_eq_getElem hlt, ?_⟩
  rw [items, List.getD_eq_getElem?_getD, hi]
  rfl

theorem FitsSchema.admits_items {r : Record} (h : r.FitsSchema) {i : Nat} {f : Feature}
    (hf : r.type.feature? i = some f) : f.Admits (r.items i) :=
  h.admits (f, r.items i) (h.complete.mem_entries.mpr ⟨i, hf, rfl⟩)

end Record

end TableJoin
