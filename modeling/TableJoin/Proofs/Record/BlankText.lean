import TableJoin.Proofs.Record.Fits
import TableJoin.Proofs.Schema.Table

/-!
Blank character content: what a record is without it.  A text that is a record's
own content says nothing if it is blank; as an attribute or as a child element it
stays.
-/

namespace TableJoin

open Schema

/-- A text that is empty or holds blanks only. -/
def Item.isBlankText : Item → Bool
  | .scalar (.text s) => Text.isBlankText s
  | _ => false

/-- The item counts as a value of the feature; blank character content does not. -/
def Schema.Feature.keeps (f : Feature) (x : Item) : Bool :=
  !(f.shape.isBody && x.isBlankText)

/-- The items of a feature that is no character content are kept. -/
theorem Schema.Feature.keeps_of_isBody_eq_false {f : Feature} (hf : f.shape.isBody = false)
    (x : Item) : f.keeps x = true := by
  simp [keeps, hf]

/-- A feature for character content is set to a blank text. -/
def Record.HoldsBlankText (r : Record) : Prop :=
  ∃ p ∈ r.entries, ∃ x ∈ p.2, p.1.keeps x = false

instance (r : Record) : Decidable r.HoldsBlankText := by
  unfold Record.HoldsBlankText
  infer_instance

mutual

/-- The record with every blank character content unset, at any depth. -/
def Record.withoutBlankText : Record → Record
  | ⟨t, slots⟩ => ⟨t, Item.slotsWithoutBlankText t.features slots⟩
termination_by structural r => r

/-- The item with every blank character content in its records unset. -/
def Item.withoutBlankText : Item → Item
  | .scalar s => .scalar s
  | .record r => .record r.withoutBlankText
termination_by structural x => x

/-- The items with every blank character content in their records unset. -/
def Item.listWithoutBlankText : List Item → List Item
  | [] => []
  | x :: xs => x.withoutBlankText :: Item.listWithoutBlankText xs
termination_by structural xs => xs

def Item.slotsWithoutBlankText : List Feature → List (List Item) → List (List Item)
  | f :: fs, xs :: slots =>
    (Item.listWithoutBlankText xs).filter f.keeps :: Item.slotsWithoutBlankText fs slots
  | _, slots => slots
termination_by structural _ slots => slots

end

namespace Item

theorem listWithoutBlankText_eq_map (xs : List Item) :
    listWithoutBlankText xs = xs.map withoutBlankText := by
  induction xs with
  | nil => rfl
  | cons x xs ih => rw [listWithoutBlankText, ih, List.map_cons]

theorem length_slotsWithoutBlankText (slots : List (List Item)) :
    ∀ fs, (slotsWithoutBlankText fs slots).length = slots.length := by
  induction slots with
  | nil => intro fs; cases fs <;> rfl
  | cons xs slots ih =>
    intro fs
    cases fs with
    | nil => rfl
    | cons f fs => rw [slotsWithoutBlankText, List.length_cons, ih, List.length_cons]

theorem getElem?_slotsWithoutBlankText {f : Feature} (slots : List (List Item)) :
    ∀ {fs : List Feature} {i : Nat}, fs[i]? = some f →
      (slotsWithoutBlankText fs slots)[i]? =
        (slots[i]?).map fun xs => (xs.map withoutBlankText).filter f.keeps := by
  induction slots with
  | nil => intro fs i hf; cases fs <;> rfl
  | cons xs slots ih =>
    intro fs i hf
    cases fs with
    | nil => cases hf
    | cons g fs =>
      cases i with
      | zero =>
        cases hf
        simp only [slotsWithoutBlankText, listWithoutBlankText_eq_map, List.getElem?_cons_zero,
          Option.map_some]
      | succ i => exact ih hf

theorem map_withoutBlankText_eq_self_iff {xs : List Item} :
    xs.map withoutBlankText = xs ↔ ∀ x ∈ xs, x.withoutBlankText = x := by
  induction xs with
  | nil => simp
  | cons x xs ih => simp [ih]

end Item

namespace Record

variable {r : Record}

/-- Every feature keeps its items without the blank character content in them; a
feature for character content loses its blank text. -/
theorem becomes_withoutBlankText (h : r.IsComplete) :
    r.Becomes (fun f xs => (xs.map Item.withoutBlankText).filter f.keeps) r.withoutBlankText := by
  obtain ⟨t, slots⟩ := r
  refine ⟨rfl, ?_, fun i f hf => ?_⟩
  · rw [IsComplete, withoutBlankText, Item.length_slotsWithoutBlankText]
    exact h
  · have hi := Item.getElem?_slotsWithoutBlankText slots hf
    rw [items, List.getD_eq_getElem?_getD, withoutBlankText, hi, items,
      List.getD_eq_getElem?_getD]
    cases slots[i]? <;> rfl

/-- In a record that holds what its type provides for, character content loses its
blank text, and nothing else is changed in the record itself. -/
theorem FitsSchema.becomes_withoutBlankText (h : r.FitsSchema) :
    r.Becomes (fun f xs =>
      if f.shape.isBody then xs.filter fun x => !x.isBlankText
      else xs.map Item.withoutBlankText) r.withoutBlankText := by
  apply (Record.becomes_withoutBlankText h.complete).congr
  intro i f hf
  cases hbody : f.shape.isBody with
  | false =>
    rw [if_neg Bool.false_ne_true, List.filter_eq_self]
    exact fun x _ => Feature.keeps_of_isBody_eq_false hbody x
  | true =>
    have hscalar : (r.items i).map Item.withoutBlankText = r.items i := by
      apply Item.map_withoutBlankText_eq_self_iff.mpr
      intro x hx
      have htype := (h.admits_items hf).type_eq x hx
      cases x with
      | scalar s => rfl
      | record c =>
        -- Character content is of a simple type.
        obtain ⟨s, hs⟩ := Shape.isBody_eq_true_iff.mp hbody
        rw [Feature.itemType, hs] at htype
        cases htype
    rw [hscalar, if_pos rfl]
    apply List.filter_congr
    intro x hx
    simp [Feature.keeps, hbody]

/-- A feature keeps its items as they are exactly if nothing in them is lost and none
of them is a blank text that is character content. -/
theorem filter_map_eq_self_iff {f : Feature} {xs : List Item} :
    (xs.map Item.withoutBlankText).filter f.keeps = xs ↔
      (∀ x ∈ xs, x.withoutBlankText = x) ∧ ∀ x ∈ xs, f.keeps x = true := by
  rw [← Item.map_withoutBlankText_eq_self_iff]
  constructor
  · intro heq
    have hfilter : (xs.map Item.withoutBlankText).filter f.keeps =
        xs.map Item.withoutBlankText := by
      apply (List.filter_sublist).eq_of_length
      rw [heq, List.length_map]
    have hmap := hfilter.symm.trans heq
    rw [hmap, List.filter_eq_self] at hfilter
    exact ⟨hmap, hfilter⟩
  · rintro ⟨hmap, hkeeps⟩
    rw [hmap, List.filter_eq_self]
    exact hkeeps

theorem IsComplete.withoutBlankText_eq_self_iff (h : r.IsComplete) :
    r.withoutBlankText = r ↔ ∀ i f, r.type.feature? i = some f →
      ((r.items i).map Item.withoutBlankText).filter f.keeps = r.items i := by
  have hbecomes := becomes_withoutBlankText h
  constructor
  · intro heq i f hf
    rw [← hbecomes.items_eq i f hf, heq]
  · intro hitems
    apply ext_items hbecomes.type_eq hbecomes.complete h
    intro i f hf
    rw [hbecomes.type_eq] at hf
    rw [hbecomes.items_eq i f hf, hitems i f hf]

theorem IsComplete.not_holdsBlankText_iff (h : r.IsComplete) :
    ¬ r.HoldsBlankText ↔ ∀ i f, r.type.feature? i = some f →
      ∀ x ∈ r.items i, f.keeps x = true := by
  constructor
  · intro hnot i f hf x hx
    rw [← Bool.not_eq_false]
    intro hkeeps
    exact hnot ⟨(f, r.items i), h.mem_entries.mpr ⟨i, hf, rfl⟩, x, hx, hkeeps⟩
  · rintro hkept ⟨p, hp, x, hx, hkeeps⟩
    obtain ⟨i, hf, hi⟩ := h.mem_entries.mp hp
    rw [hkept i p.1 hf x (hi ▸ hx)] at hkeeps
    cases hkeeps

/-- A record is as it was without blank text exactly if nowhere in it character
content is set to a blank text. -/
theorem withoutBlankText_eq_self_iff (r : Record) : r.Everywhere FitsSchema →
    (r.withoutBlankText = r ↔ r.Everywhere fun s => ¬ s.HoldsBlankText) := by
  induction r using Record.induction with
  | step r ih =>
    intro hfits
    have hcomplete := hfits.self.complete
    have hinside : ∀ xs ∈ r.slots, ∀ x ∈ xs,
        (x.withoutBlankText = x ↔ ∀ s ∈ x.within, ¬ s.HoldsBlankText) := by
      intro xs hxs x hx
      cases x with
      | scalar s => simp [Item.withoutBlankText, Item.within]
      | record c =>
        have hc := ih xs hxs c hx (hfits.of_mem hxs hx)
        simpa only [Item.withoutBlankText, Item.record.injEq, Item.within, Everywhere] using hc
    rw [everywhere_iff, hcomplete.withoutBlankText_eq_self_iff, hcomplete.not_holdsBlankText_iff]
    constructor
    · intro hitems
      have hkept := fun i f hf => filter_map_eq_self_iff.mp (hitems i f hf)
      refine ⟨fun i f hf => (hkept i f hf).2, fun xs hxs x hx => ?_⟩
      obtain ⟨i, f, hf, rfl⟩ := hcomplete.exists_feature hxs
      exact (hinside _ hxs x hx).mp ((hkept i f hf).1 x hx)
    · rintro ⟨hself, hslots⟩ i f hf
      have hxs := hcomplete.items_mem_slots hf
      apply filter_map_eq_self_iff.mpr
      exact ⟨fun x hx => (hinside _ hxs x hx).mpr (hslots _ hxs x hx), hself i f hf⟩

end Record

end TableJoin
