import Mathlib.Data.List.Basic
import TableJoin.Proofs.Record.BlankText
import TableJoin.Writing.Records

/-!
Reading back: what becomes of a record that is written and read again.  Blank character
content is lost, and every scalar is what its text is read as, which may be another decimal of
the same value, or nothing at all.
-/

namespace TableJoin

open Schema

mutual

/-- The record that is read back where this one was written. -/
def Record.readBack : Record → Record
  | ⟨t, slots⟩ => ⟨t, Item.slotsReadBack t.features slots⟩
termination_by structural r => r

/-- The item that is read back; none if the text of a scalar is refused. -/
def Item.readBack? : Item → Option Item
  | .scalar s => s.readBack?.map .scalar
  | .record r => some (.record r.readBack)
termination_by structural x => x

/-- The items that are read back where these were written. -/
def Item.listReadBack : List Item → List Item
  | [] => []
  | x :: xs => x.readBack?.toList ++ Item.listReadBack xs
termination_by structural xs => xs

def Item.slotsReadBack : List Feature → List (List Item) → List (List Item)
  | f :: fs, xs :: slots => (Item.listReadBack xs).filter f.keeps :: Item.slotsReadBack fs slots
  | _, slots => slots
termination_by structural _ slots => slots

end

/-- Something is read back where the item was written; what a record contains is not asked. -/
def Item.IsLegible : Item → Prop
  | .scalar s => s.readBack?.isSome
  | .record _ => True

instance (x : Item) : Decidable x.IsLegible :=
  match x with
  | .scalar s => instDecidableEqBool s.readBack?.isSome true
  | .record _ => instDecidableTrue

/-- The text of every scalar that the record itself holds can be read. -/
def Record.IsLegible (r : Record) : Prop :=
  ∀ xs ∈ r.slots, ∀ x ∈ xs, x.IsLegible

instance (r : Record) : Decidable r.IsLegible := by
  unfold Record.IsLegible
  infer_instance

/-- The item can be read back, with all that it contains at any depth. -/
def Item.IsLegibleWithin (x : Item) : Prop :=
  x.IsLegible ∧ ∀ s ∈ x.within, s.IsLegible

namespace Item

variable {x y : Item} {xs : List Item}

theorem listReadBack_eq_filterMap (xs : List Item) : listReadBack xs = xs.filterMap readBack? := by
  induction xs with
  | nil => rfl
  | cons x xs ih => cases hx : x.readBack? <;> simp [listReadBack, hx, ih]

theorem length_slotsReadBack (slots : List (List Item)) :
    ∀ fs, (slotsReadBack fs slots).length = slots.length := by
  induction slots with
  | nil => intro fs; cases fs <;> rfl
  | cons xs slots ih =>
    intro fs
    cases fs with
    | nil => rfl
    | cons f fs => rw [slotsReadBack, List.length_cons, ih, List.length_cons]

theorem getElem?_slotsReadBack {f : Feature} (slots : List (List Item)) :
    ∀ {fs : List Feature} {i : Nat}, fs[i]? = some f →
      (slotsReadBack fs slots)[i]? =
        (slots[i]?).map fun xs => (xs.filterMap readBack?).filter f.keeps := by
  induction slots with
  | nil => intro fs i hf; cases fs <;> rfl
  | cons xs slots ih =>
    intro fs i hf
    cases fs with
    | nil => cases hf
    | cons g fs =>
      cases i with
      | zero =>
        cases hf
        simp only [slotsReadBack, listReadBack_eq_filterMap, List.getElem?_cons_zero,
          Option.map_some]
      | succ i => exact ih hf

theorem type_of_readBack? (h : x.readBack? = some y) : y.type = x.type := by
  cases x with
  | scalar s =>
    obtain ⟨v, hv, rfl⟩ := Option.map_eq_some_iff.mp h
    exact congrArg ItemType.simple (Scalar.type_of_readBack? hv)
  | record r =>
    cases h
    cases r
    rfl

theorem readBack?_of_text (h : x.type = .simple .text) : x.readBack? = some x := by
  match x, h with
  | .scalar (.text s), _ => rfl

theorem filterMap_readBack?_of_text (h : ∀ x ∈ xs, x.type = .simple .text) :
    xs.filterMap readBack? = xs := by
  induction xs with
  | nil => rfl
  | cons x xs ih =>
    obtain ⟨hx, hxs⟩ := List.forall_mem_cons.mp h
    rw [List.filterMap_cons_some (readBack?_of_text hx), ih hxs]

theorem length_filterMap_readBack? (h : ∀ x ∈ xs, x.IsLegible) :
    (xs.filterMap readBack?).length = xs.length := by
  induction xs with
  | nil => rfl
  | cons x xs ih =>
    obtain ⟨hx, hxs⟩ := List.forall_mem_cons.mp h
    cases x with
    | record r => simp [readBack?, ih hxs]
    | scalar s =>
      obtain ⟨v, hv⟩ := Option.isSome_iff_exists.mp hx
      simp [readBack?, hv, ih hxs]

theorem isLegible_of_isReadable (h : x.IsReadable) : x.IsLegible := by
  cases x with
  | record r => trivial
  | scalar s =>
    have hs := Scalar.readBack?_of_isReadable h
    simp [IsLegible, hs]

theorem isLegibleWithin_scalar {s : Scalar} :
    (scalar s).IsLegibleWithin ↔ s.readBack?.isSome = true := by
  simp [IsLegibleWithin, IsLegible, within]

theorem isLegibleWithin_of_text (h : x.type = .simple .text) : x.IsLegibleWithin := by
  match x, h with
  | .scalar (.text s), _ => exact isLegibleWithin_scalar.mpr rfl

theorem isLegibleWithin_record {r : Record} :
    (record r).IsLegibleWithin ↔ r.Everywhere Record.IsLegible := by
  simp [IsLegibleWithin, IsLegible, within, Record.Everywhere]

end Item

namespace Record

variable {r : Record}

theorem becomes_readBack (h : r.IsComplete) :
    r.Becomes (fun f xs => (xs.filterMap Item.readBack?).filter f.keeps) r.readBack := by
  obtain ⟨t, slots⟩ := r
  refine ⟨rfl, ?_, fun i f hf => ?_⟩
  · rw [IsComplete, readBack, Item.length_slotsReadBack]
    exact h
  · have hi := Item.getElem?_slotsReadBack slots hf
    rw [items, List.getD_eq_getElem?_getD, readBack, hi, items, List.getD_eq_getElem?_getD]
    cases slots[i]? <;> rfl

/-- Everything in a record is legible exactly if the items of its features are, with all that
they contain. -/
theorem IsComplete.everywhere_isLegible_iff (h : r.IsComplete) : r.Everywhere IsLegible ↔
    ∀ i f, r.type.feature? i = some f → ∀ x ∈ r.items i, x.IsLegibleWithin := by
  rw [everywhere_iff]
  constructor
  · rintro ⟨hself, hitems⟩ i f hf x hx
    have hslot := h.items_mem_slots hf
    exact ⟨hself _ hslot x hx, hitems _ hslot x hx⟩
  · intro hall
    have hslots : ∀ xs ∈ r.slots, ∀ x ∈ xs, x.IsLegibleWithin := by
      intro xs hxs x hx
      obtain ⟨i, f, hf, rfl⟩ := h.exists_feature hxs
      exact hall i f hf x hx
    exact ⟨fun xs hxs x hx => (hslots xs hxs x hx).1, fun xs hxs x hx => (hslots xs hxs x hx).2⟩

theorem isLegible_of_isReadable (h : r.IsReadable) : r.IsLegible :=
  fun xs hxs x hx => Item.isLegible_of_isReadable (h xs hxs x hx)

/-- Of a record in which every decimal is readable nothing is lost but blank text. -/
theorem readBack_eq_withoutBlankText (r : Record) : r.Everywhere FitsSchema →
    r.Everywhere IsReadable → r.readBack = r.withoutBlankText := by
  induction r using Record.induction with
  | step r ih =>
    intro hfits hread
    have hcomplete := hfits.self.complete
    have hreadBack := becomes_readBack hcomplete
    have hwithout := becomes_withoutBlankText hcomplete
    apply ext_items (hreadBack.type_eq.trans hwithout.type_eq.symm) hreadBack.complete
      hwithout.complete
    intro i f hf
    rw [hreadBack.type_eq] at hf
    rw [hreadBack.items_eq i f hf, hwithout.items_eq i f hf]
    congr 1
    rw [← List.filterMap_eq_map]
    apply List.filterMap_congr
    intro x hx
    have hslot := hcomplete.items_mem_slots hf
    cases x with
    | scalar s =>
      have hs : s.readBack? = some s := Scalar.readBack?_of_isReadable (hread.self _ hslot _ hx)
      simp [Item.readBack?, hs, Item.withoutBlankText]
    | record c =>
      have hc := ih _ hslot c hx (hfits.of_mem hslot hx) (hread.of_mem hslot hx)
      simp [Item.readBack?, hc, Item.withoutBlankText]

end Record

end TableJoin
