import TableJoin.Record.Basic

/-!
What a record contains at any depth, and induction along containment.
-/

namespace TableJoin

mutual

/-- The record and all records that it contains, at any depth. -/
def Record.within : Record → List Record
  | ⟨t, slots⟩ => ⟨t, slots⟩ :: Item.withinSlots slots
termination_by structural r => r

def Item.within : Item → List Record
  | .scalar _ => []
  | .record r => r.within
termination_by structural x => x

def Item.withinList : List Item → List Record
  | [] => []
  | x :: xs => x.within ++ Item.withinList xs
termination_by structural xs => xs

def Item.withinSlots : List (List Item) → List Record
  | [] => []
  | xs :: slots => Item.withinList xs ++ Item.withinSlots slots
termination_by structural slots => slots

end

theorem Item.mem_withinList {s : Record} {xs : List Item} :
    s ∈ Item.withinList xs ↔ ∃ x ∈ xs, s ∈ x.within := by
  induction xs with
  | nil => simp [withinList]
  | cons x xs ih => simp [withinList, ih]

theorem Item.mem_withinSlots {s : Record} {slots : List (List Item)} :
    s ∈ Item.withinSlots slots ↔ ∃ xs ∈ slots, ∃ x ∈ xs, s ∈ x.within := by
  induction slots with
  | nil => simp [withinSlots]
  | cons xs slots ih => simp [withinSlots, Item.mem_withinList, ih]

namespace Record

theorem mem_within_self (r : Record) : r ∈ r.within := by
  cases r
  exact List.mem_cons_self

theorem mem_within {r s : Record} :
    s ∈ r.within ↔ s = r ∨ ∃ xs ∈ r.slots, ∃ x ∈ xs, s ∈ x.within := by
  cases r with
  | mk t slots => simp only [within, List.mem_cons, Item.mem_withinSlots]

/-- The property holds of the record and of all records in it. -/
def Everywhere (P : Record → Prop) (r : Record) : Prop :=
  ∀ s ∈ r.within, P s

instance (P : Record → Prop) [DecidablePred P] (r : Record) : Decidable (r.Everywhere P) := by
  unfold Everywhere
  infer_instance

variable {P Q : Record → Prop} {r : Record}

theorem Everywhere.self (h : r.Everywhere P) : P r := h r r.mem_within_self

/-- What holds everywhere in a record holds everywhere in the records of its items. -/
theorem Everywhere.of_mem (h : r.Everywhere P) {xs : List Item} (hxs : xs ∈ r.slots) {x : Item}
    (hx : x ∈ xs) : ∀ s ∈ x.within, P s :=
  fun s hs => h s (mem_within.mpr (.inr ⟨xs, hxs, x, hx, hs⟩))

theorem everywhere_iff :
    r.Everywhere P ↔ P r ∧ ∀ xs ∈ r.slots, ∀ x ∈ xs, ∀ s ∈ x.within, P s := by
  constructor
  · intro h
    exact ⟨h.self, fun xs hxs x hx => h.of_mem hxs hx⟩
  · rintro ⟨hself, hitems⟩ s hs
    rcases mem_within.mp hs with rfl | ⟨xs, hxs, x, hx, hs⟩
    · exact hself
    · exact hitems xs hxs x hx s hs

end Record

mutual

/-- Induction along containment: a property that every record has if the records in
its items have it holds of all records. -/
theorem Record.induction {P : Record → Prop}
    (step : ∀ r : Record, (∀ xs ∈ r.slots, ∀ c, Item.record c ∈ xs → P c) → P r) :
    (r : Record) → P r
  | ⟨t, slots⟩ => step ⟨t, slots⟩ (Item.induction_slots step slots)

theorem Item.induction_slots {P : Record → Prop}
    (step : ∀ r : Record, (∀ xs ∈ r.slots, ∀ c, Item.record c ∈ xs → P c) → P r) :
    (slots : List (List Item)) → ∀ xs ∈ slots, ∀ c, Item.record c ∈ xs → P c
  | [], _, hxs, _, _ => by cases hxs
  | xs :: slots, ys, hys, c, hc => by
    by_cases heq : ys = xs
    · exact Item.induction_list step xs c (heq ▸ hc)
    · exact Item.induction_slots step slots ys (List.mem_of_ne_of_mem heq hys) c hc

theorem Item.induction_list {P : Record → Prop}
    (step : ∀ r : Record, (∀ xs ∈ r.slots, ∀ c, Item.record c ∈ xs → P c) → P r) :
    (xs : List Item) → ∀ c, Item.record c ∈ xs → P c
  | [], _, hc => by cases hc
  | .scalar _ :: xs, c, hc => by
    rcases List.mem_cons.mp hc with heq | hc
    · cases heq
    · exact Item.induction_list step xs c hc
  | .record r :: xs, c, hc => by
    rcases List.mem_cons.mp hc with heq | hc
    · cases heq
      exact Record.induction step r
    · exact Item.induction_list step xs c hc

end

end TableJoin
