import Mathlib.Logic.Relation
import TableJoin.Document.Basic
import TableJoin.Proofs.Validation.Rules
import TableJoin.Record.Construction

/-!
The walk of validation: it comes to every contained record once, a record before what it
contains, and reports the rules that are broken there.
-/

namespace TableJoin

open Schema

/-- The records that a record holds itself, with their paths: in the order of the features,
and those of a list in its order and counted from one. -/
def Record.childrenAt (path : String) (r : Record) : List (String × Record) :=
  r.entries.flatMap fun (f, items) =>
    if f.isContainment then
      ((items.filterMap Item.record?).zipIdx 1).map fun (c, n) => (childPath path f n, c)
    else []

/-- The record holds the other one in a feature for contained records. -/
def Record.Contains (r c : Record) : Prop :=
  ∃ f, (f, c) ∈ r.children

theorem Item.mem_filterMap_record? {xs : List Item} {c : Record} :
    c ∈ xs.filterMap Item.record? ↔ Item.record c ∈ xs := by
  rw [List.mem_filterMap]
  constructor
  · rintro ⟨x, hx, hrecord⟩
    cases x with
    | scalar s => cases hrecord
    | record c' =>
      cases hrecord
      exact hx
  · exact fun h => ⟨.record c, h, rfl⟩

namespace Record

variable {r c : Record} {path : String} {p : String × Record}

/-- Only the paths are new in the children with their paths. -/
theorem map_childrenAt (path : String) (r : Record) :
    (r.childrenAt path).map Prod.snd = r.children.map Prod.snd := by
  rw [childrenAt, children, List.map_flatMap, List.map_flatMap]
  congr 1
  funext ⟨f, items⟩
  by_cases hf : f.isContainment = true
  · simp [hf, Function.comp_def]
  · simp [hf]

theorem contains_iff_mem_childrenAt (path : String) :
    r.Contains c ↔ ∃ q, (q, c) ∈ r.childrenAt path := by
  have h := congrArg (c ∈ ·) (map_childrenAt path r)
  simpa [Contains] using h.symm

theorem exists_mem_slots_of_contains (h : r.Contains c) : ∃ xs ∈ r.slots, Item.record c ∈ xs := by
  obtain ⟨f, hc⟩ := h
  obtain ⟨⟨g, items⟩, hentry, hc⟩ := List.mem_flatMap.mp hc
  refine ⟨items, (List.of_mem_zip hentry).2, ?_⟩
  by_cases hg : g.isContainment = true
  · simp only [hg, ↓reduceIte] at hc
    obtain ⟨c', hc', heq⟩ := List.mem_map.mp hc
    cases heq
    exact Item.mem_filterMap_record?.mp hc'
  · simp [hg] at hc

theorem Everywhere.of_contains {P : Record → Prop} (h : r.Everywhere P) (hc : r.Contains c) :
    c.Everywhere P := by
  obtain ⟨xs, hxs, hmem⟩ := exists_mem_slots_of_contains hc
  exact h.of_mem hxs hmem

theorem sizeOf_lt_of_contains (h : r.Contains c) : sizeOf c < sizeOf r := by
  obtain ⟨xs, hxs, hmem⟩ := exists_mem_slots_of_contains h
  have hlist := List.sizeOf_lt_of_mem hxs
  have hitem := List.sizeOf_lt_of_mem hmem
  cases r
  simp only [Item.record.sizeOf_spec, mk.sizeOf_spec] at *
  omega

theorem contains_of_mem_childrenAt (h : p ∈ r.childrenAt path) : r.Contains p.2 :=
  (contains_iff_mem_childrenAt path).mpr ⟨p.1, h⟩

/-- The record at a path and all that it contains, at any depth, with their paths: a record
before its children, and each of these with all that it contains before the next one. -/
def located (path : String) (r : Record) : List (String × Record) :=
  (path, r) :: (r.childrenAt path).attach.flatMap fun p => located p.1.1 p.1.2
termination_by sizeOf r
decreasing_by exact sizeOf_lt_of_contains (contains_of_mem_childrenAt p.2)

theorem located_eq (path : String) (r : Record) : r.located path =
    (path, r) :: (r.childrenAt path).flatMap fun p => p.2.located p.1 := by
  rw [located, List.flatMap_subtype (g := fun p => p.2.located p.1) fun _ _ => rfl,
    List.unattach_attach]

end Record

namespace Item

variable {path : String}

/-- A feature of contained records holds nothing but these. -/
theorem listViolations_eq (f : Feature) (xs : List Item) : ∀ n,
    (∀ x ∈ xs, x.type.isRecord = true) → listViolations path f n xs =
      ((xs.filterMap record?).zipIdx n).flatMap fun p => p.1.violationsFrom (childPath path f p.2) := by
  induction xs with
  | nil => exact fun n _ => rfl
  | cons x xs ih =>
    intro n hrecords
    obtain ⟨hx, hrest⟩ := List.forall_mem_cons.mp hrecords
    match x, hx with
    | .record c, _ =>
      rw [listViolations, ih (n + 1) hrest]
      simp [violations, record?]

theorem listViolations_eq_nil (f : Feature) (xs : List Item) : ∀ n,
    (∀ x ∈ xs, x.type.isRecord = false) → listViolations path f n xs = [] := by
  induction xs with
  | nil => exact fun n _ => rfl
  | cons x xs ih =>
    intro n hscalars
    obtain ⟨hx, hrest⟩ := List.forall_mem_cons.mp hscalars
    match x, hx with
    | .scalar s, _ =>
      rw [listViolations, ih (n + 1) hrest]
      rfl

theorem slotViolations_eq (path : String) (fs : List Feature) : ∀ slots : List (List Item),
    slotViolations path fs slots =
      (fs.zip slots).flatMap fun p => listViolations path p.1 1 p.2 := by
  induction fs with
  | nil => exact fun slots => by cases slots <;> rfl
  | cons f fs ih =>
    intro slots
    cases slots with
    | nil => rfl
    | cons xs slots => rw [slotViolations, ih slots, List.zip_cons_cons, List.flatMap_cons]

end Item

/-- What is reported of the record at a path: the problem with each rule of its type that it
breaks. -/
def Record.breaches (path : String) (r : Record) : List Violation :=
  r.type.rules.flatMap fun rule => (rule.problems r).map (⟨path, r.type, ·⟩)

namespace Record

variable {r s : Record} {path : String}

/-- What is reported of a record and of what its features hold. -/
theorem FitsSchema.violationsFrom_eq (h : r.FitsSchema) (path : String) : r.violationsFrom path =
    r.breaches path ++ (r.childrenAt path).flatMap fun p => p.2.violationsFrom p.1 := by
  have hself : (r.ownProblems.map (⟨path, r.type, ·⟩) : List Violation) = r.breaches path := by
    rw [h.ownProblems_eq, List.map_flatMap]
    rfl
  have hslots : Item.slotViolations path r.type.features r.slots =
      (r.childrenAt path).flatMap fun p => p.2.violationsFrom p.1 := by
    rw [Item.slotViolations_eq, childrenAt, List.flatMap_assoc]
    apply List.flatMap_congr
    rintro ⟨f, xs⟩ hp
    -- records stand in the features for records only, and nothing else stands there
    have htype := (h.admits _ hp).type_eq
    by_cases hf : f.isContainment = true
    · simp only [hf, ↓reduceIte]
      rw [Item.listViolations_eq f xs 1 fun x hx => by rw [htype x hx]; exact hf, List.flatMap_map]
    · simp only [hf, Bool.false_eq_true, ↓reduceIte]
      rw [Bool.not_eq_true] at hf
      exact Item.listViolations_eq_nil f xs 1 fun x hx => by rw [htype x hx]; exact hf
  rw [← hself, ← hslots]
  cases r
  rfl

/-- The walk reports what the records break that it comes to, in its order. -/
theorem Everywhere.violationsFrom_eq (path : String) (r : Record) (h : r.Everywhere FitsSchema) :
    r.violationsFrom path = (r.located path).flatMap fun p => p.2.breaches p.1 := by
  induction path, r using located.induct with
  | case1 path r ih =>
    rw [h.self.violationsFrom_eq, located_eq, List.flatMap_cons, List.flatMap_assoc]
    congr 1
    apply List.flatMap_congr
    intro p hp
    exact ih ⟨p, hp⟩ (h.of_contains (contains_of_mem_childrenAt hp))

/-- The walk comes to the records that can be reached by going from records to what they
hold. -/
theorem exists_mem_located (path : String) (r : Record) :
    (∃ q, (q, s) ∈ r.located path) ↔ Relation.ReflTransGen Contains r s := by
  constructor
  · rintro ⟨q, hq⟩
    induction path, r using located.induct with
    | case1 path r ih =>
      rw [located_eq, List.mem_cons, List.mem_flatMap] at hq
      rcases hq with heq | ⟨p, hp, hq⟩
      · cases heq
        exact .refl
      · exact .head (contains_of_mem_childrenAt hp) (ih ⟨p, hp⟩ hq)
  · intro h
    -- what is reached from a child is in the part of the walk that begins there
    induction h using Relation.ReflTransGen.head_induction_on generalizing path with
    | refl => exact ⟨path, by rw [located_eq]; exact List.mem_cons_self⟩
    | head hrc _ ih =>
      obtain ⟨q, hq⟩ := (contains_iff_mem_childrenAt path).mp hrc
      obtain ⟨q', hq'⟩ := ih q
      refine ⟨q', ?_⟩
      rw [located_eq]
      exact List.mem_cons_of_mem _ (List.mem_flatMap.mpr ⟨_, hq, hq'⟩)

theorem breaches_eq_nil_iff : r.breaches path = [] ↔ ∀ rule ∈ r.type.rules, rule.Holds r := by
  rw [breaches, List.flatMap_eq_nil_iff]
  apply forall₂_congr
  intro rule _
  by_cases h : rule.Holds r
  · simp [Rule.problems, h]
  · simp [Rule.problems, h]

/-- Nothing is reported exactly if all rules hold in every record that can be reached. -/
theorem Everywhere.violationsFrom_eq_nil_iff (h : r.Everywhere FitsSchema) :
    r.violationsFrom path = [] ↔
      ∀ s, Relation.ReflTransGen Contains r s → ∀ rule ∈ s.type.rules, rule.Holds s := by
  rw [violationsFrom_eq path r h, List.flatMap_eq_nil_iff]
  constructor
  · intro hall s hs
    obtain ⟨q, hq⟩ := (exists_mem_located path r).mpr hs
    exact breaches_eq_nil_iff.mp (hall _ hq)
  · rintro hall ⟨q, s⟩ hq
    exact breaches_eq_nil_iff.mpr (hall s ((exists_mem_located path r).mp ⟨q, hq⟩))

end Record

/-- A document is refused for the first thing that is reported of it, and for nothing else. -/
theorem Document.check_eq_error {d : Document} {e : DocumentError} : d.check = .error e ↔
    ∃ v ∈ d.violations.head?, e = .invalid v.path v.problem.message := by
  rw [check]
  cases d.violations with
  | nil => simp
  | cons v rest => simp [eq_comm]

namespace Record

variable {r : Record}

/-- Validation reports exactly what is broken, in the order of the walk: for each record that
the walk comes to, the rules of its type that it breaks.  Nothing is reported exactly if all
rules hold in every record that can be reached, and a document is refused for the first thing
that is reported of it. -/
theorem Everywhere.reports_breaches (h : r.Everywhere FitsSchema) :
    (∀ path, r.violationsFrom path = (r.located path).flatMap fun p => p.2.breaches p.1) ∧
    (r.violations = [] ↔
      ∀ s, Relation.ReflTransGen Contains r s → ∀ rule ∈ s.type.rules, rule.Holds s) ∧
    ∀ d : Document, d.content = r → ∀ e, d.check = .error e ↔
      ∃ v ∈ (r.violationsFrom d.root.name).head?, e = .invalid v.path v.problem.message := by
  refine ⟨fun path => Everywhere.violationsFrom_eq path r h, h.violationsFrom_eq_nil_iff, ?_⟩
  rintro d rfl e
  exact Document.check_eq_error

/-- Rows, the only one of which holds nothing. -/
def bareRows : Record :=
  (empty .dataRowset).having "row" (Construction.record (empty .dataRow))

theorem reports_breaches_bareRows : bareRows.Everywhere FitsSchema ∧
    ¬ ∀ s, Relation.ReflTransGen Contains bareRows s → ∀ rule ∈ s.type.rules, rule.Holds s := by
  have hfits : bareRows.Everywhere FitsSchema := by decide +kernel
  refine ⟨hfits, fun hall => ?_⟩
  have hnone : bareRows.violations = [] := hfits.reports_breaches.2.1.mpr hall
  exact absurd hnone (by decide +kernel)

end Record

end TableJoin
