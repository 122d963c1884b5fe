import TableJoin.Proofs.Reading.Decoding
import TableJoin.Proofs.Record.ReadBack

/-!
Content that spells out a list of children: elements from which they are read back, in order,
with layout anywhere between.  What such content is decoded to depends on the
children alone.
-/

namespace TableJoin.Markup

open Schema

/-- An item that is written as a child element: under which local name, and read as which
type. -/
structure ChildItem where
  name : String
  type : ItemType
  item : Item

/-- The element amounts to what is read back of the child, and in both modes it is refused
exactly if something in the child is not legible. -/
structure Element.StandsFor (e : Element) (y : ChildItem) : Prop where
  name_eq : e.name = y.name
  item?_eq : e.item? y.type = y.item.readBack?
  faults_iff : ∀ strict, e.faults strict y.type = [] ↔ y.item.IsLegibleWithin

/-- The parts are elements for the children, in order, and layout. -/
inductive Spells : List Part → List ChildItem → Prop
  | nil : Spells [] []
  | layout {s : String} {ps : List Part} {ys : List ChildItem} :
      Text.isBlankText s = true → Spells ps ys → Spells (.text s :: ps) ys
  | element {e : Element} {y : ChildItem} {ps : List Part} {ys : List ChildItem} :
      e.StandsFor y → Spells ps ys → Spells (.element e :: ps) (y :: ys)

namespace Spells

variable {ps qs : List Part} {xs ys : List ChildItem}

theorem append (h : Spells ps xs) (h' : Spells qs ys) : Spells (ps ++ qs) (xs ++ ys) := by
  induction h with
  | nil => exact h'
  | layout hs _ ih => exact .layout hs ih
  | element he _ ih => exact .element he ih

theorem of_blank (h : ∀ p ∈ ps, ∃ s, p = .text s ∧ Text.isBlankText s = true) : Spells ps [] := by
  induction ps with
  | nil => exact .nil
  | cons p ps ih =>
    obtain ⟨s, rfl, hs⟩ := h p List.mem_cons_self
    exact .layout hs (ih fun q hq => h q (List.mem_cons_of_mem _ hq))

/-- A feature holds what is read back of the children of its name, if they are of its type, and
if they are one at most where it takes but one. -/
theorem items_eq (h : Spells ps ys) {s : ItemType} {isList : Bool} {name : String}
    (htype : ∀ y ∈ ys, y.name = name → y.type = s)
    (hsingle : isList = false → (ys.filter (·.name = name)).length ≤ 1) :
    Part.items s isList name ps = (ys.filter (·.name = name)).filterMap (·.item.readBack?) := by
  induction h with
  | nil => rfl
  | layout _ _ ih => exact ih htype hsingle
  | @element e y ps ys he _ ih =>
    have hrest := fun z hz => htype z (List.mem_cons_of_mem y hz)
    rw [Part.items]
    by_cases hname : y.name = name
    · have hitem : e.item? s = y.item.readBack? := by
        rw [← htype y List.mem_cons_self hname]
        exact he.item?_eq
      have hrestItems : (if isList = true then Part.items s isList name ps else []) =
          (ys.filter (·.name = name)).filterMap (·.item.readBack?) := by
        cases isList with
        | true => exact ih hrest fun hlist => by cases hlist
        | false =>
          have hlength := hsingle rfl
          simp only [hname, decide_true, List.filter_cons_of_pos, List.length_cons] at hlength
          rw [List.eq_nil_of_length_eq_zero (by omega : (ys.filter (·.name = name)).length = 0)]
          rfl
      rw [if_pos (he.name_eq.trans hname), hitem, hrestItems,
        List.filter_cons_of_pos (by simpa using hname)]
      cases hback : y.item.readBack? <;> simp [hback]
    · have hne : e.name ≠ name := by
        rw [he.name_eq]
        exact hname
      simp only [hne, ↓reduceIte, hname, decide_false, Bool.false_eq_true, not_false_eq_true,
        List.filter_cons_of_neg]
      apply ih hrest
      intro hlist
      simpa [hname] using hsingle hlist

end Spells

/-- The type declares the children, none of them again where it takes but one; `seen`
are the names of those before. -/
structure Declares (t : RecordType) (seen : List String) (ys : List ChildItem) : Prop where
  declared : ∀ y ∈ ys, ∃ i isList, t.element? y.name = some (i, y.type, isList) ∧
    (isList = false → y.name ∉ seen)
  repeated : ys.Pairwise fun y z => y.name = z.name →
    ∃ i s, t.element? y.name = some (i, s, true)

theorem Declares.tail {t : RecordType} {seen : List String} {y : ChildItem}
    {ys : List ChildItem} (h : Declares t seen (y :: ys)) : Declares t (y.name :: seen) ys := by
  obtain ⟨hfirst, hrest⟩ := List.pairwise_cons.mp h.repeated
  refine ⟨fun z hz => ?_, hrest⟩
  obtain ⟨i, isList, hfound, hunseen⟩ := h.declared z (List.mem_cons_of_mem y hz)
  refine ⟨i, isList, hfound, fun hlist hmem => ?_⟩
  rcases List.mem_cons.mp hmem with heq | hmem
  · obtain ⟨j, s, hagain⟩ := hfirst z hz heq.symm
    rw [← heq, hfound, hlist] at hagain
    cases hagain
  · exact hunseen hlist hmem

/-- Of content that spells out declared children nothing is refused exactly if all of them are
legible. -/
theorem Spells.faults_iff {ps : List Part} {ys : List ChildItem} (h : Spells ps ys)
    (strict : Bool) {t : RecordType} : ∀ {seen : List String}, Declares t seen ys →
      (Part.faults strict t seen ps = [] ↔ ∀ y ∈ ys, y.item.IsLegibleWithin) := by
  induction h with
  | nil => simp [Part.faults]
  | layout hs _ ih =>
    intro seen hdeclares
    rw [Part.faults, strayFaults, hs, if_pos rfl, List.nil_append]
    exact ih hdeclares
  | @element e y ps ys he _ ih =>
    intro seen hdeclares
    obtain ⟨i, isList, hfound, hunseen⟩ := hdeclares.declared y List.mem_cons_self
    have hfirst : (!isList && seen.contains y.name) = false := by
      cases isList with
      | true => rfl
      | false => simpa using hunseen rfl
    rw [Part.faults, he.name_eq, hfound]
    simp only [hfirst, Bool.false_eq_true, ↓reduceIte, List.append_eq_nil_iff, he.faults_iff,
      ih hdeclares.tail, List.forall_mem_cons]

end TableJoin.Markup
