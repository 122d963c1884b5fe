import TableJoin.Proofs.Reading.ByName
import TableJoin.Record.Named
import TableJoin.Validation

/-!
Elements that differ in their last child only: the record of the one is that of the other with
the child's record in its place, and nothing is refused or reported of the one but what is
refused or reported of the child.
-/

namespace TableJoin.Markup

open Schema

/-- The elements are the same but for their last children, which have the same local name, and
no other child element has. -/
structure Element.SwapsLast (e e' : Element) (c c' : Element) : Prop where
  attributes : e'.attributes = e.attributes
  ownText : e'.ownText = e.ownText
  elements : ∃ es, Part.elements e.parts = es ++ [c] ∧ Part.elements e'.parts = es ++ [c'] ∧
    ∀ d ∈ es, d.name ≠ c.name
  name : c'.name = c.name

/-- A feature for one record holds that of the only child of its name. -/
theorem Element.itemsOf_eq_singleton {e c : Element} {s : RecordType} {f : Feature}
    (hshape : f.shape = .element (.record s) false)
    (hnamed : named f.xmlName.localName (Part.elements e.parts) = [c]) :
    e.itemsOf f = [.record (c.record s)] := by
  rw [itemsOf, itemsWith, hshape]
  simp only [Part.items_eq_named, hnamed, Bool.false_eq_true, ↓reduceIte, List.head?_cons,
    Option.toList_some, List.filterMap_cons, item?_record, List.filterMap_nil]

/-- The slot of a feature in the record that an element amounts to. -/
theorem Element.items_record {t : RecordType} {i : Nat} {f : Feature} (e : Element)
    (hf : t.feature? i = some f) : (e.record t).items i = e.itemsOf f := by
  have hslot : (t.features.map e.itemsOf)[i]? = some (e.itemsOf f) := by
    rw [List.getElem?_map]
    exact congrArg (Option.map e.itemsOf) hf
  rw [Record.items, record, List.getD_eq_getElem?_getD, hslot, Option.getD_some]

namespace Element.SwapsLast

variable {e e' c c' : Element} {t s : RecordType} {i : Nat}

theorem named_self (h : SwapsLast e e' c c') :
    named c.name (Part.elements e.parts) = [c] ∧ named c.name (Part.elements e'.parts) = [c'] := by
  obtain ⟨es, helements, helements', hother⟩ := h.elements
  have hnone : es.filter (·.name = c.name) = [] := by
    simpa [List.filter_eq_nil_iff] using hother
  simp [named, helements, helements', hnone, h.name]

theorem named_other (h : SwapsLast e e' c c') {name : String} (hname : name ≠ c.name) :
    named name (Part.elements e'.parts) = named name (Part.elements e.parts) := by
  obtain ⟨es, helements, helements', -⟩ := h.elements
  simp [named, helements, helements', h.name, hname.symm]

/-- The record of the child stands alone in its feature. -/
theorem items_eq (h : SwapsLast e e' c c')
    (hfeature : t.element? c.name = some (i, .record s, false)) :
    (e.record t).items i = [.record (c.record s)] := by
  obtain ⟨f, hf, hshape, hname⟩ := RecordType.feature?_of_element? hfeature
  rw [items_record e hf]
  exact itemsOf_eq_singleton hshape (hname ▸ h.named_self.1)

theorem record_eq (h : SwapsLast e e' c c')
    (hfeature : t.element? c.name = some (i, .record s, false)) :
    e'.record t = (e.record t).put i [.record (c'.record s)] := by
  obtain ⟨f, hf, hshape, hname⟩ := RecordType.feature?_of_element? hfeature
  have hslot : ∀ j g, t.feature? j = some g →
      e'.itemsOf g = if i = j then [.record (c'.record s)] else e.itemsOf g := by
    intro j g hg
    split
    · next hij =>
      subst hij
      cases hf.symm.trans hg
      exact itemsOf_eq_singleton hshape (hname ▸ h.named_self.2)
    · next hij =>
      rw [itemsOf, itemsOf, itemsWith, itemsWith, h.attributes, h.ownText]
      cases hg' : g.shape with
      | element u isList =>
        have hne := RecordType.localName_ne_of_element? hfeature hg hij
          (Shape.isElement_eq_true_iff.mpr ⟨u, isList, hg'⟩)
        simp only [Part.items_eq_named, h.named_other hne]
      | _ => rfl
  have hslots : t.features.map e'.itemsOf =
      (t.features.map e.itemsOf).set i [.record (c'.record s)] := by
    apply List.ext_getElem?
    intro j
    rw [List.getElem?_set, List.getElem?_map, List.getElem?_map, List.length_map]
    cases hg : t.features[j]? with
    | none =>
      have hj := List.getElem?_eq_none_iff.mp hg
      simp only [Option.map_none]
      split
      · rw [if_neg (by omega)]
      · rfl
    | some g =>
      have hj := (List.getElem?_eq_some_iff.mp hg).1
      simp only [Option.map_some, hslot j g hg]
      split
      · rw [if_pos (by omega)]
      · rfl
  rw [record, hslots]
  rfl

theorem faults_eq_nil_iff (hfeature : t.element? c.name = some (i, .record s, false))
    {strict : Bool} : e.faults strict (.record t) = [] ↔
      e.attributes.flatMap (attributeFaults strict t) = [] ∧
        (strict = true → Text.isBlankText e.ownText = true) ∧
          ∀ name, t.Accepts strict false name (named name (Part.elements e.parts)) := by
  have hbody : t.body? = none := by
    obtain ⟨f, hf, hshape, -⟩ := RecordType.feature?_of_element? hfeature
    cases hsome : t.body? with
    | none => rfl
    | some p =>
      have hnone := (RecordType.bodyAlone t p hsome).2 f (List.mem_of_getElem? hf)
      rw [hshape] at hnone
      cases hnone
  rw [faults_record, List.append_eq_nil_iff, hbody, Part.faults_eq_nil_iff]
  rfl

/-- Where nothing is refused of an element, nothing is of its last child. -/
theorem faults_child (h : SwapsLast e e' c c')
    (hfeature : t.element? c.name = some (i, .record s, false)) {strict : Bool}
    (hfaults : e.faults strict (.record t) = []) : c.faults strict (.record s) = [] := by
  have hchild := ((faults_eq_nil_iff hfeature).mp hfaults).2.2 c.name
  rw [h.named_self.1] at hchild
  simpa [RecordType.Accepts, hfeature] using hchild

/-- Nothing is refused of the one if nothing is of the other, and nothing of the child. -/
theorem faults_eq_nil (h : SwapsLast e e' c c')
    (hfeature : t.element? c.name = some (i, .record s, false)) {strict : Bool}
    (hfaults : e.faults strict (.record t) = []) (hchild : c'.faults strict (.record s) = []) :
    e'.faults strict (.record t) = [] := by
  obtain ⟨hattributes, hblank, haccepts⟩ := (faults_eq_nil_iff hfeature).mp hfaults
  refine (faults_eq_nil_iff hfeature).mpr
    ⟨by rwa [h.attributes], by rwa [h.ownText], fun name => ?_⟩
  by_cases hname : name = c.name
  · rw [hname, h.named_self.2]
    simp [RecordType.Accepts, hfeature, hchild]
  · rw [h.named_other hname]
    exact haccepts name

end Element.SwapsLast

end TableJoin.Markup

namespace TableJoin

open Schema

/-- Where nothing is reported, a record that takes the place of the items of a feature is all
that something is reported of. -/
theorem Item.slotViolations_set {path : String} {c : Record} {f : Feature}
    {slots : List (List Item)} : ∀ {fs : List Feature} {i : Nat}, fs[i]? = some f → i < slots.length →
      slotViolations path fs slots = [] →
        slotViolations path fs (slots.set i [.record c]) =
          c.violationsFrom (childPath path f 1) := by
  induction slots with
  | nil => exact fun _ hi => absurd hi (Nat.not_lt_zero _)
  | cons xs slots ih =>
    intro fs i hf hi hnone
    cases fs with
    | nil => cases hf
    | cons g fs =>
      rw [slotViolations, List.append_eq_nil_iff] at hnone
      cases i with
      | zero =>
        cases hf
        rw [List.set_cons_zero, slotViolations, hnone.2]
        simp [listViolations, violations]
      | succ i =>
        rw [List.set_cons_succ, slotViolations, hnone.1, List.nil_append]
        exact ih hf (Nat.lt_of_succ_lt_succ hi) hnone.2

namespace Record

variable {r c c' : Record} {i : Nat}

theorem getElem?_slots (hitems : r.items i = [.record c]) : r.slots[i]? = some [.record c] := by
  rw [Record.items, List.getD_eq_getElem?_getD] at hitems
  cases hslot : r.slots[i]? with
  | none =>
    rw [hslot] at hitems
    cases hitems
  | some xs =>
    rw [hslot] at hitems
    rw [← hitems]
    rfl

/-- What is missing stays so if one record gives way to another one. -/
theorem filterMap_missing?_set {slots : List (List Item)} : ∀ {fs : List Feature} {i : Nat},
    slots[i]? = some [.record c] →
      (fs.zip (slots.set i [.record c'])).filterMap (fun (f, items) => missing? f items) =
        (fs.zip slots).filterMap (fun (f, items) => missing? f items) := by
  induction slots with
  | nil => exact fun _ => rfl
  | cons xs slots ih =>
    intro fs i hslot
    cases fs with
    | nil => rfl
    | cons g fs =>
      cases i with
      | zero =>
        cases hslot
        simp [missing?]
      | succ i => simp only [List.set_cons_succ, List.zip_cons_cons, List.filterMap_cons, ih hslot]

/-- The features that are set stay the same if one record gives way to another one. -/
theorem ownProblems_put (hitems : r.items i = [.record c]) (htype : r.type ≠ .getCapabilities) :
    (r.put i [.record c']).ownProblems = r.ownProblems := by
  have hslot := getElem?_slots hitems
  have hi : i < r.slots.length := (List.getElem?_eq_some_iff.mp hslot).1
  have hmissing : (r.put i [.record c']).entries.filterMap (fun (f, items) => missing? f items) =
      r.entries.filterMap (fun (f, items) => missing? f items) := filterMap_missing?_set hslot
  have hholds : (r.put i [.record c']).holdsNamed = r.holdsNamed := by
    funext name
    rw [holdsNamed, holdsNamed, itemsNamed, itemsNamed, type_put]
    cases r.type.indexOf? name with
    | none => rfl
    | some j =>
      by_cases hj : i = j
      · subst hj
        simp only [Option.elim_some, items_put_self r hi, hitems, List.isEmpty_cons]
      · simp only [Option.elim_some, items_put_of_ne r hj]
  have hcount : (r.put i [.record c']).countSet = r.countSet := by
    funext names
    rw [countSet, countSet, hholds]
  have hchoice : (r.put i [.record c']).choiceProblem? = r.choiceProblem? := by
    rw [choiceProblem?, choiceProblem?, type_put, hcount]
  have hsections : (r.put i [.record c']).sectionsProblem? = r.sectionsProblem? := by
    rw [sectionsProblem?, sectionsProblem?, type_put, if_neg htype, if_neg htype]
  rw [ownProblems, ownProblems, hmissing, hchoice, hsections]

/-- Where nothing is reported of a record, what is reported with another record in a feature
for one is reported of that record. -/
theorem violationsFrom_put {path : String} {f : Feature} (hf : r.type.feature? i = some f)
    (hitems : r.items i = [.record c]) (htype : r.type ≠ .getCapabilities)
    (hnone : r.violationsFrom path = []) :
    (r.put i [.record c']).violationsFrom path = c'.violationsFrom (childPath path f 1) := by
  have hi := (List.getElem?_eq_some_iff.mp (getElem?_slots hitems)).1
  have hown : (r.put i [.record c']).ownProblems = r.ownProblems := ownProblems_put hitems htype
  obtain ⟨t, slots⟩ := r
  rw [violationsFrom, List.append_eq_nil_iff, List.map_eq_nil_iff] at hnone
  rw [hnone.1, put] at hown
  rw [put, violationsFrom, hown, List.map_nil, List.nil_append]
  exact Item.slotViolations_set hf hi hnone.2

end Record

namespace Markup.Element.SwapsLast

variable {e e' c c' : Element} {t s : RecordType} {i : Nat} {f : Feature} {path : String}

theorem left (h : SwapsLast e e' c c') : SwapsLast e e c c where
  attributes := rfl
  ownText := rfl
  elements := by
    obtain ⟨es, helements, -, hother⟩ := h.elements
    exact ⟨es, helements, helements, hother⟩
  name := rfl

/-- Where nothing is reported of the one, what is reported of the other is what is reported of
the child. -/
theorem violationsFrom_eq (h : SwapsLast e e' c c')
    (hfeature : t.element? c.name = some (i, .record s, false)) (hf : t.feature? i = some f)
    (htype : t ≠ .getCapabilities) (hnone : (e.record t).violationsFrom path = []) :
    (e'.record t).violationsFrom path = (c'.record s).violationsFrom (childPath path f 1) := by
  rw [h.record_eq hfeature]
  exact Record.violationsFrom_put hf (h.items_eq hfeature) htype hnone

/-- Where nothing is reported of an element, nothing is of its last child. -/
theorem violationsFrom_child (h : SwapsLast e e' c c')
    (hfeature : t.element? c.name = some (i, .record s, false)) (hf : t.feature? i = some f)
    (htype : t ≠ .getCapabilities) (hnone : (e.record t).violationsFrom path = []) :
    (c.record s).violationsFrom (childPath path f 1) = [] := by
  rw [← h.left.violationsFrom_eq hfeature hf htype hnone, hnone]

end Markup.Element.SwapsLast

end TableJoin
