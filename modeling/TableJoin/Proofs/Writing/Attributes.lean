import Mathlib.Data.List.Nodup
import TableJoin.Proofs.Reading.Decoding
import TableJoin.Proofs.Record.ReadBack
import TableJoin.Proofs.Schema.Table
import TableJoin.Proofs.Writing.Printed
import TableJoin.Writing.Records

/-!
The attributes of a record are written under different names and read back into the
features that they come from.
-/

namespace TableJoin.Writing

open Markup Schema

/-- Of attributes with different local names the last one of a name is the only one. -/
theorem lastNamed?_of_mem {as : List Attribute} (h : (as.map (·.localName)).Nodup)
    {a : Attribute} (ha : a ∈ as) : Attribute.lastNamed? a.localName as = some a := by
  have hnodup : (as.reverse.map (·.localName)).Nodup := by
    rw [List.map_reverse, List.nodup_reverse]
    exact h
  have hmem := List.mem_reverse.mpr ha
  unfold Attribute.lastNamed?
  generalize as.reverse = bs at hnodup hmem
  induction bs with
  | nil => cases hmem
  | cons b bs ih =>
    rw [List.map_cons, List.nodup_cons] at hnodup
    rcases List.mem_cons.mp hmem with rfl | hmem
    · simp
    · have hne : b.localName ≠ a.localName := by
        intro heq
        exact hnodup.1 (heq ▸ List.mem_map_of_mem hmem)
      simp only [List.find?_cons, hne, decide_false]
      exact ih hnodup.2 hmem

theorem lastNamed?_eq_none {as : List Attribute} {name : String}
    (h : ∀ a ∈ as, a.localName ≠ name) : Attribute.lastNamed? name as = none := by
  rw [Attribute.lastNamed?, List.find?_eq_none]
  intro a ha
  simpa using h a (List.mem_reverse.mp ha)

section Record

variable {r : Record}

/-- The attribute that an entry of a record is written as, if it is one. -/
theorem written_eq_some {p : Feature × List Item} {a : QName × String} :
    (match p.1.shape, p.2 with
      | .attribute _, item :: _ => some (p.1.xmlName, item.toText)
      | _, _ => none) = some a ↔
      p.1.shape.isAttribute = true ∧ ∃ x xs, p.2 = x :: xs ∧ a = (p.1.xmlName, x.toText) := by
  rcases p.1.shape with s | s | ⟨s, isList⟩
  · cases p.2 <;> simp [Shape.isAttribute, eq_comm]
  · simp [Shape.isAttribute]
  · simp [Shape.isAttribute]

/-- A written attribute comes from a feature that holds it. -/
theorem mem_attributes (hr : r.IsComplete) {a : QName × String} :
    a ∈ r.attributes ↔ ∃ i f, r.type.feature? i = some f ∧ f.shape.isAttribute = true ∧
      ∃ x xs, r.items i = x :: xs ∧ a = (f.xmlName, x.toText) := by
  rw [Record.attributes, List.mem_filterMap]
  constructor
  · rintro ⟨p, hp, ha⟩
    obtain ⟨i, hf, hi⟩ := hr.mem_entries.mp hp
    obtain ⟨hattribute, x, xs, hxs, ha⟩ := written_eq_some.mp ha
    exact ⟨i, p.1, hf, hattribute, x, xs, hi.trans hxs, ha⟩
  · rintro ⟨i, f, hf, hattribute, x, xs, hi, ha⟩
    refine ⟨(f, r.items i), hr.mem_entries.mpr ⟨i, hf, rfl⟩, ?_⟩
    exact (written_eq_some (p := (f, r.items i))).mpr ⟨hattribute, x, xs, hi, ha⟩

/-- No two attributes of a record share a local name. -/
theorem nodup_attributes (r : Record) : (r.attributes.map (·.1.localName)).Nodup := by
  rw [Record.attributes, List.Nodup, List.pairwise_map, List.pairwise_filterMap,
    List.pairwise_iff_getElem]
  intro i j hi hj hij a ha b hb heq
  obtain ⟨hattribute, x, xs, -, rfl⟩ := written_eq_some.mp ha
  obtain ⟨hattribute', y, ys, -, rfl⟩ := written_eq_some.mp hb
  simp only [Record.entries, List.get_eq_getElem, List.getElem_zip] at hattribute hattribute' heq
  have hsame := RecordType.eq_of_isAttribute (t := r.type) (List.getElem?_eq_getElem _)
    (List.getElem?_eq_getElem _) hattribute hattribute' heq
  omega

theorem writable_attributes (hr : r.IsComplete) : Writable r.attributes := by
  refine ⟨fun a ha => ?_, nodup_attributes r⟩
  obtain ⟨i, f, hf, hattribute, x, xs, -, rfl⟩ := (mem_attributes hr).mp ha
  apply RecordType.isLocalName_of_mem r.type f (List.mem_of_getElem? hf)
  cases hshape : f.shape <;> simp_all [Shape.isAttribute, Shape.isBody]

variable {o : EncodeOptions}

theorem nodup_readAttributes (o : EncodeOptions) (r : Record) :
    ((readAttributes o r.attributes).map (·.localName)).Nodup := by
  rw [readAttributes, List.map_map]
  exact nodup_attributes r

theorem mem_readAttributes (hr : r.IsComplete) {a : Attribute}
    (ha : a ∈ readAttributes o r.attributes) :
    ∃ i f, r.type.feature? i = some f ∧ f.shape.isAttribute = true ∧
      ∃ x xs, r.items i = x :: xs ∧ a.localName = f.xmlName.localName ∧ a.value = x.toText := by
  obtain ⟨b, hb, rfl⟩ := List.mem_map.mp ha
  obtain ⟨i, f, hf, hattribute, x, xs, hi, rfl⟩ := (mem_attributes hr).mp hb
  exact ⟨i, f, hf, hattribute, x, xs, hi, rfl, rfl⟩

theorem exists_scalar_of_attribute (hr : r.FitsSchema) {i : Nat} {f : Feature} {s : SimpleType}
    (hf : r.type.feature? i = some f) (hs : f.shape = .attribute s) {x : Item}
    (hx : x ∈ r.items i) : ∃ v : Scalar, x = .scalar v ∧ v.type = s := by
  have htype := (hr.admits_items hf).type_eq x hx
  rw [Feature.itemType, hs] at htype
  cases x with
  | record c => cases htype
  | scalar v => exact ⟨v, rfl, ItemType.simple.inj htype⟩

/-- Every attribute feature reads its own value back. -/
theorem attributeItems_readAttributes (hr : r.FitsSchema) {i : Nat}
    {f : Feature} {s : SimpleType} (hf : r.type.feature? i = some f)
    (hs : f.shape = .attribute s) :
    attributeItems s f.xmlName.localName (readAttributes o r.attributes) =
      (r.items i).filterMap Item.readBack? := by
  have hattribute : f.shape.isAttribute = true := by rw [hs]; rfl
  cases hi : r.items i with
  | nil =>
    rw [attributeItems, lastNamed?_eq_none, Option.elim_none]
    · rfl
    intro a ha heq
    obtain ⟨j, g, hg, hattribute', x, xs, hj, hname, -⟩ := mem_readAttributes hr.complete ha
    have hsame := RecordType.eq_of_isAttribute hg hf hattribute' hattribute (hname.symm.trans heq)
    rw [hsame, hi] at hj
    cases hj
  | cons x xs =>
    have hlist : f.isList = false := by simp [Feature.isList, hs]
    have hsingle := (hr.admits_items hf).single hlist
    rw [hi, List.length_cons] at hsingle
    obtain rfl : xs = [] := List.eq_nil_of_length_eq_zero (by omega)
    obtain ⟨v, rfl, rfl⟩ := exists_scalar_of_attribute hr hf hs (x := x) (by rw [hi]; simp)
    have hwritten := (mem_attributes hr.complete).mpr
      ⟨i, f, hf, hattribute, .scalar v, [], hi, rfl⟩
    have hmem := List.mem_map_of_mem (f := fun a : QName × String =>
      (⟨(splitRawName (o.qualify a.1).toList).1, a.1.localName, a.2⟩ : Attribute)) hwritten
    have hlast := lastNamed?_of_mem (nodup_readAttributes o r) hmem
    simp only at hlast
    rw [attributeItems, hlast, Option.elim_some, textItems]
    cases hback : v.readBack? <;>
      simp_all [Item.readBack?, Item.toText, Scalar.readBack?]

/-- A written attribute is refused exactly if its value is not legible. -/
theorem attributeFaults_eq_nil_iff (strict : Bool) (hr : r.FitsSchema) {i : Nat} {f : Feature}
    (hf : r.type.feature? i = some f) (hattribute : f.shape.isAttribute = true) {x : Item}
    (hx : x ∈ r.items i) {a : Attribute} (hname : a.localName = f.xmlName.localName)
    (hvalue : a.value = x.toText) :
    attributeFaults strict r.type a = [] ↔ x.IsLegibleWithin := by
  obtain ⟨s, hs⟩ := Shape.isAttribute_eq_true_iff.mp hattribute
  obtain ⟨v, rfl, rfl⟩ := exists_scalar_of_attribute hr hf hs hx
  have hfound := RecordType.attribute?_of_feature? hf hs
  rw [attributeFaults, hname, hfound, Item.isLegibleWithin_scalar, Scalar.readBack?]
  simp only [valueFaults, hvalue, Item.toText]
  cases v.type.read v.toText <;> simp [Except.toOption]

/-- Of the attributes of a written record none is refused exactly if all that they stand for
is legible. -/
theorem attributeFaults_readAttributes (strict : Bool) (hr : r.FitsSchema) :
    (readAttributes o r.attributes).flatMap (attributeFaults strict r.type) = [] ↔
      ∀ i f, r.type.feature? i = some f → f.shape.isAttribute = true →
        ∀ x ∈ r.items i, x.IsLegibleWithin := by
  rw [List.flatMap_eq_nil_iff]
  constructor
  · intro hnone i f hf hattribute x hx
    obtain ⟨s, hs⟩ := Shape.isAttribute_eq_true_iff.mp hattribute
    have hi := (hr.admits_items hf).eq_singleton (by rw [Feature.isList, hs]) hx
    have hwritten := (mem_attributes hr.complete).mpr ⟨i, f, hf, hattribute, x, [], hi, rfl⟩
    have hmem := List.mem_map_of_mem (f := fun a : QName × String =>
      (⟨(splitRawName (o.qualify a.1).toList).1, a.1.localName, a.2⟩ : Attribute)) hwritten
    exact (attributeFaults_eq_nil_iff strict hr hf hattribute hx rfl rfl).mp (hnone _ hmem)
  · intro hlegible a ha
    obtain ⟨i, f, hf, hattribute, x, xs, hi, hname, hvalue⟩ := mem_readAttributes hr.complete ha
    have hx : x ∈ r.items i := by
      rw [hi]
      exact List.mem_cons_self
    exact (attributeFaults_eq_nil_iff strict hr hf hattribute hx hname hvalue).mpr
      (hlegible i f hf hattribute x hx)

end Record

end TableJoin.Writing
