import TableJoin.Proofs.Reading.Spelling
import TableJoin.Proofs.Writing.Attributes

/-!
The content that a record is written with, and an element with such content is
decoded to what is read back of the record.
-/

namespace TableJoin.Writing

open Markup Schema

/-- The children that the items of an entry are written as. -/
def childItems (p : Feature × List Item) : List ChildItem :=
  match p.1.shape with
  | .element s _ => p.2.map fun x => ⟨p.1.xmlName.localName, s, x⟩
  | _ => []

/-- The marks that an entry adds to the content of the record's element. -/
def entryMarks (p : Feature × List Item) : List Mark :=
  match p.1.shape with
  | .attribute _ => []
  | .body _ => textContent (p.2.head?.elim "" Item.toText)
  | .element _ _ => Item.listMarks p.1.xmlName p.2

theorem slotMarks_eq (slots : List (List Item)) :
    ∀ fs, Item.slotMarks fs slots = (fs.zip slots).flatMap entryMarks := by
  induction slots with
  | nil => intro fs; cases fs <;> rfl
  | cons xs slots ih =>
    intro fs
    cases fs with
    | nil => rfl
    | cons f fs =>
      rw [Item.slotMarks, ih, List.zip_cons_cons, List.flatMap_cons]
      rfl

theorem marks_eq (name : QName) (r : Record) :
    r.marks name = enclose name r.attributes (r.entries.flatMap entryMarks) := by
  cases r with
  | mk t slots => rw [Record.marks, slotMarks_eq, Record.entries]

/-- Where one element of a list alone gives anything, that is all there is. -/
theorem flatMap_eq_of_unique {α β : Type} {g : α → List β} {l : List α} {i : Nat} {a : α}
    (hi : l[i]? = some a) (hother : ∀ j b, l[j]? = some b → j ≠ i → g b = []) :
    l.flatMap g = g a := by
  induction l generalizing i with
  | nil => cases hi
  | cons b l ih =>
    rw [List.flatMap_cons]
    cases i with
    | zero =>
      cases hi
      have hrest : l.flatMap g = [] := by
        rw [List.flatMap_eq_nil_iff]
        intro c hc
        obtain ⟨j, hj⟩ := List.mem_iff_getElem?.mp hc
        exact hother (j + 1) c hj (by omega)
      rw [hrest, List.append_nil]
    | succ i =>
      have hhead : g b = [] := hother 0 b rfl (by omega)
      rw [hhead, List.nil_append]
      exact ih hi fun j c hj hne => hother (j + 1) c hj (by omega)

section Record

variable {r : Record}

theorem getElem?_entries {i : Nat} {p : Feature × List Item} (h : r.entries[i]? = some p) :
    r.type.feature? i = some p.1 ∧ r.items i = p.2 := by
  obtain ⟨hf, hxs⟩ := List.getElem?_zip_eq_some.mp h
  exact ⟨hf, by rw [Record.items, List.getD_eq_getElem?_getD, hxs]; rfl⟩

theorem getElem?_entries_of_feature? (hr : r.IsComplete) {i : Nat} {f : Feature}
    (hf : r.type.feature? i = some f) : r.entries[i]? = some (f, r.items i) := by
  have hlt : i < r.slots.length := by
    rw [hr]
    exact Record.lt_of_feature? hf
  refine List.getElem?_zip_eq_some.mpr ⟨hf, ?_⟩
  rw [Record.items, List.getD_eq_getElem?_getD, List.getElem?_eq_getElem hlt]
  rfl

theorem mem_childItems {p : Feature × List Item} {y : ChildItem} (hy : y ∈ childItems p) :
    ∃ isList, p.1.shape = .element y.type isList ∧ y.name = p.1.xmlName.localName ∧
      y.item ∈ p.2 := by
  unfold childItems at hy
  split at hy
  · next s isList hs =>
    obtain ⟨x, hx, rfl⟩ := List.mem_map.mp hy
    exact ⟨isList, hs, rfl, hx⟩
  · cases hy

/-- Of all children those with the name of a feature come from the feature. -/
theorem filter_childItems (hr : r.IsComplete) {i : Nat} {f : Feature} {s : ItemType}
    {isList : Bool} (hf : r.type.feature? i = some f) (hs : f.shape = .element s isList) :
    (r.entries.flatMap childItems).filter (·.name = f.xmlName.localName) =
      childItems (f, r.items i) := by
  have hself : (childItems (f, r.items i)).filter (·.name = f.xmlName.localName) =
      childItems (f, r.items i) := by
    rw [List.filter_eq_self]
    intro y hy
    obtain ⟨_, -, hname, -⟩ := mem_childItems hy
    simpa using hname
  rw [List.filter_flatMap, flatMap_eq_of_unique (getElem?_entries_of_feature? hr hf), hself]
  intro j p hj hne
  rw [List.filter_eq_nil_iff]
  intro y hy heq
  obtain ⟨isList', hshape, hname, -⟩ := mem_childItems hy
  have hg := (getElem?_entries hj).1
  have hsame := RecordType.eq_of_isElement hg hf (by rw [hshape]; rfl) (by rw [hs]; rfl)
    (hname.symm.trans (of_decide_eq_true heq))
  exact hne hsame

/-- A child is declared under its name, for the feature that it comes from. -/
theorem element?_of_mem_childItems {i : Nat} {p : Feature × List Item} {y : ChildItem}
    (hi : r.entries[i]? = some p) (hy : y ∈ childItems p) :
    r.type.element? y.name = some (i, y.type, p.1.isList) := by
  obtain ⟨isList, hshape, hname, -⟩ := mem_childItems hy
  rw [hname, Feature.isList, hshape]
  exact RecordType.element?_of_feature? (getElem?_entries hi).1 hshape

theorem pairwise_childItems {p : Feature × List Item} (hadmits : p.1.Admits p.2)
    (hlist : p.1.isList = false) (related : ChildItem → ChildItem → Prop) :
    (childItems p).Pairwise related := by
  have hsingle := hadmits.single hlist
  unfold childItems
  split
  · rw [List.pairwise_map]
    rcases hitems : p.2 with _ | ⟨x, _ | ⟨y, xs⟩⟩
    · exact List.Pairwise.nil
    · exact List.pairwise_singleton _ x
    · rw [hitems] at hsingle
      simp at hsingle
  · exact List.Pairwise.nil

theorem declares_childItems (hr : r.FitsSchema) :
    Declares r.type [] (r.entries.flatMap childItems) := by
  constructor
  · intro y hy
    obtain ⟨p, hp, hy⟩ := List.mem_flatMap.mp hy
    obtain ⟨i, hi⟩ := List.mem_iff_getElem?.mp hp
    exact ⟨i, p.1.isList, element?_of_mem_childItems hi hy, fun _ hmem => by cases hmem⟩
  · rw [List.pairwise_flatMap]
    constructor
    · intro p hp
      obtain ⟨i, hi⟩ := List.mem_iff_getElem?.mp hp
      cases hlist : p.1.isList with
      | true =>
        apply List.pairwise_of_forall_mem_list
        intro y hy z _ _
        exact ⟨i, y.type, by rw [element?_of_mem_childItems hi hy, hlist]⟩
      | false => exact pairwise_childItems (hr.admits p hp) hlist _
    · -- Children of different features have different names.
      rw [List.pairwise_iff_getElem]
      intro i j hi hj hij y hy z hz heq
      have hfound := element?_of_mem_childItems (List.getElem?_eq_getElem hi) hy
      have hfound' := element?_of_mem_childItems (List.getElem?_eq_getElem hj) hz
      rw [heq, hfound'] at hfound
      injection hfound with hpair
      have hsame := congrArg Prod.fst hpair
      simp only at hsame
      omega

theorem exists_text {x : Item} (h : x.type = .simple .text) :
    ∃ text, x = .scalar (.text text) := by
  cases x with
  | record r => cases h
  | scalar s =>
    cases s with
    | text text => exact ⟨text, rfl⟩
    | boolean b => cases h
    | integer n => cases h
    | decimal d => cases h
    | literal l => cases h

theorem filter_keeps {f : Feature} (h : f.shape.isBody = false) (xs : List Item) :
    xs.filter f.keeps = xs := by
  rw [List.filter_eq_self]
  exact fun x _ => Feature.keeps_of_isBody_eq_false h x

/-- The text that a record is written with as its own content. -/
def bodyText (r : Record) : String :=
  (r.type.body?.elim [] fun p => r.items p.1).head?.elim "" Item.toText

/-- Character content is read back unless it is blank. -/
theorem bodyItems_bodyText (hr : r.FitsSchema) {i : Nat} {f : Feature} {s : SimpleType}
    (hf : r.type.feature? i = some f) (hs : f.shape = .body s) :
    bodyItems s (bodyText r) = ((r.items i).filterMap Item.readBack?).filter f.keeps := by
  have hbody := RecordType.body?_of_feature? hf hs
  obtain rfl : s = .text := (RecordType.bodyAlone r.type (i, s) hbody).1
  have hadmits := hr.admits_items hf
  have htype : ∀ x ∈ r.items i, x.type = .simple .text := by
    intro x hx
    rw [hadmits.type_eq x hx, Feature.itemType, hs]
  have hsingle := hadmits.single (by rw [Feature.isList, hs])
  rw [Item.filterMap_readBack?_of_text htype, bodyText, hbody, Option.elim_some]
  rcases hitems : r.items i with _ | ⟨x, _ | ⟨y, xs⟩⟩
  · rfl
  · obtain ⟨text, rfl⟩ := exists_text (htype x (by rw [hitems]; exact List.mem_singleton_self x))
    have hkeeps : f.keeps (.scalar (.text text)) = !Text.isBlankText text := by
      simp only [Feature.keeps, hs, Shape.isBody, Item.isBlankText, Bool.true_and]
    have hread : textItems .text text = [.scalar (.text text)] := rfl
    simp only [List.head?_cons, Option.elim_some, Item.toText, Scalar.toText, bodyItems, hread]
    by_cases hblank : Text.isBlankText text = true
    · simp [hblank, hkeeps]
    · simp [hblank, hkeeps]
  · rw [hitems] at hsingle
    simp at hsingle

/-- A record is legible throughout exactly if its attributes and its children are: character
content always is. -/
theorem everywhere_isLegible_iff (hr : r.FitsSchema) : r.Everywhere Record.IsLegible ↔
    (∀ i f, r.type.feature? i = some f → f.shape.isAttribute = true →
      ∀ x ∈ r.items i, x.IsLegibleWithin) ∧
    ∀ y ∈ r.entries.flatMap childItems, y.item.IsLegibleWithin := by
  rw [hr.complete.everywhere_isLegible_iff]
  constructor
  · intro hall
    refine ⟨fun i f hf _ => hall i f hf, fun y hy => ?_⟩
    obtain ⟨p, hp, hy⟩ := List.mem_flatMap.mp hy
    obtain ⟨i, hf, hi⟩ := hr.complete.mem_entries.mp hp
    obtain ⟨-, -, -, hmem⟩ := mem_childItems hy
    exact hall i p.1 hf y.item (hi ▸ hmem)
  · rintro ⟨hattributes, hchildren⟩ i f hf x hx
    match hs : f.shape with
    | .attribute s => exact hattributes i f hf (by rw [hs]; rfl) x hx
    | .body s =>
      have hbody := RecordType.body?_of_feature? hf hs
      obtain rfl : s = .text := (RecordType.bodyAlone r.type (i, s) hbody).1
      apply Item.isLegibleWithin_of_text
      rw [(hr.admits_items hf).type_eq x hx, Feature.itemType, hs]
    | .element s isList =>
      have hentry : (f, r.items i) ∈ r.entries := hr.complete.mem_entries.mpr ⟨i, hf, rfl⟩
      have hchild : (⟨f.xmlName.localName, s, x⟩ : ChildItem) ∈ childItems (f, r.items i) := by
        simp only [childItems, hs]
        exact List.mem_map_of_mem hx
      exact hchildren _ (List.mem_flatMap.mpr ⟨_, hentry, hchild⟩)

variable {o : EncodeOptions} {e : Element}

/-- An element stands for a record, if each of its features reads what is read back of the
record there, and if it is refused exactly if the record is not legible. -/
theorem standsFor_of_items (hr : r.FitsSchema)
    (hitems : ∀ i f, r.type.feature? i = some f →
      e.itemsOf f = ((r.items i).filterMap Item.readBack?).filter f.keeps)
    (hfaults : ∀ strict, e.faults strict (.record r.type) = [] ↔ r.Everywhere Record.IsLegible) :
    e.StandsFor ⟨e.name, .record r.type, .record r⟩ := by
  refine ⟨rfl, ?_, fun strict => (hfaults strict).trans Item.isLegibleWithin_record.symm⟩
  have hbecomes := Record.becomes_readBack hr.complete
  rw [Element.item?_record, Item.readBack?]
  congr 2
  refine Record.ext_items (r := e.record r.type) hbecomes.type_eq.symm ?_ hbecomes.complete ?_
  · simp [Record.IsComplete, Element.record]
  · intro i f hf
    rw [hbecomes.items_eq i f hf, ← hitems i f hf]
    exact Record.items_of_rule e.itemsOf hf

theorem itemsOf_attribute (hr : r.FitsSchema)
    (hattributes : e.attributes = readAttributes o r.attributes) {i : Nat} {f : Feature}
    {s : SimpleType} (hf : r.type.feature? i = some f) (hs : f.shape = .attribute s) :
    e.itemsOf f = ((r.items i).filterMap Item.readBack?).filter f.keeps := by
  rw [filter_keeps (by rw [hs]; rfl), Element.itemsOf, Element.itemsWith, hs]
  simp only
  rw [hattributes, attributeItems_readAttributes hr hf hs]

/-- An element stands for a record with character content if it has the attributes
of the record and its text. -/
theorem standsFor_of_text (hr : r.FitsSchema) (hbody : r.type.body?.isSome = true)
    (hattributes : e.attributes = readAttributes o r.attributes)
    (htext : e.ownText = bodyText r) :
    e.StandsFor ⟨e.name, .record r.type, .record r⟩ := by
  obtain ⟨⟨j, s⟩, hfound⟩ := Option.isSome_iff_exists.mp hbody
  have halone := RecordType.bodyAlone r.type (j, s) hfound
  have hchildless : ∀ i f, r.type.feature? i = some f → ∀ s isList, f.shape ≠ .element s isList := by
    intro i f hf s isList hs
    have helement := halone.2 f (List.mem_of_getElem? hf)
    rw [hs] at helement
    cases helement
  refine standsFor_of_items hr (fun i f hf => ?_) fun strict => ?_
  · match hs : f.shape with
    | .attribute s => exact itemsOf_attribute hr hattributes hf hs
    | .body s =>
      rw [← bodyItems_bodyText hr hf hs, Element.itemsOf, Element.itemsWith, hs]
      simp only
      rw [htext]
    | .element s isList => exact absurd hs (hchildless i f hf s isList)
  · obtain rfl : s = .text := halone.1
    have hchildren : ∀ y ∈ r.entries.flatMap childItems, y.item.IsLegibleWithin := by
      intro y hy
      obtain ⟨p, hp, hy⟩ := List.mem_flatMap.mp hy
      obtain ⟨i, hf, -⟩ := hr.complete.mem_entries.mp hp
      obtain ⟨isList, hs, -⟩ := mem_childItems hy
      exact absurd hs (hchildless i p.1 hf y.type isList)
    rw [everywhere_isLegible_iff hr, and_iff_left hchildren,
      ← attributeFaults_readAttributes (o := o) strict hr, Element.faults_record, hattributes,
      hfound]
    simp only [contentFaults, SimpleType.read, ite_self, List.append_nil]

/-- An element stands for a record without character content if it has the
attributes of the record and spells out its children. -/
theorem standsFor_of_spells (hr : r.FitsSchema) (hbody : r.type.body? = none)
    (hattributes : e.attributes = readAttributes o r.attributes)
    (hparts : Spells e.parts (r.entries.flatMap childItems)) :
    e.StandsFor ⟨e.name, .record r.type, .record r⟩ := by
  refine standsFor_of_items hr (fun i f hf => ?_) fun strict => ?_
  · match hs : f.shape with
    | .attribute s => exact itemsOf_attribute hr hattributes hf hs
    | .body s =>
      have hfound := RecordType.body?_of_feature? hf hs
      rw [hbody] at hfound
      cases hfound
    | .element s isList =>
      have hfilter := filter_childItems hr.complete hf hs
      have hchildren : childItems (f, r.items i) =
          (r.items i).map fun x => ⟨f.xmlName.localName, s, x⟩ := by
        simp only [childItems, hs]
      rw [filter_keeps (by rw [hs]; rfl), Element.itemsOf, Element.itemsWith, hs]
      simp only
      rw [hparts.items_eq, hfilter, hchildren, List.filterMap_map]
      · rfl
      · intro y hy hname
        have hmem : y ∈ (r.entries.flatMap childItems).filter (·.name = f.xmlName.localName) :=
          List.mem_filter.mpr ⟨hy, by simpa using hname⟩
        rw [hfilter, hchildren] at hmem
        obtain ⟨x, -, rfl⟩ := List.mem_map.mp hmem
        rfl
      · intro hlist
        rw [hfilter, hchildren, List.length_map]
        exact (hr.admits_items hf).single (by rw [Feature.isList, hs, hlist])
  · rw [Element.faults_record, hattributes, hbody, List.append_eq_nil_iff,
      attributeFaults_readAttributes strict hr, hparts.faults_iff strict (declares_childItems hr),
      everywhere_isLegible_iff hr]

end Record

end TableJoin.Writing
