import Mathlib.Data.List.Forall2
import TableJoin.Proofs.Reading.ByName

/-!
Elements that may stand for one another: where the one is decoded, the other is
decoded to the same.  It is enough that they agree on what the type declares.
-/

namespace TableJoin.Markup

open Schema

/-- Where nothing is refused of the first element, nothing is of the second, and both
amount to the same item. -/
structure Element.Follows (strict : Bool) (t : ItemType) (e e' : Element) : Prop where
  name_eq : e'.name = e.name
  sound : e.faults strict t = [] → e'.faults strict t = []
  item_eq : e.faults strict t = [] → e'.item? t = e.item? t

namespace Element.Follows

variable {strict : Bool} {t : ItemType} {e e' e'' : Element}

theorem refl (e : Element) : e.Follows strict t e := ⟨rfl, id, fun _ => rfl⟩

theorem trans (h : e.Follows strict t e') (h' : e'.Follows strict t e'') :
    e.Follows strict t e'' where
  name_eq := h'.name_eq.trans h.name_eq
  sound hfaults := h'.sound (h.sound hfaults)
  item_eq hfaults := (h'.item_eq (h.sound hfaults)).trans (h.item_eq hfaults)

/-- Of an element of a simple type, only the text counts. -/
theorem of_text {s : SimpleType} (hname : e'.name = e.name) (htext : e'.ownText = e.ownText) :
    e.Follows strict (.simple s) e' where
  name_eq := hname
  sound hfaults := by rwa [Element.faults_simple, hname, htext, ← Element.faults_simple strict]
  item_eq _ := by rw [Element.item?_simple, Element.item?_simple, htext]

end Element.Follows

/-- One by one, elements that may stand for one another amount to the same items. -/
theorem Element.follows_all {strict : Bool} {s : ItemType} {es es' : List Element}
    (h : List.Forall₂ (Element.Follows strict s) es es')
    (hes : ∀ e ∈ es, e.faults strict s = []) :
    (∀ e ∈ es', e.faults strict s = []) ∧
      es'.filterMap (·.item? s) = es.filterMap (·.item? s) := by
  induction h with
  | nil => exact ⟨hes, rfl⟩
  | @cons e e' es es' hfollows _ ih =>
    obtain ⟨hfirst, hrest⟩ := List.forall_mem_cons.mp hes
    obtain ⟨hsound, hitems⟩ := ih hrest
    refine ⟨List.forall_mem_cons.mpr ⟨hfollows.sound hfirst, hsound⟩, ?_⟩
    rw [List.filterMap_cons, List.filterMap_cons, hfollows.item_eq hfirst, hitems]

/-- The elements of one name that a feature takes: all of them, or the first. -/
def Element.taken (isList : Bool) (es : List Element) : List Element :=
  if isList then es else es.take 1

end TableJoin.Markup

namespace TableJoin.Schema.RecordType

open Markup

/-- Of the elements of one name, those that the type takes may stand for one another,
and a strict reader finds none that are new and not taken. -/
def Keeps (t : RecordType) (strict : Bool) (name : String) (es es' : List Element) : Prop :=
  match t.element? name with
  | none => strict = true → es = [] → es' = []
  | some (_, s, isList) =>
    List.Forall₂ (Element.Follows strict s) (Element.taken isList es) (Element.taken isList es') ∧
      (isList = false → strict = true → es.tail = [] → es'.tail = [])

variable {t : RecordType} {strict : Bool} {name : String} {es es' : List Element}

theorem accepts_of_element? {i : Nat} {s : ItemType} {isList : Bool}
    (hfound : t.element? name = some (i, s, isList)) :
    t.Accepts strict false name es ↔
      (∀ e ∈ Element.taken isList es, e.faults strict s = []) ∧
        (isList = false → strict = true → es.tail = []) := by
  unfold Accepts
  rw [hfound]
  cases isList with
  | true => simp [Element.taken]
  | false => cases es <;> simp [Element.taken]

theorem Keeps.refl (t : RecordType) (strict : Bool) (name : String) (es : List Element) :
    t.Keeps strict name es es := by
  unfold Keeps
  split
  · exact fun _ => id
  · exact ⟨List.forall₂_same.mpr fun e _ => Element.Follows.refl e, fun _ _ => id⟩

/-- Elements that may stand for one another, one by one, do so whatever the type takes of
them. -/
theorem keeps_of_forall₂ (h : List.Forall₂ (fun e e' => ∀ i s isList,
      t.element? name = some (i, s, isList) → Element.Follows strict s e e') es es') :
    t.Keeps strict name es es' := by
  unfold Keeps
  split
  · rintro - rfl
    exact List.forall₂_nil_left_iff.mp h
  · next i s isList hfound =>
    have hall : List.Forall₂ (Element.Follows strict s) es es' :=
      h.imp fun e e' hfollows => hfollows i s isList hfound
    constructor
    · cases isList with
      | true => exact hall
      | false => exact List.forall₂_take 1 hall
    · rintro - - hnil
      cases h with
      | nil => rfl
      | cons _ htail =>
        rw [List.tail_cons] at hnil ⊢
        rw [hnil] at htail
        exact List.forall₂_nil_left_iff.mp htail

theorem Keeps.accepts (h : t.Keeps strict name es es') (hes : t.Accepts strict false name es) :
    t.Accepts strict false name es' := by
  cases hfound : t.element? name with
  | none =>
    unfold Keeps Accepts at *
    rw [hfound] at h hes ⊢
    exact fun hstrict => h hstrict (hes hstrict)
  | some found =>
    obtain ⟨i, s, isList⟩ := found
    rw [accepts_of_element? hfound] at hes ⊢
    unfold Keeps at h
    rw [hfound] at h
    exact ⟨(Element.follows_all h.1 hes.1).1,
      fun hlist hstrict => h.2 hlist hstrict (hes.2 hlist hstrict)⟩

theorem Keeps.items_eq (h : t.Keeps strict name es es') (hes : t.Accepts strict false name es)
    {i : Nat} {s : ItemType} {isList : Bool}
    (hfound : t.element? name = some (i, s, isList)) :
    (Element.taken isList es').filterMap (·.item? s) =
      (Element.taken isList es).filterMap (·.item? s) := by
  unfold Keeps at h
  rw [hfound] at h
  exact (Element.follows_all h.1 ((accepts_of_element? hfound).mp hes).1).2

end TableJoin.Schema.RecordType

namespace TableJoin.Markup

open Schema

variable {strict : Bool} {t : RecordType} {e e' : Element}

/-- What is refused of a record's element: something of its attributes, or of its text,
or of the content between its tags. -/
theorem Element.faults_record_eq_nil_iff :
    e.faults strict (.record t) = [] ↔
      (∀ a ∈ e.attributes, attributeFaults strict t a = []) ∧
      match t.body? with
      | some (_, s) => Text.isBlankText e.ownText = true ∨ contentFaults s e.name e.ownText = []
      | none => (strict = true → Text.isBlankText e.ownText = true) ∧
          ∀ name, t.Accepts strict false name (Element.named name (Part.elements e.parts)) := by
  rw [Element.faults_record, List.append_eq_nil_iff, List.flatMap_eq_nil_iff]
  cases t.body? with
  | some found =>
    cases Text.isBlankText e.ownText <;> simp
  | none =>
    have hparts : Part.faults strict t [] e.parts = [] ↔ _ := Part.faults_eq_nil_iff e.parts []
    simp only [List.contains_nil] at hparts
    rw [hparts]
    rfl

theorem Element.itemsOf_element {f : Feature} {s : ItemType} {isList : Bool}
    (hs : f.shape = .element s isList) :
    e.itemsOf f = (Element.taken isList (Element.named f.xmlName.localName
      (Part.elements e.parts))).filterMap (·.item? s) := by
  rw [Element.itemsOf, Element.itemsWith, hs]
  simp only
  rw [Part.items_eq_named, Element.taken]
  cases isList with
  | true => rfl
  | false => cases Element.named f.xmlName.localName (Part.elements e.parts) <;> rfl

/-- Two elements of a record type agree on what the type declares, and in the eyes of a
strict reader on everything. -/
structure Element.Agrees (strict : Bool) (t : RecordType) (e e' : Element) : Prop where
  name_eq : e'.name = e.name
  attributes : ∀ name, strict = true ∨ t.attribute? name ≠ none →
    Attribute.named name e'.attributes = Attribute.named name e.attributes
  body : t.body? ≠ none → e'.ownText = e.ownText
  text : t.body? = none → strict = true → Text.isBlankText e.ownText = true →
    Text.isBlankText e'.ownText = true
  children : t.body? = none → ∀ name, t.Keeps strict name
    (Element.named name (Part.elements e.parts)) (Element.named name (Part.elements e'.parts))

namespace Element.Agrees

theorem attribute_sound (h : e.Agrees strict t e')
    (hfaults : ∀ a ∈ e.attributes, attributeFaults strict t a = []) :
    ∀ a ∈ e'.attributes, attributeFaults strict t a = [] := by
  intro a ha
  by_cases hknown : strict = true ∨ t.attribute? a.localName ≠ none
  · have hmem : a ∈ Attribute.named a.localName e'.attributes := by
      simp [Attribute.named, ha]
    rw [h.attributes _ hknown] at hmem
    exact hfaults a (List.mem_of_mem_filter hmem)
  · -- A lenient reader passes over what is not declared.
    rw [not_or, not_not, Bool.not_eq_true] at hknown
    rw [attributeFaults, hknown.1, hknown.2]
    rfl

theorem sound (h : e.Agrees strict t e') (hfaults : e.faults strict (.record t) = []) :
    e'.faults strict (.record t) = [] := by
  rw [Element.faults_record_eq_nil_iff] at hfaults ⊢
  refine ⟨h.attribute_sound hfaults.1, ?_⟩
  cases hbody : t.body? with
  | some found =>
    rw [hbody] at hfaults
    have htext := h.body (by rw [hbody]; exact Option.some_ne_none found)
    simp only [h.name_eq, htext]
    exact hfaults.2
  | none =>
    rw [hbody] at hfaults
    exact ⟨fun hstrict => h.text hbody hstrict (hfaults.2.1 hstrict),
      fun name => (h.children hbody name).accepts (hfaults.2.2 name)⟩

theorem itemsOf_eq (h : e.Agrees strict t e') (hfaults : e.faults strict (.record t) = [])
    {i : Nat} {f : Feature} (hf : t.feature? i = some f) : e'.itemsOf f = e.itemsOf f := by
  rcases hshape : f.shape with s | s | ⟨s, isList⟩
  · have hfound := RecordType.attribute?_of_feature? hf hshape
    have hnamed := h.attributes f.xmlName.localName (.inr (by rw [hfound]; exact Option.some_ne_none _))
    simp only [Element.itemsOf, Element.itemsWith, hshape, attributeItems,
      Attribute.lastNamed?_eq_named, hnamed]
  · have hfound := RecordType.body?_of_feature? hf hshape
    have htext := h.body (by rw [hfound]; exact Option.some_ne_none _)
    simp only [Element.itemsOf, Element.itemsWith, hshape, htext]
  · have hfound := RecordType.element?_of_feature? hf hshape
    have hbody : t.body? = none := by
      cases hbody : t.body? with
      | none => rfl
      | some found =>
        have halone := (RecordType.bodyAlone t found hbody).2 f (List.mem_of_getElem? hf)
        rw [hshape] at halone
        cases halone
    rw [Element.faults_record_eq_nil_iff, hbody] at hfaults
    rw [Element.itemsOf_element hshape, Element.itemsOf_element hshape]
    exact (h.children hbody _).items_eq (hfaults.2.2 _) hfound

/-- Elements that agree may stand for one another. -/
theorem follows (h : e.Agrees strict t e') : e.Follows strict (.record t) e' where
  name_eq := h.name_eq
  sound := h.sound
  item_eq hfaults := by
    rw [Element.item?_record, Element.item?_record, Element.record, Element.record]
    have hslots : t.features.map e'.itemsOf = t.features.map e.itemsOf := by
      apply List.map_congr_left
      intro f hf
      obtain ⟨i, hi⟩ := List.mem_iff_getElem?.mp hf
      exact h.itemsOf_eq hfaults hi
    rw [hslots]

end Element.Agrees

end TableJoin.Markup
