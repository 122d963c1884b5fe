import TableJoin.Proofs.Markup.Name
import TableJoin.Schema.Table

/-!
The feature tables as a whole: looking up a local name finds a feature of that
name, every feature and every type is found under its own name, and a type whose records have
character content of their own has no child elements.
-/

namespace TableJoin.Schema

def Shape.isElement : Shape → Bool
  | .element .. => true
  | _ => false

def Shape.isAttribute : Shape → Bool
  | .attribute _ => true
  | _ => false

/-- The feature holds the character content of the record's own element. -/
def Shape.isBody : Shape → Bool
  | .body _ => true
  | _ => false

theorem Shape.isElement_eq_true_iff {s : Shape} :
    s.isElement = true ↔ ∃ t isList, s = .element t isList := by
  cases s <;> simp [isElement]

theorem Shape.isAttribute_eq_true_iff {s : Shape} :
    s.isAttribute = true ↔ ∃ t, s = .attribute t := by
  cases s <;> simp [isAttribute]

theorem Shape.isBody_eq_true_iff {s : Shape} : s.isBody = true ↔ ∃ t, s = .body t := by
  cases s <;> simp [isBody]

namespace RecordType

/-- Looking for the feature's place in the document leads to its position. -/
def Finds (t : RecordType) (i : Nat) (f : Feature) : Prop :=
  match f.shape with
  | .attribute s => t.attribute? f.xmlName.localName = some (i, s)
  | .body s => t.body? = some (i, s)
  | .element s isList => t.element? f.xmlName.localName = some (i, s, isList)

instance (t : RecordType) (i : Nat) (f : Feature) : Decidable (t.Finds i f) := by
  unfold Finds
  cases f.shape <;> infer_instance

theorem finds_of_mem_zipIdx (t : RecordType) : ∀ p ∈ t.features.zipIdx, t.Finds p.2 p.1 := by
  cases t <;> decide +kernel

/-- No feature of a table hides behind another one of the same local name. -/
theorem finds_of_feature? {t : RecordType} {i : Nat} {f : Feature} (h : t.feature? i = some f) :
    t.Finds i f :=
  finds_of_mem_zipIdx t (f, i) (List.mem_zipIdx_iff_getElem?.mpr h)

theorem attribute?_of_feature? {t : RecordType} {i : Nat} {f : Feature} {s : SimpleType}
    (h : t.feature? i = some f) (hs : f.shape = .attribute s) :
    t.attribute? f.xmlName.localName = some (i, s) := by
  simpa only [Finds, hs] using finds_of_feature? h

theorem element?_of_feature? {t : RecordType} {i : Nat} {f : Feature} {s : ItemType}
    {isList : Bool} (h : t.feature? i = some f) (hs : f.shape = .element s isList) :
    t.element? f.xmlName.localName = some (i, s, isList) := by
  simpa only [Finds, hs] using finds_of_feature? h

theorem body?_of_feature? {t : RecordType} {i : Nat} {f : Feature} {s : SimpleType}
    (h : t.feature? i = some f) (hs : f.shape = .body s) : t.body? = some (i, s) := by
  simpa only [Finds, hs] using finds_of_feature? h

/-- Every feature for child elements is found under its local name. -/
theorem element?_of_isElement {t : RecordType} {i : Nat} {f : Feature}
    (h : t.feature? i = some f) (hf : f.shape.isElement = true) :
    ∃ s isList, t.element? f.xmlName.localName = some (i, s, isList) := by
  obtain ⟨s, isList, hs⟩ := Shape.isElement_eq_true_iff.mp hf
  exact ⟨s, isList, element?_of_feature? h hs⟩

theorem attribute?_of_isAttribute {t : RecordType} {i : Nat} {f : Feature}
    (h : t.feature? i = some f) (hf : f.shape.isAttribute = true) :
    ∃ s, t.attribute? f.xmlName.localName = some (i, s) := by
  obtain ⟨s, hs⟩ := Shape.isAttribute_eq_true_iff.mp hf
  exact ⟨s, attribute?_of_feature? h hs⟩

/-- Two attributes of a type have different local names. -/
theorem eq_of_isAttribute {t : RecordType} {i j : Nat} {f g : Feature}
    (hi : t.feature? i = some f) (hj : t.feature? j = some g)
    (hf : f.shape.isAttribute = true) (hg : g.shape.isAttribute = true)
    (hname : f.xmlName.localName = g.xmlName.localName) : i = j := by
  obtain ⟨s, hs⟩ := attribute?_of_isAttribute hi hf
  obtain ⟨s', hs'⟩ := attribute?_of_isAttribute hj hg
  rw [hname, hs'] at hs
  injection hs with hpair
  exact (congrArg Prod.fst hpair).symm

/-- Two features for child elements of a type have different local names. -/
theorem eq_of_isElement {t : RecordType} {i j : Nat} {f g : Feature}
    (hi : t.feature? i = some f) (hj : t.feature? j = some g)
    (hf : f.shape.isElement = true) (hg : g.shape.isElement = true)
    (hname : f.xmlName.localName = g.xmlName.localName) : i = j := by
  obtain ⟨s, isList, hs⟩ := element?_of_isElement hi hf
  obtain ⟨s', isList', hs'⟩ := element?_of_isElement hj hg
  rw [hname, hs'] at hs
  injection hs with hpair
  exact (congrArg Prod.fst hpair).symm

/-- What features are called in the document is a name that declares nothing. -/
theorem isLocalName_of_mem (t : RecordType) : ∀ f ∈ t.features, f.shape.isBody = false →
    Markup.isLocalName f.xmlName.localName = true ∧ f.xmlName.localName ≠ "xmlns" := by
  cases t <;> decide +kernel

/-- Attributes have no namespace or the linking one, and child elements have one of the
two others. -/
theorem space_of_mem (t : RecordType) : ∀ f ∈ t.features,
    (f.shape.isAttribute = true → f.xmlName.space = .unqualified ∨ f.xmlName.space = .xlink) ∧
      (f.shape.isElement = true → f.xmlName.space = .tjs ∨ f.xmlName.space = .ows) := by
  cases t <;> decide +kernel

theorem feature?_of_attribute? {t : RecordType} {name : String} {i : Nat} {s : SimpleType}
    (h : t.attribute? name = some (i, s)) :
    ∃ f, t.feature? i = some f ∧ f.shape = .attribute s ∧ f.xmlName.localName = name := by
  obtain ⟨⟨f, j⟩, hmem, hf⟩ := List.exists_of_findSome?_eq_some h
  have hj : t.feature? j = some f := List.mem_zipIdx_iff_getElem?.mp hmem
  rcases hshape : f.shape with s' | s' | ⟨s', isList⟩
  · simp only [hshape, Option.ite_none_right_eq_some, Option.some.injEq, Prod.mk.injEq] at hf
    obtain ⟨hname, rfl, rfl⟩ := hf
    exact ⟨f, hj, hshape, hname⟩
  · simp [hshape] at hf
  · simp [hshape] at hf

theorem feature?_of_element? {t : RecordType} {name : String} {i : Nat} {s : ItemType}
    {isList : Bool} (h : t.element? name = some (i, s, isList)) :
    ∃ f, t.feature? i = some f ∧ f.shape = .element s isList ∧ f.xmlName.localName = name := by
  obtain ⟨⟨f, j⟩, hmem, hf⟩ := List.exists_of_findSome?_eq_some h
  have hj : t.feature? j = some f := List.mem_zipIdx_iff_getElem?.mp hmem
  rcases hshape : f.shape with s' | s' | ⟨s', isList'⟩
  · simp [hshape] at hf
  · simp [hshape] at hf
  · simp only [hshape, Option.ite_none_right_eq_some, Option.some.injEq, Prod.mk.injEq] at hf
    obtain ⟨hname, rfl, rfl, rfl⟩ := hf
    exact ⟨f, hj, hshape, hname⟩

theorem feature?_of_body? {t : RecordType} {i : Nat} {s : SimpleType}
    (h : t.body? = some (i, s)) : ∃ f, t.feature? i = some f ∧ f.shape = .body s := by
  obtain ⟨⟨f, j⟩, hmem, hf⟩ := List.exists_of_findSome?_eq_some h
  have hj : t.feature? j = some f := List.mem_zipIdx_iff_getElem?.mp hmem
  rcases hshape : f.shape with s' | s' | ⟨s', isList⟩
  · simp [hshape] at hf
  · simp only [hshape, Option.some.injEq, Prod.mk.injEq] at hf
    obtain ⟨rfl, rfl⟩ := hf
    exact ⟨f, hj, hshape⟩
  · simp [hshape] at hf

theorem localName_ne_of_attribute? {t : RecordType} {name : String} {i j : Nat} {s : SimpleType}
    {g : Feature} (h : t.attribute? name = some (i, s)) (hg : t.feature? j = some g)
    (hij : i ≠ j) (hattribute : g.shape.isAttribute = true) : g.xmlName.localName ≠ name := by
  intro heq
  obtain ⟨u, hfind⟩ := attribute?_of_isAttribute hg hattribute
  rw [heq, h] at hfind
  injection hfind with hpair
  exact hij (congrArg Prod.fst hpair)

/-- A local name leads to one feature for child elements only. -/
theorem localName_ne_of_element? {t : RecordType} {name : String} {i j : Nat} {s : ItemType}
    {isList : Bool} {g : Feature} (h : t.element? name = some (i, s, isList))
    (hg : t.feature? j = some g) (hij : i ≠ j) (helement : g.shape.isElement = true) :
    g.xmlName.localName ≠ name := by
  intro heq
  obtain ⟨u, isList', hfind⟩ := element?_of_isElement hg helement
  rw [heq, h] at hfind
  injection hfind with hpair
  exact hij (congrArg Prod.fst hpair)

theorem indexOf?_of_mem_zipIdx (t : RecordType) :
    ∀ p ∈ t.features.zipIdx, t.indexOf? p.1.name = some p.2 := by
  cases t <;> decide +kernel

theorem indexOf?_of_feature? {t : RecordType} {i : Nat} {f : Feature}
    (h : t.feature? i = some f) : t.indexOf? f.name = some i :=
  indexOf?_of_mem_zipIdx t (f, i) (List.mem_zipIdx_iff_getElem?.mpr h)

theorem ofName?_name_of_mem : ∀ t ∈ all, ofName? t.name = some t := by
  decide +kernel

theorem ofName?_name (t : RecordType) : ofName? t.name = some t :=
  ofName?_name_of_mem t t.mem_all

theorem name_inj {t u : RecordType} : t.name = u.name ↔ t = u := by
  refine ⟨fun h => ?_, congrArg name⟩
  rw [← Option.some_inj, ← ofName?_name, h, ofName?_name]

/-- A default stands for one item of the feature's type. -/
theorem type_of_default? (t : RecordType) : ∀ f ∈ t.features, ∀ s ∈ f.default?,
    f.isList = false ∧ f.itemType = .simple s.type := by
  cases t <;> decide +kernel

/-- What tables promise of character content: it is text, and no elements stand
beside it. -/
def BodyAlone (t : RecordType) : Prop :=
  ∀ p ∈ t.body?, p.2 = .text ∧ ∀ f ∈ t.features, f.shape.isElement = false

theorem bodyAlone (t : RecordType) : t.BodyAlone := by
  cases t <;> unfold BodyAlone <;> decide +kernel

end RecordType

end TableJoin.Schema
