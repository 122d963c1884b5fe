import TableJoin.Proofs.Declaration.Marshalling
import TableJoin.Proofs.Declaration.Sites

/-!
Reach: to which arm of the generated reader a name is sent, and when every arm has a name that
is sent to it.
-/

namespace TableJoin.Declaration

section Arms

variable {α β : Type} {arms : List (String × α)} {name : String}

theorem armFor?_eq_some_iff {k : Fin arms.length} : armFor? arms name = some k ↔
    (arms.get k).1 = name ∧ ∀ j < k, (arms.get j).1 ≠ name := by
  unfold armFor?
  rw [List.findFinIdx?_eq_some_iff]
  simp

/-- Every arm is reached exactly if no two of them have the same name. -/
theorem nodup_iff_exists_armFor? :
    (arms.map Prod.fst).Nodup ↔ ∀ k, ∃ name, armFor? arms name = some k := by
  rw [List.Nodup, List.pairwise_map, List.pairwise_iff_getElem]
  constructor
  · intro hapart k
    refine ⟨arms[k].1, armFor?_eq_some_iff.mpr ⟨rfl, fun j hj => ?_⟩⟩
    exact hapart j k j.isLt k.isLt hj
  · intro hreached i j hi hj hij heq
    obtain ⟨name, hname⟩ := hreached ⟨j, hj⟩
    obtain ⟨hown, hfirst⟩ := armFor?_eq_some_iff.mp hname
    exact hfirst ⟨i, hi⟩ hij (heq.trans hown)

/-- A name is sent to the field of the first arm for it. -/
theorem fieldFor?_eq : fieldFor? arms name = (arms.find? fun arm => arm.1 = name).map Prod.snd := by
  rw [fieldFor?, armFor?, List.find?_eq_map_findFinIdx?_getElem, Option.map_map]
  rfl

theorem fieldFor?_map (l : List β) (key : β → String) (field : β → α) :
    fieldFor? (l.map fun b => (key b, field b)) name =
      (l.find? fun b => key b = name).map field := by
  rw [fieldFor?_eq, List.find?_map, Option.map_map]
  rfl

/-- Where names are told apart, every one is sent to the field of its own arm. -/
theorem fieldFor?_of_mem {x : α} (hapart : (arms.map Prod.fst).Nodup) (hx : (name, x) ∈ arms) :
    fieldFor? arms name = some x := by
  obtain ⟨k, hk⟩ := List.mem_iff_get.mp hx
  obtain ⟨own, hown⟩ := nodup_iff_exists_armFor?.mp hapart k
  have hname : own = name := by
    rw [← (armFor?_eq_some_iff.mp hown).1]
    exact congrArg Prod.fst hk
  rw [fieldFor?, ← hname, hown]
  exact congrArg (some ∘ Prod.snd) hk

end Arms

/-- The arms for child elements; there are none where the text is read. -/
def ReadCode.elements {α : Type} (code : ReadCode α) : List (String × α) :=
  match code.content with
  | .text _ => []
  | .children arms => arms

/-- To every arm a name is sent. -/
structure ReadCode.IsReached {α : Type} (code : ReadCode α) : Prop where
  attributes : ∀ k, ∃ name, armFor? code.attributes name = some k
  elements : ∀ k, ∃ name, armFor? code.elements name = some k

namespace TypeModel

/-- No two attributes and no two child elements have a local name in common. -/
structure NamesApart (m : TypeModel) : Prop where
  attributes : (m.fields.filterMap fun f => f.placement.attributeName?).Nodup
  elements : (m.fields.filterMap fun f => f.placement.elementName?).Nodup

instance (m : TypeModel) : Decidable m.NamesApart :=
  decidable_of_iff
    ((m.fields.filterMap fun f => f.placement.attributeName?).Nodup ∧
      (m.fields.filterMap fun f => f.placement.elementName?).Nodup)
    ⟨fun ⟨h, h'⟩ => ⟨h, h'⟩, fun ⟨h, h'⟩ => ⟨h, h'⟩⟩

/-- The code that reads sends each name to the first field of its kind that has it. -/
structure DispatchesByName (m : TypeModel) (code : ReadCode FieldUse) : Prop where
  attributes : ∀ name, fieldFor? code.attributes name =
    (m.fields.find? fun f => f.placement.attributeName? = some name).map fun f => .asSingle f.ident
  elements : ∀ name, fieldFor? code.elements name =
    (m.fields.find? fun f => f.placement.elementName? = some name).map fun f =>
      ⟨f.ident, some f.cardinality⟩

variable {m : TypeModel}

section Keys

variable {key : Placement → Option String} {p : FieldModel → Bool}

/-- The fields of a kind are found by their names as all fields are by those of the kind. -/
theorem find?_filter_of_key (h : ∀ f, key f.placement = if p f then some f.localName else none)
    (fields : List FieldModel) (name : String) :
    ((fields.filter p).find? fun f => f.localName = name) =
      fields.find? fun f => key f.placement = some name := by
  rw [List.find?_filter]
  congr 1
  funext f
  rw [h f]
  cases p f <;> simp

theorem map_localName_filter (h : ∀ f, key f.placement = if p f then some f.localName else none)
    (fields : List FieldModel) :
    (fields.filter p).map FieldModel.localName = fields.filterMap fun f => key f.placement := by
  rw [← List.filterMap_eq_map, List.filterMap_filter]
  congr 1
  funext f
  rw [h f]
  rfl

theorem attributeName?_eq (f : FieldModel) : f.placement.attributeName? =
    if f.placement.isAttribute then some f.localName else none := by
  unfold FieldModel.localName
  cases f.placement <;> rfl

theorem elementName?_eq (f : FieldModel) : f.placement.elementName? =
    if f.placement.isElement then some f.localName else none := by
  unfold FieldModel.localName
  cases f.placement <;> rfl

end Keys

variable {o : Outline}

/-- In the code of an accepted declaration there is an arm for each field that stands in child
elements, also if there is none because a field holds the text. -/
theorem elements_readCode (h : o.Describes m) : m.readCode.elements =
    m.elementFields.map fun f => (f.localName, ⟨f.ident, some f.cardinality⟩) := by
  rw [ReadCode.elements, readCode]
  cases htext : m.textField? with
  | none => rfl
  | some t => rw [elementFields_of_textField? h htext]; rfl

theorem dispatchesByName (h : o.Describes m) : m.DispatchesByName m.readCode where
  attributes name := by
    rw [readCode, fieldFor?_map, attributeFields, find?_filter_of_key attributeName?_eq]
  elements name := by
    rw [elements_readCode h, fieldFor?_map, elementFields, find?_filter_of_key elementName?_eq]

/-- Every arm is reached exactly if names are told apart. -/
theorem namesApart_iff_isReached (h : o.Describes m) : m.NamesApart ↔ m.readCode.IsReached := by
  have hattributes : m.readCode.attributes.map Prod.fst =
      m.fields.filterMap fun f => f.placement.attributeName? := by
    rw [← map_localName_filter attributeName?_eq, readCode, List.map_map]
    rfl
  have helements : m.readCode.elements.map Prod.fst =
      m.fields.filterMap fun f => f.placement.elementName? := by
    rw [← map_localName_filter elementName?_eq, elements_readCode h, List.map_map]
    rfl
  constructor
  · rintro ⟨hapart, hapart'⟩
    rw [← hattributes] at hapart
    rw [← helements] at hapart'
    exact ⟨nodup_iff_exists_armFor?.mp hapart, nodup_iff_exists_armFor?.mp hapart'⟩
  · rintro ⟨hreached, hreached'⟩
    constructor
    · rw [← hattributes]
      exact nodup_iff_exists_armFor?.mpr hreached
    · rw [← helements]
      exact nodup_iff_exists_armFor?.mpr hreached'

end TypeModel

end TableJoin.Declaration
