import Mathlib.Data.List.FinRange
import TableJoin.Proofs.Declaration.Reach

/-!
Placing: the generated markup code of an accepted declaration uses its fields as what they are,
so that it is compiled, and what is read and written under a name is the field at a place.
-/

namespace TableJoin.Declaration

open Markup

section Placed

variable {ι α β ν : Type} {place? : α → Option β} {l : List ι} {field : ι → α} {place : ι → β}

theorem mapM_map_eq_some (h : ∀ i ∈ l, place? (field i) = some (place i)) :
    (l.map field).mapM place? = some (l.map place) := by
  induction l with
  | nil => rfl
  | cons i l ih =>
    obtain ⟨hi, hl⟩ := List.forall_mem_cons.mp h
    simp [hi, ih hl]

theorem placeAll?_map (h : ∀ i ∈ l, place? (field i) = some (place i)) (name : ι → ν) :
    placeAll? place? (l.map fun i => (name i, field i)) =
      some (l.map fun i => (name i, place i)) := by
  apply mapM_map_eq_some
  intro i hi
  simp [h i hi]

end Placed

namespace TypeModel

variable (m : TypeModel)

def attributePlaces : List m.Place :=
  (List.finRange m.fields.length).filter fun i => (m.field i).placement.isAttribute

def elementPlaces : List m.Place :=
  (List.finRange m.fields.length).filter fun i => (m.field i).placement.isElement

/-- The first field that holds the character content. -/
def textAt? : Option m.Place :=
  m.fields.findFinIdx? fun f => f.placement = .text

def armsAt (l : List m.Place) : List (String × m.Place) := l.map fun i => ((m.field i).localName, i)

/-- The names that the fields at some places are written under. -/
def namedAt (l : List m.Place) : List (QName × m.Place) :=
  l.map fun i => ((m.field i).placement.qname, i)

/-- The generated code with the places of the fields in it. -/
def placedCode : MarkupCode m.Place where
  reader :=
    { attributes := m.armsAt m.attributePlaces
      content :=
        match m.textAt? with
        | some i => .text i
        | none => .children (m.armsAt m.elementPlaces) }
  writer :=
    { attributes := m.namedAt m.attributePlaces
      content :=
        match m.textAt? with
        | some i => .text i
        | none => .children m.elementPlaces (m.namedAt m.elementPlaces) }

theorem map_snd_namedAt (l : List m.Place) : (m.namedAt l).map Prod.snd = l := by
  rw [namedAt, List.map_map]
  exact List.map_id l

theorem map_field_filter (p : FieldModel → Bool) :
    ((List.finRange m.fields.length).filter fun i => p (m.field i)).map m.field =
      m.fields.filter p := by
  have hall : (List.finRange m.fields.length).map m.field = m.fields :=
    List.map_getElem_finRange m.fields
  conv_rhs => rw [← hall, List.filter_map]
  rfl

theorem map_field_attributePlaces : m.attributePlaces.map m.field = m.attributeFields :=
  m.map_field_filter (·.placement.isAttribute)

theorem map_field_elementPlaces : m.elementPlaces.map m.field = m.elementFields :=
  m.map_field_filter (·.placement.isElement)

theorem textField?_eq : m.textField? = m.textAt?.map m.field :=
  List.find?_eq_map_findFinIdx?_getElem

section Membership

variable {m} {i : m.Place}

theorem mem_attributePlaces : i ∈ m.attributePlaces ↔ (m.field i).placement.isAttribute = true := by
  simp [attributePlaces]

theorem mem_elementPlaces : i ∈ m.elementPlaces ↔ (m.field i).placement.isElement = true := by
  simp [elementPlaces]

theorem nodup_elementPlaces : m.elementPlaces.Nodup :=
  (List.nodup_finRange _).filter _

theorem isElement_of_mem (hi : i ∈ m.attributePlaces) :
    (m.field i).placement.isElement = false := by
  obtain ⟨short?, localName, hp⟩ :=
    Placement.isAttribute_eq_true_iff.mp (mem_attributePlaces.mp hi)
  rw [hp]
  rfl

theorem ne_text_of_mem (hi : i ∈ m.attributePlaces) : (m.field i).placement ≠ .text := by
  obtain ⟨short?, localName, hp⟩ :=
    Placement.isAttribute_eq_true_iff.mp (mem_attributePlaces.mp hi)
  rw [hp]
  intro htext
  cases htext

theorem notMem_attributePlaces (hi : i ∈ m.elementPlaces) : i ∉ m.attributePlaces := by
  intro hmem
  have helement := isElement_of_mem hmem
  rw [mem_elementPlaces.mp hi] at helement
  cases helement

/-- What holds no text stands in an attribute or in child elements. -/
theorem mem_places (hi : (m.field i).placement ≠ .text) :
    i ∈ m.attributePlaces ∨ i ∈ m.elementPlaces := by
  rw [mem_attributePlaces, mem_elementPlaces]
  revert hi
  cases (m.field i).placement <;> simp [Placement.isElement, Placement.isAttribute]

theorem placement_of_textAt? (htext : m.textAt? = some i) : (m.field i).placement = .text :=
  of_decide_eq_true (List.findFinIdx?_eq_some_iff.mp htext).1

theorem placement_ne_text (htext : m.textAt? = none) (i : m.Place) :
    (m.field i).placement ≠ .text := by
  have hnone := List.findFinIdx?_eq_none_iff.mp htext (m.field i) (m.field_mem i)
  simpa using hnone

end Membership

variable {m} {o : Outline}

theorem single_of_describes (h : o.Describes m) {i : m.Place}
    (hi : (m.field i).placement.isElement = false) : (m.field i).cardinality = .single := by
  cases hcardinality : (m.field i).cardinality with
  | single => rfl
  | many =>
    rw [(h.many (m.field_mem i) hcardinality).1] at hi
    cases hi

/-- Where identifiers are told apart, each stands for its own field. -/
theorem placeOf?_eq (hapart : (m.fields.map (·.ident)).Nodup) (i : m.Place)
    {cardinality? : Option Cardinality}
    (hc : ∀ c, cardinality? = some c → c = (m.field i).cardinality) :
    m.placeOf? ⟨(m.field i).ident, cardinality?⟩ = some i := by
  have hfound : (m.fields.findFinIdx? fun f => f.ident = (m.field i).ident) = some i := by
    rw [List.Nodup, List.pairwise_map, List.pairwise_iff_getElem] at hapart
    rw [List.findFinIdx?_eq_some_iff]
    refine ⟨decide_eq_true rfl, fun j hj => ?_⟩
    rw [decide_eq_true_eq]
    exact hapart j i j.isLt i.isLt hj
  rw [placeOf?, hfound, Option.filter_some, if_pos]
  cases cardinality? with
  | none => rfl
  | some c => simpa using hc c rfl

/-- The code of an accepted declaration is compiled: each field is there, and it holds as many
values as what is done to it needs. -/
theorem compiled?_eq (h : o.Describes m) (hapart : (m.fields.map (·.ident)).Nodup) :
    m.compiled? = some m.placedCode := by
  have hsingle : ∀ i : m.Place, (m.field i).placement.isElement = false →
      m.placeOf? (.asSingle (m.field i).ident) = some i := fun i hi =>
    placeOf?_eq hapart i fun c hc => by rw [single_of_describes h hi, ← Option.some.inj hc]
  have hown : ∀ i : m.Place,
      m.placeOf? ⟨(m.field i).ident, some (m.field i).cardinality⟩ = some i := fun i =>
    placeOf?_eq hapart i fun c hc => (Option.some.inj hc).symm
  have hany : ∀ i : m.Place, m.placeOf? (.asAny (m.field i).ident) = some i := fun i =>
    placeOf?_eq hapart i fun c hc => by cases hc
  have hattributes {ν : Type} (name : FieldModel → ν) :
      placeAll? m.placeOf? (m.attributeFields.map fun f => (name f, .asSingle f.ident)) =
        some (m.attributePlaces.map fun i => (name (m.field i), i)) := by
    rw [← map_field_attributePlaces, List.map_map]
    exact placeAll?_map (fun i hi => hsingle i (isElement_of_mem hi)) _
  have htext : ∀ i, m.textAt? = some i → m.placeOf? (.asSingle (m.field i).ident) = some i :=
    fun i hi => hsingle i (by rw [placement_of_textAt? hi]; rfl)
  have hreader : ReadCode.placed? m.placeOf? m.readCode = some m.placedCode.reader := by
    simp only [ReadCode.placed?, readCode, hattributes, textField?_eq, placedCode, armsAt]
    cases hat : m.textAt? with
    | some i => simp [htext i hat]
    | none =>
      have harms := placeAll?_map (l := m.elementPlaces) (fun i _ => hown i)
        fun i => (m.field i).localName
      simp [← map_field_elementPlaces, Function.comp_def, harms]
  have hwriter : WriteCode.placed? m.placeOf? m.writeCode = some m.placedCode.writer := by
    simp only [WriteCode.placed?, writeCode, hattributes, textField?_eq, placedCode, namedAt]
    cases hat : m.textAt? with
    | some i => simp [htext i hat]
    | none =>
      have htests := mapM_map_eq_some (l := m.elementPlaces) fun i _ => hown i
      have hloops := placeAll?_map (l := m.elementPlaces) (fun i _ => hany i)
        fun i => (m.field i).placement.qname
      simp [← map_field_elementPlaces, Function.comp_def, htests, hloops]
  rw [compiled?, ofItem?_markupItem, Option.bind_eq_bind, Option.bind_some, MarkupCode.placed?,
    hreader, hwriter]
  rfl

end TypeModel

end TableJoin.Declaration
