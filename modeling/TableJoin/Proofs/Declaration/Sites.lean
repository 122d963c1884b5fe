import TableJoin.Proofs.Declaration.Acceptance
import TableJoin.Proofs.Declaration.Methods

/-!
Sites: in the generated code every field of an accepted declaration is read at one place and
written at one, as what it stands for in documents and under its name there.
-/

namespace TableJoin.Declaration

open Markup

/-- A place in code where a field is read or written, with the name that it has there. -/
inductive Site (ν : Type) where
  | attribute (name : ν) (field : FieldUse)
  | element (name : ν) (field : FieldUse)
  | text (field : FieldUse)
deriving DecidableEq

def ReadCode.sites (code : ReadCode FieldUse) : List (Site String) :=
  code.attributes.map (fun (name, field) => .attribute name field) ++
    match code.content with
    | .text field => [.text field]
    | .children arms => arms.map fun (name, field) => .element name field

def WriteCode.sites (code : WriteCode FieldUse) : List (Site QName) :=
  code.attributes.map (fun (name, field) => .attribute name field) ++
    match code.content with
    | .text field => [.text field]
    | .children _ loops => loops.map fun (name, field) => .element name field

/-- The fields that are tested for something to write in child elements. -/
def WriteCode.tested (code : WriteCode FieldUse) : List FieldUse :=
  match code.content with
  | .text _ => []
  | .children tests _ => tests

namespace FieldModel

variable (f : FieldModel)

/-- The place where the field is read: by its local name, and of child elements only the first
one if it is single. -/
def readSite : Site String :=
  match f.placement with
  | .attribute _ localName => .attribute localName (.asSingle f.ident)
  | .element _ localName => .element localName ⟨f.ident, some f.cardinality⟩
  | .text => .text (.asSingle f.ident)

/-- The place where the field is written, by its qualified name. -/
def writeSite : Site QName :=
  match f.placement with
  | .attribute _ _ => .attribute f.placement.qname (.asSingle f.ident)
  | .element _ _ => .element f.placement.qname (.asAny f.ident)
  | .text => .text (.asSingle f.ident)

variable {f}

theorem readSite_of_isAttribute (h : f.placement.isAttribute = true) :
    f.readSite = .attribute f.localName (.asSingle f.ident) := by
  obtain ⟨short?, localName, hp⟩ := Placement.isAttribute_eq_true_iff.mp h
  simp only [readSite, FieldModel.localName, hp]
  rfl

theorem readSite_of_isElement (h : f.placement.isElement = true) :
    f.readSite = .element f.localName ⟨f.ident, some f.cardinality⟩ := by
  obtain ⟨short?, localName, hp⟩ := Placement.isElement_eq_true_iff.mp h
  simp only [readSite, FieldModel.localName, hp]
  rfl

theorem writeSite_of_isAttribute (h : f.placement.isAttribute = true) :
    f.writeSite = .attribute f.placement.qname (.asSingle f.ident) := by
  obtain ⟨short?, localName, hp⟩ := Placement.isAttribute_eq_true_iff.mp h
  simp only [writeSite, hp]

theorem writeSite_of_isElement (h : f.placement.isElement = true) :
    f.writeSite = .element f.placement.qname (.asAny f.ident) := by
  obtain ⟨short?, localName, hp⟩ := Placement.isElement_eq_true_iff.mp h
  simp only [writeSite, hp]

end FieldModel

namespace TypeModel

variable (m : TypeModel)

/-- The fields whose values stand between the tags: the one that holds the text if there is
one, else those that stand in child elements. -/
def contentFields : List FieldModel :=
  match m.textField? with
  | some f => [f]
  | none => m.elementFields

section Kinds

variable {m} {α : Type} {key site : FieldModel → α}

theorem map_attributeFields (h : ∀ f, f.placement.isAttribute = true → site f = key f) :
    m.attributeFields.map key = m.attributeFields.map site :=
  List.map_congr_left fun f hf => (h f (List.mem_filter.mp hf).2).symm

theorem map_elementFields (h : ∀ f, f.placement.isElement = true → site f = key f) :
    m.elementFields.map key = m.elementFields.map site :=
  List.map_congr_left fun f hf => (h f (List.mem_filter.mp hf).2).symm

theorem placement_of_textField? {f : FieldModel} (h : m.textField? = some f) :
    f.placement = .text := by
  simpa using List.find?_some h

end Kinds

/-- A record is read into the fields that stand in attributes, and into those of the content. -/
theorem sites_readCode : m.readCode.sites =
    (m.attributeFields ++ m.contentFields).map FieldModel.readSite := by
  simp only [ReadCode.sites, readCode, contentFields, List.map_append, List.map_map]
  congr 1
  · exact map_attributeFields fun _ => FieldModel.readSite_of_isAttribute
  · cases htext : m.textField? with
    | some f => simp [FieldModel.readSite, placement_of_textField? htext]
    | none =>
      simp only [List.map_map]
      exact map_elementFields fun _ => FieldModel.readSite_of_isElement

/-- A record is written from the fields that stand in attributes, and from those of the
content. -/
theorem sites_writeCode : m.writeCode.sites =
    (m.attributeFields ++ m.contentFields).map FieldModel.writeSite := by
  simp only [WriteCode.sites, writeCode, contentFields, List.map_append, List.map_map]
  congr 1
  · exact map_attributeFields fun _ => FieldModel.writeSite_of_isAttribute
  · cases htext : m.textField? with
    | some f => simp [FieldModel.writeSite, placement_of_textField? htext]
    | none =>
      simp only [List.map_map]
      exact map_elementFields fun _ => FieldModel.writeSite_of_isElement

variable {m}

theorem contentFields_of_describes {o : Outline} (h : o.Describes m) :
    m.contentFields = m.fields.filter fun f => !f.placement.isAttribute := by
  rw [contentFields]
  cases htext : m.textField? with
  | some t =>
    have hplacement := placement_of_textField? htext
    have ht : t ∈ m.fields := List.mem_of_find?_eq_some htext
    have hfilter : (m.fields.filter fun f => !f.placement.isAttribute) =
        m.fields.filter fun f => f.placement = .text := by
      refine List.filter_congr fun f hf => ?_
      have helement := h.unmixed ⟨t, ht, hplacement⟩ f hf
      revert helement
      cases f.placement <;> simp [Placement.isAttribute, Placement.isElement]
    have hmem : t ∈ m.fields.filter fun f => f.placement = .text := by simp [ht, hplacement]
    obtain ⟨t', ht'⟩ := List.length_eq_one_iff.mp
      (Nat.le_antisymm h.texts (List.length_pos_of_mem hmem))
    rw [ht', List.mem_singleton] at hmem
    rw [hfilter, ht', hmem]
  | none =>
    refine List.filter_congr fun f hf => ?_
    have hplacement := List.find?_eq_none.mp htext f hf
    revert hplacement
    cases f.placement <;> simp [Placement.isAttribute, Placement.isElement]

/-- In the code of an accepted declaration there is one place where each field is read, and no
other one. -/
theorem readSites_perm {o : Outline} (h : o.Describes m) :
    m.readCode.sites.Perm (m.fields.map FieldModel.readSite) := by
  rw [sites_readCode, contentFields_of_describes h]
  exact (List.filter_append_perm _ _).map _

/-- In the code of an accepted declaration there is one place where each field is written, and
no other one. -/
theorem writeSites_perm {o : Outline} (h : o.Describes m) :
    m.writeCode.sites.Perm (m.fields.map FieldModel.writeSite) := by
  rw [sites_writeCode, contentFields_of_describes h]
  exact (List.filter_append_perm _ _).map _

/-- Where a field holds the text, none stands in child elements. -/
theorem elementFields_of_textField? {o : Outline} (h : o.Describes m) {t : FieldModel}
    (htext : m.textField? = some t) : m.elementFields = [] := by
  have hplacement := placement_of_textField? htext
  rw [elementFields, List.filter_eq_nil_iff]
  intro f hf
  simp [h.unmixed ⟨t, List.mem_of_find?_eq_some htext, hplacement⟩ f hf]

/-- Before child elements are written every field that stands in them is tested. -/
theorem tested_of_describes {o : Outline} (h : o.Describes m) :
    m.writeCode.tested = m.elementFields.map fun f => ⟨f.ident, some f.cardinality⟩ := by
  rw [WriteCode.tested, writeCode]
  cases htext : m.textField? with
  | none => rfl
  | some t =>
    rw [elementFields_of_textField? h htext]
    rfl

end TypeModel

end TableJoin.Declaration
