import TableJoin.Proofs.Writing.Content

/-!
Every record is written as an element that stands for it: what is read back is the same in
both modes and under all options that keep names apart.
-/

namespace TableJoin.Writing

open Markup Schema

/-- The marks are written as an element for the child, at any place. -/
def WritesChild (o : EncodeOptions) (marks : List Mark) (y : ChildItem) : Prop :=
  ∀ p : Position, ∃ e : Element, e.StandsFor y ∧
    Prints o p marks (layout o p ++ [.element e]) ⟨p.depth, true, true⟩

section Parts

variable {o : EncodeOptions} {name : QName}

theorem spells_layout (o : EncodeOptions) (p : Position) : Spells (layout o p) [] :=
  .of_blank fun _ hpart => blank_of_mem_layout hpart

theorem writable_nil : Writable [] := ⟨by simp, List.nodup_nil⟩

theorem standsFor_scalar {e : Element} {v : Scalar} (htext : e.ownText = v.toText) :
    e.StandsFor ⟨e.name, .simple v.type, .scalar v⟩ := by
  refine ⟨rfl, ?_, fun strict => ?_⟩
  · rw [Element.item?_simple, htext]
    rfl
  · rw [Element.faults_simple, htext, contentFaults, Item.isLegibleWithin_scalar, Scalar.readBack?]
    cases v.type.read v.toText <;> simp [Except.toOption]

/-- A text element is read back with its text, be it empty or blank. -/
theorem exists_textElement (hsafe : o.PrefixSafe) (hname : isLocalName name.localName = true)
    {attributes : List (QName × String)} (hattributes : Writable attributes) (s : String)
    (p : Position) :
    ∃ e : Element, e.name = name.localName ∧ e.attributes = readAttributes o attributes ∧
      e.ownText = s ∧
      Prints o p (textElement name attributes s) (layout o p ++ [.element e])
        ⟨p.depth, true, true⟩ := by
  unfold textElement textContent
  by_cases hs : s.isEmpty = true
  · rw [if_pos hs]
    refine ⟨_, rfl, rfl, ?_, prints_empty hsafe hname hattributes p⟩
    rw [String.isEmpty_iff] at hs
    rw [hs]
    rfl
  · rw [if_neg hs]
    obtain ⟨parts, htext, hfill⟩ := fills_text o ⟨p.depth + 1, true, true⟩ s
    refine ⟨_, rfl, rfl, ?_, prints_around hsafe hname hattributes (by simp) hfill⟩
    have hlayout : layout o ⟨p.depth, false, true⟩ = [] := by
      cases hindent : o.indent <;> simp [layout, lineBreak, hindent]
    rw [hlayout, List.append_nil]
    exact htext

theorem writesChild_scalar (hsafe : o.PrefixSafe) (hname : isLocalName name.localName = true)
    (v : Scalar) :
    WritesChild o (textElement name [] v.toText)
      ⟨name.localName, .simple v.type, .scalar v⟩ := by
  intro p
  obtain ⟨e, hename, -, htext, hprints⟩ := exists_textElement hsafe hname writable_nil v.toText p
  refine ⟨e, ?_, hprints⟩
  rw [← hename]
  exact standsFor_scalar htext

/-- Items in a row are written as elements in a row. -/
theorem exists_list {s : ItemType} {xs : List Item}
    (h : ∀ x ∈ xs, WritesChild o (x.marks name) ⟨name.localName, s, x⟩)
    (depth : Nat) :
    ∃ parts, Prints o ⟨depth, true, true⟩ (Item.listMarks name xs) parts ⟨depth, true, true⟩ ∧
      Spells parts (xs.map fun x => ⟨name.localName, s, x⟩) := by
  induction xs with
  | nil => exact ⟨[], prints_nil, .nil⟩
  | cons x xs ih =>
    obtain ⟨e, he, hhead⟩ := h x List.mem_cons_self ⟨depth, true, true⟩
    obtain ⟨parts, hrest, hspells⟩ := ih fun y hy => h y (List.mem_cons_of_mem x hy)
    refine ⟨layout o ⟨depth, true, true⟩ ++ [.element e] ++ parts, ?_, ?_⟩
    · exact hhead.append hrest
    · have hfirst := (spells_layout o ⟨depth, true, true⟩).append (.element he .nil)
      exact hfirst.append hspells

/-- The entries of a record without character content are written as its children. -/
theorem exists_entries {ps : List (Feature × List Item)}
    (hbody : ∀ p ∈ ps, p.1.shape.isBody = false)
    (h : ∀ p ∈ ps, ∀ s isList, p.1.shape = .element s isList → ∀ x ∈ p.2,
      WritesChild o (x.marks p.1.xmlName) ⟨p.1.xmlName.localName, s, x⟩)
    (depth : Nat) :
    ∃ parts, Prints o ⟨depth, true, true⟩ (ps.flatMap entryMarks) parts ⟨depth, true, true⟩ ∧
      Spells parts (ps.flatMap childItems) := by
  induction ps with
  | nil => exact ⟨[], prints_nil, .nil⟩
  | cons p ps ih =>
    obtain ⟨parts, hrest, hspells⟩ := ih (fun q hq => hbody q (List.mem_cons_of_mem p hq))
      fun q hq => h q (List.mem_cons_of_mem p hq)
    rw [List.flatMap_cons, List.flatMap_cons]
    rcases hs : p.1.shape with s | s | ⟨s, isList⟩
    · refine ⟨parts, ?_, ?_⟩
      · simpa only [entryMarks, hs, List.nil_append] using hrest
      · simpa only [childItems, hs, List.nil_append] using hspells
    · have hnot := hbody p List.mem_cons_self
      rw [hs] at hnot
      cases hnot
    · obtain ⟨own, hown, hownSpells⟩ := exists_list (h p List.mem_cons_self s isList hs) depth
      refine ⟨own ++ parts, ?_, ?_⟩
      · simp only [entryMarks, hs]
        exact hown.append hrest
      · simp only [childItems, hs]
        exact hownSpells.append hspells

end Parts

theorem enclose_ne_nil (name : QName) (attributes : List (QName × String))
    (content : List Mark) : enclose name attributes content ≠ [] := by
  unfold enclose
  split <;> simp

theorem marks_ne_nil (name : QName) (x : Item) : x.marks name ≠ [] := by
  cases x with
  | scalar s => exact enclose_ne_nil name [] _
  | record r =>
    rw [Item.marks, marks_eq]
    exact enclose_ne_nil name _ _

theorem childItems_eq_nil {p : Feature × List Item} (h : entryMarks p = []) :
    childItems p = [] := by
  rcases hs : p.1.shape with s | s | ⟨s, isList⟩
  · simp only [childItems, hs]
  · simp only [childItems, hs]
  · simp only [childItems, hs, List.map_eq_nil_iff]
    simp only [entryMarks, hs] at h
    cases hitems : p.2 with
    | nil => rfl
    | cons x xs =>
      rw [hitems, Item.listMarks, List.append_eq_nil_iff] at h
      exact absurd h.1 (marks_ne_nil _ x)

section Record

variable {o : EncodeOptions} {r : Record}

/-- A record without character content is written as an element around its children. -/
theorem exists_element_of_children (hsafe : o.PrefixSafe) {name : QName}
    (hname : isLocalName name.localName = true) (hr : r.FitsSchema)
    (hbody : r.type.body? = none)
    (hitems : ∀ p ∈ r.entries, ∀ s isList, p.1.shape = .element s isList → ∀ x ∈ p.2,
      WritesChild o (x.marks p.1.xmlName) ⟨p.1.xmlName.localName, s, x⟩) :
    WritesChild o (r.marks name)
      ⟨name.localName, .record r.type, .record r⟩ := by
  intro p
  have hwritable := writable_attributes hr.complete
  have hnot : ∀ p ∈ r.entries, p.1.shape.isBody = false := by
    intro q hq
    obtain ⟨i, hf, -⟩ := hr.complete.mem_entries.mp hq
    rcases hs : q.1.shape with s | s | ⟨s, isList⟩
    · rfl
    · have hfound := RecordType.body?_of_feature? hf hs
      rw [hbody] at hfound
      cases hfound
    · rfl
  obtain ⟨parts, hprints, hspells⟩ := exists_entries hnot hitems (p.depth + 1)
  rw [marks_eq]
  by_cases hcontent : r.entries.flatMap entryMarks = []
  · have hnone : r.entries.flatMap childItems = [] := by
      rw [List.flatMap_eq_nil_iff] at hcontent ⊢
      exact fun q hq => childItems_eq_nil (hcontent q hq)
    rw [hcontent]
    refine ⟨_, ?_, prints_empty hsafe hname hwritable p⟩
    refine standsFor_of_spells hr hbody rfl ?_
    rw [hnone]
    exact .nil
  · refine ⟨_, ?_, prints_around hsafe hname hwritable hcontent hprints.fills⟩
    refine standsFor_of_spells hr hbody rfl ?_
    rw [← List.append_nil (r.entries.flatMap childItems)]
    exact hspells.append (spells_layout o ⟨p.depth, true, true⟩)

/-- A record with character content has no other content. -/
theorem flatMap_entryMarks_of_body (hr : r.IsComplete) (hbody : r.type.body?.isSome = true) :
    r.entries.flatMap entryMarks = textContent (bodyText r) := by
  obtain ⟨⟨i, s⟩, hfound⟩ := Option.isSome_iff_exists.mp hbody
  obtain ⟨f, hf, hs⟩ := RecordType.feature?_of_body? hfound
  rw [flatMap_eq_of_unique (getElem?_entries_of_feature? hr hf)]
  · simp only [entryMarks, hs, bodyText, hfound, Option.elim_some]
  · intro j p hj hne
    have hg := (getElem?_entries hj).1
    rcases hshape : p.1.shape with s' | s' | ⟨s', isList⟩
    · simp only [entryMarks, hshape]
    · have hother := RecordType.body?_of_feature? hg hshape
      rw [hfound] at hother
      injection hother with hpair
      exact absurd (congrArg Prod.fst hpair).symm hne
    · have helement := (RecordType.bodyAlone r.type (i, s) hfound).2 p.1 (List.mem_of_getElem? hg)
      rw [hshape] at helement
      cases helement

/-- A record with character content is written as an element around its text. -/
theorem exists_element_of_text (hsafe : o.PrefixSafe) {name : QName}
    (hname : isLocalName name.localName = true) (hr : r.FitsSchema)
    (hbody : r.type.body?.isSome = true) :
    WritesChild o (r.marks name)
      ⟨name.localName, .record r.type, .record r⟩ := by
  intro p
  have hwritable := writable_attributes hr.complete
  rw [marks_eq, flatMap_entryMarks_of_body hr.complete hbody]
  obtain ⟨e, hename, hattributes, htext, hprints⟩ :=
    exists_textElement hsafe hname hwritable (bodyText r) p
  refine ⟨e, ?_, hprints⟩
  rw [← hename]
  exact standsFor_of_text hr hbody hattributes htext

end Record

theorem writesChild_record {o : EncodeOptions} (hsafe : o.PrefixSafe) (r : Record) :
    r.Everywhere Record.FitsSchema → ∀ name : QName, isLocalName name.localName = true →
      WritesChild o (r.marks name) ⟨name.localName, .record r.type, .record r⟩ := by
  induction r using Record.induction with
  | step r ih =>
    intro hfits name hname
    have hr := hfits.self
    cases hbody : r.type.body? with
    | some found =>
      exact exists_element_of_text hsafe hname hr (by rw [hbody]; rfl)
    | none =>
      refine exists_element_of_children hsafe hname hr hbody ?_
      intro p hp s isList hs x hx
      obtain ⟨i, hf, hi⟩ := hr.complete.mem_entries.mp hp
      have hxs : p.2 ∈ r.slots := hi ▸ hr.complete.items_mem_slots hf
      have htype : x.type = s := by
        rw [(hr.admits p hp).type_eq x hx, Feature.itemType, hs]
      have hlocal := (RecordType.isLocalName_of_mem r.type p.1 (List.mem_of_getElem? hf)
        (by rw [hs]; rfl)).1
      subst htype
      cases x with
      | scalar v => exact writesChild_scalar hsafe hlocal v
      | record c => exact ih p.2 hxs c hx (hfits.of_mem hxs hx) p.1.xmlName hlocal

/-- The text of a record, be there a declaration in front of it or not, is read as layout and an
element that stands for the record. -/
theorem exists_element_of_write {o : EncodeOptions} (hsafe : o.PrefixSafe) {r : Record}
    (hfits : r.Everywhere Record.FitsSchema) {name : QName}
    (hname : isLocalName name.localName = true) {written : List Mark}
    (hwritten : written = r.marks name ∨ written = .declaration :: r.marks name) :
    ∃ (ps : List Part) (e : Element), (∀ p ∈ ps, ∃ s, p = .text s ∧ Text.isBlankText s = true) ∧
      NodeStream.ofText (write o written) = ⟨Part.nodes ps ++ (e.nodes ++ []), none⟩ ∧
      e.StandsFor ⟨name.localName, .record r.type, .record r⟩ := by
  obtain ⟨p, htext⟩ : ∃ p, NodeStream.ofText (write o written) =
      NodeStream.ofChars [] (writeFrom o p (r.marks name)) := by
    rw [marks_eq] at hwritten ⊢
    rcases hwritten with rfl | rfl
    · exact ⟨_, ofText_write_enclose o name _ _⟩
    · exact ofText_write o name _ _
  obtain ⟨e, he, hprints⟩ := writesChild_record hsafe r hfits name hname p
  have hnodes := hprints [] []
  rw [List.append_nil] at hnodes
  refine ⟨layout o p, e, fun _ hpart => blank_of_mem_layout hpart, ?_, he⟩
  rw [htext, hnodes]
  simp [writeFrom, NodeStream.ofChars_nil, NodeStream.behind, Element.nodes]

end TableJoin.Writing
