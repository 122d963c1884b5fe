import TableJoin.Proofs.Record.Rendering
import TableJoin.Proofs.Writing.Elements
import TableJoin.Proofs.Writing.Names
import TableJoin.Proofs.Writing.Sources

/-!
Every record is written as a well-formed element whose names mean what the record was
given for: the element that it amounts to, with nothing bound but by the first tag.
-/

namespace TableJoin.Markup

open Writing

/-- The tag as the first one of a document, which alone binds short names and tells where
the schema is. -/
def ResolvedTag.asRoot (o : EncodeOptions) (tag : ResolvedTag) : ResolvedTag :=
  ⟨tag.name, o.declared, o.located ++ tag.attributes⟩

def ResolvedElement.asRoot (o : EncodeOptions) : ResolvedElement → ResolvedElement
  | .empty tag => .empty (tag.asRoot o)
  | .around tag text children => .around (tag.asRoot o) text children

end TableJoin.Markup

namespace TableJoin.Writing

open Markup Schema EncodeOptions

section Tags

variable {o : EncodeOptions}

theorem text?_sourceAttribute (a : String × String) : (sourceAttribute a).text? = some a.2 := by
  simp [SourceAttribute.text?, sourceAttribute, unescape_escape, Except.toOption]

/-- What is in scope where a tag is written. -/
def scopeAt (o : EncodeOptions) (p : Position) : Scope := if p.rootWritten then o.declared else []

/-- The tag as it is written at a place: the first one is the root's. -/
def tagAt (o : EncodeOptions) (p : Position) (tag : ResolvedTag) : ResolvedTag :=
  if p.rootWritten then tag else tag.asRoot o

/-- The element as it is written at a place: the first one is the root. -/
def elementAt (o : EncodeOptions) (p : Position) (e : ResolvedElement) : ResolvedElement :=
  if p.rootWritten then e else e.asRoot o

theorem elementAt_empty (o : EncodeOptions) (p : Position) (tag : ResolvedTag) :
    elementAt o p (.empty tag) = .empty (tagAt o p tag) := by
  unfold elementAt tagAt
  split <;> rfl

theorem elementAt_around (o : EncodeOptions) (p : Position) (tag : ResolvedTag) (text : String)
    (children : List ResolvedElement) :
    elementAt o p (.around tag text children) = .around (tagAt o p tag) text children := by
  unfold elementAt tagAt
  split <;> rfl

/-- Attributes of a record: they can be told apart, and they have the namespaces that
attributes have. -/
structure Understood (attributes : List (QName × String)) : Prop extends Writable attributes where
  spaces : ∀ a ∈ attributes, a.1.space = .unqualified ∨ a.1.space = .xlink

def expandedAttributes (attributes : List (QName × String)) : List (ExpandedName × String) :=
  attributes.map fun a => (a.1.expanded, a.2)

/-- A record's own attributes as they are written. -/
def ownAttributes (o : EncodeOptions) (attributes : List (QName × String)) :
    List SourceAttribute :=
  (attributes.map fun (key, value) => (o.qualify key, value)).map sourceAttribute

section Own

variable {attributes : List (QName × String)}

theorem declared?_ownAttributes (h : o.NamespaceSafe) (hattributes : Writable attributes) :
    SourceAttribute.declared? (ownAttributes o attributes) = some [] := by
  have hnamed := hattributes.named
  clear hattributes
  induction attributes with
  | nil => rfl
  | cons a rest ih =>
    obtain ⟨hname, hxmlns⟩ := hnamed a List.mem_cons_self
    have hrest := ih fun b hb => hnamed b (List.mem_cons_of_mem a hb)
    have hfree : boundBy? (sourceAttribute (o.qualify a.1, a.2)).key = none :=
      boundBy?_qualify h hname hxmlns
    exact (SourceAttribute.declared?_cons_of_free _ hfree).trans hrest

theorem resolve?_ownAttributes (h : o.NamespaceSafe) (hattributes : Understood attributes) :
    SourceAttribute.resolve? o.declared (ownAttributes o attributes) =
      some (expandedAttributes attributes) := by
  have hnamed := hattributes.named
  have hspaces := hattributes.spaces
  clear hattributes
  induction attributes with
  | nil => rfl
  | cons a rest ih =>
    obtain ⟨hname, hxmlns⟩ := hnamed a List.mem_cons_self
    have hrest := ih (fun b hb => hnamed b (List.mem_cons_of_mem a hb))
      fun b hb => hspaces b (List.mem_cons_of_mem a hb)
    have hfree : boundBy? (sourceAttribute (o.qualify a.1, a.2)).key = none :=
      boundBy?_qualify h hname hxmlns
    have hmeans := attribute?_qualify h hname (hspaces a List.mem_cons_self)
    have hfirst := SourceAttribute.resolve?_cons_of_free (ownAttributes o rest) hfree hmeans
      (text?_sourceAttribute (o.qualify a.1, a.2))
    rw [hrest] at hfirst
    exact hfirst

/-- The names of a record's attributes differ in what they mean. -/
theorem nodup_expandedAttributes (hattributes : Writable attributes) :
    ((expandedAttributes attributes).map (·.1)).Nodup := by
  have hlocal : (((expandedAttributes attributes).map (·.1)).map (·.localName)).Nodup := by
    rw [expandedAttributes, List.map_map, List.map_map]
    exact hattributes.distinct
  exact hlocal.of_map

end Own

theorem mayBind_of_mem_shorts (h : o.NamespaceSafe) {short : String} (hshort : short ∈ o.shorts)
    {uri : String} (huri : uri ≠ "") : mayBind short uri = true := by
  obtain ⟨hxml, hxmlns, -⟩ := h.unreserved short hshort
  rcases h.prefixSafe.named short hshort with rfl | hlocal
  · rfl
  · simp [mayBind, hlocal, hxml, hxmlns, huri]

section Bindings

variable {short uri : String} {as : List SourceAttribute}

theorem declared?_binding (hshort : short = "" ∨ isLocalName short = true)
    (hmay : mayBind short uri = true) (as : List SourceAttribute) :
    SourceAttribute.declared? (sourceAttribute (bindingKey short, uri) :: as) =
      (SourceAttribute.declared? as).map ((short, uri) :: ·) :=
  SourceAttribute.declared?_cons_of_bound as (boundBy?_bindingKey hshort) (text?_sourceAttribute _)
    hmay

theorem resolve?_binding (hshort : short = "" ∨ isLocalName short = true) (scope : Scope)
    (uri : String) (as : List SourceAttribute) :
    SourceAttribute.resolve? scope (sourceAttribute (bindingKey short, uri) :: as) =
      SourceAttribute.resolve? scope as :=
  SourceAttribute.resolve?_cons_of_bound as (boundBy?_bindingKey hshort)

theorem boundBy?_location (location : String) :
    boundBy? (sourceAttribute ("xsi:schemaLocation", location)).key = none := by
  simp only [sourceAttribute]
  decide

/-- What the first tag binds is what stands in it before the record's own attributes. -/
theorem declared?_rootAttributes (h : o.NamespaceSafe)
    (has : SourceAttribute.declared? as = some []) :
    SourceAttribute.declared? (o.rootAttributes.map sourceAttribute ++ as) = some o.declared := by
  have hbinds : ∀ short ∈ o.shorts, ∀ uri ≠ "", ∀ rest : List SourceAttribute,
      SourceAttribute.declared? (sourceAttribute (bindingKey short, uri) :: rest) =
        (SourceAttribute.declared? rest).map ((short, uri) :: ·) := fun short hshort uri huri =>
    declared?_binding (h.prefixSafe.named short hshort) (mayBind_of_mem_shorts h hshort huri)
  rw [rootAttributes_eq, declared]
  simp only [List.map_cons, List.cons_append, List.nil_append]
  rw [hbinds o.tjsShort (by simp [shorts]) _ (by decide),
    hbinds o.owsShort (by simp [shorts]) _ (by decide),
    hbinds o.xlinkShort (by simp [shorts]) _ (by decide)]
  cases o.schemaLocation with
  | none =>
    rw [List.map_nil, List.nil_append, has]
    rfl
  | some location =>
    have hfree := boundBy?_location location
    simp only [List.map_cons, List.map_nil, List.cons_append, List.nil_append]
    rw [declared?_binding (.inr (by decide)) (by decide),
      SourceAttribute.declared?_cons_of_free as hfree, has]
    rfl

/-- The short name of the schema location's own namespace is bound where it is used. -/
theorem lookup_xsi (h : o.NamespaceSafe) {location : String}
    (hlocation : o.schemaLocation = some location) :
    o.declared.lookup "xsi" = some Namespace.schemaInstanceUri := by
  have hne : ∀ short ∈ o.shorts, ("xsi" == short) = false := fun short hshort =>
    beq_eq_false_iff_ne.mpr (h.unreserved short hshort).2.2.symm
  simp [declared, hlocation, List.lookup_cons, hne o.tjsShort (by simp [shorts]),
    hne o.owsShort (by simp [shorts]), hne o.xlinkShort (by simp [shorts])]

/-- Of what stands in the first tag before the record's own attributes only the schema's
location is left. -/
theorem resolve?_rootAttributes (h : o.NamespaceSafe) {found : List (ExpandedName × String)}
    (has : SourceAttribute.resolve? o.declared as = some found) :
    SourceAttribute.resolve? o.declared (o.rootAttributes.map sourceAttribute ++ as) =
      some (o.located ++ found) := by
  rw [rootAttributes_eq, located]
  simp only [List.map_cons, List.cons_append, List.nil_append]
  rw [resolve?_binding h.tjs, resolve?_binding h.ows, resolve?_binding (.inr h.xlink)]
  cases hlocation : o.schemaLocation with
  | none => exact has
  | some location =>
    have hfree := boundBy?_location location
    have hkey : "xsi:schemaLocation".toList = "xsi".toList ++ ':' :: "schemaLocation".toList := by
      decide
    have hmeans : Scope.attribute? o.declared
        (sourceAttribute ("xsi:schemaLocation", location)).key =
          some ⟨some Namespace.schemaInstanceUri, "schemaLocation"⟩ := by
      rw [Scope.attribute?, sourceAttribute, hkey, Scope.expand?_join (by decide) (by decide),
        lookup_xsi h hlocation]
      rfl
    simp only [List.map_cons, List.map_nil, List.cons_append, List.nil_append]
    rw [resolve?_binding (.inr (by decide)), SourceAttribute.resolve?_cons_of_free as hfree hmeans
      (text?_sourceAttribute _), has]
    rfl

end Bindings

theorem resolve?_sourceTag (h : o.NamespaceSafe) {name : QName}
    (hname : isLocalName name.localName = true) (hspace : name.space ≠ .unqualified)
    {attributes : List (QName × String)} (hattributes : Understood attributes) (p : Position) :
    (sourceTag (o.qualify name) (tagAttributes o p attributes)).resolve? (scopeAt o p) =
      some (tagAt o p ⟨name.expanded, [], expandedAttributes attributes⟩) := by
  have hmeans := element?_qualify h hname hspace
  have hbound := declared?_ownAttributes h hattributes.toWritable
  have hown := resolve?_ownAttributes h hattributes
  have hdistinct := nodup_expandedAttributes hattributes.toWritable
  cases hroot : p.rootWritten with
  | true =>
    have hall : (sourceTag (o.qualify name) (tagAttributes o p attributes)).attributes =
        ownAttributes o attributes := by
      simp only [sourceTag, tagAttributes, hroot, ↓reduceIte, List.nil_append, ownAttributes]
    rw [scopeAt, tagAt, hroot, if_pos rfl, if_pos rfl]
    exact SourceTag.resolve?_eq (hall ▸ hbound) hmeans (hall ▸ hown) hdistinct
  | false =>
    have hall : (sourceTag (o.qualify name) (tagAttributes o p attributes)).attributes =
        o.rootAttributes.map sourceAttribute ++ ownAttributes o attributes := by
      simp [sourceTag, tagAttributes, hroot, ownAttributes]
    have hbound' := declared?_rootAttributes h hbound
    have hown' := resolve?_rootAttributes h hown
    rw [← hall] at hbound' hown'
    rw [scopeAt, tagAt, hroot, if_neg Bool.false_ne_true, if_neg Bool.false_ne_true]
    refine SourceTag.resolve?_eq hbound' ?_ ?_ ?_
    · rw [List.append_nil]
      exact hmeans
    · rw [List.append_nil]
      exact hown'
    · rw [List.map_append, List.nodup_append]
      refine ⟨?_, hdistinct, ?_⟩
      · cases hlocation : o.schemaLocation <;> simp [located, hlocation]
      · -- The schema's location is in a namespace that no attribute of a record is in.
        intro found hfound other hother heq
        obtain ⟨a, ha, rfl⟩ := List.mem_map.mp hfound
        obtain ⟨b, hb, rfl⟩ := List.mem_map.mp hother
        obtain ⟨c, hc, rfl⟩ := List.mem_map.mp hb
        have hspaces := hattributes.spaces c hc
        have huri : a.1.uri? = some Namespace.schemaInstanceUri := by
          cases hlocation : o.schemaLocation with
          | none => simp [located, hlocation] at ha
          | some location =>
            simp only [located, hlocation, List.mem_singleton] at ha
            rw [ha]
        have hsame : c.1.space.uri? = some Namespace.schemaInstanceUri := by
          rw [← huri, heq]
          rfl
        rcases hspaces with hspace | hspace <;> rw [hspace] at hsame <;> revert hsame <;> decide

end Tags

/-- The marks are written as a well-formed element that amounts to the given one, at any
place. -/
def WritesElement (o : EncodeOptions) (marks : List Mark) (x : ResolvedElement) : Prop :=
  ∀ p : Position, ∃ e : SourceElement, e.isWellFormed = true ∧
    e.resolve? o.indent.isSome (scopeAt o p) = some (elementAt o p x) ∧
    Lays o p marks (sourceLayout o p ++ [.element e]) ⟨p.depth, true, true⟩

/-- The parts are the content of an element with the text and the child elements. -/
structure IsContent (o : EncodeOptions) (parts : List SourcePart) (text : String)
    (children : List ResolvedElement) : Prop where
  wellFormed : SourcePart.areWellFormed parts = true
  resolve_eq : SourcePart.resolve? o.indent.isSome o.declared parts = some children
  text_eq : SourcePart.textAround o.indent.isSome children parts = text

/-- The parts are child elements with nothing but layout between them. -/
structure LaysOut (o : EncodeOptions) (parts : List SourcePart)
    (children : List ResolvedElement) : Prop where
  wellFormed : SourcePart.areWellFormed parts = true
  resolve_eq : SourcePart.resolve? o.indent.isSome o.declared parts = some children
  blank : (parts.flatMap SourcePart.stands).all Text.isBlank = true
  compact : o.indent = none → parts.flatMap SourcePart.stands = []

section Content

variable {o : EncodeOptions} {parts parts' : List SourcePart}
  {children children' : List ResolvedElement}

theorem laysOut_nil (o : EncodeOptions) : LaysOut o [] [] := ⟨rfl, rfl, rfl, fun _ => rfl⟩

theorem LaysOut.append (h : LaysOut o parts children) (h' : LaysOut o parts' children') :
    LaysOut o (parts ++ parts') (children ++ children') where
  wellFormed := SourcePart.areWellFormed_append.mpr ⟨h.wellFormed, h'.wellFormed⟩
  resolve_eq := SourcePart.resolve?_append h.resolve_eq h'.resolve_eq
  blank := by rw [List.flatMap_append, List.all_append, h.blank, h'.blank]; rfl
  compact hindent := by rw [List.flatMap_append, h.compact hindent, h'.compact hindent]; rfl

theorem laysOut_layout (o : EncodeOptions) (p : Position) : LaysOut o (sourceLayout o p) [] := by
  have hspelled := spelled_sourceLayout o p
  refine ⟨hspelled.wellFormed, SourcePart.resolve?_of_elements_eq_nil hspelled.elements, ?_, ?_⟩
  · rw [hspelled.stands, List.all_eq_true]
    exact fun c hc => (isBlank_of_mem_lineBreak hc).1
  · intro hindent
    rw [hspelled.stands, lineBreak, hindent]

theorem laysOut_element {e : SourceElement} {x : ResolvedElement} (hwell : e.isWellFormed = true)
    (hresolve : e.resolve? o.indent.isSome o.declared = some x) : LaysOut o [.element e] [x] where
  wellFormed := SourcePart.areWellFormed_cons.mpr ⟨hwell, rfl⟩
  resolve_eq := by simp [SourcePart.resolve?, hresolve]
  blank := rfl
  compact _ := rfl

/-- What stands between child elements is no text of the element around them. -/
theorem LaysOut.isContent (h : LaysOut o parts children) (hne : children ≠ []) :
    IsContent o parts "" children := by
  refine ⟨h.wellFormed, h.resolve_eq, ?_⟩
  unfold SourcePart.textAround
  cases hindent : o.indent with
  | none =>
    rw [SourcePart.ownText, h.compact hindent]
    split <;> rfl
  | some width =>
    have hblank : Text.isBlankText (SourcePart.ownText parts) = true := by
      rw [Text.isBlankText, SourcePart.ownText, String.toList_ofList]
      exact h.blank
    have hsome : children.isEmpty = false := by simpa using hne
    simp [hblank, hsome]

theorem Spelled.isContent {cs : List Char} (h : Spelled parts cs) :
    IsContent o parts (String.ofList cs) [] := by
  refine ⟨h.wellFormed, SourcePart.resolve?_of_elements_eq_nil h.elements, ?_⟩
  rw [SourcePart.textAround, SourcePart.ownText, h.stands]
  simp

end Content

section Elements

variable {o : EncodeOptions} {name : QName} {attributes : List (QName × String)}

/-- An element is written with its content, and self-closing without. -/
theorem writesElement_enclose (hsafe : o.NamespaceSafe) (hname : isLocalName name.localName = true)
    (hspace : name.space ≠ .unqualified) (hattributes : Understood attributes)
    {content : List Mark} {text : String} {children : List ResolvedElement}
    (hempty : content = [] ↔ text = "" ∧ children = [])
    (hcontent : content ≠ [] → ∀ depth, ∃ parts breakLine,
      Lays o ⟨depth + 1, true, true⟩ content parts ⟨depth + 1, breakLine, true⟩ ∧
        IsContent o (parts ++ sourceLayout o ⟨depth, breakLine, true⟩) text children) :
    WritesElement o (enclose name attributes content)
      (.holding ⟨name.expanded, [], expandedAttributes attributes⟩ text children) := by
  intro p
  have hsafe' := hsafe.prefixSafe
  have hkeys : ∀ a ∈ tagAttributes o p attributes, IsRawName a.1.toList := fun a ha =>
    isRawName_of_mem_tagAttributes hsafe' hattributes.toWritable ha
  have hraw := isRawName_qualify hsafe' hname
  have hnodup := nodup_tagAttributes hsafe' hattributes.toWritable (p := p)
  have htag := resolve?_sourceTag hsafe hname hspace hattributes p
  by_cases hnone : content = []
  · obtain ⟨htext, hchildren⟩ := hempty.mp hnone
    subst hnone
    refine ⟨_, isWellFormed_empty hraw hkeys hnodup, ?_, lays_empty name attributes o p⟩
    rw [ResolvedElement.holding, if_pos ⟨htext, List.isEmpty_iff.mpr hchildren⟩, elementAt_empty,
      SourceElement.resolve?, htag]
    rfl
  · obtain ⟨parts, breakLine, hlays, hholds⟩ := hcontent hnone p.depth
    refine ⟨_, isWellFormed_around hraw hkeys hnodup hholds.wellFormed, ?_,
      lays_around name attributes hnone hlays⟩
    have hsome : ¬ (text = "" ∧ children.isEmpty = true) := by
      rw [List.isEmpty_iff, ← hempty]
      exact hnone
    -- Whatever the place, inside the tag the short names are bound.
    have hscope : (tagAt o p ⟨name.expanded, [], expandedAttributes attributes⟩).declared ++
        scopeAt o p = o.declared := by
      unfold tagAt scopeAt
      split
      · rfl
      · exact List.append_nil _
    rw [ResolvedElement.holding, if_neg hsome, elementAt_around]
    simp [SourceElement.resolve?, htag, hscope, hholds.resolve_eq, hholds.text_eq]

theorem textContent_eq_nil_iff (s : String) : textContent s = [] ↔ s = "" := by
  unfold textContent
  split
  · next hs => simpa using String.isEmpty_iff.mp hs
  · next hs =>
    rw [String.isEmpty_iff] at hs
    simp [hs]

theorem writesElement_text (hsafe : o.NamespaceSafe) (hname : isLocalName name.localName = true)
    (hspace : name.space ≠ .unqualified) (hattributes : Understood attributes) (s : String) :
    WritesElement o (textElement name attributes s)
      (.holding ⟨name.expanded, [], expandedAttributes attributes⟩ s []) := by
  refine writesElement_enclose hsafe hname hspace hattributes ?_ fun hne depth => ?_
  · rw [textContent_eq_nil_iff]
    exact ⟨fun hs => ⟨hs, rfl⟩, fun hs => hs.1⟩
  · have hs : textContent s = [.text s] := by
      rw [textContent, if_neg]
      rw [Ne, textContent_eq_nil_iff] at hne
      simpa using hne
    have hlayout : sourceLayout o ⟨depth, false, true⟩ = [] := by
      cases hindent : o.indent <;> simp [sourceLayout, lineBreak, hindent]
    have hspelled := (spelled_sourceChar s.toList).isContent (o := o)
    rw [String.ofList_toList] at hspelled
    refine ⟨s.toList.map sourceChar, false, ?_, ?_⟩
    · rw [hs]
      exact lays_text o _ s
    · rw [hlayout, List.append_nil]
      exact hspelled

/-- Elements in a row are written one after another. -/
theorem exists_laysOut_list {xs : List Item}
    (h : ∀ x ∈ xs, WritesElement o (x.marks name) (x.rendered name)) (depth : Nat) :
    ∃ parts, Lays o ⟨depth, true, true⟩ (Item.listMarks name xs) parts ⟨depth, true, true⟩ ∧
      LaysOut o parts (xs.map (Item.rendered name)) := by
  induction xs with
  | nil => exact ⟨[], lays_nil, laysOut_nil o⟩
  | cons x xs ih =>
    obtain ⟨e, hwell, hresolve, hfirst⟩ := h x List.mem_cons_self ⟨depth, true, true⟩
    obtain ⟨parts, hrest, hparts⟩ := ih fun y hy => h y (List.mem_cons_of_mem x hy)
    have helement := (laysOut_layout o ⟨depth, true, true⟩).append (laysOut_element hwell hresolve)
    refine ⟨sourceLayout o ⟨depth, true, true⟩ ++ [.element e] ++ parts, ?_, helement.append hparts⟩
    exact hfirst.append hrest

/-- The entries of a record without text are written as its child elements, in order. -/
theorem exists_laysOut_entries {ps : List (Feature × List Item)}
    (hbody : ∀ p ∈ ps, p.1.shape.isBody = false)
    (h : ∀ p ∈ ps, p.1.shape.isElement = true → ∀ x ∈ p.2,
      WritesElement o (x.marks p.1.xmlName) (x.rendered p.1.xmlName)) (depth : Nat) :
    ∃ parts, Lays o ⟨depth, true, true⟩ (ps.flatMap entryMarks) parts ⟨depth, true, true⟩ ∧
      LaysOut o parts (ps.flatMap childElements) := by
  induction ps with
  | nil => exact ⟨[], lays_nil, laysOut_nil o⟩
  | cons p ps ih =>
    obtain ⟨parts, hrest, hparts⟩ := ih (fun q hq => hbody q (List.mem_cons_of_mem p hq))
      fun q hq => h q (List.mem_cons_of_mem p hq)
    rw [List.flatMap_cons, List.flatMap_cons]
    rcases hs : p.1.shape with s | s | ⟨s, isList⟩
    · refine ⟨parts, ?_, ?_⟩
      · simpa only [entryMarks, hs, List.nil_append] using hrest
      · simpa [childElements, hs, Shape.isElement] using hparts
    · have hnot := hbody p List.mem_cons_self
      rw [hs] at hnot
      cases hnot
    · have helement : p.1.shape.isElement = true := by rw [hs]; rfl
      obtain ⟨own, hown, hlaid⟩ := exists_laysOut_list (h p List.mem_cons_self helement) depth
      refine ⟨own ++ parts, ?_, ?_⟩
      · simp only [entryMarks, hs]
        exact hown.append hrest
      · rw [childElements, if_pos helement]
        exact hlaid.append hparts

end Elements

section Records

variable {o : EncodeOptions} {r : Record}

theorem understood_attributes (hr : r.IsComplete) : Understood r.attributes where
  toWritable := writable_attributes hr
  spaces a ha := by
    obtain ⟨i, f, hf, hattribute, x, xs, -, rfl⟩ := (mem_attributes hr).mp ha
    exact (RecordType.space_of_mem r.type f (List.mem_of_getElem? hf)).1 hattribute

/-- The text that a record holds as its own content is what is written. -/
theorem ownText_eq_bodyText (hr : r.IsComplete) : r.ownText = bodyText r := by
  have hentry : ∀ p ∈ r.entries, p.1.shape.isBody = true →
      ∃ i s, r.type.body? = some (i, s) ∧ r.items i = p.2 := by
    intro p hp hbody
    obtain ⟨i, hf, hi⟩ := hr.mem_entries.mp hp
    obtain ⟨s, hs⟩ := Shape.isBody_eq_true_iff.mp hbody
    exact ⟨i, s, RecordType.body?_of_feature? hf hs, hi⟩
  rw [Record.ownText, bodyText]
  cases hfind : r.entries.find? fun p => p.1.shape.isBody with
  | some p =>
    have hbody : p.1.shape.isBody = true := by simpa using List.find?_some hfind
    obtain ⟨i, s, hfound, hi⟩ := hentry p (List.mem_of_find?_eq_some hfind) hbody
    rw [hfound, Option.bind_some, Option.elim_some, hi]
  | none =>
    cases hfound : r.type.body? with
    | none => rfl
    | some found =>
      obtain ⟨i, s⟩ := found
      obtain ⟨f, hf, hs⟩ := RecordType.feature?_of_body? hfound
      have hmem : (f, r.items i) ∈ r.entries := hr.mem_entries.mpr ⟨i, hf, rfl⟩
      have hnot := List.find?_eq_none.mp hfind _ hmem
      rw [hs] at hnot
      exact absurd rfl hnot

theorem entryMarks_eq_nil_iff {p : Feature × List Item} (h : p.1.shape.isBody = false) :
    entryMarks p = [] ↔ childElements p = [] := by
  rcases hs : p.1.shape with s | s | ⟨s, isList⟩
  · simp [entryMarks, childElements, hs, Shape.isElement]
  · rw [hs] at h
    cases h
  · simp only [entryMarks, childElements, hs, Shape.isElement, ↓reduceIte, List.map_eq_nil_iff]
    cases p.2 with
    | nil => simp [Item.listMarks]
    | cons x xs => simp [Item.listMarks, marks_ne_nil]

/-- A record without a text of its own is written with its child elements. -/
theorem writesElement_of_children (hsafe : o.NamespaceSafe) {name : QName}
    (hname : isLocalName name.localName = true) (hspace : name.space ≠ .unqualified)
    (hr : r.IsComplete) (hbody : r.type.body? = none)
    (h : ∀ p ∈ r.entries, p.1.shape.isElement = true → ∀ x ∈ p.2,
      WritesElement o (x.marks p.1.xmlName) (x.rendered p.1.xmlName)) :
    WritesElement o (r.marks name) (r.rendered name) := by
  have hnot : ∀ p ∈ r.entries, p.1.shape.isBody = false := by
    intro p hp
    obtain ⟨i, hf, -⟩ := hr.mem_entries.mp hp
    rcases hs : p.1.shape with s | s | ⟨s, isList⟩
    · rfl
    · have hfound := RecordType.body?_of_feature? hf hs
      rw [hbody] at hfound
      cases hfound
    · rfl
  have hempty : r.entries.flatMap entryMarks = [] ↔ r.entries.flatMap childElements = [] := by
    rw [List.flatMap_eq_nil_iff, List.flatMap_eq_nil_iff]
    exact forall₂_congr fun p hp => entryMarks_eq_nil_iff (hnot p hp)
  have htext : r.ownText = "" := by
    rw [ownText_eq_bodyText hr, bodyText, hbody]
    rfl
  rw [marks_eq, Record.rendered_eq, Record.explicitAttributes_eq, htext]
  refine writesElement_enclose hsafe hname hspace (understood_attributes hr) ?_
    fun hne depth => ?_
  · rw [hempty]
    exact ⟨fun hnone => ⟨rfl, hnone⟩, fun hnone => hnone.2⟩
  · obtain ⟨parts, hlays, hparts⟩ := exists_laysOut_entries hnot h (depth + 1)
    refine ⟨parts, true, hlays, ?_⟩
    have hall := hparts.append (laysOut_layout o ⟨depth, true, true⟩)
    rw [List.append_nil] at hall
    exact hall.isContent fun hnone => hne (hempty.mpr hnone)

/-- A record with a text of its own is written with this text alone. -/
theorem writesElement_of_text (hsafe : o.NamespaceSafe) {name : QName}
    (hname : isLocalName name.localName = true) (hspace : name.space ≠ .unqualified)
    (hr : r.IsComplete) (hbody : r.type.body?.isSome = true) :
    WritesElement o (r.marks name) (r.rendered name) := by
  obtain ⟨found, hfound⟩ := Option.isSome_iff_exists.mp hbody
  have hchildren : r.entries.flatMap childElements = [] := by
    rw [List.flatMap_eq_nil_iff]
    intro p hp
    obtain ⟨i, hf, -⟩ := hr.mem_entries.mp hp
    rw [childElements, (RecordType.bodyAlone r.type found hfound).2 p.1 (List.mem_of_getElem? hf)]
    rfl
  rw [marks_eq, flatMap_entryMarks_of_body hr hbody, Record.rendered_eq,
    Record.explicitAttributes_eq, hchildren, ownText_eq_bodyText hr]
  exact writesElement_text hsafe hname hspace (understood_attributes hr) (bodyText r)

end Records

theorem writesElement_record {o : EncodeOptions} (hsafe : o.NamespaceSafe) (r : Record) :
    r.Everywhere Record.FitsSchema → ∀ name : QName, isLocalName name.localName = true →
      name.space ≠ .unqualified → WritesElement o (r.marks name) (r.rendered name) := by
  induction r using Record.induction with
  | step r ih =>
    intro hfits name hname hspace
    have hr := hfits.self.complete
    cases hbody : r.type.body? with
    | some found => exact writesElement_of_text hsafe hname hspace hr (by rw [hbody]; rfl)
    | none =>
      refine writesElement_of_children hsafe hname hspace hr hbody fun p hp helement x hx => ?_
      obtain ⟨i, hf, hi⟩ := hr.mem_entries.mp hp
      have hmem := List.mem_of_getElem? hf
      have hnot : p.1.shape.isBody = false := by
        rcases hs : p.1.shape with s | s | ⟨s, isList⟩
        · rfl
        · rw [hs] at helement
          cases helement
        · rfl
      have hlocal := (RecordType.isLocalName_of_mem r.type p.1 hmem hnot).1
      have hinSpace : p.1.xmlName.space ≠ .unqualified := by
        rcases (RecordType.space_of_mem r.type p.1 hmem).2 helement with heq | heq <;> rw [heq] <;>
          decide
      cases x with
      | scalar s => exact writesElement_text hsafe hlocal hinSpace ⟨writable_nil, by simp⟩ s.toText
      | record c =>
        have hxs : p.2 ∈ r.slots := hi ▸ hr.items_mem_slots hf
        exact ih p.2 hxs c hx (hfits.of_mem hxs hx) p.1.xmlName hlocal hinSpace

end TableJoin.Writing
