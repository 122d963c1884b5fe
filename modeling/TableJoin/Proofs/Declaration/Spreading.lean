import TableJoin.Proofs.Declaration.Gathering
import TableJoin.Proofs.Declaration.Placing
import TableJoin.Proofs.Writing.ComingBack

/-!
Spreading: which attributes and elements a method that writes spreads a value over, and that each
of them is sent back to the field that it is written for.
-/

namespace TableJoin

open Markup Reading Schema Writing

namespace Declaration

namespace TypeModel

variable {m : TypeModel} {T : ItemTypes}

/-- The local names are names, and none of an attribute is taken for a declaration. -/
structure NamesProper (m : TypeModel) : Prop where
  attributes : ∀ name ∈ m.fields.filterMap fun f => f.placement.attributeName?,
    isLocalName name = true ∧ name ≠ "xmlns"
  elements : ∀ name ∈ m.fields.filterMap fun f => f.placement.elementName?,
    isLocalName name = true

instance (m : TypeModel) : Decidable m.NamesProper :=
  decidable_of_iff
    ((∀ name ∈ m.fields.filterMap fun f => f.placement.attributeName?,
        isLocalName name = true ∧ name ≠ "xmlns") ∧
      ∀ name ∈ m.fields.filterMap fun f => f.placement.elementName?, isLocalName name = true)
    ⟨fun ⟨h, h'⟩ => ⟨h, h'⟩, fun ⟨h, h'⟩ => ⟨h, h'⟩⟩

section Names

variable {l : List m.Place} {i : m.Place}

theorem map_localName_attributePlaces : m.attributePlaces.map (fun i => (m.field i).localName) =
    m.fields.filterMap fun f => f.placement.attributeName? := by
  rw [← map_localName_filter attributeName?_eq, ← attributeFields, ← map_field_attributePlaces,
    List.map_map]
  rfl

theorem map_localName_elementPlaces : m.elementPlaces.map (fun i => (m.field i).localName) =
    m.fields.filterMap fun f => f.placement.elementName? := by
  rw [← map_localName_filter elementName?_eq, ← elementFields, ← map_field_elementPlaces,
    List.map_map]
  rfl

/-- The name that a field is written under is sent back to it. -/
theorem fieldFor?_armsAt (hapart : (l.map fun i => (m.field i).localName).Nodup) (hi : i ∈ l) :
    fieldFor? (m.armsAt l) (m.field i).localName = some i := by
  refine fieldFor?_of_mem ?_ (List.mem_map.mpr ⟨i, hi, rfl⟩)
  rw [armsAt, List.map_map]
  exact hapart

theorem isLocalName_of_mem (hproper : m.NamesProper) (hi : i ∈ m.elementPlaces) :
    isLocalName (m.field i).localName = true := by
  apply hproper.elements
  rw [← map_localName_elementPlaces]
  exact List.mem_map_of_mem hi

theorem writable_attributes (hapart : m.NamesApart) (hproper : m.NamesProper) (v : m.Value T) :
    Writable (m.placedCode.writer.attributesOf v) := by
  have hfound : ∀ {i : m.Place} {a : QName × String},
      (v i).attribute? (m.field i).placement.qname = some a →
        a.1.localName = (m.field i).localName := by
    intro i a ha
    obtain ⟨x, -, rfl⟩ := Option.map_eq_some_iff.mp ha
    rfl
  have hattributes : m.placedCode.writer.attributesOf v =
      m.attributePlaces.filterMap fun i => (v i).attribute? (m.field i).placement.qname := by
    rw [WriteCode.attributesOf, placedCode, namedAt, List.filterMap_map]
    rfl
  rw [hattributes]
  constructor
  · intro a ha
    obtain ⟨i, hi, ha⟩ := List.mem_filterMap.mp ha
    rw [hfound ha]
    apply hproper.attributes
    rw [← map_localName_attributePlaces]
    exact List.mem_map_of_mem hi
  · have hnodup := hapart.attributes
    rw [← map_localName_attributePlaces, List.Nodup, List.pairwise_map] at hnodup
    rw [List.Nodup, List.pairwise_map, List.pairwise_filterMap]
    refine hnodup.imp fun hij a ha b hb heq => hij ?_
    rw [← hfound ha, ← hfound hb, heq]

end Names

section Content

variable {o : EncodeOptions} {v u w : m.Value T}
  {arms : List (String × m.Place)} {back : (type : List Token) → T.Value type → T.Value type}

/-- Under the name child elements are written that give back, for what `v` holds in the field,
what `u` does. -/
structure ReturnsInElements (arms : List (String × m.Place))
    (back : (type : List Token) → T.Value type → T.Value type) (v u : m.Value T) (name : QName)
    (i : m.Place) : Prop where
  isLocalName : isLocalName name.localName = true
  sent : fieldFor? arms name.localName = some i
  items_eq : (u i).items = (v i).items.map (back _)
  comesBack : ∀ x ∈ (v i).items,
    ComesBackAs (fun name => T.marks name x) (T.read (m.field i).type) (back _ x)

theorem takes_of_items {f : FieldModel} {h h' : Held T f} {x : T.Value f.type}
    {xs : List (T.Value f.type)} (hitems : h.items = h'.items ++ x :: xs) : h'.takes = true := by
  cases hcardinality : f.cardinality with
  | many => simp [Held.takes, hcardinality]
  | single =>
    have hlength := h.single hcardinality
    rw [hitems, List.length_append, List.length_cons] at hlength
    have hempty : h'.items = [] := List.eq_nil_of_length_eq_zero (by omega)
    simp [Held.takes, hempty]

/-- The items of a field are written as elements that add them to the field. -/
theorem exists_parts_of_items (hsafe : o.PrefixSafe) {i : m.Place}
    {name : QName} (hname : isLocalName name.localName = true)
    (hsent : fieldFor? arms name.localName = some i) (depth : Nat) {h : Held T (m.field i)}
    {xs : List (T.Value (m.field i).type)}
    (hback : ∀ x ∈ xs,
      ComesBackAs (fun name => T.marks name x) (T.read (m.field i).type) (back _ x)) :
    ∀ w : m.Value T, h.items = (w i).items ++ xs.map (back _) → ∃ parts,
      Prints o ⟨depth, true, true⟩ (xs.flatMap (T.marks name)) parts
        ⟨depth, true, true⟩ ∧
      Gathers T arms w parts (Function.update w i h) := by
  induction xs with
  | nil =>
    intro w hitems
    have hself : h = w i := by
      ext1
      rw [hitems, List.map_nil, List.append_nil]
    refine ⟨[], prints_nil, ?_⟩
    rw [hself, Function.update_eq_self]
    exact .nil
  | cons x xs ih =>
    intro w hitems
    obtain ⟨hx, hxs⟩ := List.forall_mem_cons.mp hback
    obtain ⟨e, hename, hprints, hreads⟩ := hx o _ ⟨depth, true, true⟩ hsafe hname
    have htakes : (w i).takes = true := takes_of_items hitems
    have hadded : h.items =
        (Function.update w i ((w i).add (back _ x) htakes) i).items ++ xs.map (back _) := by
      rw [Function.update_self, hitems]
      simp [Held.add]
    obtain ⟨parts, hrest, hgathers⟩ := ih hxs _ hadded
    rw [Function.update_idem] at hgathers
    refine ⟨layout o ⟨depth, true, true⟩ ++ [.element e] ++ parts, ?_, ?_⟩
    · rw [List.flatMap_cons]
      exact hprints.append hrest
    · rw [List.append_assoc]
      refine (Gathers.of_layout o _).append ?_
      exact .element htakes (by rw [hename]; exact hsent) hreads hgathers

/-- Fields are written as elements from which each gets its items back. -/
theorem exists_parts (hsafe : o.PrefixSafe) (depth : Nat) {l : List (QName × m.Place)}
    (hnodup : (l.map Prod.snd).Nodup) (h : ∀ a ∈ l, ReturnsInElements arms back v u a.1 a.2) :
    ∀ w : m.Value T, (∀ i ∈ l.map Prod.snd, w i = .unset) → ∃ parts,
      Prints o ⟨depth, true, true⟩ (l.flatMap fun (name, i) => (v i).elements name) parts
        ⟨depth, true, true⟩ ∧
      Gathers T arms w parts (overlay (l.map Prod.snd) u w) := by
  induction l with
  | nil =>
    intro w _
    refine ⟨[], prints_nil, ?_⟩
    rw [List.map_nil, overlay_nil]
    exact .nil
  | cons a l ih =>
    obtain ⟨name, i⟩ := a
    intro w hw
    obtain ⟨hother, hnodup⟩ := List.nodup_cons.mp hnodup
    obtain ⟨hi, hl⟩ := List.forall_mem_cons.mp h
    obtain ⟨hwi, hwl⟩ := List.forall_mem_cons.mp hw
    have hitems : (u i).items = (w i).items ++ (v i).items.map (back _) := by
      rw [hi.items_eq, hwi]
      rfl
    obtain ⟨own, hown, hownGathers⟩ :=
      exists_parts_of_items hsafe hi.isLocalName hi.sent depth hi.comesBack w hitems
    have hunset : ∀ j ∈ l.map Prod.snd, Function.update w i (u i) j = .unset := by
      intro j hj
      have hji : j ≠ i := fun heq => hother (heq ▸ hj)
      rw [Function.update_of_ne hji, hwl j hj]
    obtain ⟨parts, hrest, hgathers⟩ := ih hnodup hl _ hunset
    refine ⟨own ++ parts, ?_, ?_⟩
    · rw [List.flatMap_cons]
      exact hown.append hrest
    · rw [List.map_cons, overlay_cons]
      exact hownGathers.append hgathers

end Content

end TypeModel

end Declaration

end TableJoin
