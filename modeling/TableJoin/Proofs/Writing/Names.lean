import TableJoin.Proofs.Markup.Scoping
import TableJoin.Proofs.Writing.Options

/-!
What written names mean: options whose short names are fit to be bound, what the first
tag of a document binds, and that under it every name means what it was written for.
-/

namespace TableJoin.Writing.EncodeOptions

open Markup

/-- The short names can be bound, each to one namespace.  The linking namespace, whose
names are those of attributes, has one that is not empty. -/
structure NamespaceSafe (o : EncodeOptions) : Prop where
  distinct : o.shorts.Nodup
  tjs : o.tjsShort = "" ∨ isLocalName o.tjsShort = true
  ows : o.owsShort = "" ∨ isLocalName o.owsShort = true
  xlink : isLocalName o.xlinkShort = true
  unreserved : ∀ short ∈ o.shorts, short ≠ "xml" ∧ short ≠ "xmlns" ∧ short ≠ "xsi"

instance (o : EncodeOptions) : Decidable o.NamespaceSafe :=
  decidable_of_iff (o.shorts.Nodup ∧ (o.tjsShort = "" ∨ isLocalName o.tjsShort = true) ∧
      (o.owsShort = "" ∨ isLocalName o.owsShort = true) ∧ isLocalName o.xlinkShort = true ∧
      ∀ short ∈ o.shorts, short ≠ "xml" ∧ short ≠ "xmlns" ∧ short ≠ "xsi")
    ⟨fun ⟨h₁, h₂, h₃, h₄, h₅⟩ => ⟨h₁, h₂, h₃, h₄, h₅⟩,
      fun ⟨h₁, h₂, h₃, h₄, h₅⟩ => ⟨h₁, h₂, h₃, h₄, h₅⟩⟩

/-- What the first tag of a document binds. -/
def declared (o : EncodeOptions) : Scope :=
  [(o.tjsShort, "http://www.opengis.net/tjs/1.0"), (o.owsShort, "http://www.opengis.net/ows/1.1"),
    (o.xlinkShort, "http://www.w3.org/1999/xlink")] ++
  match o.schemaLocation with
  | none => []
  | some _ => [("xsi", Namespace.schemaInstanceUri)]

/-- The attributes, besides, that only the first tag of a document has. -/
def located (o : EncodeOptions) : List (ExpandedName × String) :=
  match o.schemaLocation with
  | none => []
  | some location => [(⟨some Namespace.schemaInstanceUri, "schemaLocation"⟩, location)]

section Safe

variable {o : EncodeOptions}

theorem NamespaceSafe.prefixSafe (h : o.NamespaceSafe) : o.PrefixSafe where
  distinct := h.distinct
  named := by
    simp only [shorts, List.mem_cons, List.not_mem_nil, or_false, forall_eq_or_imp, forall_eq]
    exact ⟨h.tjs, h.ows, .inr h.xlink⟩
  unreserved short hshort := (h.unreserved short hshort).2

theorem lookup_declared (h : o.NamespaceSafe) {space : Namespace} {short uri : String}
    (hshort : o.shortName? space = some short) (huri : space.uri? = some uri) :
    o.declared.lookup short = some uri := by
  have hdistinct := h.distinct
  simp only [shorts, List.nodup_cons, List.mem_cons, List.not_mem_nil, or_false, not_or,
    not_false_eq_true, List.nodup_nil, and_true] at hdistinct
  obtain ⟨⟨hows, hxlink⟩, hother⟩ := hdistinct
  cases space with
  | unqualified => cases hshort
  | tjs =>
    cases hshort
    cases huri
    simp [declared]
  | ows =>
    cases hshort
    cases huri
    have hne : (o.owsShort == o.tjsShort) = false := beq_eq_false_iff_ne.mpr (Ne.symm hows)
    simp [declared, List.lookup_cons, hne]
  | xlink =>
    cases hshort
    cases huri
    have hne : (o.xlinkShort == o.tjsShort) = false := beq_eq_false_iff_ne.mpr (Ne.symm hxlink)
    have hne' : (o.xlinkShort == o.owsShort) = false := beq_eq_false_iff_ne.mpr (Ne.symm hother)
    simp [declared, List.lookup_cons, hne, hne']

theorem uri_ne_empty {space : Namespace} {uri : String} (h : space.uri? = some uri) : uri ≠ "" := by
  cases space <;> cases h <;> decide

theorem toList_join {short : String} (h : isLocalName short = true) (name : String) :
    (QName.join (some short) name).toList = short.toList ++ ':' :: name.toList := by
  have hne := isEmpty_of_isLocalName h
  simp only [QName.join, hne, Bool.false_eq_true, ↓reduceIte, String.toList_append,
    List.append_assoc]
  rfl

variable {name : QName}

/-- The name of an element that belongs to a namespace means what it was written for. -/
theorem element?_qualify (h : o.NamespaceSafe) (hname : isLocalName name.localName = true)
    (hspace : name.space ≠ .unqualified) :
    Scope.element? o.declared (o.qualify name).toList = some name.expanded := by
  obtain ⟨short, uri, hshort, huri⟩ : ∃ short uri, o.shortName? name.space = some short ∧
      name.space.uri? = some uri := by
    cases hcase : name.space with
    | unqualified => exact absurd hcase hspace
    | _ => exact ⟨_, _, rfl, rfl⟩
  have hlookup := lookup_declared h hshort huri
  rw [Scope.element?, qualify, hshort, QName.expanded, huri]
  rcases h.prefixSafe.named short (mem_shorts_of_shortName? hshort) with rfl | hlocal
  · have hjoin : QName.join (some "") name.localName = name.localName := rfl
    rw [hlookup, hjoin, Scope.expand?_of_isLocalName hname, Option.filter_some_pos]
    simpa using uri_ne_empty huri
  · rw [toList_join hlocal, Scope.expand?_join hlocal hname, hlookup]
    rfl

/-- The name of an attribute means what it was written for, be it without a namespace or
a linking name. -/
theorem attribute?_qualify (h : o.NamespaceSafe) (hname : isLocalName name.localName = true)
    (hspace : name.space = .unqualified ∨ name.space = .xlink) :
    Scope.attribute? o.declared (o.qualify name).toList = some name.expanded := by
  rw [Scope.attribute?, qualify, QName.expanded]
  rcases hspace with hspace | hspace
  · rw [hspace]
    exact Scope.expand?_of_isLocalName hname
  · have hshort : o.shortName? .xlink = some o.xlinkShort := rfl
    have hlookup := lookup_declared h hshort rfl
    rw [hspace, shortName?, toList_join h.xlink, Scope.expand?_join h.xlink hname, hlookup]
    rfl

/-- The key of a record's own attribute binds nothing. -/
theorem boundBy?_qualify (h : o.NamespaceSafe) (hname : isLocalName name.localName = true)
    (hxmlns : name.localName ≠ "xmlns") : boundBy? (o.qualify name).toList = none := by
  cases hbound : boundBy? (o.qualify name).toList with
  | none => rfl
  | some short =>
    have hreserved := isReservedKey_of_boundBy? hbound
    rw [isReservedKey_qualify h.prefixSafe hname hxmlns] at hreserved
    cases hreserved

theorem boundBy?_bindingKey {short : String} (h : short = "" ∨ isLocalName short = true) :
    boundBy? (bindingKey short).toList = some short := by
  rcases bindingKey_cases h with ⟨rfl, hkey⟩ | ⟨hlocal, hkey⟩
  · rw [hkey]
    rfl
  · have hne : "xmlns".toList ++ ':' :: short.toList ≠ "xmlns".toList := by simp
    rw [hkey, boundBy?, if_neg hne, splitRawName_join (by decide), if_pos rfl]

end Safe

end TableJoin.Writing.EncodeOptions
