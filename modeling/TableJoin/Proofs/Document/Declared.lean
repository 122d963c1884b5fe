import TableJoin.Proofs.Document.Source

/-!
What a strict reader accepts: every attribute and every child element of a record is
declared by the record's type.  The attributes of elements that are read as simple
types are not looked at.
-/

namespace TableJoin.Markup

open Schema

def SourceElement.attributes : SourceElement → List SourceAttribute
  | .empty tag => tag.attributes
  | .around tag _ _ => tag.attributes

def SourceElement.children : SourceElement → List SourceElement
  | .empty _ => []
  | .around _ parts _ => SourcePart.elements parts

/-- The attribute is declared by the type, or describes the document and not the element. -/
def SourceAttribute.IsDeclared (declares : String → Prop) (a : SourceAttribute) : Prop :=
  isReservedKey a.key = true ∨ declares a.localName

/-- Everything in an element that is read as the type is declared by the type that it is
read as.  Of the attributes of an element of a simple type, `simple` is asked. -/
inductive SourceElement.IsDeclared (simple : SourceAttribute → Prop) :
    ItemType → SourceElement → Prop
  | simple {s : SimpleType} {e : SourceElement} : (∀ a ∈ e.attributes, simple a) →
      SourceElement.IsDeclared simple (.simple s) e
  | text {t : RecordType} {e : SourceElement} : t.body? ≠ none →
      (∀ a ∈ e.attributes, a.IsDeclared fun name => t.attribute? name ≠ none) →
      SourceElement.IsDeclared simple (.record t) e
  | record {t : RecordType} {e : SourceElement} : t.body? = none →
      (∀ a ∈ e.attributes, a.IsDeclared fun name => t.attribute? name ≠ none) →
      (∀ c ∈ e.children, t.element? c.localName ≠ none) →
      (∀ c ∈ e.children, ∀ i s isList, t.element? c.localName = some (i, s, isList) →
        SourceElement.IsDeclared simple s c) →
      SourceElement.IsDeclared simple (.record t) e

section Declared

variable {t : RecordType}

theorem SourceElement.attributes_view (e : SourceElement) :
    e.view.attributes = e.attributes.filterMap SourceAttribute.view? := by
  cases e <;> rfl

theorem SourceElement.elements_view (e : SourceElement) :
    Part.elements e.view.parts = e.children.map SourceElement.view := by
  cases e with
  | empty tag => rfl
  | around tag parts close => exact SourcePart.elements_views parts []

theorem SourceAttribute.isDeclared_of_faults {e : SourceElement}
    (h : ∀ a ∈ e.view.attributes, attributeFaults true t a = []) :
    ∀ a ∈ e.attributes, a.IsDeclared fun name => t.attribute? name ≠ none := by
  intro a ha
  by_cases hreserved : isReservedKey a.key = true
  · exact .inl hreserved
  · right
    have hview : a.view? = some ⟨(splitRawName a.key).1, (splitRawName a.key).2,
        String.ofList ((unescape a.value).toOption.getD [])⟩ := by
      simp [SourceAttribute.view?, hreserved]
    rw [SourceElement.attributes_view] at h
    have hfaults := h _ (List.mem_filterMap.mpr ⟨a, ha, hview⟩)
    intro hnone
    rw [SourceAttribute.localName] at hnone
    simp [attributeFaults, hnone] at hfaults

/-- A child element of a name that is accepted strictly is declared, and nothing of it is
refused. -/
theorem Element.declared_of_accepts {name : String} {es : List Element} {e : Element}
    (h : t.Accepts true false name es) (he : e ∈ es) :
    ∃ i s isList, t.element? name = some (i, s, isList) ∧ e.faults true s = [] := by
  unfold RecordType.Accepts at h
  split at h
  · rw [h rfl] at he
    cases he
  · next i s hfound => exact ⟨i, s, true, hfound, h e he⟩
  · next i s hfound =>
    rw [if_neg Bool.false_ne_true] at h
    obtain ⟨hfirst, honly⟩ := h
    cases es with
    | nil => cases he
    | cons first rest =>
      obtain rfl : rest = [] := honly rfl
      obtain rfl := List.mem_singleton.mp he
      exact ⟨i, s, false, hfound, hfirst e rfl⟩

/-- What is declared where nothing is refused, if it is so with the child elements. -/
theorem SourceElement.isDeclared_of_children {simple : SourceAttribute → Prop}
    (hsimple : ∀ a, simple a) (e : SourceElement)
    (ih : ∀ c ∈ e.children, ∀ s, c.view.faults true s = [] → c.IsDeclared simple s) :
    ∀ s, e.view.faults true s = [] → SourceElement.IsDeclared simple s e := by
  intro s h
  cases s with
  | simple s => exact .simple fun a _ => hsimple a
  | record t =>
    rw [Element.faults_record_eq_nil_iff] at h
    obtain ⟨hattributes, hcontent⟩ := h
    have hdeclared := SourceAttribute.isDeclared_of_faults hattributes
    cases hbody : t.body? with
    | some found => exact .text (by rw [hbody]; exact Option.some_ne_none found) hdeclared
    | none =>
      rw [hbody] at hcontent
      have hchild : ∀ c ∈ e.children, ∃ i s isList,
          t.element? c.localName = some (i, s, isList) ∧ c.view.faults true s = [] := by
        intro c hc
        apply Element.declared_of_accepts (hcontent.2 c.localName)
        rw [SourceElement.elements_view]
        exact List.mem_filter.mpr ⟨List.mem_map_of_mem hc, by simp [SourceElement.name_view]⟩
      refine .record hbody hdeclared (fun c hc => ?_) fun c hc i s isList hfound => ?_
      · obtain ⟨i, s, isList, hfound, -⟩ := hchild c hc
        rw [hfound]
        exact Option.some_ne_none _
      · obtain ⟨i', s', isList', hfound', hsound⟩ := hchild c hc
        rw [hfound] at hfound'
        cases hfound'
        exact ih c hc s hsound

mutual

/-- Where a strict reader refuses nothing, everything is declared but the attributes of
elements of simple types. -/
theorem SourceElement.isDeclared_of_faults : (e : SourceElement) →
    ∀ s, e.view.faults true s = [] → SourceElement.IsDeclared (fun _ => True) s e
  | .empty tag => SourceElement.isDeclared_of_children (fun _ => trivial) (.empty tag) nofun
  | .around tag parts close =>
    SourceElement.isDeclared_of_children (fun _ => trivial) (.around tag parts close)
      (SourcePart.isDeclared_of_faults parts)

theorem SourcePart.isDeclared_of_faults : (ps : List SourcePart) →
    ∀ c ∈ SourcePart.elements ps, ∀ s, c.view.faults true s = [] →
      SourceElement.IsDeclared (fun _ => True) s c
  | [], _, hc => nomatch hc
  | .element e :: ps, c, hc => by
    have hfirst := SourceElement.isDeclared_of_faults e
    rcases List.mem_cons.mp hc with hsame | hc
    · exact hsame ▸ hfirst
    · exact SourcePart.isDeclared_of_faults ps c hc
  | .plain _ :: ps, c, hc => SourcePart.isDeclared_of_faults ps c hc
  | .reference _ :: ps, c, hc => SourcePart.isDeclared_of_faults ps c hc
  | .data _ :: ps, c, hc => SourcePart.isDeclared_of_faults ps c hc
  | .aside _ :: ps, c, hc => SourcePart.isDeclared_of_faults ps c hc

end

end Declared

end TableJoin.Markup

namespace TableJoin.Document

open Markup Schema

/-- What strict decoding accepts is declared, the attributes of elements of simple types
excepted: the reader of simple content is not given them. -/
theorem decode_declared {xml : String} {d : Document} (h : decode true xml = .ok d) :
    (∃ s : SourceDocument, s.Spells xml) ∧ ∀ s : SourceDocument, s.Spells xml →
      SourceElement.IsDeclared (fun _ => True) (.record d.root.type) s.root := by
  refine ⟨SourceDocument.exists_spells h, fun s hs => ?_⟩
  obtain ⟨-, hfaults, -⟩ := (SourceDocument.decode_iff hs).mp h
  exact SourceElement.isDeclared_of_faults s.root _ hfaults

/-- An attribute that nothing declares, on an element of a simple type. -/
def undeclaredAttribute : SourceDocument where
  mark := false
  front := []
  root := .around ⟨"DescribeKey".toList, [], []⟩ [.element (.around ⟨"FrameworkURI".toList,
    [⟨[' '], "foo".toList, [], [], '"', "x".toList⟩], []⟩ [.plain 'u'] "FrameworkURI".toList)]
    "DescribeKey".toList
  rest := []

def describedKey : Document :=
  ⟨.describeKey, ⟨.describeKey, [[], [], [], [.scalar (.text "u")]]⟩, rfl⟩

theorem decode_declared_undeclaredAttribute :
    decode true undeclaredAttribute.text = .ok describedKey ∧
      SourceElement.IsDeclared (fun _ => True) (.record .describeKey) undeclaredAttribute.root := by
  have h : decode true undeclaredAttribute.text = .ok describedKey := by decide +kernel
  exact ⟨h, (decode_declared h).2 undeclaredAttribute ⟨by decide +kernel, rfl⟩⟩

/-- With the attributes of elements of simple types, not everything that is accepted
strictly is declared. -/
theorem exists_decode_undeclared : ∃ (xml : String) (d : Document) (s : SourceDocument),
    decode true xml = .ok d ∧ s.Spells xml ∧
      ¬ SourceElement.IsDeclared (fun a => isReservedKey a.key = true)
        (.record d.root.type) s.root := by
  refine ⟨undeclaredAttribute.text, describedKey, undeclaredAttribute, by decide +kernel,
    ⟨by decide +kernel, rfl⟩, fun hdeclared => ?_⟩
  have hbody : RecordType.describeKey.body? = none := by decide +kernel
  cases hdeclared with
  | text hnone _ => exact hnone hbody
  | record _ _ _ hchildren =>
    have huri := hchildren _ (List.mem_singleton_self _) 3 (.simple .text) false
      (by decide +kernel)
    cases huri with
    | simple hsimple => exact absurd (hsimple _ (List.mem_singleton_self _)) (by decide +kernel)

end TableJoin.Document
