import Mathlib.Logic.Relation
import TableJoin.Proofs.Document.Source

/-!
Lenient decoding is blind to extensions: what the schema does not declare, or does not
declare again, may be put in anywhere inside the root element.
-/

namespace TableJoin.Schema.ItemType

open Markup

/-- The attribute is none that the type declares; a simple type declares none. -/
def IgnoresAttribute (t : ItemType) (a : SourceAttribute) : Prop :=
  ∀ rt, t = .record rt → rt.attribute? a.localName = none

/-- The element is one that the type takes nothing of, behind these parts: its content is
character data, or its child elements of this name are not declared, or they are
single-valued and there was one before. -/
def IgnoresElement (t : ItemType) (before : List SourcePart) (e : SourceElement) : Prop :=
  ∀ rt, t = .record rt → rt.body? = none →
    rt.element? e.localName = none ∨
      (∃ i s, rt.element? e.localName = some (i, s, false)) ∧
        e.localName ∈ (SourcePart.elements before).map (·.localName)

/-- The part is one that the type takes nothing of, behind these parts.  Character data
is passed over where only elements are declared. -/
def Ignores (t : ItemType) (before : List SourcePart) : SourcePart → Prop
  | .aside _ => True
  | .element e => t.IgnoresElement before e
  | _ => ∃ rt, t = .record rt ∧ rt.body? = none

end TableJoin.Schema.ItemType

namespace TableJoin.Markup

open Schema

/-- Something that the type takes nothing of is put into an element that is read as the
type: an attribute, a part of the content, something inside an element that is ignored
already, or something inside a child element that is read as its own type.  A self-closing
tag is opened first. -/
inductive SourceElement.Extends : ItemType → SourceElement → SourceElement → Prop
  | emptyTag {t : ItemType} (name : List Char) (as bs : List SourceAttribute)
      {a : SourceAttribute} (gap : List Char) : t.IgnoresAttribute a →
      SourceElement.Extends t (.empty ⟨name, as ++ bs, gap⟩) (.empty ⟨name, as ++ a :: bs, gap⟩)
  | startTag {t : ItemType} (name : List Char) (as bs : List SourceAttribute)
      {a : SourceAttribute} (gap : List Char) (parts : List SourcePart) (close : List Char) :
      t.IgnoresAttribute a →
      SourceElement.Extends t (.around ⟨name, as ++ bs, gap⟩ parts close)
        (.around ⟨name, as ++ a :: bs, gap⟩ parts close)
  | opened {t : ItemType} (tag : SourceTag) (close : List Char) :
      SourceElement.Extends t (.empty tag) (.around tag [] close)
  | part {t : ItemType} (tag : SourceTag) (before after : List SourcePart) (close : List Char)
      {p : SourcePart} : t.Ignores before p →
      SourceElement.Extends t (.around tag (before ++ after) close)
        (.around tag (before ++ p :: after) close)
  | ignored {t : ItemType} (tag : SourceTag) (before after : List SourcePart) (close : List Char)
      {e e' : SourceElement} : t.IgnoresElement before e → e'.localName = e.localName →
      SourceElement.Extends t (.around tag (before ++ .element e :: after) close)
        (.around tag (before ++ .element e' :: after) close)
  | inside {rt : RecordType} (tag : SourceTag) (before after : List SourcePart)
      (close : List Char) {e e' : SourceElement} {i : Nat} {t : ItemType} {isList : Bool} :
      rt.element? e.localName = some (i, t, isList) → SourceElement.Extends t e e' →
      SourceElement.Extends (.record rt) (.around tag (before ++ .element e :: after) close)
        (.around tag (before ++ .element e' :: after) close)

namespace SourceElement.Extends

/-- Elements of other names leave those of one name as they are. -/
theorem filter_eq_nil_of_forall {es : List SourceElement} {name : String}
    (h : ∀ e ∈ es, e.localName ≠ name) : es.filter (·.localName = name) = [] := by
  rw [List.filter_eq_nil_iff]
  intro e he
  simpa using h e he

/-- A lenient reader takes the same of the elements of each name, if only such are put in
or changed that it takes nothing of. -/
theorem keeps_of_ignored {rt : RecordType} {before : List SourcePart}
    (new new' es : List SourceElement)
    (h : ∀ e ∈ new ++ new', rt.element? e.localName = none ∨
      (∃ i s, rt.element? e.localName = some (i, s, false)) ∧
        e.localName ∈ (SourcePart.elements before).map (·.localName)) (name : String) :
    rt.Keeps false name
      (((SourcePart.elements before ++ (new ++ es)).filter (·.localName = name)).map view)
      (((SourcePart.elements before ++ (new' ++ es)).filter (·.localName = name)).map view) := by
  have hsame : (∀ e ∈ new ++ new', e.localName ≠ name) →
      (SourcePart.elements before ++ (new' ++ es)).filter (·.localName = name) =
        (SourcePart.elements before ++ (new ++ es)).filter (·.localName = name) := by
    intro hother
    have hnew := filter_eq_nil_of_forall fun e he => hother e (List.mem_append_left _ he)
    have hnew' := filter_eq_nil_of_forall fun e he => hother e (List.mem_append_right _ he)
    simp only [List.filter_append, hnew, hnew']
  cases hfound : rt.element? name with
  | none =>
    unfold RecordType.Keeps
    rw [hfound]
    intro hstrict
    cases hstrict
  | some found =>
    obtain ⟨i, s, isList⟩ := found
    by_cases hagain : isList = false ∧ name ∈ (SourcePart.elements before).map (·.localName)
    · -- One stood before, so the first one stays the first.
      obtain ⟨rfl, hmem⟩ := hagain
      obtain ⟨e, he, rfl⟩ := List.mem_map.mp hmem
      have hfiltered : e ∈ (SourcePart.elements before).filter (·.localName = e.localName) :=
        List.mem_filter.mpr ⟨he, decide_eq_true rfl⟩
      obtain ⟨first, rest, hfirst⟩ := List.exists_cons_of_ne_nil (List.ne_nil_of_mem hfiltered)
      unfold RecordType.Keeps
      rw [hfound]
      simp only [List.filter_append, hfirst, List.cons_append, List.map_cons, Element.taken,
        Bool.false_eq_true, ↓reduceIte, List.take_succ_cons, List.take_zero]
      constructor
      · exact .cons (.refl _) .nil
      · intro _ hstrict
        cases hstrict
    · rw [hsame]
      · exact RecordType.Keeps.refl ..
      · rintro e he rfl
        rcases h e he with hnone | ⟨⟨j, s', hsingle⟩, hmem⟩
        · rw [hfound] at hnone
          cases hnone
        · rw [hfound] at hsingle
          cases hsingle
          exact hagain ⟨rfl, hmem⟩

theorem filter_localName_insert {as bs : List SourceAttribute} {a : SourceAttribute}
    {name : String} (h : a.localName ≠ name) :
    (as ++ a :: bs).filter (·.localName = name) = (as ++ bs).filter (·.localName = name) := by
  simp [List.filter_append, h]

theorem named_attributesSeen_insert {t : ItemType} {a : SourceAttribute}
    (h : t.IgnoresAttribute a) (tagName : List Char) (as bs : List SourceAttribute)
    (gap : List Char) : ∀ rt name, t = .record rt → false = true ∨ rt.attribute? name ≠ none →
      Attribute.named name (SourceTag.mk tagName (as ++ a :: bs) gap).attributesSeen =
        Attribute.named name (SourceTag.mk tagName (as ++ bs) gap).attributesSeen := by
  rintro rt name rfl (hstrict | hknown)
  · cases hstrict
  · have hne : a.localName ≠ name := by
      rintro rfl
      exact hknown (h rt rfl)
    rw [SourceTag.named_attributesSeen, SourceTag.named_attributesSeen,
      filter_localName_insert hne]

/-- Character data and asides leave the child elements as they are. -/
theorem elements_cons_of_ne {p : SourcePart} (h : ∀ e, p ≠ .element e) (ps : List SourcePart) :
    SourcePart.elements (p :: ps) = SourcePart.elements ps := by
  cases p with
  | element e => exact absurd rfl (h e)
  | _ => rfl

/-- One step: the element that something is put into may stand for the first one, to a
lenient reader.  The induction goes from where it is put in outwards. -/
theorem follows {t : ItemType} {e e' : SourceElement} (h : SourceElement.Extends t e e') :
    e.view.Follows false t e'.view := by
  induction h with
  | emptyTag name as bs gap h =>
    refine SourceElement.follows_attributes ?_ (named_attributesSeen_insert h name as bs gap)
      ?_ ?_ ?_ <;> rfl
  | startTag name as bs gap parts close h =>
    refine SourceElement.follows_attributes ?_ (named_attributesSeen_insert h name as bs gap)
      ?_ ?_ ?_ <;> rfl
  | opened tag close =>
    have hname : tag.localName = tag.localName := rfl
    refine SourceElement.follows_attributes hname (fun _ _ _ _ => rfl) ?_ ?_ ?_ <;> rfl
  | @part t tag before after close p h =>
    refine SourceElement.follows_parts (fun hbody => ?_) (fun _ _ _ hstrict => by cases hstrict)
      fun rt hrt hnone name => ?_
    · -- Where text counts, what is put in stands for none.
      have hstands : p.stands = [] := by
        cases p with
        | aside own => rfl
        | element e => rfl
        | _ =>
          obtain ⟨rt, rfl, hnone⟩ := h
          exact absurd hnone (hbody rt rfl)
      simp [SourcePart.ownText, hstands]
    · rw [SourcePart.elements_append, SourcePart.elements_append]
      cases p with
      | element e =>
        have hkeeps := keeps_of_ignored [] [e] (SourcePart.elements after)
          (by simpa using h rt hrt hnone) name
        simpa [SourcePart.elements] using hkeeps
      | _ =>
        rw [elements_cons_of_ne (by intro e he; cases he)]
        exact RecordType.Keeps.refl ..
  | @ignored t tag before after close e e' h hname =>
    refine SourceElement.follows_parts (fun _ => ?_) (fun _ _ _ hstrict => by cases hstrict)
      fun rt hrt hnone name => ?_
    · simp [SourcePart.ownText, SourcePart.stands]
    · rw [SourcePart.elements_append, SourcePart.elements_append]
      have hignored := h rt hrt hnone
      have hkeeps := keeps_of_ignored [e] [e'] (SourcePart.elements after)
        (by simpa [hname] using hignored) name
      simpa [SourcePart.elements] using hkeeps
  | @inside rt tag before after close e e' i t isList hfound hstep ih =>
    refine SourceElement.follows_inside ?_ fun rt' j s isList' hrt hfound' => ?_
    · rw [← name_view, ← name_view, ih.name_eq]
    · cases hrt
      rw [hfound] at hfound'
      cases hfound'
      exact ih

theorem follows_all {t : ItemType} {e e' : SourceElement}
    (h : Relation.ReflTransGen (SourceElement.Extends t) e e') :
    e.view.Follows false t e'.view := by
  induction h with
  | refl => exact .refl _
  | tail _ hstep ih => exact ih.trans (follows hstep)

end SourceElement.Extends

end TableJoin.Markup

namespace TableJoin.Document

open Markup

/-- Lenient decoding is blind to extensions.  A text that is decoded is written as a
document; and whatever the schema does not provide for is put into its root element, at
any number of places, what is written then is decoded to the same. -/
theorem decode_extended {xml : String} {d : Document} (h : decode false xml = .ok d) :
    (∃ s : SourceDocument, s.Spells xml) ∧
      ∀ (s s' : SourceDocument) (xml' : String), s.Spells xml → s'.Spells xml' →
        Relation.ReflTransGen (SourceElement.Extends (.record d.root.type)) s.root s'.root →
          decode false xml' = .ok d := by
  refine ⟨SourceDocument.exists_spells h, fun s s' xml' hs hs' hsteps => ?_⟩
  exact SourceDocument.decode_of_follows hs hs' (SourceElement.Extends.follows_all hsteps) h

theorem decode_extended_key :
    let xml := "<DescribeKey><FrameworkURI>u</FrameworkURI></DescribeKey>"
    let xml' := "<DescribeKey x='1'>t<!--c--><FrameworkURI y='2'>u<b/></FrameworkURI>" ++
      "<Z><FrameworkURI>v</FrameworkURI></Z><FrameworkURI><Q/></FrameworkURI></DescribeKey>"
    ∃ d, decode false xml = .ok d ∧ decode false xml' = .ok d := by
  intro xml xml'
  let written (key value : String) : SourceAttribute :=
    ⟨[' '], key.toList, [], [], '\'', value.toList⟩
  let element (name : String) (as : List SourceAttribute) (ps : List SourcePart) : SourceElement :=
    .around ⟨name.toList, as, []⟩ ps name.toList
  let root := element "DescribeKey"
  let uri := element "FrameworkURI"
  let bare (name : String) : SourceElement := .empty ⟨name.toList, [], []⟩
  let comment := SourcePart.aside "<!--c-->".toList
  let extra := element "Z" [] [.element (uri [] [.plain 'v'])]
  let again := uri [] [.element (bare "Q")]
  let x := written "x" "1"
  let y := written "y" "2"
  let s : SourceDocument := ⟨false, [], root [] [.element (uri [] [.plain 'u'])], []⟩
  let s' : SourceDocument := ⟨false, [], root [x] [.plain 't', comment,
    .element (uri [y] [.plain 'u', .element (bare "b")]), .element extra, .element again], []⟩
  let d : Document := ⟨.describeKey,
    ⟨.describeKey, [[], [], [], [.scalar (.text "u")]]⟩, rfl⟩
  have hd : decode false xml = .ok d := by decide +kernel
  have hs : s.Spells xml := ⟨by decide +kernel, by decide +kernel⟩
  have hs' : s'.Spells xml' := ⟨by decide +kernel, by decide +kernel⟩
  have hkey : Schema.RecordType.describeKey.body? = none := by decide +kernel
  have huri : ∀ as ps, Schema.RecordType.describeKey.element? (uri as ps).localName =
      some (3, .simple .text, false) := by
    intro as ps
    change Schema.RecordType.describeKey.element? (splitRawName "FrameworkURI".toList).2 = _
    decide +kernel
  -- One step for each place where something is put in, from the left to the right.
  have h₁ : SourceElement.Extends (.record .describeKey) s.root
      (root [x] [.element (uri [] [.plain 'u'])]) :=
    .startTag _ [] [] [] _ _ (by rintro rt ⟨⟩; decide +kernel)
  have h₂ : SourceElement.Extends (.record .describeKey) _
      (root [x] [.plain 't', .element (uri [] [.plain 'u'])]) :=
    .part _ [] _ _ ⟨.describeKey, rfl, hkey⟩
  have h₃ : SourceElement.Extends (.record .describeKey) _
      (root [x] [.plain 't', comment, .element (uri [] [.plain 'u'])]) :=
    .part _ [.plain 't'] _ _ trivial
  have h₄ : SourceElement.Extends (.record .describeKey) _
      (root [x] [.plain 't', comment, .element (uri [y] [.plain 'u'])]) :=
    .inside _ [.plain 't', comment] [] _ (huri _ _)
      (.startTag _ [] [] [] _ _ nofun)
  have h₅ : SourceElement.Extends (.record .describeKey) _
      (root [x] [.plain 't', comment,
        .element (uri [y] [.plain 'u', .element (bare "b")])]) :=
    .inside _ [.plain 't', comment] [] _ (huri _ _)
      (.part _ [.plain 'u'] [] _ nofun)
  have h₆ : SourceElement.Extends (.record .describeKey) _
      (root [x] [.plain 't', comment, .element (uri [y] [.plain 'u', .element (bare "b")]),
        .element extra]) :=
    .part _ [.plain 't', comment, .element (uri [y] [.plain 'u', .element (bare "b")])] [] _
      (by rintro rt ⟨⟩ -; exact .inl (by decide +kernel))
  have h₇ : SourceElement.Extends (.record .describeKey) _ s'.root :=
    .part _ [.plain 't', comment, .element (uri [y] [.plain 'u', .element (bare "b")]),
      .element extra] [] _
      (by rintro rt ⟨⟩ -; exact .inr ⟨⟨3, .simple .text, huri _ _⟩, by decide +kernel⟩)
  have hsteps := ((((((Relation.ReflTransGen.single h₁).tail h₂).tail h₃).tail h₄).tail h₅).tail
    h₆).tail h₇
  exact ⟨d, hd, (decode_extended hd).2 s s' xml' hs hs' hsteps⟩

end TableJoin.Document
