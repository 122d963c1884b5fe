import Mathlib.Logic.Relation
import TableJoin.Proofs.Document.Source

/-!
The order of unrelated content does not matter: attributes and child elements may
change places with those of other names, at any depth.
-/

namespace TableJoin.Markup

/-- The attribute without the space in front of it. -/
def SourceAttribute.bare (a : SourceAttribute) : SourceAttribute := { a with gap := [] }

def SourcePart.others : List SourcePart → List SourcePart
  | [] => []
  | .element _ :: rest => SourcePart.others rest
  | p :: rest => p :: SourcePart.others rest

/-- The attributes of the second tag are those of the first, and among those with one
local name the order is the same. -/
structure SourceTag.Reorders (tag tag' : SourceTag) : Prop where
  name_eq : tag'.name = tag.name
  attributes : ∀ name, (tag'.attributes.filter (·.localName = name)).map SourceAttribute.bare =
    (tag.attributes.filter (·.localName = name)).map SourceAttribute.bare

/-- The child elements in the second content are those in the first, and among those
with one local name the order is the same.  What else stands in the content stays in
order; the elements may stand anywhere in it. -/
structure SourcePart.Reorders (ps ps' : List SourcePart) : Prop where
  elements : ∀ name, (SourcePart.elements ps').filter (·.localName = name) =
    (SourcePart.elements ps).filter (·.localName = name)
  others : SourcePart.others ps' = SourcePart.others ps

/-- Neighbours with different local names may change places. -/
theorem SourceTag.reorders_swap (name : List Char) (as : List SourceAttribute)
    {a b : SourceAttribute} (h : a.localName ≠ b.localName) (bs : List SourceAttribute)
    (gap : List Char) :
    SourceTag.Reorders ⟨name, as ++ a :: b :: bs, gap⟩ ⟨name, as ++ b :: a :: bs, gap⟩ where
  name_eq := rfl
  attributes other := by
    by_cases ha : a.localName = other
    · have hb : b.localName ≠ other := fun heq => h (ha.trans heq.symm)
      simp [ha, hb]
    · simp [List.filter_cons, ha]

/-- Neighbours with different local names may change places. -/
theorem SourcePart.reorders_swap (ps : List SourcePart) {e e' : SourceElement}
    (h : e.localName ≠ e'.localName) (qs : List SourcePart) :
    SourcePart.Reorders (ps ++ .element e :: .element e' :: qs)
      (ps ++ .element e' :: .element e :: qs) where
  elements other := by
    rw [SourcePart.elements_append, SourcePart.elements_append]
    by_cases he : e.localName = other
    · have he' : e'.localName ≠ other := fun heq => h (he.trans heq.symm)
      simp [SourcePart.elements, he, he']
    · simp [SourcePart.elements, List.filter_cons, he]
  others := by
    induction ps with
    | nil => rfl
    | cons p ps ih => cases p <;> simpa [SourcePart.others] using ih

/-- The attributes or the child elements of one element are reordered: of the element
itself, or of one inside it. -/
inductive SourceElement.Reorders : SourceElement → SourceElement → Prop
  | empty {tag tag' : SourceTag} : tag.Reorders tag' →
      SourceElement.Reorders (.empty tag) (.empty tag')
  | tag {tag tag' : SourceTag} (parts : List SourcePart) (close : List Char) :
      tag.Reorders tag' →
      SourceElement.Reorders (.around tag parts close) (.around tag' parts close)
  | parts (tag : SourceTag) {parts parts' : List SourcePart} (close : List Char) :
      SourcePart.Reorders parts parts' →
      SourceElement.Reorders (.around tag parts close) (.around tag parts' close)
  | inside (tag : SourceTag) (before after : List SourcePart) (close : List Char)
      {e e' : SourceElement} : SourceElement.Reorders e e' →
      SourceElement.Reorders (.around tag (before ++ .element e :: after) close)
        (.around tag (before ++ .element e' :: after) close)

namespace SourceElement.Reorders

open Schema

variable {strict : Bool}

theorem localName_eq {tag tag' : SourceTag} (h : tag.Reorders tag') :
    tag'.localName = tag.localName := by
  rw [SourceTag.localName, h.name_eq, SourceTag.localName]

theorem named_attributesSeen {tag tag' : SourceTag} (h : tag.Reorders tag') (name : String) :
    Attribute.named name tag'.attributesSeen = Attribute.named name tag.attributesSeen := by
  have hbare : ∀ as : List SourceAttribute, as.filterMap SourceAttribute.view? =
      (as.map SourceAttribute.bare).filterMap SourceAttribute.view? := by
    intro as
    rw [List.filterMap_map]
    rfl
  rw [SourceTag.named_attributesSeen, SourceTag.named_attributesSeen, hbare, h.attributes, ← hbare]

theorem flatMap_stands_others (ps : List SourcePart) :
    (SourcePart.others ps).flatMap SourcePart.stands = ps.flatMap SourcePart.stands := by
  induction ps with
  | nil => rfl
  | cons p ps ih => cases p <;> simp [SourcePart.others, SourcePart.stands, ih]

theorem ownText_eq {ps ps' : List SourcePart} (h : SourcePart.Reorders ps ps') :
    SourcePart.ownText ps' = SourcePart.ownText ps := by
  rw [SourcePart.ownText, SourcePart.ownText, ← flatMap_stands_others, h.others,
    flatMap_stands_others]

/-- One step: the element that is reordered may stand for the first one, as any type.
The induction goes from the element where the order changes outwards. -/
theorem follows {e e' : SourceElement} (h : e.Reorders e') :
    ∀ t, e.view.Follows strict t e'.view := by
  induction h with
  | empty h =>
    intro t
    refine SourceElement.follows_attributes (localName_eq h)
      (fun _ name _ _ => named_attributesSeen h name) ?_ ?_ ?_ <;> rfl
  | tag parts close h =>
    intro t
    refine SourceElement.follows_attributes (localName_eq h)
      (fun _ name _ _ => named_attributesSeen h name) ?_ ?_ ?_ <;> rfl
  | parts tag close h =>
    intro t
    refine SourceElement.follows_parts (fun _ => ownText_eq h)
      (fun _ _ _ _ hblank => by rwa [ownText_eq h]) fun rt _ _ name => ?_
    rw [h.elements]
    exact RecordType.Keeps.refl ..
  | @inside tag before after close e e' _ ih =>
    intro t
    refine SourceElement.follows_inside ?_ fun _ _ s _ _ _ => ih s
    rw [← SourceElement.name_view, ← SourceElement.name_view, (ih (.simple .text)).name_eq]

theorem follows_all {e e' : SourceElement}
    (h : Relation.ReflTransGen SourceElement.Reorders e e') (t : ItemType) :
    e.view.Follows strict t e'.view := by
  induction h with
  | refl => exact .refl _
  | tail _ hstep ih => exact ih.trans (follows hstep t)

end SourceElement.Reorders

end TableJoin.Markup

namespace TableJoin.Document

open Markup

/-- The order of unrelated content does not matter.  A text that is decoded is written
as a document; and if attributes and child elements of any elements in it change places
with those of other local names, what is written then is decoded alike. -/
theorem decode_reordered {strict : Bool} {xml : String} {d : Document}
    (h : decode strict xml = .ok d) :
    (∃ s : SourceDocument, s.Spells xml) ∧
      ∀ (s s' : SourceDocument) (xml' : String), s.Spells xml → s'.Spells xml' →
        Relation.ReflTransGen SourceElement.Reorders s.root s'.root →
          decode strict xml' = .ok d := by
  refine ⟨SourceDocument.exists_spells h, fun s s' xml' hs hs' hsteps => ?_⟩
  exact SourceDocument.decode_of_follows hs hs' (SourceElement.Reorders.follows_all hsteps _) h

theorem decode_reordered_nested :
    let xml := "<JoinData><AttributeData><GetDataXML language='de' getDataHost='h'>" ++
      "<DatasetURI>d</DatasetURI><FrameworkURI>f</FrameworkURI></GetDataXML></AttributeData></JoinData>"
    let xml' := "<JoinData><AttributeData><GetDataXML getDataHost='h' language='de'>" ++
      "<FrameworkURI>f</FrameworkURI><DatasetURI>d</DatasetURI></GetDataXML></AttributeData></JoinData>"
    ∃ d, decode true xml = .ok d ∧ decode true xml' = .ok d := by
  intro xml xml'
  let leaf (name text : String) : SourceElement :=
    .around ⟨name.toList, [], []⟩ (text.toList.map .plain) name.toList
  let written (key value : String) : SourceAttribute :=
    ⟨[' '], key.toList, [], [], '\'', value.toList⟩
  let language := written "language" "de"
  let host := written "getDataHost" "h"
  let dataset := leaf "DatasetURI" "d"
  let framework := leaf "FrameworkURI" "f"
  -- The root element around the request inside it.
  let outer (e : SourceElement) : SourceElement :=
    .around ⟨"JoinData".toList, [], []⟩ ([] ++ .element (.around ⟨"AttributeData".toList, [], []⟩
      ([] ++ .element e :: []) "AttributeData".toList) :: []) "JoinData".toList
  let request (as : List SourceAttribute) (es : List SourcePart) : SourceElement :=
    .around ⟨"GetDataXML".toList, as, []⟩ es "GetDataXML".toList
  let s : SourceDocument := ⟨false, [], outer (request ([] ++ language :: host :: [])
    ([] ++ .element dataset :: .element framework :: [])), []⟩
  let s' : SourceDocument := ⟨false, [], outer (request ([] ++ host :: language :: [])
    ([] ++ .element framework :: .element dataset :: [])), []⟩
  obtain ⟨d, hd⟩ : ∃ d, decode true xml = .ok d := by
    have hok : (decode true xml).isOk = true := by decide +kernel
    cases h : decode true xml with
    | ok d => exact ⟨d, rfl⟩
    | error e =>
      rw [h] at hok
      cases hok
  have hs : s.Spells xml := ⟨by decide +kernel, by decide +kernel⟩
  have hs' : s'.Spells xml' := ⟨by decide +kernel, by decide +kernel⟩
  have hwithin : ∀ {e e'}, SourceElement.Reorders e e' →
      SourceElement.Reorders (outer e) (outer e') := fun h =>
    .inside _ [] [] _ (.inside _ [] [] _ h)
  have hattributes := SourceElement.Reorders.tag
    ([] ++ .element dataset :: .element framework :: []) "GetDataXML".toList
    (SourceTag.reorders_swap "GetDataXML".toList [] (a := language) (b := host) (by decide +kernel)
      [] [])
  have hchildren := SourceElement.Reorders.parts
    ⟨"GetDataXML".toList, [] ++ host :: language :: [], []⟩ "GetDataXML".toList
    (SourcePart.reorders_swap [] (e := dataset) (by decide +kernel : _ ≠ framework.localName) [])
  have hsteps := (Relation.ReflTransGen.single (hwithin hattributes)).tail (hwithin hchildren)
  exact ⟨d, hd, (decode_reordered hd).2 s s' xml' hs hs' hsteps⟩

end TableJoin.Document
