import TableJoin.Proofs.Markup.SourceNodes
import TableJoin.Proofs.Reading.Following

/-!
What a reader sees of an element as it is written, name by name.
-/

namespace TableJoin.Markup

open Schema

def SourceAttribute.localName (a : SourceAttribute) : String := (splitRawName a.key).2

def SourceTag.localName (tag : SourceTag) : String := (splitRawName tag.name).2

def SourceElement.localName : SourceElement → String
  | .empty tag => tag.localName
  | .around tag _ _ => tag.localName

/-- The text of content, as far as it stands between no tags of nested elements. -/
def SourcePart.ownText (ps : List SourcePart) : String :=
  String.ofList (ps.flatMap SourcePart.stands)

section Names

theorem SourceElement.name_view (e : SourceElement) : e.view.name = e.localName := by
  cases e <;> rfl

theorem SourceAttribute.localName_of_view? {a : SourceAttribute} {b : Attribute}
    (h : a.view? = some b) : b.localName = a.localName := by
  unfold view? at h
  split at h
  · cases h
  · cases h
    rfl

/-- A reader sees the attributes with a local name that are written with it. -/
theorem SourceTag.named_attributesSeen (tag : SourceTag) (name : String) :
    Attribute.named name tag.attributesSeen =
      (tag.attributes.filter (·.localName = name)).filterMap SourceAttribute.view? := by
  unfold attributesSeen Attribute.named
  induction tag.attributes with
  | nil => rfl
  | cons a as ih =>
    cases hview : a.view? with
    | none => by_cases hname : a.localName = name <;> simp [hview, hname, ih]
    | some b =>
      have hsame := SourceAttribute.localName_of_view? hview
      by_cases hname : a.localName = name <;> simp [hview, hname, hsame, ih]

theorem SourcePart.elements_append (ps qs : List SourcePart) :
    SourcePart.elements (ps ++ qs) = SourcePart.elements ps ++ SourcePart.elements qs := by
  induction ps with
  | nil => rfl
  | cons p ps ih => cases p <;> simp [SourcePart.elements, ih]

/-- A reader sees the child elements with a local name that are written with it. -/
theorem SourcePart.named_elements_views (ps : List SourcePart) (name : String) :
    Element.named name (Part.elements (SourcePart.views ps [])) =
      ((SourcePart.elements ps).filter (·.localName = name)).map SourceElement.view := by
  have hcomp : ((fun e : Element => decide (e.name = name)) ∘ SourceElement.view) =
      fun e => decide (e.localName = name) := by
    funext e
    simp [SourceElement.name_view]
  rw [SourcePart.elements_views, Element.named, List.filter_map, hcomp]

theorem SourcePart.ownText_views_nil (ps : List SourcePart) :
    Part.ownText (SourcePart.views ps []) = SourcePart.ownText ps := by
  have htext := SourcePart.ownText_views ps []
  rw [List.nil_append] at htext
  rw [SourcePart.ownText, ← htext, String.ofList_toList]

end Names

section Elements

variable {strict : Bool} {tag tag' : SourceTag} {parts parts' : List SourcePart}
  {close close' : List Char}

/-- Elements with other attributes follow one another if the attributes agree on what the
type declares, and in the eyes of a strict reader on everything. -/
theorem SourceElement.follows_attributes {t : ItemType} (hname : tag'.localName = tag.localName)
    (hnamed : ∀ rt name, t = .record rt → strict = true ∨ rt.attribute? name ≠ none →
      Attribute.named name tag'.attributesSeen = Attribute.named name tag.attributesSeen)
    {e e' : Element} (he : e.tag = tag.view e.tag.selfClosing)
    (he' : e'.tag = tag'.view e'.tag.selfClosing) (hparts : e'.parts = e.parts) :
    e.Follows strict t e' := by
  have hname' : e'.name = e.name := by
    rw [Element.name, Element.name, he, he']
    exact hname
  have htext : e'.ownText = e.ownText := by rw [Element.ownText, Element.ownText, hparts]
  cases t with
  | simple s => exact .of_text hname' htext
  | record rt =>
    apply Element.Agrees.follows
    refine ⟨hname', fun name hknown => ?_, fun _ => htext, fun _ _ h => htext ▸ h, fun _ name => ?_⟩
    · rw [Element.attributes, Element.attributes, he, he']
      exact hnamed rt name rfl hknown
    · rw [hparts]
      exact RecordType.Keeps.refl ..

/-- Elements with other content follow one another if the contents agree on what the type
takes of them. -/
theorem SourceElement.follows_parts {t : ItemType}
    (htext : (∀ rt, t = .record rt → rt.body? ≠ none) →
      SourcePart.ownText parts' = SourcePart.ownText parts)
    (hstray : ∀ rt, t = .record rt → rt.body? = none → strict = true →
      Text.isBlankText (SourcePart.ownText parts) = true →
      Text.isBlankText (SourcePart.ownText parts') = true)
    (hchildren : ∀ rt, t = .record rt → rt.body? = none → ∀ name, rt.Keeps strict name
      (((SourcePart.elements parts).filter (·.localName = name)).map SourceElement.view)
      (((SourcePart.elements parts').filter (·.localName = name)).map SourceElement.view)) :
    (SourceElement.around tag parts close).view.Follows strict t
      (SourceElement.around tag parts' close').view := by
  have hown : ∀ (ps : List SourcePart) (close : List Char),
      (SourceElement.around tag ps close).view.ownText = SourcePart.ownText ps :=
    fun ps _ => SourcePart.ownText_views_nil ps
  cases t with
  | simple s => exact .of_text rfl (by rw [hown, hown]; exact htext nofun)
  | record rt =>
    apply Element.Agrees.follows
    refine ⟨rfl, fun _ _ => rfl, fun hbody => ?_, fun hbody => ?_, fun hbody name => ?_⟩
    · rw [hown, hown]
      exact htext fun rt' heq => by cases heq; exact hbody
    · rw [hown, hown]
      exact hstray rt rfl hbody
    · have hstep := hchildren rt rfl hbody name
      rw [← SourcePart.named_elements_views, ← SourcePart.named_elements_views] at hstep
      exact hstep

variable {before after : List SourcePart} {e e' : SourceElement}

/-- What a type takes of the child elements stays if one of them is replaced by one that
may stand for it. -/
theorem SourceElement.keeps_replaced {rt : RecordType} (hname : e'.localName = e.localName)
    (h : ∀ i s isList, rt.element? e.localName = some (i, s, isList) →
      e.view.Follows strict s e'.view) (es es' : List SourceElement) (name : String) :
    rt.Keeps strict name
      (((es ++ e :: es').filter (·.localName = name)).map SourceElement.view)
      (((es ++ e' :: es').filter (·.localName = name)).map SourceElement.view) := by
  have hsame : ∀ es : List Element, List.Forall₂ (fun e e' => ∀ i s isList,
      rt.element? name = some (i, s, isList) → Element.Follows strict s e e') es es :=
    fun es => List.forall₂_same.mpr fun e _ _ _ _ _ => .refl e
  apply RecordType.keeps_of_forall₂
  simp only [List.filter_append, List.filter_cons, hname, List.map_append]
  apply List.rel_append (hsame _)
  by_cases heq : e.localName = name
  · subst heq
    simp only [decide_true, ↓reduceIte, List.map_cons]
    exact .cons h (hsame _)
  · simp only [heq, decide_false, Bool.false_eq_true, ↓reduceIte]
    exact hsame _

/-- An element may stand for another one if it differs in one child element, and the
child may stand for the other as the type that it is read as. -/
theorem SourceElement.follows_inside {t : ItemType} (hname : e'.localName = e.localName)
    (h : ∀ rt i s isList, t = .record rt → rt.element? e.localName = some (i, s, isList) →
      e.view.Follows strict s e'.view) :
    (SourceElement.around tag (before ++ .element e :: after) close).view.Follows strict t
      (SourceElement.around tag (before ++ .element e' :: after) close).view := by
  have htext : SourcePart.ownText (before ++ .element e' :: after) =
      SourcePart.ownText (before ++ .element e :: after) := by
    simp [SourcePart.ownText, SourcePart.stands]
  refine SourceElement.follows_parts (fun _ => htext) (fun _ _ _ _ hblank => by rwa [htext])
    fun rt hrt _ name => ?_
  rw [SourcePart.elements_append, SourcePart.elements_append]
  exact SourceElement.keeps_replaced hname (fun i s isList => h rt i s isList hrt) _ _ name

end Elements

end TableJoin.Markup
