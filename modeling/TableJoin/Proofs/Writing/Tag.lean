import TableJoin.Proofs.Markup.Escape
import TableJoin.Proofs.Markup.NamedTag
import TableJoin.Writing.Mark

/-!
A written tag is read back: it ends where it was ended, and its name and its
attributes are those that were written.
-/

namespace TableJoin.Writing

open Markup Text

/-- An attribute's value holds no quotation mark, so the value ends where it was
ended. -/
theorem ne_quote_of_mem_escape {cs : List Char} {c : Char} (hc : c ∈ escape cs) : c ≠ '"' := by
  rintro rfl
  have hquote := (not_delimiter_of_mem_escape hc).2.2
  cases hquote

theorem attributeChars_eq (key value : String) :
    attributeChars key value =
      ' ' :: (key.toList ++ '=' :: '"' :: (escape value.toList ++ ['"'])) := by
  simp [attributeChars]

/-- The characters of a tag between its angle brackets. -/
def contentChars (name : String) (attributes : List (String × String)) : List Char :=
  name.toList ++ attributes.flatMap fun (key, value) => attributeChars key value

def sourceAttribute (a : String × String) : SourceAttribute :=
  ⟨[' '], a.1.toList, [], [], '"', escape a.2.toList⟩

def sourceTag (name : String) (attributes : List (String × String)) : SourceTag :=
  ⟨name.toList, attributes.map sourceAttribute, []⟩

theorem chars_sourceAttribute (a : String × String) :
    (sourceAttribute a).chars = attributeChars a.1 a.2 := by
  rw [attributeChars_eq]
  rfl

theorem chars_sourceTag (name : String) (attributes : List (String × String)) :
    (sourceTag name attributes).chars = contentChars name attributes := by
  simp [SourceTag.chars, SourceTag.behindName, sourceTag, contentChars, List.flatMap_map,
    chars_sourceAttribute]

theorem isWellFormed_sourceAttribute {a : String × String} (hkey : IsRawName a.1.toList) :
    (sourceAttribute a).isWellFormed = true := by
  have hvalue : (unescape (escape a.2.toList)).isOk = true := by
    rw [unescape_escape]
    rfl
  have hdelimited : (sourceAttribute a).IsDelimited := by
    refine ⟨rfl, ?_, rfl, rfl, rfl, fun hmem => ne_quote_of_mem_escape hmem rfl⟩
    obtain ⟨c, rest, heq, -⟩ := hkey.begins
    have hfirst := hkey.not_delimiter (heq ▸ List.mem_cons_self)
    simp only [sourceAttribute, heq, isKey, hfirst.1, Bool.not_false, Bool.true_and,
      List.all_eq_true]
    intro d hd
    have hlater := hkey.not_delimiter (heq ▸ List.mem_cons_of_mem c hd)
    simp [hlater.1, hlater.2.2.1]
  simp only [SourceAttribute.isWellFormed, hdelimited, decide_true, Bool.true_and,
    Bool.or_eq_true]
  exact .inr hvalue

/-- The attributes as a reader sees them: the reserved ones are gone. -/
def seenAttributes (attributes : List (String × String)) : List Attribute :=
  (attributes.filter fun a => !isReservedKey a.1.toList).map fun a =>
    ⟨(splitRawName a.1.toList).1, (splitRawName a.1.toList).2, a.2⟩

theorem attributesSeen_sourceTag (name : String) (attributes : List (String × String)) :
    (sourceTag name attributes).attributesSeen = seenAttributes attributes := by
  rw [SourceTag.attributesSeen, sourceTag, seenAttributes, List.filterMap_map,
    ← List.filterMap_eq_map, List.filterMap_filter]
  congr 1
  funext a
  cases hreserved : isReservedKey a.1.toList <;>
    simp [SourceAttribute.view?, sourceAttribute, hreserved, unescape_escape, Except.toOption]

section Content

variable {name : String} {attributes : List (String × String)}

/-- A written tag is well-formed if no two of its attributes share a key. -/
theorem isWellFormed_sourceTag (hname : IsRawName name.toList)
    (hkeys : ∀ a ∈ attributes, IsRawName a.1.toList) (hnodup : (attributes.map (·.1)).Nodup) :
    (sourceTag name attributes).isWellFormed = true := by
  refine SourceTag.isWellFormed_iff.mpr ⟨?_, ?_, ?_, rfl, ?_⟩
  · rw [List.all_eq_true]
    intro c hc
    rw [(hname.not_delimiter hc).1]
    rfl
  · cases attributes <;> rfl
  · simp only [sourceTag, List.all_map, List.all_eq_true]
    exact fun a ha => isWellFormed_sourceAttribute (hkeys a ha)
  · rw [sourceTag, List.map_map]
    have hpairwise := List.pairwise_map.mp hnodup
    exact List.pairwise_map.mpr (hpairwise.imp fun hne heq => hne (String.toList_inj.mp heq))

theorem rawName_contentChars (hname : IsRawName name.toList)
    (hkeys : ∀ a ∈ attributes, IsRawName a.1.toList) (hnodup : (attributes.map (·.1)).Nodup) :
    rawName (contentChars name attributes) = name.toList := by
  rw [← chars_sourceTag]
  exact SourceTag.rawName_chars (isWellFormed_sourceTag hname hkeys hnodup)

/-- A written tag is read back with its name and its attributes. -/
theorem ofContent_contentChars (hname : IsRawName name.toList)
    (hkeys : ∀ a ∈ attributes, IsRawName a.1.toList) (hnodup : (attributes.map (·.1)).Nodup)
    (selfClosing : Bool) :
    StartTag.ofContent (contentChars name attributes) selfClosing =
      .ok ⟨(splitRawName name.toList).1, (splitRawName name.toList).2,
        seenAttributes attributes, selfClosing⟩ := by
  rw [← chars_sourceTag, ← attributesSeen_sourceTag name]
  exact SourceTag.ofContent_chars (isWellFormed_sourceTag hname hkeys hnodup) selfClosing

theorem isNamed_sourceTag (hname : IsRawName name.toList)
    (hkeys : ∀ a ∈ attributes, IsRawName a.1.toList) : (sourceTag name attributes).IsNamed where
  name := hname
  keys b hb := by
    obtain ⟨a, ha, rfl⟩ := List.mem_map.mp hb
    exact hkeys a ha

theorem nextToken_startTag (hname : IsRawName name.toList)
    (hkeys : ∀ a ∈ attributes, IsRawName a.1.toList) (hnodup : (attributes.map (·.1)).Nodup)
    (rest : List Char) :
    nextToken ('<' :: (contentChars name attributes ++ '>' :: rest)) =
      .ok (some (.startTag (contentChars name attributes), rest)) := by
  rw [← chars_sourceTag]
  exact SourceTag.nextToken_startTag (isWellFormed_sourceTag hname hkeys hnodup)
    (isNamed_sourceTag hname hkeys) rest

/-- A written self-closing tag ends where it was ended. -/
theorem nextToken_emptyTag (hname : IsRawName name.toList)
    (hkeys : ∀ a ∈ attributes, IsRawName a.1.toList) (hnodup : (attributes.map (·.1)).Nodup)
    (rest : List Char) :
    nextToken ('<' :: (contentChars name attributes ++ '/' :: '>' :: rest)) =
      .ok (some (.emptyTag (contentChars name attributes), rest)) := by
  rw [← chars_sourceTag]
  exact SourceTag.nextToken_emptyTag (isWellFormed_sourceTag hname hkeys hnodup)
    (isNamed_sourceTag hname hkeys) rest

/-- A written end tag is read back with its name. -/
theorem nextToken_endTag (hname : IsRawName name.toList) (rest : List Char) :
    nextToken ('<' :: '/' :: (name.toList ++ '>' :: rest)) =
      .ok (some (.endTag name.toList, rest)) :=
  Markup.nextToken_endTag hname List.all_nil rest

end Content

end TableJoin.Writing
