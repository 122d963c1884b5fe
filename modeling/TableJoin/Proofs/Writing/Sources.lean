import TableJoin.Proofs.Markup.NamedTag
import TableJoin.Proofs.Writing.Printed

/-!
What marks are written as: a source tree, character by character, with a part for each
character of the layout and of the text.
-/

namespace TableJoin.Writing

open Markup EncodeOptions

section Tags

variable {name : String} {attributes : List (String × String)}

/-- A written self-closing tag is a well-formed element. -/
theorem isWellFormed_empty (hname : IsRawName name.toList)
    (hkeys : ∀ a ∈ attributes, IsRawName a.1.toList) (hnodup : (attributes.map (·.1)).Nodup) :
    (SourceElement.empty (sourceTag name attributes)).isWellFormed = true :=
  (SourceElement.isWellFormed_empty_iff (isNamed_sourceTag hname hkeys)).mpr
    (isWellFormed_sourceTag hname hkeys hnodup)

/-- Written tags around well-formed content are a well-formed element. -/
theorem isWellFormed_around (hname : IsRawName name.toList)
    (hkeys : ∀ a ∈ attributes, IsRawName a.1.toList) (hnodup : (attributes.map (·.1)).Nodup)
    {parts : List SourcePart} (hparts : SourcePart.areWellFormed parts = true) :
    (SourceElement.around (sourceTag name attributes) parts name.toList).isWellFormed = true := by
  have hend := isToken_endTag hname List.all_nil
  rw [List.append_nil] at hend
  exact (SourceElement.isWellFormed_around_iff (isNamed_sourceTag hname hkeys)).mpr
    ⟨isWellFormed_sourceTag hname hkeys hnodup, hend, hparts⟩

end Tags

section Texts

/-- A character of a text as it is written. -/
def sourceChar (c : Char) : SourcePart :=
  if escapeChar c = [c] then .plain c else .reference (escapeChar c).tail.dropLast

/-- A written character is itself or a reference to it, and stands for itself. -/
theorem sourceChar_spec (c : Char) :
    (sourceChar c).own = escapeChar c ∧ (sourceChar c).isWellFormed = true ∧
      (sourceChar c).stands = [c] ∧ ∀ e, sourceChar c ≠ .element e := by
  rcases escapeChar_cases c with ⟨hself, hplain, -, -⟩ | ⟨name, heq, hname⟩
  · rw [sourceChar, if_pos hself, hself]
    exact ⟨rfl, hplain, rfl, nofun⟩
  · have hne : escapeChar c ≠ [c] := by
      intro hself
      rw [heq] at hself
      simp at hself
    have hbetween : (escapeChar c).tail.dropLast = name := by simp [heq]
    rw [sourceChar, if_neg hne, hbetween, heq]
    refine ⟨rfl, SourcePart.isWellFormed_reference.mpr ⟨?_, ?_⟩, ?_, nofun⟩
    · exact isToken_iff.mpr (nextToken_reference hname.letters [])
    · rw [hname.resolve_eq]
      rfl
    · simp [SourcePart.stands, referred, hname.resolve_eq, Except.toOption]

/-- A text as it is written. -/
structure Spelled (parts : List SourcePart) (s : List Char) : Prop where
  wellFormed : SourcePart.areWellFormed parts = true
  stands : parts.flatMap SourcePart.stands = s
  elements : SourcePart.elements parts = []

theorem spelled_sourceChar (cs : List Char) : Spelled (cs.map sourceChar) cs := by
  induction cs with
  | nil => exact ⟨rfl, rfl, rfl⟩
  | cons c cs ih =>
    obtain ⟨-, hwell, hstands, hne⟩ := sourceChar_spec c
    refine ⟨SourcePart.areWellFormed_cons.mpr ⟨hwell, ih.wellFormed⟩, ?_, ?_⟩
    · simp [hstands, ih.stands]
    · rw [List.map_cons]
      cases hpart : sourceChar c with
      | element e => exact absurd hpart (hne e)
      | _ => exact ih.elements

theorem chars_sourceChar (cs : List Char) :
    SourcePart.chars (cs.map sourceChar) = escape cs := by
  induction cs with
  | nil => rfl
  | cons c cs ih =>
    rw [List.map_cons, SourcePart.chars_cons, ih, (sourceChar_spec c).1, escape_cons]

theorem spelled_plain {cs : List Char} (h : ∀ c ∈ cs, isPlain c = true) :
    Spelled (cs.map .plain) cs := by
  induction cs with
  | nil => exact ⟨rfl, rfl, rfl⟩
  | cons c cs ih =>
    have hrest := ih fun d hd => h d (List.mem_cons_of_mem c hd)
    refine ⟨SourcePart.areWellFormed_cons.mpr ⟨h c List.mem_cons_self, hrest.wellFormed⟩, ?_, ?_⟩
    · simp [SourcePart.stands, hrest.stands]
    · exact hrest.elements

theorem Spelled.aside {parts : List SourcePart} {s : List Char} (h : Spelled parts s)
    {own : List Char} (hown : isToken own .aside = true) : Spelled (.aside own :: parts) s where
  wellFormed := SourcePart.areWellFormed_cons.mpr ⟨hown, h.wellFormed⟩
  stands := h.stands
  elements := h.elements

theorem chars_plain (cs : List Char) : SourcePart.chars (cs.map .plain) = cs := by
  induction cs with
  | nil => rfl
  | cons c cs ih => simp [ih]

/-- The line break in front of a tag, as it is written. -/
def sourceLayout (o : EncodeOptions) (p : Position) : List SourcePart :=
  (lineBreak o p).map .plain

theorem spelled_sourceLayout (o : EncodeOptions) (p : Position) :
    Spelled (sourceLayout o p) (lineBreak o p) :=
  spelled_plain fun _ hc => (isBlank_of_mem_lineBreak hc).2

end Texts

/-- Writing the marks leads from one place to another, and what is written are the
characters of the parts. -/
def Lays (o : EncodeOptions) (p : Position) (marks : List Mark) (parts : List SourcePart)
    (p' : Position) : Prop :=
  ∀ rest, writeFrom o p (marks ++ rest) = SourcePart.chars parts ++ writeFrom o p' rest

section Marks

variable {o : EncodeOptions} {p p' p'' : Position} {ms ms' : List Mark}
  {ps ps' : List SourcePart}

theorem lays_nil : Lays o p [] [] p := fun _ => rfl

theorem Lays.append (h : Lays o p ms ps p') (h' : Lays o p' ms' ps' p'') :
    Lays o p (ms ++ ms') (ps ++ ps') p'' := by
  intro rest
  rw [List.append_assoc, h, h', SourcePart.chars_append, List.append_assoc]

theorem lays_text (o : EncodeOptions) (p : Position) (s : String) :
    Lays o p [.text s] (s.toList.map sourceChar) { p with breakLine := false } := by
  intro rest
  rw [chars_sourceChar]
  rfl

variable (name : QName) (attributes : List (QName × String))

/-- An element without content is written as a self-closing tag. -/
theorem lays_empty (o : EncodeOptions) (p : Position) :
    Lays o p (enclose name attributes [])
      (sourceLayout o p ++ [.element (.empty (sourceTag (o.qualify name)
        (tagAttributes o p attributes)))]) ⟨p.depth, true, true⟩ := by
  intro rest
  rw [SourcePart.chars_append, sourceLayout, chars_plain]
  simp [enclose, writeFrom, Mark.write, SourceElement.chars, chars_sourceTag, tagChars_eq]

/-- An element with content is written as tags around what its content is written as. -/
theorem lays_around {content : List Mark} {parts : List SourcePart} {breakLine : Bool}
    (hcontent : content ≠ [])
    (hlays : Lays o ⟨p.depth + 1, true, true⟩ content parts ⟨p.depth + 1, breakLine, true⟩) :
    Lays o p (enclose name attributes content)
      (sourceLayout o p ++ [.element (.around (sourceTag (o.qualify name)
        (tagAttributes o p attributes)) (parts ++ sourceLayout o ⟨p.depth, breakLine, true⟩)
        (o.qualify name).toList)]) ⟨p.depth, true, true⟩ := by
  intro rest
  have hempty : content.isEmpty = false := by simpa using hcontent
  have hwritten : writeFrom o p (enclose name attributes content ++ rest) =
      lineBreak o p ++ '<' :: (tagChars o p name attributes ++ '>' ::
        writeFrom o ⟨p.depth + 1, true, true⟩ (content ++ .close name :: rest)) := by
    simp [enclose, hempty, writeFrom, Mark.write]
  rw [hwritten, hlays, SourcePart.chars_append, sourceLayout, chars_plain]
  simp [writeFrom, Mark.write, SourceElement.chars, SourcePart.chars_append, sourceLayout,
    chars_plain, chars_sourceTag, tagChars_eq]

end Marks

end TableJoin.Writing
