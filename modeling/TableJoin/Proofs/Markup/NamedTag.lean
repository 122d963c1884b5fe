import TableJoin.Proofs.Markup.Name
import TableJoin.Proofs.Markup.SourceNodes

/-!
Tags whose names are names.  No mark of a tag stands in a name, so such a tag ends
where it is written to end, and its pieces alone decide whether it is well-formed.
-/

namespace TableJoin.Markup

section Passing

theorem cutTag_some (q c : Char) (cs : List Char) :
    cutTag (some q) (c :: cs) =
      (cutTag (if c = q then none else some q) cs).map fun (before, after) =>
        (c :: before, after) := rfl

theorem cutTag_none {c : Char} (h : c ≠ '>') (cs : List Char) :
    cutTag none (c :: cs) =
      (cutTag (if isQuote c then some c else none) cs).map fun (before, after) =>
        (c :: before, after) := by
  simp only [cutTag, h, ↓reduceIte]

/-- No tag ends within the characters, and no attribute value is open behind them. -/
def Passes (cs : List Char) : Prop :=
  ∀ rest, cutTag none (cs ++ rest) = (cutTag none rest).map fun (before, after) =>
    (cs ++ before, after)

theorem passes_nil : Passes [] := by
  intro rest
  cases h : cutTag none rest <;> simp [h, Except.map]

theorem Passes.append {cs ds : List Char} (hc : Passes cs) (hd : Passes ds) :
    Passes (cs ++ ds) := by
  intro rest
  rw [List.append_assoc, hc, hd]
  cases cutTag none rest <;> simp [Except.map]

theorem passes_flatMap {α : Type} {f : α → List Char} {as : List α}
    (h : ∀ a ∈ as, Passes (f a)) : Passes (as.flatMap f) := by
  induction as with
  | nil => exact passes_nil
  | cons a as ih =>
    have htail := ih fun b hb => h b (List.mem_cons_of_mem a hb)
    exact (h a List.mem_cons_self).append htail

/-- Outside attribute values a character that is neither `>` nor a quotation mark
passes. -/
theorem passes_singleton {c : Char} (hgt : c ≠ '>') (hquote : isQuote c = false) :
    Passes [c] := by
  intro rest
  rw [List.singleton_append, cutTag_none hgt, hquote]
  rfl

theorem passes_of_forall {cs : List Char} (h : ∀ c ∈ cs, c ≠ '>' ∧ isQuote c = false) :
    Passes cs := by
  have hflat := passes_flatMap fun c hc => passes_singleton (h c hc).1 (h c hc).2
  rwa [List.flatMap_singleton'] at hflat

theorem passes_of_isRawName {cs : List Char} (h : IsRawName cs) : Passes cs := by
  apply passes_of_forall
  intro c hc
  obtain ⟨-, hquote, -, hgt, -⟩ := h.not_delimiter hc
  exact ⟨hgt, hquote⟩

theorem passes_of_blank {gap : List Char} (h : gap.all isSpace = true) : Passes gap := by
  apply passes_of_forall
  intro c hc
  have hspace := List.all_eq_true.mp h c hc
  constructor
  · rintro rfl
    cases hspace
  · simp only [isSpace, Bool.or_eq_true, decide_eq_true_eq] at hspace
    rcases hspace with ((rfl | rfl) | rfl) | rfl <;> rfl

/-- What stands between two quotation marks of one kind passes. -/
theorem cutTag_quoted {q : Char} {cs : List Char} (h : q ∉ cs) (rest : List Char) :
    cutTag (some q) (cs ++ q :: rest) = (cutTag none rest).map fun (before, after) =>
      (cs ++ q :: before, after) := by
  induction cs with
  | nil =>
    rw [List.nil_append, cutTag_some]
    simp only [↓reduceIte, List.nil_append]
  | cons c cs ih =>
    rw [List.mem_cons, not_or] at h
    rw [List.cons_append, cutTag_some, if_neg (Ne.symm h.1), ih h.2]
    cases cutTag none rest <;> rfl

theorem passes_quoted {q : Char} (hq : isQuote q = true) {cs : List Char} (h : q ∉ cs) :
    Passes (q :: (cs ++ [q])) := by
  have hgt : q ≠ '>' := by
    rintro rfl
    cases hq
  intro rest
  rw [List.cons_append, List.append_assoc, List.singleton_append, cutTag_none hgt, hq, if_pos rfl,
    cutTag_quoted h]
  cases cutTag none rest <;> simp [Except.map]

theorem tagContent_of_passes {cs : List Char} (h : Passes cs) (rest : List Char) :
    tagContent (cs ++ '>' :: rest) = .ok (cs, rest) := by
  have hcut : cutTag none ('>' :: rest) = .ok ([], rest) := by simp [cutTag]
  rw [tagContent, h, hcut]
  simp only [Except.map, List.append_nil]
  rfl

end Passing

section EndTags

theorem endName_append {name gap : List Char} (hname : IsRawName name)
    (hgap : gap.all isSpace = true) : endName (name ++ gap) = name := by
  obtain ⟨c, rest, hbegins, -⟩ := hname.begins
  have hall : (name ++ gap).all isSpace = false := by
    rw [List.all_eq_false]
    refine ⟨c, by simp [hbegins], ?_⟩
    rw [(hname.not_delimiter (hbegins ▸ List.mem_cons_self)).1]
    exact Bool.false_ne_true
  have hdrop : name.reverse.dropWhile isSpace = name.reverse := by
    cases hrev : name.reverse with
    | nil => rfl
    | cons d tail =>
      have hmem : d ∈ name := List.mem_reverse.mp (hrev ▸ List.mem_cons_self)
      rw [List.dropWhile_cons_of_neg (by simp [(hname.not_delimiter hmem).1])]
  rw [endName, hall, List.reverse_append,
    List.dropWhile_append_of_pos (by simpa using hgap), hdrop, List.reverse_reverse]
  rfl

theorem nextToken_endTag {name gap : List Char} (hname : IsRawName name)
    (hgap : gap.all isSpace = true) (rest : List Char) :
    nextToken ('<' :: '/' :: (name ++ (gap ++ '>' :: rest))) =
      .ok (some (.endTag name, rest)) := by
  have hcut := tagContent_of_passes ((passes_of_isRawName hname).append (passes_of_blank hgap)) rest
  rw [List.append_assoc] at hcut
  simp only [nextToken, hcut, Except.map, endName_append hname hgap]

end EndTags

/-- The name of the tag and the keys of its attributes are names. -/
structure SourceTag.IsNamed (tag : SourceTag) : Prop where
  name : IsRawName tag.name
  keys : ∀ a ∈ tag.attributes, IsRawName a.key

section StartTags

theorem SourceAttribute.passes_chars {a : SourceAttribute} (h : a.IsDelimited)
    (hkey : IsRawName a.key) : Passes a.chars := by
  have hequals : Passes ['='] := passes_singleton (by decide) (by decide)
  have hvalue := passes_quoted h.quote h.value
  have hbehind := (passes_of_blank h.beforeEquals).append
    (hequals.append ((passes_of_blank h.afterEquals).append hvalue))
  exact (passes_of_blank h.gap).append ((passes_of_isRawName hkey).append hbehind)

theorem nextToken_tag {c : Char} (hbang : c ≠ '!') (hquestion : c ≠ '?') (hslash : c ≠ '/')
    (cs : List Char) :
    nextToken ('<' :: c :: cs) = (tagContent (c :: cs)).map fun (content, after) =>
      if content.getLast? = some '/' then some (.emptyTag content.dropLast, after)
      else some (.startTag content, after) := by
  simp only [nextToken]
  split
  · next heq => cases heq; exact absurd rfl hbang
  · next heq => cases heq; exact absurd rfl hquestion
  · next heq => cases heq; exact absurd rfl hslash
  · rfl

namespace SourceTag

variable {tag : SourceTag}

theorem isDelimited_of_mem (h : tag.isWellFormed = true) {a : SourceAttribute}
    (ha : a ∈ tag.attributes) : a.IsDelimited := by
  obtain ⟨-, -, has, -⟩ := isWellFormed_iff.mp h
  have hwell := List.all_eq_true.mp has a ha
  rw [SourceAttribute.isWellFormed, Bool.and_eq_true, decide_eq_true_eq] at hwell
  exact hwell.1

theorem passes_chars (h : tag.isWellFormed = true) (hnamed : tag.IsNamed) : Passes tag.chars := by
  obtain ⟨-, -, -, hgap, -⟩ := isWellFormed_iff.mp h
  have hattributes : Passes (tag.attributes.flatMap SourceAttribute.chars) :=
    passes_flatMap fun a ha =>
      SourceAttribute.passes_chars (isDelimited_of_mem h ha) (hnamed.keys a ha)
  exact (passes_of_isRawName hnamed.name).append (hattributes.append (passes_of_blank hgap))

/-- The last character of a tag is space, a quotation mark or that of a name. -/
theorem getLast?_chars_ne (h : tag.isWellFormed = true) (hnamed : tag.IsNamed) :
    tag.chars.getLast? ≠ some '/' := by
  obtain ⟨-, -, -, hgap, -⟩ := isWellFormed_iff.mp h
  intro hlast
  have hlast : (tag.name ++ (tag.attributes.flatMap SourceAttribute.chars ++ tag.gap)).getLast? =
      some '/' := hlast
  rcases tag.gap.eq_nil_or_concat with hnil | ⟨init, c, hconcat⟩
  · rcases tag.attributes.eq_nil_or_concat with hnone | ⟨init, a, hconcat⟩
    · rw [hnil, hnone, List.flatMap_nil, List.append_nil, List.append_nil] at hlast
      have hslash := (hnamed.name.not_delimiter (List.mem_of_getLast? hlast)).2.2.2.2
      exact hslash rfl
    · have hquote : a.quote = '/' := by
        simpa [hnil, hconcat, SourceAttribute.chars, List.getLast?_append,
          List.getLast?_cons] using hlast
      have hdelimited := isDelimited_of_mem h (a := a) (by simp [hconcat])
      have hkind := hdelimited.quote
      rw [hquote] at hkind
      cases hkind
  · have hspace : isSpace c = true := List.all_eq_true.mp hgap c (by simp [hconcat])
    have hslash : c = '/' := by simpa [hconcat, List.getLast?_append] using hlast
    rw [hslash] at hspace
    cases hspace

theorem nextToken_startTag (h : tag.isWellFormed = true) (hnamed : tag.IsNamed)
    (rest : List Char) :
    nextToken ('<' :: (tag.chars ++ '>' :: rest)) = .ok (some (.startTag tag.chars, rest)) := by
  have hcut := tagContent_of_passes (passes_chars h hnamed) rest
  have hlast := getLast?_chars_ne h hnamed
  obtain ⟨c, tail, hbegins, hbang, hquestion, hslash⟩ := hnamed.name.head
  simp only [chars, hbegins, List.cons_append] at hcut hlast ⊢
  rw [nextToken_tag hbang hquestion hslash, hcut]
  simp only [Except.map, hlast, ↓reduceIte]

/-- A self-closing tag ends where it is written to end. -/
theorem nextToken_emptyTag (h : tag.isWellFormed = true) (hnamed : tag.IsNamed)
    (rest : List Char) :
    nextToken ('<' :: (tag.chars ++ '/' :: '>' :: rest)) =
      .ok (some (.emptyTag tag.chars, rest)) := by
  have hclose : Passes ['/'] := passes_singleton (by decide) (by decide)
  have hcut := tagContent_of_passes ((passes_chars h hnamed).append hclose) rest
  have hlast : (tag.chars ++ ['/']).getLast? = some '/' := List.getLast?_concat
  have hinit : (tag.chars ++ ['/']).dropLast = tag.chars := List.dropLast_concat
  obtain ⟨c, tail, hbegins, hbang, hquestion, hslash⟩ := hnamed.name.head
  simp only [chars, hbegins, List.cons_append, List.append_assoc, List.nil_append]
    at hcut hlast hinit ⊢
  rw [nextToken_tag hbang hquestion hslash, hcut]
  simp only [Except.map, hlast, hinit, ↓reduceIte]

end SourceTag

end StartTags

section Elements

variable {tag : SourceTag} {parts : List SourcePart} {close : List Char}

theorem isToken_endTag {name gap : List Char} (hname : IsRawName name)
    (hgap : gap.all isSpace = true) :
    isToken ('<' :: '/' :: (name ++ gap ++ ['>'])) (.endTag name) = true := by
  rw [List.append_assoc]
  exact isToken_iff.mpr (nextToken_endTag hname hgap [])

theorem SourceElement.isWellFormed_empty_iff (hnamed : tag.IsNamed) :
    (SourceElement.empty tag).isWellFormed = true ↔ tag.isWellFormed = true := by
  rw [SourceElement.isWellFormed_empty, and_iff_left_iff_imp]
  exact fun h => isToken_iff.mpr (SourceTag.nextToken_emptyTag h hnamed [])

theorem SourceElement.isWellFormed_around_iff (hnamed : tag.IsNamed) :
    (SourceElement.around tag parts close).isWellFormed = true ↔ tag.isWellFormed = true ∧
      isToken ('<' :: '/' :: (close ++ ['>'])) (.endTag tag.name) = true ∧
      SourcePart.areWellFormed parts = true := by
  rw [SourceElement.isWellFormed_around, and_congr_right_iff]
  intro h
  rw [and_iff_right_iff_imp]
  exact fun _ => isToken_iff.mpr (SourceTag.nextToken_startTag h hnamed [])

end Elements

end TableJoin.Markup
