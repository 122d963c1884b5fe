import TableJoin.Markup.Tag

/-!
Names without a colon, and the raw names that are made of two of them.  No
character of a raw name delimits anything in a tag.
-/

namespace TableJoin.Markup

/-- Inclusive ranges of the code points that begin a name, the colon left out. -/
def nameStartRanges : List (Nat × Nat) :=
  [(0x41, 0x5A), (0x5F, 0x5F), (0x61, 0x7A), (0xC0, 0xD6), (0xD8, 0xF6), (0xF8, 0x2FF),
   (0x370, 0x37D), (0x37F, 0x1FFF), (0x200C, 0x200D), (0x2070, 0x218F), (0x2C00, 0x2FEF),
   (0x3001, 0xD7FF), (0xF900, 0xFDCF), (0xFDF0, 0xFFFD), (0x10000, 0xEFFFF)]

/-- Inclusive ranges of the further code points that go on with a name. -/
def nameRanges : List (Nat × Nat) :=
  [(0x2D, 0x2E), (0x30, 0x39), (0xB7, 0xB7), (0x300, 0x36F), (0x203F, 0x2040)]

def isNameStart (c : Char) : Bool :=
  nameStartRanges.any fun range => range.1 ≤ c.toNat && c.toNat ≤ range.2

def isNameChar (c : Char) : Bool :=
  isNameStart c || nameRanges.any fun range => range.1 ≤ c.toNat && c.toNat ≤ range.2

def isLocalName (s : String) : Bool :=
  match s.toList with
  | [] => false
  | c :: cs => isNameStart c && cs.all isNameChar

/-- Characters of a tag or attribute name: one name or two, and a colon between. -/
structure IsRawName (cs : List Char) : Prop where
  begins : ∃ c rest, cs = c :: rest ∧ isNameStart c = true
  chars : ∀ c ∈ cs, isNameChar c = true ∨ c = ':'

theorem ne_of_isNameChar {c d : Char} (hc : isNameChar c = true) (hd : isNameChar d = false) :
    c ≠ d := by
  rintro rfl
  rw [hc] at hd
  cases hd

theorem isNameChar_of_isNameStart {c : Char} (h : isNameStart c = true) : isNameChar c = true := by
  simp only [isNameChar, h, Bool.true_or]

/-- Neither space nor any mark of a tag belongs to a raw name. -/
theorem IsRawName.not_delimiter {cs : List Char} (h : IsRawName cs) {c : Char} (hc : c ∈ cs) :
    isSpace c = false ∧ isQuote c = false ∧ c ≠ '=' ∧ c ≠ '>' ∧ c ≠ '/' := by
  have outside : ∀ d, isNameChar d = false → d ≠ ':' → c ≠ d := by
    intro d hd hcolon
    rcases h.chars c hc with hname | rfl
    · exact ne_of_isNameChar hname hd
    · exact hcolon.symm
  refine ⟨?_, ?_, outside _ (by decide) (by decide), outside _ (by decide) (by decide),
    outside _ (by decide) (by decide)⟩
  · simp only [isSpace, Bool.or_eq_false_iff, decide_eq_false_iff_not]
    exact ⟨⟨⟨outside _ (by decide) (by decide), outside _ (by decide) (by decide)⟩,
      outside _ (by decide) (by decide)⟩, outside _ (by decide) (by decide)⟩
  · simp only [isQuote, Bool.or_eq_false_iff, decide_eq_false_iff_not]
    exact ⟨outside _ (by decide) (by decide), outside _ (by decide) (by decide)⟩

/-- A raw name begins like a name, so its tag is a start tag. -/
theorem IsRawName.head {cs : List Char} (h : IsRawName cs) :
    ∃ c rest, cs = c :: rest ∧ c ≠ '!' ∧ c ≠ '?' ∧ c ≠ '/' := by
  obtain ⟨c, rest, hcs, hstart⟩ := h.begins
  have hc := isNameChar_of_isNameStart hstart
  exact ⟨c, rest, hcs, ne_of_isNameChar hc (by decide), ne_of_isNameChar hc (by decide),
    ne_of_isNameChar hc (by decide)⟩

section LocalNames

variable {s short : String}

theorem isNameChar_of_isLocalName (h : isLocalName s = true) :
    ∀ c ∈ s.toList, isNameChar c = true := by
  unfold isLocalName at h
  split at h
  · cases h
  · next c cs heq =>
    rw [heq]
    simp only [Bool.and_eq_true, List.all_eq_true] at h
    intro d hd
    rcases List.mem_cons.mp hd with rfl | hd
    · exact isNameChar_of_isNameStart h.1
    · exact h.2 d hd

theorem isRawName_of_isLocalName (h : isLocalName s = true) : IsRawName s.toList := by
  refine ⟨?_, fun c hc => .inl (isNameChar_of_isLocalName h c hc)⟩
  unfold isLocalName at h
  split at h
  · cases h
  · next c cs heq =>
    simp only [Bool.and_eq_true] at h
    exact ⟨c, cs, heq, h.1⟩

theorem isEmpty_of_isLocalName (h : isLocalName s = true) : s.isEmpty = false := by
  cases hempty : s.isEmpty with
  | false => rfl
  | true =>
    rw [String.isEmpty_iff] at hempty
    subst hempty
    cases h

/-- A short name, a colon and a local name make a raw name. -/
theorem isRawName_join (hshort : isLocalName short = true) (hs : isLocalName s = true) :
    IsRawName (short.toList ++ ':' :: s.toList) := by
  obtain ⟨c, rest, heq, hstart⟩ := (isRawName_of_isLocalName hshort).begins
  refine ⟨⟨c, rest ++ ':' :: s.toList, by rw [heq]; rfl, hstart⟩, ?_⟩
  intro d hd
  simp only [List.mem_append, List.mem_cons] at hd
  rcases hd with hd | rfl | hd
  · exact .inl (isNameChar_of_isLocalName hshort d hd)
  · exact .inr rfl
  · exact .inl (isNameChar_of_isLocalName hs d hd)

theorem ne_colon_of_isLocalName (h : isLocalName s = true) : ∀ c ∈ s.toList, (c != ':') = true := by
  intro c hc
  have hne : c ≠ ':' := ne_of_isNameChar (isNameChar_of_isLocalName h c hc) (by decide)
  simpa using hne

/-- A name without a colon has no short name in front. -/
theorem splitRawName_of_isLocalName (h : isLocalName s = true) :
    splitRawName s.toList = (none, s) := by
  have hdrop : s.toList.dropWhile (· != ':') = [] := by
    rw [← List.append_nil s.toList, List.dropWhile_append_of_pos (ne_colon_of_isLocalName h)]
    rfl
  simp only [splitRawName, hdrop, String.ofList_toList]

/-- A raw name is cut at the colon behind its short name. -/
theorem splitRawName_join (hshort : isLocalName short = true) :
    splitRawName (short.toList ++ ':' :: s.toList) = (some short, s) := by
  have hcolon := ne_colon_of_isLocalName hshort
  have htake : (short.toList ++ ':' :: s.toList).takeWhile (· != ':') = short.toList := by
    rw [List.takeWhile_append_of_pos hcolon]
    simp
  have hdrop : (short.toList ++ ':' :: s.toList).dropWhile (· != ':') = ':' :: s.toList := by
    rw [List.dropWhile_append_of_pos hcolon]
    simp
  simp only [splitRawName, htake, hdrop, String.ofList_toList]

end LocalNames

end TableJoin.Markup
