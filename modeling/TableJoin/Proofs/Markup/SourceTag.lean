import TableJoin.Proofs.Markup.Locality
import TableJoin.Proofs.Markup.Source

/-!
A tag is read as the tag that is written, and whatever is read as a tag is written
like one.
-/

namespace TableJoin.Markup

open Text

/-- Characters of a class end where one stands that is not of it. -/
theorem takeWhile_append_cons {p : Char → Bool} {cs : List Char} (h : cs.all p = true) {c : Char}
    (hc : p c = false) (rest : List Char) : (cs ++ c :: rest).takeWhile p = cs := by
  rw [List.takeWhile_append_of_pos (List.all_eq_true.mp h), List.takeWhile_cons_of_neg (by simp [hc]),
    List.append_nil]

theorem exists_of_isKey {key : List Char} (h : isKey key = true) :
    ∃ first more, key = first :: more ∧ isSpace first = false ∧
      (more.all fun c => c != '=' && !isSpace c) = true := by
  cases key with
  | nil => cases h
  | cons first more =>
    simp only [isKey, Bool.and_eq_true, Bool.not_eq_true'] at h
    exact ⟨first, more, rfl, h.1, h.2⟩

section Attributes

variable {seen : List (List Char × Nat)}

theorem nextAttribute_of_blank {gap : List Char} (h : gap.all isSpace = true) (size offset : Nat) :
    nextAttribute size seen offset gap = .ok none := by
  have htake : gap.takeWhile isSpace = gap := by
    rw [← List.append_nil gap, List.takeWhile_append_of_pos (List.all_eq_true.mp h)]
    rfl
  simp only [nextAttribute, htake, List.drop_length]

theorem SourceAttribute.length_chars_pos (a : SourceAttribute) : 0 < a.chars.length := by
  simp only [chars, List.length_append, List.length_cons]
  omega

theorem nextAttribute_chars {a : SourceAttribute} (ha : a.IsDelimited)
    (hseen : seen.lookup a.key = none) (size offset : Nat) (rest : List Char) :
    ∃ keyAt restAt, nextAttribute size seen offset (a.chars ++ rest) =
      .ok (some ⟨a.key, keyAt, a.value, rest, restAt⟩) := by
  obtain ⟨gap, key, beforeEquals, afterEquals, quote, value⟩ := a
  obtain ⟨hgap, hkey, hbefore, hafter, hquote, hvalue⟩ := ha
  simp only at hgap hkey hbefore hafter hquote hvalue hseen
  obtain ⟨first, more, rfl, hfirst, hmore⟩ := exists_of_isKey hkey
  have hvalue' : ∀ c ∈ value, c ≠ quote := fun c hc heq => hvalue (heq ▸ hc)
  have hblank : isSpace quote = false := by
    rcases Bool.eq_false_or_eq_true (isSpace quote) with hs | hs
    · simp only [isQuote, isSpace, Bool.or_eq_true, decide_eq_true_eq] at hquote hs
      rcases hquote with rfl | rfl <;> simp at hs
    · exact hs
  -- Space or the equals sign ends the key.
  have hends : ∀ tail, (more ++ (beforeEquals ++ '=' :: tail)).takeWhile
      (fun c => c != '=' && !isSpace c) = more := by
    intro tail
    cases beforeEquals with
    | nil => exact takeWhile_append_cons hmore (by decide) tail
    | cons s spaces =>
      rw [List.all_cons, Bool.and_eq_true] at hbefore
      exact takeWhile_append_cons hmore (by simp [hbefore.1]) _
  have h₁ := takeWhile_append_cons hgap hfirst
  have h₂ := takeWhile_append_cons hbefore (c := '=') rfl
  have h₃ := takeWhile_append_cons hafter hblank
  have h₄ := cutAt_singleton hvalue' rest
  simp only [nextAttribute, SourceAttribute.chars, List.append_assoc, List.cons_append,
    List.nil_append, h₁, List.drop_left, hends, h₂, hseen, h₃, hquote, ↓reduceIte, h₄]
  exact ⟨_, _, rfl⟩

theorem blank_of_nextAttribute {size offset : Nat} {cs : List Char}
    (h : nextAttribute size seen offset cs = .ok none) : cs.all isSpace = true := by
  have hsplit := List.takeWhile_append_dropWhile (p := isSpace) (l := cs)
  simp only [nextAttribute, drop_takeWhile] at h
  split at h
  · next heq =>
    rw [heq, List.append_nil] at hsplit
    rw [← hsplit]
    exact List.all_takeWhile
  · split at h
    · split at h
      · cases h
      · split at h
        · cases h
        · split at h
          · split at h <;> cases h
          · cases h
    · cases h
    · cases h

theorem exists_of_nextAttribute {size offset : Nat} {cs : List Char} {raw : RawAttribute}
    (h : nextAttribute size seen offset cs = .ok (some raw)) :
    ∃ a : SourceAttribute, a.IsDelimited ∧ a.key = raw.key ∧ a.value = raw.value ∧
      cs = a.chars ++ raw.rest ∧ seen.lookup a.key = none := by
  have hgap := List.takeWhile_append_dropWhile (p := isSpace) (l := cs)
  simp only [nextAttribute, drop_takeWhile] at h
  split at h
  · cases h
  · next first rest heq =>
    rw [heq] at hgap
    have hkey := List.takeWhile_append_dropWhile (p := fun c => c != '=' && !isSpace c) (l := rest)
    have hbefore := List.takeWhile_append_dropWhile (p := isSpace)
      (l := rest.dropWhile fun c => c != '=' && !isSpace c)
    split at h
    · next afterEquals heq' =>
      rw [heq'] at hbefore
      split at h
      · cases h
      · next hseen =>
        have hafter := List.takeWhile_append_dropWhile (p := isSpace) (l := afterEquals)
        split at h
        · cases h
        · next quote body heq'' =>
          rw [heq''] at hafter
          split at h
          · next hquote =>
            split at h
            · cases h
            · next value rest' hcut =>
              cases h
              have hfirst : isSpace first = false := by
                have := List.head?_dropWhile_not isSpace cs
                rw [heq] at this
                simpa using this
              refine ⟨⟨cs.takeWhile isSpace, first :: rest.takeWhile fun c => c != '=' && !isSpace c,
                (rest.dropWhile fun c => c != '=' && !isSpace c).takeWhile isSpace,
                afterEquals.takeWhile isSpace, quote, value⟩, ⟨List.all_takeWhile, ?_,
                List.all_takeWhile, List.all_takeWhile, hquote, not_mem_of_cutAt_singleton hcut⟩,
                rfl, rfl, ?_, hseen⟩
              · simp only [isKey, hfirst, Bool.not_false, Bool.true_and]
                exact List.all_takeWhile
              · obtain ⟨hbody, -⟩ := cutAt_spec (List.cons_ne_nil quote []) hcut
                simp only [SourceAttribute.chars, List.append_assoc, List.cons_append]
                rw [List.nil_append, ← List.singleton_append (l := rest'), ← hbody, hafter, hbefore,
                  hkey, hgap]
          · cases h
    · cases h
    · cases h

theorem lookup_cons_eq_none {key other : List Char} {place : Nat} :
    ((key, place) :: seen).lookup other = none ↔ other ≠ key ∧ seen.lookup other = none := by
  by_cases h : other = key
  · subst h
    simp
  · have hbeq : (other == key) = false := beq_eq_false_iff_ne.mpr h
    simp only [List.lookup_cons, hbeq, h, ne_eq, not_false_eq_true, true_and]

/-- An attribute that a reader sees is its view, and one that it does not has none. -/
theorem attributesFrom_chars {as : List SourceAttribute} {gap : List Char} (size : Nat)
    (has : as.all SourceAttribute.isWellFormed = true) (hgap : gap.all isSpace = true) :
    ∀ (fuel offset : Nat) (seen : List (List Char × Nat)), as.length ≤ fuel →
      (as.map (·.key)).Nodup → (∀ a ∈ as, seen.lookup a.key = none) →
      attributesFrom size fuel seen offset (as.flatMap SourceAttribute.chars ++ gap) =
        .ok (as.filterMap SourceAttribute.view?) := by
  induction as with
  | nil =>
    intro fuel offset seen _ _ _
    cases fuel with
    | zero => rfl
    | succ fuel =>
      rw [List.flatMap_nil, List.nil_append, attributesFrom, nextAttribute_of_blank hgap]
      rfl
  | cons a rest ih =>
    intro fuel offset seen hfuel hnodup hseen
    obtain ⟨fuel, rfl⟩ := Nat.exists_eq_add_one_of_ne_zero (Nat.ne_zero_of_lt hfuel)
    rw [List.length_cons] at hfuel
    rw [List.map_cons, List.nodup_cons] at hnodup
    rw [List.all_cons, Bool.and_eq_true] at has
    obtain ⟨ha, hrest⟩ := has
    simp only [SourceAttribute.isWellFormed, Bool.and_eq_true, decide_eq_true_eq,
      Bool.or_eq_true] at ha
    obtain ⟨keyAt, restAt, hnext⟩ := nextAttribute_chars ha.1 (hseen a List.mem_cons_self) size
      offset (rest.flatMap SourceAttribute.chars ++ gap)
    have hfurther : ∀ b ∈ rest, ((a.key, keyAt) :: seen).lookup b.key = none := by
      intro b hb
      refine lookup_cons_eq_none.mpr ⟨?_, hseen b (List.mem_cons_of_mem _ hb)⟩
      intro heq
      exact hnodup.1 (List.mem_map.mpr ⟨b, hb, heq⟩)
    have htail := ih hrest fuel restAt ((a.key, keyAt) :: seen) (by omega) hnodup.2 hfurther
    rw [List.flatMap_cons, List.append_assoc]
    simp only [attributesFrom, hnext, htail]
    by_cases hreserved : isReservedKey a.key = true
    · simp [SourceAttribute.view?, hreserved]
    · obtain ⟨value, hvalue⟩ : ∃ value, unescape a.value = .ok value := by
        cases hv : unescape a.value with
        | ok value => exact ⟨value, rfl⟩
        | error e => simp [hreserved, hv, Except.isOk, Except.toBool] at ha
      simp [SourceAttribute.view?, hreserved, hvalue, Except.map, Except.toOption]

/-- The characters are those of attributes that a reader sees as these views, with keys that it
has not seen yet, and of the space behind them. -/
structure SourceAttribute.Spell (seen : List (List Char × Nat)) (cs : List Char)
    (views : List Attribute) (as : List SourceAttribute) (gap : List Char) : Prop where
  chars_eq : cs = as.flatMap SourceAttribute.chars ++ gap
  blank : gap.all isSpace = true
  isWellFormed : as.all SourceAttribute.isWellFormed = true
  nodup : (as.map (·.key)).Nodup
  unseen : ∀ a ∈ as, seen.lookup a.key = none
  views_eq : as.filterMap SourceAttribute.view? = views

theorem SourceAttribute.Spell.of_blank {gap : List Char} (h : gap.all isSpace = true) :
    SourceAttribute.Spell seen gap [] [] gap where
  chars_eq := rfl
  blank := h
  isWellFormed := rfl
  nodup := List.nodup_nil
  unseen := nofun
  views_eq := rfl

/-- An attribute stands in front of others that do not have its key. -/
theorem SourceAttribute.Spell.cons {a : SourceAttribute} {place : Nat} {rest gap : List Char}
    {views : List Attribute} {as : List SourceAttribute}
    (h : SourceAttribute.Spell ((a.key, place) :: seen) rest views as gap)
    (ha : a.isWellFormed = true) (hunseen : seen.lookup a.key = none) :
    SourceAttribute.Spell seen (a.chars ++ rest) (a.view?.toList ++ views) (a :: as) gap where
  chars_eq := by rw [h.chars_eq, List.flatMap_cons, List.append_assoc]
  blank := h.blank
  isWellFormed := by rw [List.all_cons, ha, h.isWellFormed, Bool.and_self]
  nodup := by
    rw [List.map_cons, List.nodup_cons]
    refine ⟨fun hmem => ?_, h.nodup⟩
    obtain ⟨b, hb, heq⟩ := List.mem_map.mp hmem
    exact (lookup_cons_eq_none.mp (h.unseen b hb)).1 heq
  unseen := by
    intro b hb
    rcases List.mem_cons.mp hb with rfl | hb
    · exact hunseen
    · exact (lookup_cons_eq_none.mp (h.unseen b hb)).2
  views_eq := by cases hview : a.view? <;> simp [hview, h.views_eq]

theorem exists_of_attributesFrom {size : Nat} : ∀ {fuel offset : Nat}
    {seen : List (List Char × Nat)} {cs : List Char} {views : List Attribute},
    cs.length ≤ fuel → attributesFrom size fuel seen offset cs = .ok views →
      ∃ as gap, SourceAttribute.Spell seen cs views as gap := by
  intro fuel
  induction fuel with
  | zero =>
    intro offset seen cs views hfuel h
    obtain rfl := List.eq_nil_of_length_eq_zero (Nat.le_zero.mp hfuel)
    cases h
    exact ⟨[], [], .of_blank rfl⟩
  | succ fuel ih =>
    intro offset seen cs views hfuel h
    unfold attributesFrom at h
    split at h
    · cases h
    · next hnext =>
      cases h
      exact ⟨[], cs, .of_blank (blank_of_nextAttribute hnext)⟩
    · next raw hnext =>
      obtain ⟨a, ha, hkey, hvalue, rfl, hseen⟩ := exists_of_nextAttribute hnext
      have hlength : raw.rest.length ≤ fuel := by
        rw [List.length_append] at hfuel
        have := a.length_chars_pos
        omega
      have hwellFormed : (isReservedKey a.key || (unescape a.value).isOk) = true →
          a.isWellFormed = true := by
        intro hresolves
        simp only [SourceAttribute.isWellFormed, ha, hresolves, decide_true, Bool.and_self]
      rw [← hkey, ← hvalue] at h
      simp only at h
      split at h
      · next hreserved =>
        obtain ⟨as, gap, hrest⟩ := ih hlength h
        have hview : a.view?.toList ++ views = views := by simp [SourceAttribute.view?, hreserved]
        rw [← hview]
        exact ⟨a :: as, gap, hrest.cons (hwellFormed (by rw [hreserved]; rfl)) hseen⟩
      · next hreserved =>
        split at h
        · cases h
        · next value hunescape =>
          obtain ⟨further, hfurther, rfl⟩ := exists_of_map_eq_ok h
          obtain ⟨as, gap, hrest⟩ := ih hlength hfurther
          have hview : a.view?.toList ++ further =
              ⟨(splitRawName a.key).1, (splitRawName a.key).2, .ofList value⟩ :: further := by
            simp [SourceAttribute.view?, hreserved, hunescape, Except.toOption]
          rw [← hview]
          have hok : (unescape a.value).isOk = true := by rw [hunescape]; rfl
          exact ⟨a :: as, gap, hrest.cons (hwellFormed (by rw [hok, Bool.or_true])) hseen⟩

end Attributes

namespace SourceTag

variable {tag : SourceTag}

theorem isWellFormed_iff : tag.isWellFormed = true ↔
    tag.name.all (!isSpace ·) = true ∧ tag.behindName.head?.all isSpace = true ∧
      tag.attributes.all SourceAttribute.isWellFormed = true ∧ tag.gap.all isSpace = true ∧
      (tag.attributes.map (·.key)).Nodup := by
  simp only [isWellFormed, Bool.and_eq_true, decide_eq_true_eq, and_assoc]

theorem rawName_chars (h : tag.isWellFormed = true) : rawName tag.chars = tag.name := by
  obtain ⟨hname, hbehind, -⟩ := isWellFormed_iff.mp h
  unfold rawName chars
  cases heq : tag.behindName with
  | nil =>
    rw [List.takeWhile_append_of_pos (List.all_eq_true.mp hname)]
    simp
  | cons c rest =>
    rw [heq] at hbehind
    apply takeWhile_append_cons hname
    simpa using hbehind

theorem ofContent_chars (h : tag.isWellFormed = true) (selfClosing : Bool) :
    StartTag.ofContent tag.chars selfClosing = .ok (tag.view selfClosing) := by
  obtain ⟨-, -, has, hgap, hnodup⟩ := isWellFormed_iff.mp h
  have hlength : tag.attributes.length ≤ tag.chars.length := by
    have hflat : ∀ as : List SourceAttribute,
        as.length ≤ (as.flatMap SourceAttribute.chars).length := by
      intro as
      induction as with
      | nil => exact Nat.le_refl _
      | cons a rest ih =>
        have := a.length_chars_pos
        rw [List.flatMap_cons, List.length_append, List.length_cons]
        omega
    have := hflat tag.attributes
    simp only [chars, behindName, List.length_append]
    omega
  have hdrop : tag.chars.drop tag.name.length = tag.behindName := List.drop_left
  simp only [StartTag.ofContent, rawName_chars h, hdrop]
  rw [behindName, attributesFrom_chars _ has hgap _ _ [] hlength hnodup fun _ _ => rfl]
  rfl

theorem exists_of_ofContent {content : List Char} {selfClosing : Bool} {found : StartTag}
    (h : StartTag.ofContent content selfClosing = .ok found) :
    ∃ tag : SourceTag, tag.isWellFormed = true ∧ tag.chars = content ∧
      tag.view selfClosing = found := by
  have hsplit := List.takeWhile_append_dropWhile (p := (!isSpace ·)) (l := content)
  unfold StartTag.ofContent at h
  simp only [rawName, drop_takeWhile] at h
  obtain ⟨views, hviews, rfl⟩ := exists_of_map_eq_ok h
  have hlength : (content.dropWhile (!isSpace ·)).length ≤ content.length :=
    (content.dropWhile_suffix _).length_le
  obtain ⟨as, gap, hbehind, hgap, has, hnodup, -, rfl⟩ := exists_of_attributesFrom hlength hviews
  refine ⟨⟨content.takeWhile (!isSpace ·), as, gap⟩, ?_, ?_, rfl⟩
  · refine isWellFormed_iff.mpr ⟨List.all_takeWhile, ?_, has, hgap, hnodup⟩
    simp only [behindName, ← hbehind]
    have hhead := List.head?_dropWhile_not (!isSpace ·) content
    cases heq : (content.dropWhile (!isSpace ·)).head? with
    | none => rfl
    | some c =>
      rw [heq] at hhead
      simpa using hhead
  · simp only [chars, behindName, ← hbehind, hsplit]

end SourceTag

end TableJoin.Markup
