import TableJoin.Proofs.Markup.Token

/-!
The characters that a token takes decide about it alone: they are the same token
in front of anything else.
-/

namespace TableJoin.Text

/-- What stands behind a character that the mark lacks does not matter to whether
the text begins with the mark. -/
theorem isPrefixOf_append_cons {mark : List Char} {d : Char} (h : d ∉ mark)
    (cs more more' : List Char) :
    mark.isPrefixOf (cs ++ d :: more) = mark.isPrefixOf (cs ++ d :: more') := by
  induction mark generalizing cs with
  | nil => rfl
  | cons m mark ih =>
    obtain ⟨hne, hmark⟩ := not_or.mp (mt List.mem_cons.mpr h)
    cases cs with
    | nil =>
      have hbeq : (m == d) = false := beq_eq_false_iff_ne.mpr (Ne.symm hne)
      simp only [List.nil_append, List.isPrefixOf, hbeq, Bool.false_and]
    | cons c cs => simp only [List.cons_append, List.isPrefixOf, ih hmark]

/-- A text is cut at the first mark, whatever follows it. -/
theorem cutAt_spec {mark cs before after : List Char} (hmark : mark ≠ [])
    (h : cutAt mark cs = some (before, after)) :
    cs = before ++ (mark ++ after) ∧
      ∀ more, cutAt mark (before ++ (mark ++ more)) = some (before, more) := by
  induction cs generalizing before after with
  | nil => cases h
  | cons c cs ih =>
    unfold cutAt at h
    split at h
    · next hprefix =>
      cases h
      obtain ⟨rest, hrest⟩ := List.isPrefixOf_iff_prefix.mp hprefix
      refine ⟨by rw [← hrest, List.drop_left, List.nil_append], fun more => ?_⟩
      obtain ⟨m, ms, rfl⟩ := List.exists_cons_of_ne_nil hmark
      simp [cutAt]
    · next hprefix =>
      obtain ⟨⟨b, a⟩, hcut, heq⟩ := Option.map_eq_some_iff.mp h
      cases heq
      obtain ⟨hcs, hmore⟩ := ih hcut
      refine ⟨by rw [hcs, List.cons_append], fun more => ?_⟩
      have hlate : ¬ mark.isPrefixOf (c :: (b ++ (mark ++ more))) = true := by
        intro hearly
        apply hprefix
        rw [List.isPrefixOf_iff_prefix] at hearly ⊢
        have hlength : mark.length ≤ (c :: (b ++ mark)).length := by
          simp only [List.length_cons, List.length_append]
          omega
        have hwithin : mark <+: c :: (b ++ mark) := by
          refine List.prefix_of_prefix_length_le hearly ⟨more, ?_⟩ hlength
          simp only [List.cons_append, List.append_assoc]
        refine hwithin.trans ⟨after, ?_⟩
        rw [hcs]
        simp only [List.cons_append, List.append_assoc]
      rw [List.cons_append, cutAt, if_neg hlate, hmore]
      rfl

/-- A mark that does not occur before is found where it stands. -/
theorem cutAt_singleton {q : Char} {cs : List Char} (h : ∀ c ∈ cs, c ≠ q) (rest : List Char) :
    cutAt [q] (cs ++ q :: rest) = some (cs, rest) := by
  induction cs with
  | nil => simp [cutAt]
  | cons c cs ih =>
    have hne : q ≠ c := (h c List.mem_cons_self).symm
    have htail := ih fun d hd => h d (List.mem_cons_of_mem c hd)
    simp [cutAt, hne, htail]

theorem not_mem_of_cutAt_singleton {q : Char} {cs before after : List Char}
    (h : cutAt [q] cs = some (before, after)) : q ∉ before := by
  induction cs generalizing before with
  | nil => cases h
  | cons c cs ih =>
    unfold cutAt at h
    split at h
    · cases h
      exact List.not_mem_nil
    · next hprefix =>
      obtain ⟨⟨b, a⟩, hcut, heq⟩ := Option.map_eq_some_iff.mp h
      cases heq
      have hne : q ≠ c := by
        rintro rfl
        exact hprefix (by simp)
      simp only [List.mem_cons, hne, ih hcut, or_self, not_false_eq_true]

/-- A text is cut at a mark that does not begin before. -/
theorem cutAt_of_not_infix {mark : List Char} (hmark : mark ≠ []) {before : List Char}
    (h : ¬ mark <:+: before ++ mark.dropLast) (more : List Char) :
    cutAt mark (before ++ (mark ++ more)) = some (before, more) := by
  induction before with
  | nil =>
    obtain ⟨m, ms, rfl⟩ := List.exists_cons_of_ne_nil hmark
    simp [cutAt]
  | cons c before ih =>
    have hlate : ¬ mark.isPrefixOf (c :: (before ++ (mark ++ more))) = true := by
      intro hearly
      apply h
      rw [List.isPrefixOf_iff_prefix] at hearly
      have hlength : mark.length ≤ (c :: before ++ mark.dropLast).length := by
        simp only [List.length_append, List.length_cons, List.length_dropLast]
        omega
      refine (List.prefix_of_prefix_length_le hearly ?_ hlength).isInfix
      obtain ⟨rest, hrest⟩ := List.dropLast_prefix mark
      have hmarked : mark.dropLast ++ (rest ++ more) = mark ++ more := by
        rw [← List.append_assoc, hrest]
      exact ⟨rest ++ more, by rw [List.append_assoc, hmarked]; rfl⟩
    have htail : ¬ mark <:+: before ++ mark.dropLast :=
      fun hwithin => h (hwithin.trans (List.suffix_cons c _).isInfix)
    rw [List.cons_append, cutAt, if_neg hlate, ih htail]
    rfl

end TableJoin.Text

namespace TableJoin.Markup

open Text

/-- A tag ends with the first `>` outside quotation marks, whatever follows it. -/
theorem cutTag_spec {quote : Option Char} {cs before after : List Char}
    (h : cutTag quote cs = .ok (before, after)) :
    cs = before ++ '>' :: after ∧
      ∀ more, cutTag quote (before ++ '>' :: more) = .ok (before, more) := by
  induction cs generalizing quote before after with
  | nil => cases h
  | cons c cs ih =>
    cases quote with
    | some q =>
      obtain ⟨⟨b, a⟩, hcut, heq⟩ := exists_of_map_eq_ok h
      cases heq
      obtain ⟨hcs, hmore⟩ := ih hcut
      refine ⟨by rw [hcs, List.cons_append], fun more => ?_⟩
      rw [List.cons_append, cutTag, hmore]
      rfl
    | none =>
      unfold cutTag at h
      simp only at h
      split at h
      · next hc =>
        cases h
        exact ⟨by rw [hc]; rfl, fun more => rfl⟩
      · next hc =>
        obtain ⟨⟨b, a⟩, hcut, heq⟩ := exists_of_map_eq_ok h
        cases heq
        obtain ⟨hcs, hmore⟩ := ih hcut
        refine ⟨by rw [hcs, List.cons_append], fun more => ?_⟩
        rw [List.cons_append, cutTag]
        simp only [hc, ↓reduceIte, hmore]
        rfl

theorem tagContent_spec {cs content after : List Char}
    (h : tagContent cs = .ok (content, after)) :
    cs = content ++ '>' :: after ∧
      ∀ more, tagContent (content ++ '>' :: more) = .ok (content, more) := by
  unfold tagContent at h ⊢
  cases hcut : cutTag none cs with
  | error quote => rw [hcut] at h; cases h
  | ok found =>
    rw [hcut] at h
    cases h
    obtain ⟨hcs, hmore⟩ := cutTag_spec hcut
    exact ⟨hcs, fun more => by rw [hmore]; rfl⟩

/-- What follows the first declaration, comment or instruction of an internal subset,
given what follows its `<`. -/
def afterDeclaration (rest : List Char) : Option (List Char) :=
  if "!--".toList.isPrefixOf rest then (cutAt "-->".toList (rest.drop 3)).map (·.2)
  else if "?".toList.isPrefixOf rest then (cutAt "?>".toList rest).map (·.2)
  else if ["!ENTITY", "!ATTLIST", "!NOTATION"].any (·.toList.isPrefixOf rest) then
    (cutTag none rest).toOption.map (·.2)
  else (cutAt ['>'] rest).map (·.2)

theorem afterSubset_succ (fuel : Nat) (cs : List Char) :
    afterSubset (fuel + 1) cs =
      match cs.dropWhile fun c => c != ']' && c != '<' with
      | ']' :: rest => some rest
      | '<' :: rest => (afterDeclaration rest).bind (afterSubset fuel)
      | _ => none := rfl

/-- Where the keyword of a declaration is not looked at behind its `>`, neither is
anything else. -/
theorem afterDeclaration_congr (w more more' : List Char) :
    "!--".toList.isPrefixOf (w ++ '>' :: more) = "!--".toList.isPrefixOf (w ++ '>' :: more') ∧
      "?".toList.isPrefixOf (w ++ '>' :: more) = "?".toList.isPrefixOf (w ++ '>' :: more') ∧
      (["!ENTITY", "!ATTLIST", "!NOTATION"].any (·.toList.isPrefixOf (w ++ '>' :: more))) =
        ["!ENTITY", "!ATTLIST", "!NOTATION"].any (·.toList.isPrefixOf (w ++ '>' :: more')) := by
  refine ⟨isPrefixOf_append_cons (by decide) w more more',
    isPrefixOf_append_cons (by decide) w more more', ?_⟩
  simp only [List.any_cons, List.any_nil]
  rw [isPrefixOf_append_cons (by decide) w more more',
    isPrefixOf_append_cons (by decide) w more more',
    isPrefixOf_append_cons (by decide) w more more']

section Declaration

variable {cs after : List Char}

theorem afterDeclaration_comment (hcomment : "!--".toList.isPrefixOf cs = true)
    (h : (cutAt "-->".toList (cs.drop 3)).map (·.2) = some after) :
    ∃ own, cs = own ++ after ∧ ∀ more, afterDeclaration (own ++ more) = some more := by
  obtain ⟨⟨body, a⟩, hcut, rfl⟩ := Option.map_eq_some_iff.mp h
  obtain ⟨hdrop, hmore⟩ := cutAt_spec (by decide) hcut
  obtain ⟨rest, hrest⟩ := List.isPrefixOf_iff_prefix.mp hcomment
  have hbody : cs.drop 3 = rest := by rw [← hrest]; rfl
  refine ⟨"!--".toList ++ (body ++ "-->".toList), ?_, fun more => ?_⟩
  · rw [← hrest, ← hbody, hdrop]
    simp only [List.append_assoc]
  · simp only [List.append_assoc]
    have hdropped : ("!--".toList ++ (body ++ ("-->".toList ++ more))).drop 3 =
        body ++ ("-->".toList ++ more) := rfl
    rw [afterDeclaration, if_pos (by simp), hdropped, hmore]
    rfl

theorem afterDeclaration_instruction (hcomment : ¬ "!--".toList.isPrefixOf cs = true)
    (hinstruction : "?".toList.isPrefixOf cs = true)
    (h : (cutAt "?>".toList cs).map (·.2) = some after) :
    ∃ own, cs = own ++ after ∧ ∀ more, afterDeclaration (own ++ more) = some more := by
  obtain ⟨⟨body, a⟩, hcut, rfl⟩ := Option.map_eq_some_iff.mp h
  obtain ⟨hcs, hmore⟩ := cutAt_spec (by decide) hcut
  have hends : ∀ more, body ++ ("?>".toList ++ more) = (body ++ ['?']) ++ '>' :: more := by
    simp
  refine ⟨body ++ "?>".toList, by rw [hcs, List.append_assoc], fun more => ?_⟩
  have hsame := afterDeclaration_congr (body ++ ['?']) more a
  rw [← hends, ← hends, ← hcs] at hsame
  rw [List.append_assoc, afterDeclaration, hsame.1, hsame.2.1, if_neg hcomment,
    if_pos hinstruction, hmore]
  rfl

/-- Any other declaration ends with a `>` that its keyword does not hold. -/
theorem afterDeclaration_closed {body : List Char} (hcs : cs = body ++ '>' :: after)
    (hcomment : ¬ "!--".toList.isPrefixOf cs = true)
    (hinstruction : ¬ "?".toList.isPrefixOf cs = true)
    (hmore : ∀ more, (if ["!ENTITY", "!ATTLIST", "!NOTATION"].any (·.toList.isPrefixOf cs) then
        (cutTag none (body ++ '>' :: more)).toOption.map (·.2)
      else (cutAt ['>'] (body ++ '>' :: more)).map (·.2)) = some more) :
    ∃ own, cs = own ++ after ∧ ∀ more, afterDeclaration (own ++ more) = some more := by
  refine ⟨body ++ ['>'], by rw [hcs]; simp, fun more => ?_⟩
  obtain ⟨hcomment', hinstruction', hquoted⟩ := afterDeclaration_congr body more after
  rw [← hcs] at hcomment' hinstruction' hquoted
  rw [List.append_assoc, List.singleton_append, afterDeclaration, hcomment', hinstruction',
    hquoted, if_neg hcomment, if_neg hinstruction]
  exact hmore more

theorem afterDeclaration_spec (h : afterDeclaration cs = some after) :
    ∃ own, cs = own ++ after ∧ ∀ more, afterDeclaration (own ++ more) = some more := by
  unfold afterDeclaration at h
  split at h
  · next hcomment => exact afterDeclaration_comment hcomment h
  · next hcomment =>
    split at h
    · next hinstruction => exact afterDeclaration_instruction hcomment hinstruction h
    · next hinstruction =>
      split at h
      · next hquoted =>
        obtain ⟨⟨body, a⟩, hcut, rfl⟩ := Option.map_eq_some_iff.mp h
        cases htag : cutTag none cs with
        | error e => rw [htag] at hcut; cases hcut
        | ok found =>
          rw [htag] at hcut
          cases hcut
          obtain ⟨hcs, hmore⟩ := cutTag_spec htag
          refine afterDeclaration_closed hcs hcomment hinstruction fun more => ?_
          rw [if_pos hquoted, hmore]
          rfl
      · next hquoted =>
        obtain ⟨⟨body, a⟩, hcut, rfl⟩ := Option.map_eq_some_iff.mp h
        obtain ⟨hcs, hmore⟩ := cutAt_spec (by decide) hcut
        refine afterDeclaration_closed hcs hcomment hinstruction fun more => ?_
        rw [if_neg hquoted]
        exact congrArg (Option.map (·.2)) (hmore more)

end Declaration

/-- An internal subset ends where it ends, given fuel for its own characters. -/
theorem afterSubset_spec {fuel : Nat} : ∀ {cs after : List Char},
    afterSubset fuel cs = some after →
      ∃ own, cs = own ++ after ∧
        ∀ (more : List Char) (fuel' : Nat), own.length ≤ fuel' →
          afterSubset fuel' (own ++ more) = some more := by
  induction fuel with
  | zero => intro cs after h; cases h
  | succ fuel ih =>
    intro cs after h
    rw [afterSubset_succ] at h
    have hcs := List.takeWhile_append_dropWhile (p := fun c => c != ']' && c != '<') (l := cs)
    have hskip := List.all_eq_true.mp (List.all_takeWhile (p := fun c => c != ']' && c != '<') (l := cs))
    generalize cs.takeWhile (fun c => c != ']' && c != '<') = skipped at hcs hskip
    split at h
    · next rest heq =>
      cases h
      rw [heq] at hcs
      refine ⟨skipped ++ [']'], by rw [← hcs]; simp, fun more fuel' hfuel => ?_⟩
      cases fuel' with
      | zero => simp at hfuel
      | succ fuel' =>
        rw [afterSubset_succ, List.append_assoc, List.dropWhile_append_of_pos hskip]
        rfl
    · next rest heq =>
      rw [heq] at hcs
      obtain ⟨next, hnext, hafter⟩ := Option.bind_eq_some_iff.mp h
      obtain ⟨own, hown, hstable⟩ := afterDeclaration_spec hnext
      obtain ⟨own', hown', hstable'⟩ := ih hafter
      refine ⟨skipped ++ '<' :: (own ++ own'), ?_, fun more fuel' hfuel => ?_⟩
      · rw [← hcs, hown, hown']
        simp only [List.append_assoc, List.cons_append]
      · cases fuel' with
        | zero => simp at hfuel
        | succ fuel' =>
          simp only [List.length_append, List.length_cons] at hfuel
          rw [afterSubset_succ, List.append_assoc, List.dropWhile_append_of_pos hskip]
          have hdrop : (('<' :: (own ++ own') ++ more).dropWhile fun c => c != ']' && c != '<') =
              '<' :: (own ++ (own' ++ more)) := by
            simp
          rw [hdrop]
          simp only
          rw [hstable, Option.bind_some, hstable' more fuel' (by omega)]
    · cases h

theorem afterDoctype_spec {quote : Option Char} {cs after : List Char}
    (h : afterDoctype quote cs = some after) :
    ∃ own, cs = own ++ '>' :: after ∧
      ∀ more, afterDoctype quote (own ++ '>' :: more) = some more := by
  induction cs generalizing quote with
  | nil => cases h
  | cons c cs ih =>
    cases quote with
    | some q =>
      obtain ⟨own, hown, hmore⟩ := ih h
      exact ⟨c :: own, by rw [hown]; rfl, fun more => hmore more⟩
    | none =>
      unfold afterDoctype at h
      simp only at h
      split at h
      · next hc =>
        cases h
        exact ⟨[], by rw [hc]; rfl, fun more => rfl⟩
      · next hclose =>
        split at h
        · next hopen =>
          obtain ⟨rest, hsubset, hcut⟩ := Option.bind_eq_some_iff.mp h
          obtain ⟨own, hown, hmore⟩ := afterSubset_spec hsubset
          obtain ⟨⟨gap, a⟩, hclosed, rfl⟩ := Option.map_eq_some_iff.mp hcut
          obtain ⟨hrest, hmore'⟩ := cutAt_spec (by decide) hclosed
          refine ⟨c :: (own ++ gap), by rw [hown, hrest]; simp, fun more => ?_⟩
          have hsplit : c :: (own ++ gap) ++ '>' :: more = c :: (own ++ (gap ++ (['>'] ++ more))) := by
            simp
          have hlength : own.length ≤ (own ++ (gap ++ (['>'] ++ more))).length := by
            simp only [List.length_append]
            omega
          rw [hsplit, afterDoctype]
          simp only [hopen, ↓reduceIte]
          rw [hmore _ _ hlength, Option.bind_some, hmore']
          rfl
        · next hopen =>
          obtain ⟨own, hown, hmore⟩ := ih h
          refine ⟨c :: own, by rw [hown]; rfl, fun more => ?_⟩
          rw [List.cons_append, afterDoctype]
          simp only [hclose, hopen, ↓reduceIte, hmore]

theorem doctype_spec {cs after : List Char} (h : doctype cs = .ok after) :
    ∃ own, cs = own ++ '>' :: after ∧ ∀ more, doctype (own ++ '>' :: more) = .ok more := by
  unfold doctype at h
  simp only at h
  split at h
  · next hkeyword =>
    have hlength : (cs.take "DOCTYPE".toList.length).length = "DOCTYPE".toList.length := by
      rw [← List.length_map Char.toUpper, hkeyword]
    split at h
    · cases h
    · next rest hdoctype =>
      split at h
      · cases h
      · next hnamed =>
        cases h
        obtain ⟨own, hown, hmore⟩ := afterDoctype_spec hdoctype
        refine ⟨cs.take "DOCTYPE".toList.length ++ own, ?_, fun more => ?_⟩
        · rw [List.append_assoc, ← hown, List.take_append_drop]
        · have htake : (cs.take "DOCTYPE".toList.length ++ (own ++ '>' :: more)).take
              "DOCTYPE".toList.length = cs.take "DOCTYPE".toList.length := List.take_left' hlength
          have hdrop : (cs.take "DOCTYPE".toList.length ++ (own ++ '>' :: more)).drop
              "DOCTYPE".toList.length = own ++ '>' :: more := List.drop_left' hlength
          -- The `>` is no space, so what the declaration begins with stands before it.
          have hhead : ((own ++ '>' :: more).dropWhile isSpace).head? =
              ((own ++ '>' :: after).dropWhile isSpace).head? := by
            clear hown hmore hdoctype htake hdrop
            induction own with
            | nil => rfl
            | cons c own ih =>
              by_cases hc : isSpace c = true
              · simpa [hc] using ih
              · simp [hc]
          rw [hown] at hnamed
          unfold doctype
          simp only [List.append_assoc, htake, hkeyword, hdrop, hmore, hhead, hnamed, ↓reduceIte]
  · cases h

theorem instruction_spec {cs after : List Char} (h : instruction cs = .ok after) :
    ∃ own, cs = own ++ after ∧ ∀ more, instruction (own ++ more) = .ok more := by
  unfold instruction at h
  split at h
  · cases h
  · next before rest hne hcut =>
    cases h
    obtain ⟨hcs, hmore⟩ := cutAt_spec (by decide) hcut
    refine ⟨before ++ "?>".toList, by rw [hcs, List.append_assoc], fun more => ?_⟩
    rw [List.append_assoc, instruction, hmore]
    split
    · next heq =>
      cases heq
      exact absurd rfl hne
    · next heq => cases heq; rfl
    · next heq => cases heq
  · simp only at h
    split at h <;> cases h

section Bang

variable {cs after : List Char}

theorem bang_comment {body before : List Char}
    (h : cutAt "-->".toList body = some (before, after)) :
    ∃ own, '-' :: '-' :: body = own ++ after ∧ ∀ more, bang (own ++ more) = .ok (.aside, more) := by
  obtain ⟨hbody, hmore⟩ := cutAt_spec (by decide) h
  refine ⟨'-' :: '-' :: (before ++ "-->".toList), by rw [hbody]; simp, fun more => ?_⟩
  simp only [List.cons_append, List.append_assoc, bang, hmore]

theorem bang_data {rest data : List Char} (hkeyword : "CDATA[".toList.isPrefixOf rest = true)
    (h : cutAt "]]>".toList (rest.drop 6) = some (data, after)) :
    '[' :: rest = "[CDATA[".toList ++ (data ++ "]]>".toList) ++ after ∧
      ∀ more, bang ("[CDATA[".toList ++ (data ++ "]]>".toList) ++ more) =
        .ok (.text data, more) := by
  obtain ⟨hdata, hmore⟩ := cutAt_spec (by decide) h
  obtain ⟨t, ht⟩ := List.isPrefixOf_iff_prefix.mp hkeyword
  have hdrop : rest.drop 6 = t := by rw [← ht]; rfl
  have hsplit : ∀ more, "[CDATA[".toList ++ (data ++ "]]>".toList) ++ more =
      '[' :: ("CDATA[".toList ++ (data ++ ("]]>".toList ++ more))) := by
    intro more
    simp
  constructor
  · rw [hsplit, ← hdata, hdrop, ht]
  · intro more
    have hdropped : ("CDATA[".toList ++ (data ++ ("]]>".toList ++ more))).drop 6 =
        data ++ ("]]>".toList ++ more) := rfl
    rw [hsplit]
    simp only [bang, hdropped, hmore]
    rw [if_pos (by simp)]

/-- The letter that a declaration of the type begins with begins no other markup. -/
theorem bang_doctype {c : Char} {body : List Char} (hc : c = 'D' ∨ c = 'd')
    (h : doctype (c :: body) = .ok after) :
    ∃ own, c :: body = own ++ after ∧ ∀ more, bang (own ++ more) = .ok (.aside, more) := by
  obtain ⟨own, hown, hmore⟩ := doctype_spec h
  refine ⟨own ++ ['>'], by rw [hown]; simp, fun more => ?_⟩
  have hstep := hmore more
  cases own with
  | nil =>
    obtain ⟨rfl, -⟩ := List.cons.inj hown
    simp at hc
  | cons c' own =>
    obtain ⟨rfl, -⟩ : c = c' ∧ _ := List.cons.inj hown
    rw [List.append_assoc, List.singleton_append, List.cons_append]
    rw [List.cons_append] at hstep
    rw [bang]
    · rw [if_pos hc, hstep]
      rfl
    · rintro rfl
      simp at hc
    · rintro rfl
      simp at hc

theorem bang_spec {token : Token} (h : bang cs = .ok (token, after)) :
    ∃ own, cs = own ++ after ∧ (∀ more, bang (own ++ more) = .ok (token, more)) ∧
      (token = .aside ∨
        ∃ data, token = .text data ∧ own = "[CDATA[".toList ++ (data ++ "]]>".toList)) := by
  unfold bang at h
  split at h
  · next rest =>
    split at h
    · next body =>
      split at h
      · next before rest' hcut =>
        cases h
        obtain ⟨own, hown, hmore⟩ := bang_comment hcut
        exact ⟨own, hown, hmore, .inl rfl⟩
      · cases h
    · cases h
  · next rest =>
    split at h
    · next hkeyword =>
      split at h
      · next data rest' hcut =>
        cases h
        obtain ⟨hown, hmore⟩ := bang_data hkeyword hcut
        exact ⟨_, hown, hmore, .inr ⟨data, rfl, rfl⟩⟩
      · cases h
    · cases h
  · next c body hdash hbracket =>
    split at h
    · next hc =>
      obtain ⟨a, hdoctype, heq⟩ := exists_of_map_eq_ok h
      cases heq
      obtain ⟨own, hown, hmore⟩ := bang_doctype hc hdoctype
      exact ⟨own, hown, hmore, .inl rfl⟩
    · cases h
  · cases h

end Bang

def Token.IsWritten : Token → List Char → Prop
  | .text data, own => own = "<![CDATA[".toList ++ (data ++ "]]>".toList)
  | .reference name, own => own = '&' :: (name ++ [';'])
  | .startTag content, own => own = '<' :: (content ++ ['>'])
  | .emptyTag content, own => own = '<' :: (content ++ "/>".toList)
  | .endTag name, own => ∃ close, own = '<' :: '/' :: (close ++ ['>']) ∧ endName close = name
  | .aside, own => own.head? = some '<'

/-- A tag that no other markup begins like opens an element. -/
theorem nextToken_openTag {content more : List Char}
    (h : tagContent (content ++ '>' :: more) = .ok (content, more))
    (hfirst : ∀ c ∈ content.head?, c ≠ '!' ∧ c ≠ '?' ∧ c ≠ '/') :
    nextToken ('<' :: (content ++ '>' :: more)) =
      .ok (some (if content.getLast? = some '/' then .emptyTag content.dropLast
        else .startTag content, more)) := by
  cases content with
  | nil => rfl
  | cons c content =>
    obtain ⟨hbang, hinstruction, hend⟩ := hfirst c rfl
    rw [List.cons_append] at h ⊢
    rw [nextToken]
    · rw [h]
      simp only [Except.map]
      split <;> rfl
    · exact fun body heq => hbang (List.cons.inj heq).1
    · exact fun body heq => hinstruction (List.cons.inj heq).1
    · exact fun body heq => hend (List.cons.inj heq).1

theorem nextToken_closedReference {name : List Char}
    (h : ∀ c ∈ name, (c != ';' && c != '&' && c != '<') = true) (more : List Char) :
    nextToken ('&' :: (name ++ ';' :: more)) = .ok (some (.reference name, more)) := by
  have htake : (name ++ ';' :: more).takeWhile (fun c => c != ';' && c != '&' && c != '<') =
      name := by
    rw [List.takeWhile_append_of_pos h]
    simp
  simp only [nextToken, htake, List.drop_left]

/-- The characters are those of the token, which are the same token in front of anything, and the
rest. -/
def Token.StandsBefore (token : Token) (rest cs : List Char) : Prop :=
  ∃ own, cs = own ++ rest ∧ token.IsWritten own ∧
    ∀ more, nextToken (own ++ more) = .ok (some (token, more))

namespace Token.StandsBefore

variable {token : Token} {body rest : List Char}

/-- A comment, a section of characters or a declaration of the type. -/
theorem of_bang (h : bang body = .ok (token, rest)) :
    token.StandsBefore rest ('<' :: '!' :: body) := by
  obtain ⟨own, hown, hmore, hkind⟩ := bang_spec h
  refine ⟨'<' :: '!' :: own, by rw [hown]; rfl, ?_, fun more => ?_⟩
  · rcases hkind with rfl | ⟨data, rfl, rfl⟩ <;> rfl
  · rw [List.cons_append, List.cons_append, nextToken]
    simp only [hmore]
    rfl

theorem of_instruction (h : instruction ('?' :: body) = .ok rest) :
    Token.aside.StandsBefore rest ('<' :: '?' :: body) := by
  obtain ⟨own, hown, hmore⟩ := instruction_spec h
  refine ⟨'<' :: own, by rw [hown]; rfl, rfl, fun more => ?_⟩
  cases own with
  | nil => cases hmore []
  | cons c own =>
    obtain ⟨rfl, -⟩ := List.cons.inj hown
    have hstep := hmore more
    rw [List.cons_append] at hstep
    rw [List.cons_append, List.cons_append, nextToken]
    simp only [hstep]
    rfl

theorem of_endTag {content : List Char} (h : tagContent body = .ok (content, rest)) :
    (Token.endTag (endName content)).StandsBefore rest ('<' :: '/' :: body) := by
  obtain ⟨hcs, hmore⟩ := tagContent_spec h
  refine ⟨'<' :: '/' :: (content ++ ['>']), by rw [hcs]; simp, ⟨content, rfl, rfl⟩,
    fun more => ?_⟩
  rw [List.cons_append, List.cons_append, List.append_assoc, List.singleton_append, nextToken]
  simp only [hmore]
  rfl

/-- A tag that opens an element, which the tag itself may close. -/
theorem of_openTag {content : List Char} (h : tagContent body = .ok (content, rest))
    (hfirst : ∀ c ∈ body.head?, c ≠ '!' ∧ c ≠ '?' ∧ c ≠ '/') :
    (if content.getLast? = some '/' then Token.emptyTag content.dropLast
      else .startTag content).StandsBefore rest ('<' :: body) := by
  obtain ⟨hcs, hmore⟩ := tagContent_spec h
  have hcontent : ∀ c ∈ content.head?, c ≠ '!' ∧ c ≠ '?' ∧ c ≠ '/' := by
    intro c hc
    obtain ⟨tail, rfl⟩ := List.head?_eq_some_iff.mp hc
    exact hfirst c (by rw [hcs]; rfl)
  have hopen := fun more => nextToken_openTag (hmore more) hcontent
  split
  · next hslash =>
    simp only [hslash, ↓reduceIte] at hopen
    obtain ⟨init, rfl⟩ := List.getLast?_eq_some_iff.mp hslash
    refine ⟨'<' :: (init ++ "/>".toList), by rw [hcs]; simp, by simp [Token.IsWritten],
      fun more => ?_⟩
    simpa using hopen more
  · next hslash =>
    simp only [hslash, ↓reduceIte] at hopen
    refine ⟨'<' :: (content ++ ['>']), by rw [hcs]; simp, rfl, fun more => ?_⟩
    simpa using hopen more

theorem of_reference {name : List Char}
    (hname : body.takeWhile (fun c => c != ';' && c != '&' && c != '<') = name)
    (h : body.drop name.length = ';' :: rest) :
    (Token.reference name).StandsBefore rest ('&' :: body) := by
  have hbody := List.takeWhile_append_dropWhile
    (p := fun c => c != ';' && c != '&' && c != '<') (l := body)
  rw [← drop_takeWhile, hname, h] at hbody
  have hall := List.all_eq_true.mp
    (List.all_takeWhile (p := fun c => c != ';' && c != '&' && c != '<') (l := body))
  rw [hname] at hall
  refine ⟨'&' :: (name ++ [';']), by rw [← hbody]; simp, rfl, fun more => ?_⟩
  simpa using nextToken_closedReference hall more

end Token.StandsBefore

theorem nextToken_spec {c : Char} {body rest : List Char} {token : Token}
    (hc : isPlain c = false) (h : nextToken (c :: body) = .ok (some (token, rest))) :
    token.StandsBefore rest (c :: body) := by
  unfold nextToken at h
  split at h
  · next heq => cases heq
  · next heq =>
    cases heq
    split at h
    · next body =>
      obtain ⟨⟨t, after⟩, hbang, heq⟩ := exists_of_map_eq_ok h
      cases heq
      exact .of_bang hbang
    · next body =>
      obtain ⟨after, hinstruction, heq⟩ := exists_of_map_eq_ok h
      cases heq
      exact .of_instruction hinstruction
    · next body =>
      obtain ⟨⟨content, after⟩, htag, heq⟩ := exists_of_map_eq_ok h
      cases heq
      exact .of_endTag htag
    · next hbang hinstruction hend =>
      obtain ⟨⟨content, after⟩, htag, heq⟩ := exists_of_map_eq_ok h
      have hfirst : ∀ c ∈ body.head?, c ≠ '!' ∧ c ≠ '?' ∧ c ≠ '/' := by
        intro c hc
        obtain ⟨tail, rfl⟩ := List.head?_eq_some_iff.mp hc
        exact ⟨fun heq => hbang tail (heq ▸ rfl), fun heq => hinstruction tail (heq ▸ rfl),
          fun heq => hend tail (heq ▸ rfl)⟩
      have hopen := Token.StandsBefore.of_openTag htag hfirst
      simp only at heq
      split at heq
      · next hslash =>
        cases heq
        rwa [if_pos hslash] at hopen
      · next hslash =>
        cases heq
        rwa [if_neg hslash] at hopen
  · next heq =>
    cases heq
    simp only at h
    split at h
    · next after hrest =>
      cases h
      exact .of_reference rfl hrest
    · cases h
  · next hnil hopen hamp =>
    have hlt : c ≠ '<' := fun heq => hopen body (by rw [heq])
    have hand : c ≠ '&' := fun heq => hamp body (by rw [heq])
    simp [isPlain, hlt, hand] at hc

end TableJoin.Markup
