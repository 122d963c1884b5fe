import TableJoin.Proofs.Markup.SourceTag

/-!
The nodes of a text follow the tree that the text is written as.
-/

namespace TableJoin.Markup

open Text

section Views

variable {ps : List SourcePart} {run : List Char}

/-- The part begins no run of characters. -/
def SourcePart.divides : SourcePart → Bool
  | .plain _ => false
  | _ => true

theorem Part.ofRun_nil : Part.ofRun [] = [] := rfl

theorem Part.elements_append (qs qs' : List Part) :
    Part.elements (qs ++ qs') = Part.elements qs ++ Part.elements qs' := by
  induction qs with
  | nil => rfl
  | cons q qs ih => cases q <;> simp [Part.elements, ih]

theorem Part.ownText_append (qs qs' : List Part) :
    Part.ownText (qs ++ qs') = Part.ownText qs ++ Part.ownText qs' := by
  induction qs with
  | nil => simp [Part.ownText]
  | cons q qs ih => cases q <;> simp [Part.ownText, ih, String.append_assoc]

theorem Part.elements_ofRun (run : List Char) : Part.elements (Part.ofRun run) = [] := by
  unfold ofRun
  split <;> rfl

theorem Part.toList_ownText_ofRun (run : List Char) :
    (Part.ownText (Part.ofRun run)).toList = run := by
  unfold ofRun
  split
  · next h => rw [h]; rfl
  · simp [Part.ownText]

/-- A run ends where something divides it from what follows. -/
theorem SourcePart.views_of_divides {p : SourcePart} (hp : p.divides = true)
    (ps : List SourcePart) (run : List Char) :
    SourcePart.views (p :: ps) run = Part.ofRun run ++ SourcePart.views (p :: ps) [] := by
  cases p with
  | plain c => cases hp
  | _ => simp [SourcePart.views, Part.ofRun_nil]

theorem SourcePart.views_map_plain (cs : List Char) (ps : List SourcePart) (run : List Char) :
    SourcePart.views (cs.map .plain ++ ps) run = SourcePart.views ps (run ++ cs) := by
  induction cs generalizing run with
  | nil => simp
  | cons c cs ih =>
    simp only [List.map_cons, List.cons_append, SourcePart.views, ih, List.append_assoc,
      List.nil_append]

theorem SourcePart.elements_views (ps : List SourcePart) (run : List Char) :
    Part.elements (SourcePart.views ps run) =
      (SourcePart.elements ps).map SourceElement.view := by
  induction ps generalizing run with
  | nil => simp [SourcePart.views, SourcePart.elements, Part.elements_ofRun]
  | cons p ps ih =>
    cases p <;> simp [SourcePart.views, SourcePart.elements, Part.elements_append,
      Part.elements_ofRun, Part.elements, ih]

theorem SourcePart.ownText_views (ps : List SourcePart) (run : List Char) :
    (Part.ownText (SourcePart.views ps run)).toList = run ++ ps.flatMap SourcePart.stands := by
  induction ps generalizing run with
  | nil => simp [SourcePart.views, Part.toList_ownText_ofRun]
  | cons p ps ih =>
    cases p <;> simp [SourcePart.views, SourcePart.stands, Part.ownText_append,
      Part.toList_ownText_ofRun, Part.ownText, ih]

end Views

section Tokens

theorem isToken_iff {own : List Char} {token : Token} :
    isToken own token = true ↔ nextToken own = .ok (some (token, [])) := by
  unfold isToken
  split
  · next found heq => rw [heq]; simp
  · next hne =>
    constructor
    · intro h
      cases h
    · intro h
      exact absurd h (hne token)

/-- Markup that is a token as it stands is one in front of anything. -/
theorem nextToken_append {own : List Char} {token : Token} (h : isToken own token = true)
    {c : Char} (hhead : own.head? = some c) (hc : isPlain c = false) (rest : List Char) :
    nextToken (own ++ rest) = .ok (some (token, rest)) := by
  rw [isToken_iff] at h
  obtain ⟨body, rfl⟩ := List.head?_eq_some_iff.mp hhead
  obtain ⟨own, hown, -, hmore⟩ := nextToken_spec hc h
  rw [List.append_nil] at hown
  rw [hown, hmore]

theorem head?_of_aside {own : List Char} (h : isToken own .aside = true) :
    own.head? = some '<' := by
  rw [isToken_iff] at h
  cases own with
  | nil => cases h
  | cons c body =>
    cases hc : isPlain c with
    | true =>
      rw [nextToken_of_isPlain hc] at h
      cases h
    | false =>
      obtain ⟨own, hown, hwritten, -⟩ := nextToken_spec hc h
      rw [List.append_nil] at hown
      rw [hown]
      exact hwritten

end Tokens

namespace NodeStream

variable {opened : List (List Char)}

theorem ofChars_run {run rest : List Char} (hrun : run.all isPlain = true)
    (hrest : rest.head?.all (!isPlain ·) = true) :
    ofChars opened (run ++ rest) = (ofChars opened rest).behind (Part.nodes (Part.ofRun run)) := by
  cases run with
  | nil => rfl
  | cons c run =>
    rw [List.all_cons, Bool.and_eq_true] at hrun
    have hall := List.all_eq_true.mp hrun.2
    have htake : (run ++ rest).takeWhile isPlain = run := by
      rw [List.takeWhile_append_of_pos hall]
      cases rest with
      | nil => simp
      | cons d rest =>
        have hd : isPlain d = false := by simpa using hrest
        simp [hd]
    have hdrop : (run ++ rest).dropWhile isPlain = rest := by
      rw [List.dropWhile_append_of_pos hall]
      cases rest with
      | nil => rfl
      | cons d rest =>
        have hd : isPlain d = false := by simpa using hrest
        simp [hd]
    have hnext := nextToken_of_isPlain hrun.1 (run ++ rest)
    rw [htake, hdrop] at hnext
    rw [List.cons_append, ofChars_text hnext]
    rfl

/-- Nothing that divides a run begins with a character that stands for itself. -/
theorem head?_own_of_divides {p : SourcePart} (hp : p.divides = true)
    (h : p.isWellFormed = true) (rest : List Char) :
    (p.own ++ rest).head?.all (!isPlain ·) = true := by
  cases p with
  | plain c => cases hp
  | reference name => rfl
  | data cs => rfl
  | aside own =>
    obtain ⟨body, rfl⟩ := List.head?_eq_some_iff.mp (head?_of_aside h)
    rfl
  | element e =>
    clear h
    cases e <;> rfl

/-- A reference that stands for something stands for a character. -/
theorem exists_of_isOk {name : List Char} (h : (resolve 1 name).isOk = true) :
    ∃ c, resolve 1 name = .ok c ∧ referred name = [c] := by
  unfold referred
  cases hr : resolve 1 name with
  | ok c => exact ⟨c, rfl, rfl⟩
  | error e =>
    rw [hr] at h
    cases h

/-- The nodes of an element are those of its view, given the nodes of its content. -/
theorem ofChars_around {tag : SourceTag} {parts : List SourcePart} {close rest : List Char}
    (h : (SourceElement.around tag parts close).isWellFormed = true)
    (hparts : ∀ rest : List Char, rest.head?.all (!isPlain ·) = true →
      ofChars (tag.name :: opened) (SourcePart.chars parts ++ rest) =
        (ofChars (tag.name :: opened) rest).behind (Part.nodes (SourcePart.views parts []))) :
    ofChars opened ((SourceElement.around tag parts close).chars ++ rest) =
      (ofChars opened rest).behind (SourceElement.around tag parts close).view.nodes := by
  obtain ⟨htag, hstart, hend, -⟩ := SourceElement.isWellFormed_around.mp h
  have hstart := nextToken_append hstart rfl rfl
    (SourcePart.chars parts ++ ('<' :: '/' :: (close ++ ['>']) ++ rest))
  have hend := nextToken_append hend rfl rfl rest
  have hchars : (SourceElement.around tag parts close).chars ++ rest =
      '<' :: (tag.chars ++ ['>']) ++
        (SourcePart.chars parts ++ ('<' :: '/' :: (close ++ ['>']) ++ rest)) := by
    simp [SourceElement.chars]
  rw [hchars, ofChars_startTag hstart (SourceTag.ofContent_chars htag false),
    SourceTag.rawName_chars htag, hparts _ rfl, ofChars_endTag hend]
  simp [SourceElement.view, Element.nodes, Element.inside, Element.tag, SourceTag.view, behind,
    cons]

mutual

/-- The nodes of an element are those of its view, whatever surrounds it. -/
theorem ofChars_element : (e : SourceElement) → e.isWellFormed = true →
    ∀ (opened : List (List Char)) (rest : List Char),
      ofChars opened (e.chars ++ rest) = (ofChars opened rest).behind e.view.nodes
  | .empty tag, h, opened, rest => by
    obtain ⟨htag, htoken⟩ := SourceElement.isWellFormed_empty.mp h
    have hnext := nextToken_append htoken rfl rfl rest
    exact ofChars_emptyTag hnext (SourceTag.ofContent_chars htag true)
  | .around tag parts close, h, opened, rest => by
    obtain ⟨-, -, -, hparts⟩ := SourceElement.isWellFormed_around.mp h
    refine ofChars_around h fun rest hrest => ?_
    exact ofChars_parts parts hparts (tag.name :: opened) [] rfl hrest

/-- The nodes of content are those of its view; a run of characters that stand for
themselves may come first. -/
theorem ofChars_parts : (ps : List SourcePart) → SourcePart.areWellFormed ps = true →
    ∀ (opened : List (List Char)) (run : List Char), run.all isPlain = true →
      ∀ {rest : List Char}, rest.head?.all (!isPlain ·) = true →
        ofChars opened (run ++ (SourcePart.chars ps ++ rest)) =
          (ofChars opened rest).behind (Part.nodes (SourcePart.views ps run))
  | [], _, opened, run, hrun, rest, hrest => ofChars_run hrun hrest
  | .plain c :: ps, h, opened, run, hrun, rest, hrest => by
    obtain ⟨hc, hps⟩ := SourcePart.areWellFormed_cons.mp h
    have hlonger : (run ++ [c]).all isPlain = true := by
      have hc : isPlain c = true := hc
      simp [hrun, hc]
    have hstep := ofChars_parts ps hps opened (run ++ [c]) hlonger hrest
    simpa [SourcePart.views] using hstep
  | .reference name :: ps, h, opened, run, hrun, rest, hrest => by
    obtain ⟨hp, hps⟩ := SourcePart.areWellFormed_cons.mp h
    obtain ⟨htoken, hok⟩ := SourcePart.isWellFormed_reference.mp hp
    obtain ⟨c, hc, hstands⟩ := exists_of_isOk hok
    have hnext := nextToken_append htoken rfl rfl (SourcePart.chars ps ++ rest)
    have hstep := ofChars_parts ps hps opened [] rfl hrest
    rw [List.nil_append] at hstep
    rw [SourcePart.chars_cons, List.append_assoc, ofChars_run hrun (head?_own_of_divides rfl hp _),
      SourcePart.own_reference, ofChars_reference hnext hc, hstep, cons_behind, behind_behind]
    simp [SourcePart.views, hstands]
  | .data cs :: ps, h, opened, run, hrun, rest, hrest => by
    obtain ⟨hp, hps⟩ := SourcePart.areWellFormed_cons.mp h
    have hnext := nextToken_append (c := '<') hp rfl rfl (SourcePart.chars ps ++ rest)
    have hstep := ofChars_parts ps hps opened [] rfl hrest
    rw [List.nil_append] at hstep
    rw [SourcePart.chars_cons, List.append_assoc, ofChars_run hrun (head?_own_of_divides rfl hp _),
      SourcePart.own_data, ofChars_text hnext, hstep, cons_behind, behind_behind]
    simp [SourcePart.views]
  | .aside own :: ps, h, opened, run, hrun, rest, hrest => by
    obtain ⟨hp, hps⟩ := SourcePart.areWellFormed_cons.mp h
    have hnext := nextToken_append hp (head?_of_aside hp) rfl (SourcePart.chars ps ++ rest)
    have hstep := ofChars_parts ps hps opened [] rfl hrest
    rw [List.nil_append] at hstep
    rw [SourcePart.chars_cons, List.append_assoc, ofChars_run hrun (head?_own_of_divides rfl hp _),
      SourcePart.own_aside, ofChars_aside hnext, hstep, behind_behind]
    simp [SourcePart.views]
  | .element e :: ps, h, opened, run, hrun, rest, hrest => by
    obtain ⟨hp, hps⟩ := SourcePart.areWellFormed_cons.mp h
    have hstep := ofChars_parts ps hps opened [] rfl hrest
    rw [List.nil_append] at hstep
    rw [SourcePart.chars_cons, List.append_assoc, ofChars_run hrun (head?_own_of_divides rfl hp _),
      SourcePart.own_element, ofChars_element e hp opened, hstep, behind_behind, behind_behind]
    simp [SourcePart.views, Element.nodes]

end

end NodeStream

end TableJoin.Markup
