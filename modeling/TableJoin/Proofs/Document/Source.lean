import TableJoin.Proofs.Document.Decoding
import TableJoin.Proofs.Markup.SourceForm
import TableJoin.Proofs.Reading.Views

/-!
Documents as they are written and as they are decoded: a text that is decoded is
written as a document, and what the document's root element is read as decides.
-/

namespace TableJoin

open Markup Reading

namespace Markup.SourceDocument

variable {s : SourceDocument}

theorem isWellFormed_iff : s.isWellFormed = true ↔
    SourcePart.areWellFormed s.front = true ∧ SourcePart.elements s.front = [] ∧
      (s.front.flatMap SourcePart.stands).all Text.isBlank = true ∧
      s.root.isWellFormed = true := by
  simp only [isWellFormed, Bool.and_eq_true, List.isEmpty_iff, and_assoc]

theorem blank_of_elements_eq_nil {qs : List Part} (helements : Part.elements qs = [])
    (hblank : Text.isBlankText (Part.ownText qs) = true) :
    ∀ p ∈ qs, ∃ s, p = .text s ∧ Text.isBlankText s = true := by
  induction qs with
  | nil => simp
  | cons q qs ih =>
    cases q with
    | element e => cases helements
    | text s =>
      rw [Part.ownText, Text.isBlankText_append, Bool.and_eq_true] at hblank
      intro p hp
      rcases List.mem_cons.mp hp with rfl | hp
      · exact ⟨s, rfl, hblank.1⟩
      · exact ih helements hblank.2 p hp

theorem blank_front (h : s.isWellFormed = true) :
    ∀ p ∈ SourcePart.views s.front [], ∃ s, p = .text s ∧ Text.isBlankText s = true := by
  obtain ⟨-, helements, hblank, -⟩ := isWellFormed_iff.mp h
  apply blank_of_elements_eq_nil
  · rw [SourcePart.elements_views, helements]
    rfl
  · rw [Text.isBlankText, SourcePart.ownText_views]
    exact hblank

/-- A text begins with a byte order mark only where one is written. -/
theorem head?_chars_ne_mark (h : s.isWellFormed = true) :
    (SourcePart.chars s.front ++ (s.root.chars ++ s.rest)).head? ≠ some '\ufeff' := by
  obtain ⟨hfront, -, hblank, -⟩ := isWellFormed_iff.mp h
  have hroot : ∀ rest, (s.root.chars ++ rest).head? = some '<' := by
    intro rest
    cases s.root <;> rfl
  cases hparts : s.front with
  | nil =>
    rw [SourcePart.chars_nil, List.nil_append, hroot]
    decide
  | cons p ps =>
    rw [hparts] at hfront hblank
    obtain ⟨hp, -⟩ := SourcePart.areWellFormed_cons.mp hfront
    rw [SourcePart.chars_cons, List.append_assoc]
    cases hdivides : p.divides with
    | true =>
      intro hhead
      have hmarkup := NodeStream.head?_own_of_divides hdivides hp
        (SourcePart.chars ps ++ (s.root.chars ++ s.rest))
      rw [hhead] at hmarkup
      revert hmarkup
      decide
    | false =>
      cases p with
      | plain c =>
        -- The mark is not blank.
        rintro hhead
        simp only [SourcePart.own_plain, List.cons_append, List.head?_cons,
          Option.some.injEq] at hhead
        subst hhead
        rw [List.flatMap_cons, List.all_append, Bool.and_eq_true] at hblank
        exact absurd hblank.1 (by decide)
      | _ => cases hdivides

/-- The nodes of a document: layout, the root element, and what follows it. -/
theorem ofText_text (h : s.isWellFormed = true) :
    NodeStream.ofText s.text = ⟨Part.nodes (SourcePart.views s.front []) ++
      (s.root.view.nodes ++ (NodeStream.ofChars [] s.rest).nodes),
      (NodeStream.ofChars [] s.rest).fault⟩ := by
  obtain ⟨hfront, -, -, hroot⟩ := isWellFormed_iff.mp h
  have hbody : NodeStream.ofText s.text =
      NodeStream.ofChars [] (SourcePart.chars s.front ++ (s.root.chars ++ s.rest)) := by
    have hhead := head?_chars_ne_mark h
    simp only [NodeStream.ofText, NodeStream.ofChars, tokens, text, String.toList_ofList, chars]
    cases s.mark with
    | true => rfl
    | false => simp only [Bool.false_eq_true, ↓reduceIte, List.nil_append, hhead]
  have hmarkup : (s.root.chars ++ s.rest).head?.all (!isPlain ·) = true := by
    cases s.root <;> rfl
  have hparts := NodeStream.ofChars_parts s.front hfront [] [] rfl hmarkup
  rw [List.nil_append] at hparts
  rw [hbody, hparts, NodeStream.ofChars_element s.root hroot, NodeStream.behind_behind]
  simp only [NodeStream.behind, List.append_assoc]

/-- What decides about a document: what its root element is called, and what is refused
of it. -/
theorem decode_iff {xml : String} (h : s.Spells xml) {strict : Bool} {d : Document} :
    Document.decode strict xml = .ok d ↔ Root.ofName? s.root.view.name = some d.root ∧
      s.root.view.faults strict (.record d.root.type) = [] ∧
      d.content = s.root.view.record d.root.type := by
  obtain ⟨hwell, rfl⟩ := h
  exact Document.decode_element_iff (ofText_text hwell) (blank_front hwell)

/-- Where the root element may stand for another one, a text decodes like the other. -/
theorem decode_of_follows {s s' : SourceDocument} {xml xml' : String}
    (hs : s.Spells xml) (hs' : s'.Spells xml') {strict : Bool} {d : Document}
    (h : s.root.view.Follows strict (.record d.root.type) s'.root.view)
    (hd : Document.decode strict xml = .ok d) : Document.decode strict xml' = .ok d := by
  obtain ⟨hname, hfaults, hcontent⟩ := (decode_iff hs).mp hd
  refine (decode_iff hs').mpr ⟨by rwa [h.name_eq], h.sound hfaults, ?_⟩
  have hitem := h.item_eq hfaults
  rw [Element.item?_record, Element.item?_record] at hitem
  rw [hcontent]
  exact (Item.record.inj (Option.some.inj hitem)).symm

theorem exists_of_elements_eq_singleton {ps : List SourcePart} {e : SourceElement}
    (h : SourcePart.elements ps = [e]) :
    ∃ qs rest, ps = qs ++ .element e :: rest ∧ SourcePart.elements qs = [] := by
  induction ps with
  | nil => cases h
  | cons p ps ih =>
    cases p with
    | element e' =>
      obtain ⟨rfl, -⟩ := List.cons.inj h
      exact ⟨[], ps, rfl, rfl⟩
    | _ =>
      obtain ⟨qs, rest, rfl, hqs⟩ := ih h
      exact ⟨_ :: qs, rest, rfl, hqs⟩

theorem elements_of_blank {qs : List Part}
    (h : ∀ p ∈ qs, ∃ s, p = .text s ∧ Text.isBlankText s = true) :
    Part.elements qs = [] ∧ Text.isBlankText (Part.ownText qs) = true := by
  induction qs with
  | nil => exact ⟨rfl, rfl⟩
  | cons q qs ih =>
    obtain ⟨⟨s, rfl, hs⟩, hrest⟩ := List.forall_mem_cons.mp h
    obtain ⟨helements, hblank⟩ := ih hrest
    refine ⟨helements, ?_⟩
    rw [Part.ownText, Text.isBlankText_append, hs, hblank]
    rfl

theorem exists_spells {xml : String} {strict : Bool} {d : Document}
    (h : Document.decode strict xml = .ok d) : ∃ s : SourceDocument, s.Spells xml := by
  obtain ⟨qs, e, rest, hqs, hnodes⟩ := Document.exists_element_of_decode h
  obtain ⟨mark, body, hbody, htokens⟩ : ∃ (mark : Bool) (body : List Char),
      xml.toList = (if mark then ['\ufeff'] else []) ++ body ∧
        NodeStream.ofText xml = NodeStream.ofChars [] body := by
    by_cases hhead : xml.toList.head? = some '\ufeff'
    · obtain ⟨body, hxml⟩ := List.head?_eq_some_iff.mp hhead
      refine ⟨true, body, hxml, ?_⟩
      simp only [NodeStream.ofText, NodeStream.ofChars, tokens, hxml]
      rfl
    · exact ⟨false, xml.toList, rfl, NodeStream.ofText_eq_ofChars hhead⟩
  have hcontent : NodeStream.ofChars [] body =
      (⟨rest, (NodeStream.ofText xml).fault⟩ : NodeStream).behind
        (Part.nodes (qs ++ [.element e])) := by
    rw [← htokens, hnodes]
    simp [NodeStream.behind, Element.nodes]
  obtain ⟨ps, after, hsplits⟩ := NodeStream.splitsBelow _ (Nat.lt_succ_self body.length) hcontent
  obtain ⟨helements, hblank⟩ := elements_of_blank hqs
  have hone : (SourcePart.elements ps).map SourceElement.view = [e] := by
    rw [← SourcePart.elements_views ps [], hsplits.views, Part.elements_append, helements]
    rfl
  obtain ⟨e', hpsElements, -⟩ := List.map_eq_singleton_iff.mp hone
  obtain ⟨front, behind, rfl, hfront⟩ := exists_of_elements_eq_singleton hpsElements
  obtain ⟨hwell, hwell'⟩ := SourcePart.areWellFormed_append.mp hsplits.wellFormed
  obtain ⟨hroot, -⟩ := SourcePart.areWellFormed_cons.mp hwell'
  have hstands : (front.flatMap SourcePart.stands).all Text.isBlank = true := by
    have htext := SourcePart.ownText_views (front ++ .element e' :: behind) []
    rw [hsplits.views, Part.ownText_append, List.nil_append, List.flatMap_append] at htext
    have hall : Text.isBlankText (Part.ownText qs ++ Part.ownText [.element e]) = true := by
      rw [Text.isBlankText_append, hblank]
      rfl
    rw [Text.isBlankText, htext, List.all_append, Bool.and_eq_true] at hall
    exact hall.1
  refine ⟨⟨mark, front, e', SourcePart.chars behind ++ after⟩,
    isWellFormed_iff.mpr ⟨hwell, hfront, hstands, hroot⟩, ?_⟩
  have hchars := hsplits.chars
  rw [SourcePart.chars_append, SourcePart.chars_cons] at hchars
  rw [text, ← String.ofList_toList (s := xml), hbody, hchars]
  simp [chars]

end Markup.SourceDocument

end TableJoin
