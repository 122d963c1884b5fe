import TableJoin.Proofs.Document.Source

/-!
What follows the root element: the answer of decoding is given by the root element
alone, and nobody looks at the rest of the text.
-/

namespace TableJoin

open Markup Reading

/-- The answer to an element that is the root of a document. -/
def Markup.Element.answer (strict : Bool) (e : Element) : Except DocumentError Document :=
  match Root.ofName? e.name with
  | none => .error (.unknownRoot e.name)
  | some found =>
    match e.faults strict (.record found.type) with
    | [] => .ok ⟨found, e.record found.type, rfl⟩
    | error :: _ => .error (.read error)

/-- Behind the root element stands nothing but layout: blank text, comments and
processing instructions. -/
def Markup.SourceDocument.IsWhole (s : SourceDocument) : Prop :=
  ∃ ps, s.rest = SourcePart.chars ps ∧ SourcePart.areWellFormed ps = true ∧
    SourcePart.elements ps = [] ∧ (ps.flatMap SourcePart.stands).all Text.isBlank = true

theorem Markup.SourceDocument.IsWhole.fault_eq_none {s : SourceDocument} (h : s.IsWhole) :
    (NodeStream.ofChars [] s.rest).fault = none := by
  obtain ⟨ps, hrest, hwell, -, -⟩ := h
  have hend : ([] : List Char).head?.all (!isPlain ·) = true := rfl
  have hparts := NodeStream.ofChars_parts ps hwell [] [] rfl hend
  rw [List.nil_append, List.append_nil] at hparts
  rw [hrest, hparts]
  rfl

namespace Document

variable {strict : Bool} {xml : String} {d : Document}

/-- An element behind layout decides on the answer, whatever follows it. -/
theorem decode_of_nodes {ps : List Part} {e : Element} {rest : List Node} {fault : Option Fault}
    (hnodes : NodeStream.ofText xml = ⟨Part.nodes ps ++ (e.nodes ++ rest), fault⟩)
    (hblank : ∀ p ∈ ps, ∃ s, p = .text s ∧ Text.isBlankText s = true) :
    decode strict xml = e.answer strict := by
  have hroot := run_root (c := ⟨Part.nodes ps ++ (e.nodes ++ rest), fault, strict, []⟩)
    (dropWhile_layout hblank e rest)
  rw [decode_eq_run, Cursor.ofText, hnodes, Element.answer]
  cases hname : Root.ofName? e.name with
  | none => exact run_document_of_unknownRoot hroot hname
  | some found =>
    have hread := (reads_readRecord found.type e : Reads strict _ _ _ _) rest fault
      ([] ++ [.decoding e.tag.name strict])
    cases hfaults : e.faults strict (.record found.type) with
    | nil =>
      rw [hfaults] at hread
      obtain ⟨r, events, hrun, rfl⟩ := hread
      simp only [hfaults]
      exact run_document_of_ok hroot hname hrun rfl
    | cons error faults =>
      rw [hfaults] at hread
      simp only [hfaults]
      exact run_document_of_error hroot hname hread

/-- The root element of a document decides on the answer. -/
theorem decode_text {s : SourceDocument} (h : s.isWellFormed = true) :
    decode strict s.text = s.root.view.answer strict :=
  decode_of_nodes (SourceDocument.ofText_text h) (SourceDocument.blank_front h)

/-- A text that is decoded is a root element behind layout, and any other rest behind
this element gets the same answer, in either mode. -/
theorem decode_with_rest (h : decode strict xml = .ok d) :
    (∃ s : SourceDocument, s.Spells xml) ∧ ∀ s : SourceDocument, s.Spells xml →
      ∀ (rest : List Char) (mode : Bool),
        decode mode (SourceDocument.text { s with rest := rest }) = decode mode xml := by
  refine ⟨SourceDocument.exists_spells h, ?_⟩
  rintro s ⟨hwell, rfl⟩ rest mode
  have hwell' : SourceDocument.isWellFormed { s with rest := rest } = true := hwell
  rw [decode_text hwell', decode_text hwell]

/-- Behind a text that is decoded, anything may be appended. -/
theorem decode_append (h : decode strict xml = .ok d) (more : String) :
    decode strict (xml ++ more) = .ok d := by
  obtain ⟨s, hwell, rfl⟩ := SourceDocument.exists_spells h
  have htext : s.text ++ more = SourceDocument.text { s with rest := s.rest ++ more.toList } := by
    apply String.toList_injective
    simp [SourceDocument.text, SourceDocument.chars]
  rw [htext]
  exact ((decode_with_rest h).2 s ⟨hwell, rfl⟩ _ strict).trans h

/-- A root element, and behind it an end tag that ends nothing. -/
def endedTwice : SourceDocument where
  mark := false
  front := []
  root := .empty ⟨"DescribeKey".toList, [], []⟩
  rest := "</x>".toList

theorem decode_with_rest_endedTwice :
    decode true endedTwice.text = .ok ⟨.describeKey, .empty .describeKey, rfl⟩ ∧
      decode false (SourceDocument.text { endedTwice with rest := "<DescribeKey".toList }) =
        decode false endedTwice.text := by
  have h : decode true endedTwice.text = .ok ⟨.describeKey, .empty .describeKey, rfl⟩ := by
    decide +kernel
  exact ⟨h, (decode_with_rest h).2 endedTwice ⟨by decide +kernel, rfl⟩ _ false⟩

/-- Not everything that is decoded is a document as a whole. -/
theorem exists_decode_not_whole : ∃ (xml : String) (d : Document) (s : SourceDocument),
    decode true xml = .ok d ∧ s.Spells xml ∧ ¬ s.IsWhole := by
  refine ⟨endedTwice.text, ⟨.describeKey, .empty .describeKey, rfl⟩, endedTwice,
    by decide +kernel, ⟨by decide +kernel, rfl⟩, fun hwhole => ?_⟩
  have hnone := hwhole.fault_eq_none
  have hsome : (NodeStream.ofChars [] endedTwice.rest).fault =
      some (.markup (.strayEnd "x")) := by decide +kernel
  rw [hsome] at hnone
  cases hnone

end Document

end TableJoin
