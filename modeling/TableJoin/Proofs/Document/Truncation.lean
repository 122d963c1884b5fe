import TableJoin.Proofs.Reading.Termination
import TableJoin.Proofs.Reading.Truncation

/-!
Truncated documents: a text that ends before its root element does is not decoded, and
the error tells where it ends.
-/

namespace TableJoin

open Markup Reading

namespace Markup

/-- No end tag belongs to the element whose end is missing. -/
theorem OpenElement.inside_ne (o : OpenElement) (ps : List Part) (rest : List Node) :
    o.inside ≠ Part.nodes ps ++ .close :: rest := by
  intro h
  have hnone := splitContent_of_unclosed o.unclosed_inside 0
  rw [h, splitContent_content] at hnone
  cases hnone

/-- The input ends inside the root element: behind texts stands its open tag, and no end
tag belongs to that. -/
structure NodeStream.EndsInside (stream : NodeStream) (front : List String) (tag : StartTag)
    (ns : List Node) : Prop where
  nodes_eq : stream.nodes = front.map .text ++ .start tag :: ns
  isOpen : tag.selfClosing = false
  noEnd : ∀ ps rest, ns ≠ Part.nodes ps ++ .close :: rest

/-- Where the input ends inside the root element, this is an element whose end is
missing. -/
theorem NodeStream.EndsInside.exists_open {stream : NodeStream} {front : List String}
    {tag : StartTag} {ns : List Node} (h : stream.EndsInside front tag ns) :
    ∃ o : OpenElement, o.nodes = .start tag :: ns := by
  rcases closed_or_unclosed _ (Nat.lt_succ_self ns.length) with ⟨ps, rest, hclosed⟩ | hunclosed
  · exact absurd hclosed (h.noEnd ps rest)
  · exact OpenElement.exists_of_unclosed hunclosed h.isOpen

theorem OpenElement.eq_of_nodes {o : OpenElement} {tag : StartTag} {ns : List Node}
    (h : o.nodes = .start tag :: ns) : o.tag = tag ∧ o.inside = ns := by
  obtain ⟨htag, hinside⟩ := List.cons.inj h
  exact ⟨Node.start.inj htag, hinside⟩

end Markup

namespace Reading

variable {front : List String} {tag : StartTag} {ns : List Node}

/-- Blank texts in front of the root element are layout. -/
theorem dropWhile_blank (hblank : ∀ s ∈ front, Text.isBlankText s = true) :
    (front.map Node.text ++ .start tag :: ns).dropWhile isLayout = .start tag :: ns := by
  induction front with
  | nil => rfl
  | cons s rest ih =>
    obtain ⟨hs, hrest⟩ := List.forall_mem_cons.mp hblank
    have hlayout : isLayout (.text s) = true := hs
    rw [List.map_cons, List.cons_append, List.dropWhile_cons_of_pos hlayout]
    exact ih hrest

theorem run_root_open (hblank : ∀ s ∈ front, Text.isBlankText s = true) (o : OpenElement)
    (fault : Option Fault) (strict : Bool) (events : List Event) :
    root.run ⟨front.map .text ++ o.nodes, fault, strict, events⟩ =
      (.ok (some o.tag), ⟨o.inside, fault, strict, events⟩) :=
  run_root (dropWhile_blank hblank)

/-- Other text in front of the root element is refused. -/
theorem exists_text_refused (hblank : ¬ ∀ s ∈ front, Text.isBlankText s = true)
    (fault : Option Fault) (strict : Bool) (events : List Event) :
    ∃ s ∈ front, (root.run ⟨front.map .text ++ .start tag :: ns, fault, strict, events⟩).1 =
      .error (.unexpectedText s "document") := by
  have hfirst : ∃ s ∈ front, ∃ rest,
      (front.map Node.text ++ .start tag :: ns).dropWhile isLayout = .text s :: rest := by
    induction front with
    | nil => exact absurd (fun s hs => absurd hs List.not_mem_nil) hblank
    | cons s rest ih =>
      rw [List.map_cons, List.cons_append]
      by_cases hs : Text.isBlankText s = true
      · have hrest : ¬ ∀ s ∈ rest, Text.isBlankText s = true :=
          fun h => hblank (List.forall_mem_cons.mpr ⟨hs, h⟩)
        obtain ⟨s', hs', after, heq⟩ := ih hrest
        have hlayout : isLayout (.text s) = true := hs
        rw [List.dropWhile_cons_of_pos hlayout]
        exact ⟨s', List.mem_cons_of_mem _ hs', after, heq⟩
      · have hlayout : ¬ isLayout (.text s) = true := hs
        rw [List.dropWhile_cons_of_neg hlayout]
        exact ⟨s, List.mem_cons_self, _, rfl⟩
  obtain ⟨s, hs, rest, hdrop⟩ := hfirst
  refine ⟨s, hs, ?_⟩
  have hnode := run_nextNode ⟨front.map .text ++ .start tag :: ns, fault, strict, events⟩
  rw [hdrop] at hnode
  unfold root
  rw [Step.run_bind_of_ok hnode]
  rfl

end Reading

namespace Document

variable {xml : String} {front : List String} {strict : Bool}

/-- A root element without an end is refused for the first thing that is wrong with it,
or else because the input ends inside it. -/
theorem decode_open {o : OpenElement} {found : Root}
    (hnodes : (NodeStream.ofText xml).nodes = front.map .text ++ o.nodes)
    (hblank : ∀ s ∈ front, Text.isBlankText s = true) (hname : Root.ofName? o.name = some found) :
    decode strict xml = .error (.read ((o.faults strict (.record found.type)).headD
      (Cursor.ending (.ofText xml strict) (o.innermost (.record found.type))))) := by
  have hroot := run_root_open hblank o (NodeStream.ofText xml).fault strict []
  rw [decode_eq_run, Cursor.ofText, hnodes]
  apply run_document_of_error hroot hname
  exact fails_readRecord found.type o _ _

/-- Whatever stands in front of a root element without an end, and whatever it is called,
the text is not decoded. -/
theorem exists_error_of_open {o : OpenElement}
    (hnodes : (NodeStream.ofText xml).nodes = front.map .text ++ o.nodes) (strict : Bool) :
    ∃ error, decode strict xml = .error error := by
  by_cases hblank : ∀ s ∈ front, Text.isBlankText s = true
  · cases hname : Root.ofName? o.name with
    | some found => exact ⟨_, decode_open hnodes hblank hname⟩
    | none =>
      have hroot := run_root_open hblank o (NodeStream.ofText xml).fault strict []
      rw [decode_eq_run, Cursor.ofText, hnodes]
      exact ⟨_, run_document_of_unknownRoot hroot hname⟩
  · obtain ⟨s, -, hroot⟩ := exists_text_refused hblank (NodeStream.ofText xml).fault strict []
    rw [decode_eq_run, Cursor.ofText, hnodes]
    exact ⟨_, run_document_of_noRoot hroot⟩

/-- A text that ends inside its root element is not decoded.  The root element is one whose
end is missing; if it stands behind layout, and nothing is wrong with it up to the end of
the input, the error is that the input ends inside the innermost element that is read or
passed over there.  The loops over child elements end by themselves. -/
theorem decode_truncated {tag : StartTag} {ns : List Node}
    (h : (NodeStream.ofText xml).EndsInside front tag ns) (strict : Bool) :
    (∃ error, decode strict xml = .error error) ∧
    ((∃ o : OpenElement, o.nodes = .start tag :: ns) ∧
      ∀ o : OpenElement, o.nodes = .start tag :: ns →
        ∀ found, Root.ofName? tag.name = some found →
          (∀ s ∈ front, Text.isBlankText s = true) →
          o.faults strict (.record found.type) = [] → (NodeStream.ofText xml).fault = none →
          decode strict xml =
            .error (.read (.unexpectedEnd (o.innermost (.record found.type))))) ∧
    ∀ t fuel fault events, ns.length < fuel →
      (readRecordWith (readChildren fuel) t tag).run ⟨ns, fault, strict, events⟩ =
        (readRecord t tag).run ⟨ns, fault, strict, events⟩ := by
  have hnodes : ∀ {o : OpenElement}, o.nodes = .start tag :: ns →
      (NodeStream.ofText xml).nodes = front.map .text ++ o.nodes := by
    intro o ho
    rw [h.nodes_eq, ho]
  refine ⟨?_, ⟨h.exists_open, ?_⟩, ?_⟩
  · obtain ⟨o, ho⟩ := h.exists_open
    exact exists_error_of_open (hnodes ho) strict
  · intro o ho found hname hblank hfaults hfault
    obtain ⟨rfl, -⟩ := OpenElement.eq_of_nodes ho
    rw [decode_open (hnodes ho) hblank hname, hfaults, List.headD_nil, Cursor.ending,
      Cursor.ofText, hfault]
  · intro t fuel fault events hfuel
    exact run_readRecordWith_of_lt hfuel t tag

/-- A document that ends inside the text of an element. -/
def cutText : OpenElement :=
  .around none "DescribeKey" [] [] (.cut none "FrameworkURI" [] [.text "u"])

theorem decode_truncated_text :
    (NodeStream.ofText "<DescribeKey><FrameworkURI>u").EndsInside [] cutText.tag cutText.inside ∧
      decode true "<DescribeKey><FrameworkURI>u" =
        .error (.read (.unexpectedEnd "FrameworkURI")) := by
  have h : (NodeStream.ofText "<DescribeKey><FrameworkURI>u").EndsInside [] cutText.tag
      cutText.inside := ⟨by decide +kernel, rfl, cutText.inside_ne⟩
  exact ⟨h, (decode_truncated h true).2.1.2 cutText rfl .describeKey (by decide +kernel) nofun
    (by decide +kernel) (by decide +kernel)⟩

end Document

end TableJoin
