import TableJoin.Proofs.Reading.Consumption
import TableJoin.Proofs.Writing.Elements

/-!
Coming back: what a writer makes of something, taken as a document or as a part of one, and what
a reader makes of that again.
-/

namespace TableJoin.Writing

open Markup Reading

variable {α : Type} {marks : QName → List Mark} {read : StartTag → Step ReadError α} {x y : α}

/-- What is written is read as `y`: under all options that keep names apart, as an element of any
name, at any place and in both modes. -/
def ComesBackAs (marks : QName → List Mark) (read : StartTag → Step ReadError α) (y : α) : Prop :=
  ∀ (o : EncodeOptions) (name : QName) (p : Position), o.PrefixSafe →
    isLocalName name.localName = true →
      ∃ e : Element, e.name = name.localName ∧
        Prints o p (marks name) (layout o p ++ [.element e]) ⟨p.depth, true, true⟩ ∧
        ∀ strict, Reads strict e.inside [] (fun x => x = y) (read e.tag)

namespace ComesBackAs

theorem exists_nodes (h : ComesBackAs marks read y) {name : QName}
    (hname : isLocalName name.localName = true) :
    ∃ e : Element,
      (NodeStream.ofChars [] (writeFrom .standard {} (marks name))).nodes = e.nodes ∧
      ∀ strict, Reads strict e.inside [] (fun x => x = y) (read e.tag) := by
  obtain ⟨e, -, hprints, hreads⟩ := h .standard name {} (by decide) hname
  have hnodes := hprints [] []
  rw [List.append_nil] at hnodes
  refine ⟨e, ?_, hreads⟩
  rw [hnodes]
  simp [writeFrom, NodeStream.ofChars_nil, NodeStream.behind, layout, lineBreak,
    EncodeOptions.standard, Element.nodes]

theorem marks_ne_nil (h : ComesBackAs marks read y) {name : QName}
    (hname : isLocalName name.localName = true) : marks name ≠ [] := by
  intro hnil
  obtain ⟨e, hnodes, -⟩ := h.exists_nodes hname
  rw [hnil] at hnodes
  cases hnodes

theorem eq (h : ComesBackAs marks read x) (h' : ComesBackAs marks read y) : x = y := by
  have hname : isLocalName (QName.plain "x").localName = true := by decide
  obtain ⟨e, hnodes, hreads⟩ := h.exists_nodes hname
  obtain ⟨e', hnodes', hreads'⟩ := h'.exists_nodes hname
  rw [hnodes, Element.nodes, Element.nodes, List.cons.injEq, Node.start.injEq] at hnodes'
  obtain ⟨htag, hinside⟩ := hnodes'
  obtain ⟨a, events, hrun, rfl⟩ := hreads true [] none []
  obtain ⟨b, events', hrun', rfl⟩ := hreads' true [] none []
  rw [htag, hinside, hrun'] at hrun
  cases hrun
  rfl

end ComesBackAs

theorem comesBackAs_text (s : String) :
    ComesBackAs (fun name => textElement name [] s) readText s := by
  intro o name p hsafe hname
  obtain ⟨e, hename, -, rfl, hprints⟩ := exists_textElement hsafe hname writable_nil s p
  exact ⟨e, hename, hprints, fun strict => reads_readText e⟩

end TableJoin.Writing
