import TableJoin.Proofs.Reading.Extent
import TableJoin.Proofs.Reading.Refinement

/-!
Decoding a text and the elements of its root: a text is decoded exactly if it begins
with layout and an element of which nothing is refused.
-/

namespace TableJoin

open Markup Reading

namespace Reading

open Step

section Answers

variable {ε ε' α : Type} {x : Step ε α} {c c' : Cursor}

theorem run_of_mapError {g : ε → ε'} {a : α} (h : (x.mapError g).run c = (.ok a, c')) :
    x.run c = (.ok a, c') := by
  rw [run_mapError] at h
  cases hx : x.run c with
  | mk answer place =>
    rw [hx] at h
    cases answer with
    | error e => cases h
    | ok b =>
      cases h
      rfl

theorem run_of_attach {P : α → Prop} {hx : x.Ensures P} {a : { a // P a }}
    (h : (x.attach hx).run c = (.ok a, c')) : x.run c = (.ok a.1, c') := by
  rw [← run_attach hx c, h]
  rfl

end Answers

/-- A document that is read has a root element, which is read as a record. -/
theorem exists_of_document {c c₃ : Cursor} {d : Document} (h : document.run c = (.ok d, c₃)) :
    ∃ tag c₁ events, root.run c = (.ok (some tag), c₁) ∧
      Root.ofName? tag.name = some d.root ∧
      (readRecord d.root.type tag).run { c₁ with events := events } = (.ok d.content, c₃) := by
  obtain ⟨found, c₁, hroot, h⟩ := exists_of_run_bind h
  have hroot := run_of_mapError hroot
  match found, h with
  | none, h => cases h
  | some tag, h =>
    rw [run_here_bind] at h
    obtain ⟨_, c₂, hreport, h⟩ := exists_of_run_bind h
    cases hreport
    cases hname : Root.ofName? tag.name with
    | none =>
      rw [hname] at h
      cases h
    | some root =>
      rw [hname] at h
      obtain ⟨⟨r, typed⟩, c₃', hread, h⟩ := exists_of_run_bind h
      cases h
      exact ⟨tag, c₁, _, hroot, hname, run_of_attach (run_of_mapError hread)⟩

/-- The root element that is found stands behind layout. -/
theorem exists_of_root {c c' : Cursor} {tag : StartTag}
    (h : root.run c = (.ok (some tag), c')) :
    ∃ ps, (∀ p ∈ ps, ∃ s, p = .text s ∧ Text.isBlankText s = true) ∧
      c.ahead = Part.nodes ps ++ .start tag :: c'.ahead := by
  obtain ⟨node, c₁, hnode, h⟩ := exists_of_run_bind h
  obtain ⟨ns, hahead, ps, hps, rfl⟩ := takes_nextNode _ _ _ hnode
  match node, h with
  | some (.start tag'), h =>
    cases h
    exact ⟨ps, hps, by rw [hahead]; simp⟩
  | some (.text s), h => cases h
  | some .close, h => cases h
  | none, h => cases h

end Reading

namespace Document

/-- A reader passes over layout in front of an element. -/
theorem dropWhile_layout {ps : List Part}
    (hblank : ∀ p ∈ ps, ∃ s, p = .text s ∧ Text.isBlankText s = true) (e : Element)
    (rest : List Node) :
    (Part.nodes ps ++ (e.nodes ++ rest)).dropWhile isLayout =
      .start e.tag :: (e.inside ++ rest) := by
  induction ps with
  | nil => rfl
  | cons p ps ih =>
    obtain ⟨s, rfl, hs⟩ := hblank p List.mem_cons_self
    have hlayout : isLayout (.text s) = true := hs
    rw [Part.nodes_text, List.cons_append, List.dropWhile_cons_of_pos hlayout]
    exact ih fun q hq => hblank q (List.mem_cons_of_mem _ hq)

/-- A text that is an element behind layout is decoded as the record of the element,
whatever follows, if nothing of the element is refused. -/
theorem decode_of_element {xml : String} {strict : Bool} {ps : List Part} {e : Element}
    {rest : List Node} {fault : Option Fault} {found : Root}
    (hnodes : NodeStream.ofText xml = ⟨Part.nodes ps ++ (e.nodes ++ rest), fault⟩)
    (hblank : ∀ p ∈ ps, ∃ s, p = .text s ∧ Text.isBlankText s = true)
    (hname : Root.ofName? e.name = some found)
    (hfaults : e.faults strict (.record found.type) = []) :
    decode strict xml = .ok ⟨found, e.record found.type, rfl⟩ := by
  have hahead := dropWhile_layout hblank e rest
  have hroot := run_root (c := ⟨_, fault, strict, []⟩) hahead
  have hread := (reads_readRecord found.type e : Reads strict _ _ _ _) rest fault
    ([] ++ [.decoding e.tag.name strict])
  rw [hfaults] at hread
  obtain ⟨r, events, hrun, rfl⟩ := hread
  rw [decode_eq_run, Cursor.ofText, hnodes]
  exact run_document_of_ok hroot hname hrun rfl

/-- A text that is decoded is an element behind layout, and nothing of the element is
refused. -/
theorem exists_element_of_decode {xml : String} {strict : Bool} {d : Document}
    (h : decode strict xml = .ok d) :
    ∃ (ps : List Part) (e : Element) (rest : List Node),
      (∀ p ∈ ps, ∃ s, p = .text s ∧ Text.isBlankText s = true) ∧
      NodeStream.ofText xml = ⟨Part.nodes ps ++ (e.nodes ++ rest), (NodeStream.ofText xml).fault⟩ := by
  rw [decode_eq_run] at h
  cases hrun : document.run (.ofText xml strict) with
  | mk answer c₃ =>
    rw [hrun] at h
    subst h
    obtain ⟨tag, c₁, events, hroot, -, hread⟩ := exists_of_document hrun
    obtain ⟨ps, hps, hfront⟩ := exists_of_root hroot
    obtain ⟨ns, hrest, e, rfl, rfl⟩ := takesInside_readRecord _ _ _ _ _ hread
    refine ⟨ps, e, c₃.ahead, hps, ?_⟩
    simp only at hrest
    have hnodes : (NodeStream.ofText xml).nodes = Part.nodes ps ++ (e.nodes ++ c₃.ahead) := by
      change (Cursor.ofText xml strict).ahead = _
      rw [hfront, hrest]
      rfl
    rw [← hnodes]

/-- What decides about an element behind layout: its name, and what is refused of it. -/
theorem decode_element_iff {xml : String} {strict : Bool} {ps : List Part} {e : Element}
    {rest : List Node} {fault : Option Fault} {d : Document}
    (hnodes : NodeStream.ofText xml = ⟨Part.nodes ps ++ (e.nodes ++ rest), fault⟩)
    (hblank : ∀ p ∈ ps, ∃ s, p = .text s ∧ Text.isBlankText s = true) :
    decode strict xml = .ok d ↔ Root.ofName? e.name = some d.root ∧
      e.faults strict (.record d.root.type) = [] ∧ d.content = e.record d.root.type := by
  constructor
  · intro h
    rw [decode_eq_run] at h
    cases hrun : document.run (.ofText xml strict) with
    | mk answer c₃ =>
      rw [hrun] at h
      subst h
      obtain ⟨tag, c₁, events, hroot, hname, hread⟩ := exists_of_document hrun
      rw [Cursor.ofText, hnodes, run_root (dropWhile_layout hblank e rest)] at hroot
      cases hroot
      have hrecord := (reads_readRecord d.root.type e : Reads strict _ _ _ _) rest fault events
      cases hfaults : e.faults strict (.record d.root.type) with
      | nil =>
        rw [hfaults] at hrecord
        obtain ⟨r, events', hrun', rfl⟩ := hrecord
        have hsame := congrArg Prod.fst (hread.symm.trans hrun')
        exact ⟨hname, rfl, Except.ok.inj hsame⟩
      | cons error faults =>
        rw [hfaults] at hrecord
        rw [hread] at hrecord
        cases hrecord
  · rintro ⟨hname, hfaults, hcontent⟩
    rw [decode_of_element hnodes hblank hname hfaults]
    obtain ⟨root, content, typed⟩ := d
    simp only at hcontent
    subst hcontent
    rfl

end Document

end TableJoin
