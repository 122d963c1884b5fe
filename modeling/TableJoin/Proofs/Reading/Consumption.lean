import TableJoin.Proofs.Reading.Decoding
import TableJoin.Proofs.Reading.Run

/-!
What a step consumes: exactly the nodes of a part of the document, unless a fault
of that part stops it.  The rules put steps together, part behind part, and the
first fault wins.
-/

namespace TableJoin.Reading

open Markup Schema Step

/-- The step consumes exactly these nodes, whatever follows them, and answers with
something of the property; but the first of the faults stops it, if there is
one. -/
def Reads {α : Type} (strict : Bool) (nodes : List Node) (faults : List ReadError)
    (P : α → Prop) (x : Step ReadError α) : Prop :=
  ∀ (rest : List Node) (fault : Option Fault) (events : List Event),
    match faults with
    | [] => ∃ a events', x.run ⟨nodes ++ rest, fault, strict, events⟩ =
        (.ok a, ⟨rest, fault, strict, events'⟩) ∧ P a
    | error :: _ => (x.run ⟨nodes ++ rest, fault, strict, events⟩).1 = .error error

section Rules

variable {α β : Type} {strict : Bool} {ns ms : List Node} {fs gs : List ReadError}
  {P : α → Prop} {Q : β → Prop}

theorem reads_pure {a : α} (h : P a) : Reads strict [] [] P (pure a) := by
  intro rest fault events
  exact ⟨a, events, rfl, h⟩

/-- One step after the other consumes the nodes of both; the faults of the first
come first. -/
theorem reads_bind {x : Step ReadError α} {f : α → Step ReadError β}
    (hx : Reads strict ns fs P x) (hf : ∀ a, P a → Reads strict ms gs Q (f a)) :
    Reads strict (ns ++ ms) (fs ++ gs) Q (x >>= f) := by
  intro rest fault events
  rw [List.append_assoc]
  have hfirst := hx (ms ++ rest) fault events
  cases fs with
  | cons error fs =>
    rw [List.cons_append]
    cases hrun : x.run ⟨ns ++ (ms ++ rest), fault, strict, events⟩ with
    | mk answer c =>
      simp only [hrun] at hfirst
      subst hfirst
      simp only [run_bind_of_error hrun]
  | nil =>
    obtain ⟨a, events', hrun, ha⟩ := hfirst
    rw [run_bind_of_ok hrun]
    exact hf a ha rest fault events'

/-- What follows consumes nothing more and finds no fault. -/
theorem reads_bind_answer {x : Step ReadError α} {f : α → Step ReadError β}
    (hx : Reads strict ns fs P x) (hf : ∀ a, P a → Reads strict [] [] Q (f a)) :
    Reads strict ns fs Q (x >>= f) := by
  simpa using reads_bind hx hf

theorem reads_bind_check {x : Step ReadError α} {f : α → Step ReadError β}
    (hx : Reads strict [] fs P x) (hf : ∀ a, P a → Reads strict ms gs Q (f a)) :
    Reads strict ms (fs ++ gs) Q (x >>= f) := by
  simpa using reads_bind hx hf

/-- A check in front of a step that finds no fault. -/
theorem reads_bind_guard {x : Step ReadError α} {f : α → Step ReadError β}
    (hx : Reads strict [] fs P x) (hf : ∀ a, P a → Reads strict ms [] Q (f a)) :
    Reads strict ms fs Q (x >>= f) := by
  simpa using reads_bind hx hf

theorem reads_bind_sound {x : Step ReadError α} {f : α → Step ReadError β}
    (hx : Reads strict ns [] P x) (hf : ∀ a, P a → Reads strict ms gs Q (f a)) :
    Reads strict (ns ++ ms) gs Q (x >>= f) := by
  simpa using reads_bind hx hf

theorem reads_map {x : Step ReadError α} (f : α → β) (hx : Reads strict ns fs P x)
    (hf : ∀ a, P a → Q (f a)) : Reads strict ns fs Q (f <$> x) :=
  reads_bind_answer hx fun a ha => reads_pure (hf a ha)

theorem Reads.imp {x : Step ReadError α} {P' : α → Prop} (hx : Reads strict ns fs P x)
    (h : ∀ a, P a → P' a) : Reads strict ns fs P' x := by
  intro rest fault events
  have hrun := hx rest fault events
  cases fs with
  | cons error fs => exact hrun
  | nil =>
    obtain ⟨a, events', hrun, ha⟩ := hrun
    exact ⟨a, events', hrun, h a ha⟩

/-- The step goes on as such another one behind these nodes, whatever follows them; but
the first of the faults stops it, if there is one. -/
def Leads (strict : Bool) (nodes : List Node) (faults : List ReadError)
    (P : Step ReadError α → Prop) (x : Step ReadError α) : Prop :=
  ∀ (rest : List Node) (fault : Option Fault) (events : List Event),
    match faults with
    | [] => ∃ y events', x.run ⟨nodes ++ rest, fault, strict, events⟩ =
        y.run ⟨rest, fault, strict, events'⟩ ∧ P y
    | error :: _ => (x.run ⟨nodes ++ rest, fault, strict, events⟩).1 = .error error

section Leads

variable {R : Step ReadError α → Prop} {x : Step ReadError α}

/-- A step that is read goes on as what is done with its answer. -/
theorem Reads.leads {R : Step ReadError β → Prop} {f : α → Step ReadError β}
    (hx : Reads strict ns fs P x) (hf : ∀ a, P a → R (f a)) : Leads strict ns fs R (x >>= f) := by
  intro rest fault events
  have hrun := hx rest fault events
  cases fs with
  | nil =>
    obtain ⟨a, events', hrun, ha⟩ := hrun
    exact ⟨f a, events', run_bind_of_ok hrun, hf a ha⟩
  | cons error fs =>
    cases hanswer : x.run ⟨ns ++ rest, fault, strict, events⟩ with
    | mk answer c =>
      simp only [hanswer] at hrun
      subst hrun
      simp only [run_bind_of_error hanswer]

/-- Nodes that are read in front of a step that goes on. -/
theorem leads_bind {R : Step ReadError β → Prop} {f : α → Step ReadError β}
    (hx : Reads strict ns [] P x) (hf : ∀ a, P a → Leads strict ms gs R (f a)) :
    Leads strict (ns ++ ms) gs R (x >>= f) := by
  intro rest fault events
  obtain ⟨a, events', hrun, ha⟩ := hx (ms ++ rest) fault events
  rw [List.append_assoc, run_bind_of_ok hrun]
  exact hf a ha rest fault events'

theorem Leads.reads (h : Leads strict ns fs R x) (hy : ∀ y, R y → Reads strict ms gs P y) :
    Reads strict (ns ++ ms) (fs ++ gs) P x := by
  intro rest fault events
  rw [List.append_assoc]
  have hrun := h (ms ++ rest) fault events
  cases fs with
  | cons error fs => exact hrun
  | nil =>
    obtain ⟨y, events', hrun, hR⟩ := hrun
    rw [hrun]
    exact hy y hR rest fault events'

end Leads

end Rules

section Parts

variable {strict : Bool}

theorem reads_lenient (e : ReadError) (event : Event) :
    Reads strict [] (if strict then [e] else []) (fun _ => True) (lenient e event) := by
  intro rest fault events
  cases strict with
  | true =>
    simp only [↓reduceIte]
    rw [run_lenient_of_strict rfl]
  | false => exact ⟨(), _, run_lenient_of_lenient rfl e event, trivial⟩

/-- Taking the content of an element stops behind its end tag. -/
theorem reads_content (e : Element) (reported : List Node → List Event) :
    Reads strict e.inside [] (fun inside => inside = Part.nodes e.parts)
      (content e.tag reported) := by
  intro rest fault events
  cases hself : e.tag.selfClosing with
  | true =>
    obtain ⟨hinside, hparts⟩ := Element.inside_of_selfClosing hself
    rw [hinside, hparts]
    exact ⟨[], events, run_content_of_selfClosing hself reported _, rfl⟩
  | false =>
    refine ⟨Part.nodes e.parts, events ++ reported (Part.nodes e.parts), ?_, rfl⟩
    rw [run_content hself, Element.inside_of_open hself]
    simp only [List.append_assoc, List.singleton_append, splitContent_content]

theorem reads_readText (e : Element) :
    Reads strict e.inside [] (fun text => text = e.ownText) (readText e.tag) := by
  refine reads_bind_answer (reads_content e _) fun inside hinside => reads_pure ?_
  rw [hinside, ownText_nodes, Element.ownText]

theorem reads_skip (e : Element) : Reads strict e.inside [] (fun _ => True) (skip e.tag) :=
  reads_bind_answer (reads_content e _) fun _ _ => reads_pure trivial

theorem reads_unknownElement (context : String) (e : Element) :
    Reads strict e.inside (if strict then [.unknownElement e.name context] else [])
      (fun _ => True) (unknownElement context e.tag) :=
  reads_bind_guard (reads_lenient _ _) fun _ _ => reads_skip e

theorem reads_duplicateElement (context : String) (e : Element) :
    Reads strict e.inside (if strict then [.duplicateElement e.name context] else [])
      (fun _ => True) (duplicateElement context e.tag) :=
  reads_bind_guard (reads_lenient _ _) fun _ _ => reads_skip e

theorem reads_parseAttribute (s : SimpleType) (context : String) (a : Attribute) :
    Reads strict [] (valueFaults s context a) (fun x => s.read a.value = .ok x)
      (parseAttribute s context a) := by
  intro rest fault events
  rw [run_parseAttribute, valueFaults]
  cases s.read a.value with
  | ok x => exact ⟨x, events, rfl, rfl⟩
  | error cause => rfl

theorem reads_parseContent (s : SimpleType) (tag : StartTag) (text : String) :
    Reads strict [] (contentFaults s tag.name text) (fun x => s.read text = .ok x)
      (parseContent s tag text) := by
  intro rest fault events
  rw [run_parseContent, contentFaults]
  cases s.read text with
  | ok x => exact ⟨x, events, rfl, rfl⟩
  | error cause => rfl

theorem reads_readSimple (s : SimpleType) (e : Element) :
    Reads strict e.inside (contentFaults s e.name e.ownText)
      (fun x => s.read e.ownText = .ok x) (readSimple s e.tag) := by
  rw [← List.append_nil e.inside]
  apply reads_bind_sound (reads_readText e)
  intro text htext
  rw [htext]
  exact reads_parseContent s e.tag e.ownText

/-- Nothing follows the tag of an empty element. -/
theorem reads_nextChild_of_selfClosing {tag : StartTag} (h : tag.selfClosing = true) :
    Reads strict [] [] (fun child => child = none) (nextChild tag) := by
  intro rest fault events
  exact ⟨none, events, run_nextChild_of_selfClosing h _, rfl⟩

theorem reads_nextChild_close {tag : StartTag} (h : tag.selfClosing = false) :
    Reads strict [.close] [] (fun child => child = none) (nextChild tag) := by
  intro rest fault events
  exact ⟨none, events, by rw [run_nextChild h]; rfl, rfl⟩

theorem reads_nextChild_start {tag child : StartTag} (h : tag.selfClosing = false) :
    Reads strict [.start child] [] (fun c => c = some (.element child)) (nextChild tag) := by
  intro rest fault events
  exact ⟨_, events, by rw [run_nextChild h]; rfl, rfl⟩

theorem reads_nextChild_text {tag : StartTag} (h : tag.selfClosing = false) {s : String}
    (hs : Text.isBlankText s = false) :
    Reads strict [.text s] [] (fun c => c = some (.text s)) (nextChild tag) := by
  intro rest fault events
  refine ⟨some (.text s), events, ?_, rfl⟩
  rw [run_nextChild h]
  simp [isLayout, hs]

end Parts

end TableJoin.Reading
