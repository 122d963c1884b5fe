import TableJoin.Proofs.Markup.Element
import TableJoin.Proofs.Reading.Run

/-!
A reader that answers has taken a whole element: whatever stands ahead of it, what
it took are the nodes inside an element with the tag that it was given.
-/

namespace TableJoin.Reading

open Markup Schema Step

/-- Nodes that open elements without closing them all. -/
inductive Unclosed : List Node → Prop
  | parts (ps : List Part) : Unclosed (Part.nodes ps)
  | start (ps : List Part) {tag : StartTag} {ns : List Node} :
      tag.selfClosing = false → Unclosed ns → Unclosed (Part.nodes ps ++ .start tag :: ns)

theorem Unclosed.behind {ns : List Node} (h : Unclosed ns) (ps : List Part) :
    Unclosed (Part.nodes ps ++ ns) := by
  cases h with
  | parts qs =>
    rw [← Part.nodes_append]
    exact .parts _
  | start qs hopen h =>
    rw [← List.append_assoc, ← Part.nodes_append]
    exact .start _ hopen h

/-- No end of content is found where something stays open. -/
theorem splitContent_of_unclosed {ns : List Node} (h : Unclosed ns) :
    ∀ depth, (splitContent depth ns).2 = none := by
  induction h with
  | parts ps =>
    intro depth
    have hsplit := splitContent_nodes ps depth []
    rw [List.append_nil] at hsplit
    rw [hsplit]
    cases depth <;> rfl
  | start ps hopen _ ih =>
    intro depth
    rw [splitContent_nodes]
    simp only [splitContent, hopen, Bool.false_eq_true, ↓reduceIte]
    exact ih (depth + 1)

/-- Every tag is that of an element without content. -/
theorem exists_bare (tag : StartTag) : ∃ e : Element, e.tag = tag ∧
    (e.tag.selfClosing = true → e.inside = []) ∧
    (e.tag.selfClosing = false → e.inside = [.close]) := by
  obtain ⟨nsPrefix, name, attributes, selfClosing⟩ := tag
  cases selfClosing with
  | true => exact ⟨.empty nsPrefix name attributes, rfl, fun _ => rfl, nofun⟩
  | false => exact ⟨.around nsPrefix name attributes [], rfl, nofun, fun _ => rfl⟩

/-- An open tag and content make an element. -/
theorem exists_around {tag : StartTag} (h : tag.selfClosing = false) (ps : List Part) :
    ∃ e : Element, e.tag = tag ∧ e.inside = Part.nodes ps ++ [.close] := by
  obtain ⟨nsPrefix, name, attributes, selfClosing⟩ := tag
  subst h
  exact ⟨.around nsPrefix name attributes ps, rfl, rfl⟩

/-- Nodes are content with an end tag behind it, or leave something open. -/
theorem closed_or_unclosed (n : Nat) : ∀ {ns : List Node}, ns.length < n →
    (∃ ps rest, ns = Part.nodes ps ++ .close :: rest) ∨ Unclosed ns := by
  induction n with
  | zero => exact fun h => absurd h (Nat.not_lt_zero _)
  | succ n ih =>
    intro ns hlength
    -- What stands behind a part decides.
    have hpart : ∀ (p : Part) {rest : List Node}, ns = p.own ++ rest → rest.length < n →
        (∃ ps rest, ns = Part.nodes ps ++ .close :: rest) ∨ Unclosed ns := by
      intro p rest hns hrest
      rcases ih hrest with ⟨ps, rest', hps⟩ | hopen
      · exact .inl ⟨p :: ps, rest', by rw [hns, hps, Part.nodes, List.append_assoc]⟩
      · have hbehind := hopen.behind [p]
        rw [Part.nodes, Part.nodes_nil, List.append_nil, ← hns] at hbehind
        exact .inr hbehind
    cases ns with
    | nil => exact .inr (.parts [])
    | cons node rest =>
      rw [List.length_cons] at hlength
      cases node with
      | close => exact .inl ⟨[], rest, rfl⟩
      | text s => exact hpart (.text s) rfl (by omega)
      | start tag =>
        cases hself : tag.selfClosing with
        | true =>
          obtain ⟨e, rfl, hinside, -⟩ := exists_bare tag
          have hown : Node.start e.tag :: rest = (Part.element e).own ++ rest := by
            simp [Part.own, hinside hself]
          exact hpart (.element e) hown (by omega)
        | false =>
          rcases ih (show rest.length < n by omega) with ⟨ps, after, hps⟩ | hopen
          · obtain ⟨e, rfl, hinside⟩ := exists_around hself ps
            have hafter : after.length < n := by
              rw [hps, List.length_append, List.length_cons] at hlength
              omega
            exact hpart (.element e) (by simp [Part.own, hinside, hps]) hafter
          · exact .inr (.start [] hself hopen)

theorem exists_of_splitContent {ns inside rest : List Node}
    (h : splitContent 0 ns = (inside, some rest)) :
    ∃ ps, inside = Part.nodes ps ∧ ns = Part.nodes ps ++ .close :: rest := by
  rcases closed_or_unclosed _ (Nat.lt_succ_self ns.length) with ⟨ps, after, rfl⟩ | hopen
  · rw [splitContent_content] at h
    cases h
    exact ⟨ps, rfl, rfl⟩
  · have hnone := splitContent_of_unclosed hopen 0
    rw [h] at hnone
    cases hnone

section Takes

variable {α β : Type}

/-- A step that answers has taken such nodes. -/
def Takes (P : α → List Node → Prop) (x : Step ReadError α) : Prop :=
  ∀ c a c', x.run c = (.ok a, c') → ∃ taken, c.ahead = taken ++ c'.ahead ∧ P a taken

/-- The nodes inside an element with the tag. -/
def Inside (tag : StartTag) (ns : List Node) : Prop :=
  ∃ e : Element, e.tag = tag ∧ e.inside = ns

/-- Nothing is taken. -/
abbrev TakesNothing (x : Step ReadError α) : Prop := Takes (fun _ ns => ns = []) x

/-- Everything inside an element with the tag is taken. -/
abbrev TakesInside (tag : StartTag) (x : Step ReadError α) : Prop := Takes (fun _ => Inside tag) x

variable {P : α → List Node → Prop} {Q : β → List Node → Prop} {x : Step ReadError α}
  {f : α → Step ReadError β} {tag : StartTag}

theorem takes_fail (e : ReadError) : Takes P (Step.fail e) := by
  intro c a c' h
  cases h

theorem takesNothing_pure (a : α) : TakesNothing (pure a) := by
  intro c b c' h
  cases h
  exact ⟨[], rfl, rfl⟩

theorem exists_of_run_bind {ε : Type} {x : Step ε α} {f : α → Step ε β} {c c' : Cursor} {b : β}
    (h : (x >>= f).run c = (.ok b, c')) :
    ∃ a c₁, x.run c = (.ok a, c₁) ∧ (f a).run c₁ = (.ok b, c') := by
  rw [run_bind] at h
  cases hx : x.run c with
  | mk answer c₁ =>
    rw [hx] at h
    cases answer with
    | ok a => exact ⟨a, c₁, rfl, h⟩
    | error e => cases h

theorem takes_bind {R : α → β → List Node → Prop} (hx : Takes P x)
    (hf : ∀ a, Takes (R a) (f a)) (hQ : ∀ a b ns ms, P a ns → R a b ms → Q b (ns ++ ms)) :
    Takes Q (x >>= f) := by
  intro c b c' h
  obtain ⟨a, c₁, hfirst, hsecond⟩ := exists_of_run_bind h
  obtain ⟨ns, hns, hP⟩ := hx c a c₁ hfirst
  obtain ⟨ms, hms, hR⟩ := hf a c₁ b c' hsecond
  exact ⟨ns ++ ms, by rw [hns, hms, List.append_assoc], hQ a b ns ms hP hR⟩

theorem takes_bind_nothing (hx : TakesNothing x) (hf : ∀ a, Takes Q (f a)) : Takes Q (x >>= f) :=
  takes_bind hx hf fun _ _ _ _ hns hms => by rw [hns]; exact hms

theorem takesInside_bind (hx : TakesInside tag x) (hf : ∀ a, TakesNothing (f a)) :
    TakesInside tag (x >>= f) :=
  takes_bind hx hf fun _ _ _ _ hns hms => by
    rw [hms, List.append_nil]
    exact hns

theorem takesInside_map (g : α → β) (hx : TakesInside tag x) : TakesInside tag (g <$> x) :=
  takesInside_bind hx fun a => takesNothing_pure (g a)

theorem takesNothing_foldlM {g : β → α → Step ReadError β} (hg : ∀ b a, TakesNothing (g b a))
    (as : List α) : ∀ b, TakesNothing (as.foldlM g b) := by
  induction as with
  | nil => exact fun b => takesNothing_pure b
  | cons a rest ih =>
    intro b
    rw [List.foldlM_cons]
    exact takes_bind_nothing (hg b a) ih

end Takes

section Steps

variable {tag : StartTag}

theorem takesInside_content (tag : StartTag) (reported : List Node → List Event) :
    TakesInside tag (content tag reported) := by
  intro c a c' h
  cases hself : tag.selfClosing with
  | true =>
    rw [run_content_of_selfClosing hself] at h
    cases h
    obtain ⟨e, rfl, hinside, -⟩ := exists_bare tag
    exact ⟨[], rfl, e, rfl, hinside hself⟩
  | false =>
    rw [run_content hself] at h
    cases hsplit : splitContent 0 c.ahead with
    | mk inside after =>
      rw [hsplit] at h
      cases after with
      | none => cases h
      | some rest =>
        cases h
        obtain ⟨ps, -, hahead⟩ := exists_of_splitContent hsplit
        obtain ⟨e, rfl, hinside⟩ := exists_around hself ps
        exact ⟨e.inside, by rw [hahead, hinside, List.append_assoc]; rfl, e, rfl, rfl⟩

theorem takesInside_readText (tag : StartTag) : TakesInside tag (readText tag) :=
  takesInside_bind (takesInside_content tag _) fun _ => takesNothing_pure _

theorem takesInside_skip (tag : StartTag) : TakesInside tag (skip tag) :=
  takesInside_bind (takesInside_content tag _) fun _ => takesNothing_pure _

theorem takesNothing_lenient (e : ReadError) (event : Event) : TakesNothing (lenient e event) := by
  intro c a c' h
  cases hstrict : c.strict with
  | true =>
    rw [run_lenient_of_strict hstrict] at h
    cases h
  | false =>
    rw [run_lenient_of_lenient hstrict] at h
    cases h
    exact ⟨[], rfl, rfl⟩

theorem takesInside_unknownElement (context : String) (tag : StartTag) :
    TakesInside tag (unknownElement context tag) :=
  takes_bind_nothing (takesNothing_lenient _ _) fun _ => takesInside_skip tag

theorem takesInside_duplicateElement (context : String) (tag : StartTag) :
    TakesInside tag (duplicateElement context tag) :=
  takes_bind_nothing (takesNothing_lenient _ _) fun _ => takesInside_skip tag

theorem takesNothing_parseAttribute (t : SimpleType) (context : String) (a : Attribute) :
    TakesNothing (parseAttribute t context a) := by
  unfold parseAttribute
  split
  · exact takesNothing_pure _
  · exact takes_fail _

theorem takesNothing_parseContent (t : SimpleType) (tag : StartTag) (text : String) :
    TakesNothing (parseContent t tag text) := by
  unfold parseContent
  split
  · exact takesNothing_pure _
  · exact takes_fail _

theorem takesNothing_readAttribute (r : Record) (a : Attribute) :
    TakesNothing (readAttribute r a) := by
  unfold readAttribute
  split
  · exact takes_bind_nothing (takesNothing_parseAttribute _ _ a) fun _ => takesNothing_pure _
  · exact takes_bind_nothing (takesNothing_lenient _ _) fun _ => takesNothing_pure _

theorem takes_nextNode : Takes
    (fun found ns => ∃ ps, (∀ p ∈ ps, ∃ s, p = .text s ∧ Text.isBlankText s = true) ∧
      ns = Part.nodes ps ++ found.toList) nextNode := by
  intro c a c' h
  rw [run_nextNode] at h
  have hsplit := List.takeWhile_append_dropWhile (p := isLayout) (l := c.ahead)
  have hlayout : ∀ ns : List Node, ns.all isLayout = true →
      ∃ ps, (∀ p ∈ ps, ∃ s, p = Part.text s ∧ Text.isBlankText s = true) ∧ ns = Part.nodes ps := by
    intro ns hns
    induction ns with
    | nil => exact ⟨[], by simp, rfl⟩
    | cons node ns ih =>
      rw [List.all_cons, Bool.and_eq_true] at hns
      obtain ⟨ps, hps, rfl⟩ := ih hns.2
      cases node with
      | text s =>
        refine ⟨.text s :: ps, fun p hp => ?_, rfl⟩
        rcases List.mem_cons.mp hp with rfl | hp
        · exact ⟨s, rfl, hns.1⟩
        · exact hps p hp
      | start tag => cases hns.1
      | close => cases hns.1
  obtain ⟨ps, hps, hnodes⟩ := hlayout _ (List.all_takeWhile (p := isLayout) (l := c.ahead))
  rw [hnodes] at hsplit
  cases hdrop : c.ahead.dropWhile isLayout with
  | nil =>
    rw [hdrop] at h hsplit
    cases hfault : c.fault with
    | some fault =>
      rw [hfault] at h
      cases h
    | none =>
      rw [hfault] at h
      cases h
      exact ⟨Part.nodes ps, hsplit.symm, ps, hps, by simp⟩
  | cons node rest =>
    rw [hdrop] at h hsplit
    cases h
    exact ⟨Part.nodes ps ++ [node], by rw [← hsplit]; simp, ps, hps, rfl⟩

/-- The node at which the next child is found; the end tag if there is none. -/
def childNode : Option Child → Node
  | none => .close
  | some (.text s) => .text s
  | some (.element child) => .start child

/-- What the next child takes: layout, and the child's first node or the end tag. -/
theorem takes_nextChild (h : tag.selfClosing = false) : Takes
    (fun found ns => ∃ ps, ns = Part.nodes ps ++ [childNode found]) (nextChild tag) := by
  unfold nextChild
  simp only [h, Bool.false_eq_true, ↓reduceIte]
  refine takes_bind (R := fun node found ns => ns = [] ∧ node = some (childNode found))
    takes_nextNode (fun node => ?_) ?_
  · intro c a c' hrun
    match node, hrun with
    | some (.start child), hrun => cases hrun; exact ⟨[], rfl, rfl, rfl⟩
    | some (.text s), hrun => cases hrun; exact ⟨[], rfl, rfl, rfl⟩
    | some .close, hrun => cases hrun; exact ⟨[], rfl, rfl, rfl⟩
    | none, hrun => cases hrun
  · rintro node found ns ms ⟨ps, -, rfl⟩ ⟨rfl, rfl⟩
    exact ⟨ps, by simp⟩

end Steps

section Records

variable {children : StartTag → Record → Step ReadError Record}

theorem takesInside_readRecordWith (hc : ∀ tag r, TakesInside tag (children tag r))
    (t : RecordType) (tag : StartTag) : TakesInside tag (readRecordWith children t tag) := by
  unfold readRecordWith
  refine takes_bind_nothing (takesNothing_foldlM takesNothing_readAttribute _ _) fun r => ?_
  split
  · refine takesInside_bind (takesInside_readText tag) fun text => ?_
    split
    · exact takesNothing_pure _
    · exact takes_bind_nothing (takesNothing_parseContent _ tag text) fun _ => takesNothing_pure _
  · exact hc tag r

theorem takesInside_readItemWith (hc : ∀ tag r, TakesInside tag (children tag r))
    (t : ItemType) (tag : StartTag) : TakesInside tag (readItemWith children t tag) := by
  cases t with
  | simple s =>
    exact takesInside_map _ (takesInside_bind (takesInside_readText tag) fun text =>
      takesNothing_parseContent s tag text)
  | record t => exact takesInside_map _ (takesInside_readRecordWith hc t tag)

/-- Content in front of what is inside an open element is inside one also. -/
theorem Inside.behind {tag : StartTag} (hopen : tag.selfClosing = false) {ns : List Node}
    (h : Inside tag ns) (ps : List Part) : Inside tag (Part.nodes ps ++ ns) := by
  obtain ⟨e, rfl, rfl⟩ := h
  obtain ⟨e', htag, hinside⟩ := exists_around hopen (ps ++ e.parts)
  refine ⟨e', htag, ?_⟩
  rw [hinside, Element.inside_of_open hopen, Part.nodes_append, List.append_assoc]

/-- What a child is followed by: the rest of what is inside it, if it is an element, and
what is inside the element around it from there on. -/
def InsideBehind (tag : StartTag) : Option Child → List Node → Prop
  | none, ns => ns = []
  | some (.text _), ns => Inside tag ns
  | some (.element child), ns => ∃ ns₁ ns₂, ns = ns₁ ++ ns₂ ∧ Inside child ns₁ ∧ Inside tag ns₂

/-- Content and a child that is read, with what follows it, are inside the element. -/
theorem InsideBehind.inside {tag : StartTag} (hopen : tag.selfClosing = false)
    {found : Option Child} {ns : List Node} (h : InsideBehind tag found ns) (ps : List Part) :
    Inside tag (Part.nodes ps ++ [childNode found] ++ ns) := by
  rcases found with _ | child | s
  · obtain ⟨e, rfl, hinside⟩ := exists_around hopen ps
    have hempty : ns = [] := h
    exact ⟨e, rfl, by rw [hinside, hempty, List.append_nil, childNode]⟩
  · obtain ⟨ns₁, ns₂, rfl, ⟨e, rfl, rfl⟩, hns₂⟩ := h
    have hinside := hns₂.behind hopen (ps ++ [.element e])
    simpa [childNode] using hinside
  · have hrest : Inside tag ns := h
    have hinside := hrest.behind hopen (ps ++ [.text s])
    simpa [childNode] using hinside

/-- Reading child elements takes all of them and the end tag. -/
theorem takesInside_readChildren (fuel : Nat) :
    ∀ tag r, TakesInside tag (readChildren fuel tag r) := by
  induction fuel with
  | zero =>
    intro tag r c a c' h
    cases h
  | succ fuel ih =>
    intro tag r
    unfold readChildren
    cases hopen : tag.selfClosing with
    | true =>
      intro c a c' h
      obtain ⟨found, c₁, hnext, hrest⟩ := exists_of_run_bind h
      rw [run_nextChild_of_selfClosing hopen] at hnext
      cases hnext
      cases hrest
      obtain ⟨e, rfl, hinside, -⟩ := exists_bare tag
      exact ⟨[], rfl, e, rfl, hinside hopen⟩
    | false =>
      refine takes_bind (R := fun found _ ns => InsideBehind tag found ns)
        (takes_nextChild hopen) (fun found => ?_) ?_
      · rcases found with _ | child | s
        · exact takesNothing_pure r
        · have hthen : ∀ {α : Type} {x : Step ReadError α} {f : α → Step ReadError Record},
              TakesInside child x → (∀ a, TakesInside tag (f a)) →
              Takes (fun _ ns => InsideBehind tag (some (.element child)) ns) (x >>= f) :=
            fun hx hf => takes_bind hx hf fun _ _ ns ms hns hms => ⟨ns, ms, rfl, hns, hms⟩
          simp only
          split
          · exact hthen (takesInside_unknownElement _ child) fun _ => ih tag r
          · split
            · exact hthen (takesInside_duplicateElement _ child) fun _ => ih tag r
            · exact hthen (takesInside_readItemWith ih _ child) fun _ => ih tag _
        · exact takes_bind_nothing (takesNothing_lenient _ _) fun _ => ih tag r
      · rintro found r' ns ms ⟨ps, rfl⟩ hms
        exact hms.inside hopen ps

theorem takesInside_readRecord (t : RecordType) (tag : StartTag) :
    TakesInside tag (readRecord t tag) := by
  intro c a c' h
  unfold readRecord at h
  rw [run_here_bind] at h
  exact takesInside_readRecordWith (takesInside_readChildren _) t tag c a c' h

end Records

end TableJoin.Reading
