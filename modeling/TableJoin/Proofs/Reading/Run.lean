import TableJoin.Document.Text

/-!
What the steps of a reader do at a place: one equation for each step, with the
answer and the place after it.  Later proofs cite these and do not look into the
steps.
-/

namespace TableJoin.Reading

open Markup Schema

namespace Step

variable {ε ε' α β : Type}

theorem run_here_bind (f : Cursor → Step ε α) (c : Cursor) :
    (here >>= f).run c = (f c).run c := rfl

theorem run_goTo_bind (c' : Cursor) (f : Unit → Step ε α) (c : Cursor) :
    (goTo c' >>= f).run c = (f ()).run c' := rfl

@[simp] theorem run_report (events : List Event) (c : Cursor) :
    (report events : Step ε Unit).run c = (.ok (), { c with events := c.events ++ events }) := rfl

/-- A step that answers hands its answer and its place on. -/
theorem run_bind_of_ok {x : Step ε α} {f : α → Step ε β} {c c' : Cursor} {a : α}
    (h : x.run c = (.ok a, c')) : (x >>= f).run c = (f a).run c' := by
  rw [run_bind, h]

/-- A step that fails leaves nothing for the next one. -/
theorem run_bind_of_error {x : Step ε α} {f : α → Step ε β} {c c' : Cursor} {e : ε}
    (h : x.run c = (.error e, c')) : (x >>= f).run c = (.error e, c') := by
  rw [run_bind, h]

theorem run_mapError (g : ε → ε') (x : Step ε α) (c : Cursor) :
    (x.mapError g).run c = ((x.run c).1.mapError g, (x.run c).2) := by
  unfold run mapError
  split
  · next a c' hx => rw [hx]; rfl
  · next e c' hx => rw [hx]; rfl

theorem run_mapError_of_ok {x : Step ε α} {c c' : Cursor} {a : α} (h : x.run c = (.ok a, c'))
    (g : ε → ε') : (x.mapError g).run c = (.ok a, c') := by
  rw [run_mapError, h]
  rfl

/-- A proof beside the answer changes nothing. -/
theorem run_attach {P : α → Prop} {x : Step ε α} (h : x.Ensures P) (c : Cursor) :
    (((x.attach h).run c).1.map Subtype.val, ((x.attach h).run c).2) = x.run c := by
  unfold run attach
  split
  · next a c' hx => exact hx.symm
  · next e c' hx => exact hx.symm

end Step

theorem run_nextNode (c : Cursor) :
    nextNode.run c =
      match c.ahead.dropWhile isLayout with
      | node :: rest => (.ok (some node), { c with ahead := rest })
      | [] =>
        match c.fault with
        | some fault => (.error (.malformed fault), { c with ahead := [] })
        | none => (.ok none, { c with ahead := [] }) := by
  unfold nextNode
  rw [Step.run_here_bind]
  cases c.ahead.dropWhile isLayout with
  | nil =>
    simp only
    rw [Step.run_goTo_bind]
    cases hf : c.fault <;> rfl
  | cons node rest => rfl

theorem run_root {c : Cursor} {tag : StartTag} {rest : List Node}
    (h : c.ahead.dropWhile isLayout = .start tag :: rest) :
    root.run c = (.ok (some tag), { c with ahead := rest }) := by
  have hnode := run_nextNode c
  rw [h] at hnode
  unfold root
  rw [Step.run_bind_of_ok hnode]
  rfl

theorem run_nextChild_of_selfClosing {parent : StartTag} (h : parent.selfClosing = true)
    (c : Cursor) : (nextChild parent).run c = (.ok none, c) := by
  simp [nextChild, h]

theorem run_nextChild {parent : StartTag} (h : parent.selfClosing = false) (c : Cursor) :
    (nextChild parent).run c =
      match c.ahead.dropWhile isLayout with
      | .start tag :: rest => (.ok (some (.element tag)), { c with ahead := rest })
      | .text s :: rest => (.ok (some (.text s)), { c with ahead := rest })
      | .close :: rest => (.ok none, { c with ahead := rest })
      | [] => (.error (c.ending parent.name), { c with ahead := [] }) := by
  have hnode := run_nextNode c
  simp only [nextChild, h, Bool.false_eq_true, ↓reduceIte]
  cases hd : c.ahead.dropWhile isLayout with
  | nil =>
    rw [hd] at hnode
    cases hf : c.fault with
    | none =>
      rw [hf] at hnode
      rw [Step.run_bind_of_ok hnode]
      simp [Cursor.ending, hf]
    | some fault =>
      rw [hf] at hnode
      rw [Step.run_bind_of_error hnode]
      simp [Cursor.ending, hf]
  | cons node rest =>
    rw [hd] at hnode
    rw [Step.run_bind_of_ok hnode]
    cases node <;> rfl

theorem run_nextChild_layout {parent : StartTag} (h : parent.selfClosing = false) {s : String}
    (hs : Text.isBlankText s = true) (nodes : List Node) (fault : Option Fault) (strict : Bool)
    (events : List Event) :
    (nextChild parent).run ⟨.text s :: nodes, fault, strict, events⟩ =
      (nextChild parent).run ⟨nodes, fault, strict, events⟩ := by
  rw [run_nextChild h, run_nextChild h]
  simp only [List.dropWhile_cons, isLayout, hs, ↓reduceIte]
  rfl

theorem run_content_of_selfClosing {tag : StartTag} (h : tag.selfClosing = true)
    (reported : List Node → List Event) (c : Cursor) :
    (content tag reported).run c = (.ok [], c) := by
  simp [content, h]

theorem run_content {tag : StartTag} (h : tag.selfClosing = false)
    (reported : List Node → List Event) (c : Cursor) :
    (content tag reported).run c =
      match splitContent 0 c.ahead with
      | (inside, some after) =>
        (.ok inside, { c with ahead := after, events := c.events ++ reported inside })
      | (inside, none) =>
        (.error (c.ending tag.name),
          { c with ahead := [], events := c.events ++ reported inside }) := by
  simp only [content, h, Bool.false_eq_true, ↓reduceIte]
  rw [Step.run_here_bind]
  cases hc : splitContent 0 c.ahead with
  | mk inside after =>
    simp only
    rw [Step.run_goTo_bind]
    cases after <;> rfl

/-- What reading text reports about the content of an element with the tag. -/
def markupEvents (tag : StartTag) (ns : List Node) : List Event :=
  (startNames ns).map fun nested => .markupInText tag.name nested

theorem run_readText {tag : StartTag} (h : tag.selfClosing = false) (c : Cursor) :
    (readText tag).run c =
      match splitContent 0 c.ahead with
      | (inside, some after) =>
        (.ok (ownText 0 inside),
          { c with ahead := after, events := c.events ++ markupEvents tag inside })
      | (inside, none) =>
        (.error (c.ending tag.name),
          { c with ahead := [], events := c.events ++ markupEvents tag inside }) := by
  rw [readText, Step.run_bind, run_content h]
  cases splitContent 0 c.ahead with
  | mk inside after => cases after <;> rfl

theorem run_skip {tag : StartTag} (h : tag.selfClosing = false) (c : Cursor) :
    (skip tag).run c =
      match splitContent 0 c.ahead with
      | (_, some after) => (.ok (), { c with ahead := after })
      | (_, none) => (.error (c.ending tag.name), { c with ahead := [] }) := by
  rw [skip, Step.run_bind, run_content h]
  cases splitContent 0 c.ahead with
  | mk inside after => cases after <;> simp

theorem run_lenient_of_strict {c : Cursor} (h : c.strict = true) (e : ReadError) (event : Event) :
    (lenient e event).run c = (.error e, c) := by
  unfold lenient
  rw [Step.run_here_bind]
  simp [h]

theorem run_lenient_of_lenient {c : Cursor} (h : c.strict = false) (e : ReadError)
    (event : Event) :
    (lenient e event).run c = (.ok (), { c with events := c.events ++ [event] }) := by
  unfold lenient
  rw [Step.run_here_bind]
  simp [h]

theorem run_parseAttribute (t : SimpleType) (context : String) (a : Attribute) (c : Cursor) :
    (parseAttribute t context a).run c =
      ((t.read a.value).mapError (.invalidAttribute a.localName context), c) := by
  unfold parseAttribute
  cases t.read a.value <;> rfl

theorem run_parseContent (t : SimpleType) (tag : StartTag) (text : String) (c : Cursor) :
    (parseContent t tag text).run c =
      ((t.read text).mapError (.invalidContent tag.name), c) := by
  unfold parseContent
  cases t.read text <;> rfl

/-- What stops the search for a root element stops the reading of the document. -/
theorem run_document_of_noRoot {c : Cursor} {error : ReadError}
    (h : (root.run c).1 = .error error) : (document.run c).1 = .error (.read error) := by
  have hmap : (root.mapError DocumentError.read).run c = (.error (.read error), (root.run c).2) := by
    rw [Step.run_mapError, h]
    rfl
  unfold document
  rw [Step.run_bind_of_error hmap]

/-- Behind the root element's tag, a record of the type is read, whatever the tag's name. -/
theorem run_fragment {c c' : Cursor} {tag : StartTag} (hroot : root.run c = (.ok (some tag), c'))
    (t : RecordType) :
    (fragment t).run c = ((readRecord t tag).mapError DocumentError.read).run c' := by
  unfold fragment
  rw [Step.run_bind_of_ok (Step.run_mapError_of_ok hroot _)]

/-- Behind the root element's tag, its name decides how the document is read. -/
theorem run_document {c c' : Cursor} {tag : StartTag} (hroot : root.run c = (.ok (some tag), c')) :
    document.run c =
      (match Root.ofName? tag.name with
      | none => Step.fail (.unknownRoot tag.name)
      | some found =>
        ((readRecord found.type tag).attach (type_readRecord found.type tag)).mapError .read >>=
          fun r => return ⟨found, r.1, r.2⟩ : Step DocumentError Document).run
        { c' with events := c'.events ++ [.decoding tag.name c'.strict] } := by
  unfold document
  rw [Step.run_bind_of_ok (Step.run_mapError_of_ok hroot _)]
  simp only
  rw [Step.run_here_bind]
  exact Step.run_bind_of_ok (Step.run_report _ _)

theorem run_document_of_unknownRoot {c c' : Cursor} {tag : StartTag}
    (hroot : root.run c = (.ok (some tag), c')) (hname : Root.ofName? tag.name = none) :
    (document.run c).1 = .error (.unknownRoot tag.name) := by
  rw [run_document hroot, hname]
  rfl

theorem run_document_of_ok {c c' c'' : Cursor} {tag : StartTag} {found : Root} {r : Record}
    (hroot : root.run c = (.ok (some tag), c')) (hname : Root.ofName? tag.name = some found)
    (hrecord : (readRecord found.type tag).run
      { c' with events := c'.events ++ [.decoding tag.name c'.strict] } = (.ok r, c''))
    (typed : r.type = found.type) : (document.run c).1 = .ok ⟨found, r, typed⟩ := by
  have hread : (((readRecord found.type tag).attach (type_readRecord found.type tag)).mapError
      DocumentError.read).run { c' with events := c'.events ++ [.decoding tag.name c'.strict] } =
      (.ok ⟨r, typed⟩, c'') := by
    have hattach := Step.run_attach (type_readRecord found.type tag)
      { c' with events := c'.events ++ [.decoding tag.name c'.strict] }
    rw [hrecord] at hattach
    rw [Step.run_mapError]
    cases hrun : ((readRecord found.type tag).attach (type_readRecord found.type tag)).run
      { c' with events := c'.events ++ [.decoding tag.name c'.strict] } with
    | mk answer place =>
      rw [hrun] at hattach
      cases answer with
      | error e => cases hattach
      | ok answer =>
        cases hattach
        rfl
  rw [run_document hroot, hname]
  simp only
  rw [Step.run_bind_of_ok hread]
  rfl

/-- What stops the reading of the root element stops that of the document. -/
theorem run_document_of_error {c c' : Cursor} {tag : StartTag} {found : Root} {error : ReadError}
    (hroot : root.run c = (.ok (some tag), c')) (hname : Root.ofName? tag.name = some found)
    (hrecord : ((readRecord found.type tag).run
      { c' with events := c'.events ++ [.decoding tag.name c'.strict] }).1 = .error error) :
    (document.run c).1 = .error (.read error) := by
  have hattach := Step.run_attach (type_readRecord found.type tag)
    { c' with events := c'.events ++ [.decoding tag.name c'.strict] }
  rw [run_document hroot, hname]
  simp only
  rw [Step.run_bind, Step.run_mapError]
  rw [← hattach] at hrecord
  cases hrun : ((readRecord found.type tag).attach (type_readRecord found.type tag)).run
    { c' with events := c'.events ++ [.decoding tag.name c'.strict] } with
  | mk answer place =>
    rw [hrun] at hrecord
    cases answer with
    | ok answer => cases hrecord
    | error e =>
      cases hrecord
      rfl

end TableJoin.Reading

namespace TableJoin.Document

theorem decodeReporting_eq_run (strict : Bool) (xml : String) :
    decodeReporting strict xml =
      ((Reading.document.run (.ofText xml strict)).1,
        (Reading.document.run (.ofText xml strict)).2.events) := by
  unfold decodeReporting
  cases Reading.document.run (.ofText xml strict)
  rfl

theorem decode_eq_run (strict : Bool) (xml : String) :
    decode strict xml = (Reading.document.run (.ofText xml strict)).1 := by
  rw [decode, decodeReporting_eq_run]

end TableJoin.Document
