import TableJoin.Proofs.Reading.Consumption
import TableJoin.Proofs.Record.Items
import TableJoin.Proofs.Schema.Table

/-!
The reader refines decoding by declaration.  A reader that stands behind an
element's start tag answers with the element's record and stands behind its end
tag then, or fails with the first fault of the element.
-/

namespace TableJoin.Schema.Feature

open Markup

/-- What a feature holds after attributes have been read into a record. -/
def afterAttributes (as : List Attribute) (f : Feature) (before : List Item) : List Item :=
  match f.shape with
  | .attribute s =>
    (Attribute.lastNamed? f.xmlName.localName as).elim before fun a => textItems s a.value
  | _ => before

/-- What a feature holds after parts of content have been read into a record. -/
def afterParts (parts : List Part) (f : Feature) (before : List Item) : List Item :=
  match f.shape with
  | .element s isList =>
    if !isList && !before.isEmpty then before
    else before ++ Part.items s isList f.xmlName.localName parts
  | _ => before

theorem afterAttributes_nil (f : Feature) (before : List Item) :
    f.afterAttributes [] before = before := by
  unfold afterAttributes
  split <;> rfl

theorem afterAttributes_cons (a : Attribute) (rest : List Attribute) (f : Feature)
    (before : List Item) :
    afterAttributes (a :: rest) f before =
      afterAttributes rest f (afterAttributes [a] f before) := by
  unfold afterAttributes
  rcases f.shape with s | _ | ⟨_, _⟩
  · simp only [Attribute.lastNamed?, List.reverse_cons, List.find?_append, List.reverse_nil,
      List.nil_append]
    cases rest.reverse.find? (·.localName = f.xmlName.localName) <;> rfl
  · rfl
  · rfl

/-- An attribute of another name leaves a feature as it is. -/
theorem afterAttributes_of_ne {a : Attribute} {f : Feature}
    (h : f.shape.isAttribute = true → f.xmlName.localName ≠ a.localName) (before : List Item) :
    afterAttributes [a] f before = before := by
  unfold afterAttributes
  split
  · next s hs =>
    have hne : a.localName ≠ f.xmlName.localName := by
      rw [hs] at h
      exact (h rfl).symm
    simp [Attribute.lastNamed?, hne]
  · rfl

theorem afterAttributes_self {a : Attribute} {f : Feature} {s : SimpleType} {x : Scalar}
    (hs : f.shape = .attribute s) (hname : f.xmlName.localName = a.localName)
    (hx : s.read a.value = .ok x) (before : List Item) :
    afterAttributes [a] f before = [.scalar x] := by
  simp [afterAttributes, hs, Attribute.lastNamed?, hname, textItems, hx, Except.toOption]

theorem afterParts_nil (f : Feature) (before : List Item) :
    afterParts [] f before = before := by
  unfold afterParts
  split
  · simp [Part.items]
  · rfl

theorem afterParts_text (s : String) (rest : List Part) (f : Feature) (before : List Item) :
    afterParts (.text s :: rest) f before = afterParts rest f before := by
  unfold afterParts
  split <;> rfl

/-- An element of another name adds nothing to a feature. -/
theorem afterParts_element_of_ne {e : Element} {rest : List Part} {f : Feature}
    (h : f.shape.isElement = true → f.xmlName.localName ≠ e.name) (before : List Item) :
    afterParts (.element e :: rest) f before = afterParts rest f before := by
  unfold afterParts
  split
  · next s isList hs =>
    have hne : e.name ≠ f.xmlName.localName := by
      rw [hs] at h
      exact (h rfl).symm
    simp [Part.items, hne]
  · rfl

/-- A further occurrence of a single-valued element adds nothing. -/
theorem afterParts_element_of_held {e : Element} {rest : List Part} {f : Feature} {s : ItemType}
    (hs : f.shape = .element s false) {before : List Item} (h : before.isEmpty = false) :
    afterParts (.element e :: rest) f before = afterParts rest f before := by
  simp [afterParts, hs, h]

/-- An element of the feature's name adds its item. -/
theorem afterParts_element {e : Element} {rest : List Part} {f : Feature} {s : ItemType}
    {isList : Bool} {x : Item} (hs : f.shape = .element s isList)
    (hname : f.xmlName.localName = e.name) (hx : e.item? s = some x) {before : List Item}
    (h : (!isList && !before.isEmpty) = false) :
    afterParts (.element e :: rest) f before = afterParts rest f (before ++ [x]) := by
  simp only [afterParts, hs, h, Bool.false_eq_true, ↓reduceIte, Part.items, hname, hx,
    Option.toList_some]
  cases isList with
  | true => simp
  | false => simp_all

end TableJoin.Schema.Feature

namespace TableJoin.Reading

open Markup Schema Step

variable {strict : Bool}

/-- The local names that stood before, as far as the record shows them: its
single-valued elements that are set. -/
def Shows (t : RecordType) (seen : List String) (r : Record) : Prop :=
  ∀ name i s, t.element? name = some (i, s, false) → (r.holds i = true ↔ name ∈ seen)

theorem reads_readAttribute {r : Record} (hr : r.IsComplete) (a : Attribute) :
    Reads strict [] (attributeFaults strict r.type a)
      (r.Becomes (Feature.afterAttributes [a])) (readAttribute r a) := by
  unfold readAttribute attributeFaults
  cases hfound : r.type.attribute? a.localName with
  | none =>
    refine reads_bind_answer (reads_lenient _ _) fun _ _ => reads_pure ?_
    apply hr.becomes_self
    intro i f hf
    apply Feature.afterAttributes_of_ne
    intro hattribute heq
    obtain ⟨s, hfind⟩ := RecordType.attribute?_of_isAttribute hf hattribute
    rw [heq, hfound] at hfind
    cases hfind
  | some found =>
    obtain ⟨i, s⟩ := found
    obtain ⟨f, hf, hs, hname⟩ := RecordType.feature?_of_attribute? hfound
    apply reads_bind_answer (reads_parseAttribute s r.type.name a)
    intro x hx
    apply reads_pure
    apply hr.becomes_put hf
    · exact Feature.afterAttributes_self hs hname hx _
    · intro j g hg hij
      exact Feature.afterAttributes_of_ne (RecordType.localName_ne_of_attribute? hfound hg hij) _

theorem reads_attributes (as : List Attribute) : ∀ {r : Record}, r.IsComplete →
    Reads strict [] (as.flatMap (attributeFaults strict r.type))
      (r.Becomes (Feature.afterAttributes as)) (as.foldlM readAttribute r) := by
  induction as with
  | nil =>
    intro r hr
    exact reads_pure (hr.becomes_self fun _ f _ => f.afterAttributes_nil _)
  | cons a rest ih =>
    intro r hr
    rw [List.foldlM_cons, List.flatMap_cons]
    apply reads_bind_check (reads_readAttribute hr a)
    intro s hs
    rw [← hs.type_eq]
    refine (ih hs.complete).imp fun u hu => (hs.trans hu).congr fun i f _ => ?_
    exact (Feature.afterAttributes_cons a rest f _).symm

/-- What character content adds to a record. -/
def afterText (e : Element) (f : Feature) (before : List Item) : List Item :=
  match f.shape with
  | .body s => bodyItems s e.ownText
  | _ => before

/-- A type with character content: attributes and text make up the record. -/
theorem eq_record_of_text {t : RecordType} {e : Element} (hbody : t.body?.isSome = true)
    {r s : Record} (hr : (Record.empty t).Becomes (Feature.afterAttributes e.attributes) r)
    (hs : r.Becomes (afterText e) s) : s = e.record t := by
  obtain ⟨found, hfound⟩ := Option.isSome_iff_exists.mp hbody
  suffices h : (Record.empty t).Becomes (fun f _ => e.itemsOf f) s from h.eq_of_rule
  apply (hr.trans hs).congr
  intro i f hf
  rw [Record.items_empty]
  unfold afterText Feature.afterAttributes Element.itemsOf Element.itemsWith attributeItems
  rcases hshape : f.shape with _ | _ | ⟨_, _⟩
  · rfl
  · rfl
  · have helement := (RecordType.bodyAlone t found hfound).2 f (List.mem_of_getElem? hf)
    rw [hshape] at helement
    cases helement

/-- A type without character content: attributes and child elements make up the
record. -/
theorem eq_record_of_parts {t : RecordType} {e : Element} (hbody : t.body? = none)
    {r s : Record} (hr : (Record.empty t).Becomes (Feature.afterAttributes e.attributes) r)
    (hs : r.Becomes (Feature.afterParts e.parts) s) : s = e.record t := by
  suffices h : (Record.empty t).Becomes (fun f _ => e.itemsOf f) s from h.eq_of_rule
  apply (hr.trans hs).congr
  intro i f hf
  rw [Record.items_empty]
  unfold Feature.afterParts Feature.afterAttributes Element.itemsOf Element.itemsWith
    attributeItems
  rcases hshape : f.shape with _ | _ | ⟨_, _⟩
  · rfl
  · have hfound := RecordType.body?_of_feature? hf hshape
    rw [Record.type_empty, hbody] at hfound
    cases hfound
  · simp

/-- Before any content, a record shows no child element. -/
theorem shows_nil {t : RecordType} {as : List Attribute} {r : Record}
    (hr : (Record.empty t).Becomes (Feature.afterAttributes as) r) : Shows t [] r := by
  intro name i s hfound
  obtain ⟨f, hf, hs, -⟩ := RecordType.feature?_of_element? hfound
  have hitems : r.items i = [] := by
    rw [hr.items_eq i f hf, Record.items_empty]
    simp [Feature.afterAttributes, hs]
  simp [Record.holds, hitems]

theorem becomes_afterText {r : Record} (hr : r.IsComplete) (e : Element) {i : Nat}
    {s : SimpleType} (hfound : r.type.body? = some (i, s)) {items : List Item}
    (hitems : items = bodyItems s e.ownText) : r.Becomes (afterText e) (r.put i items) := by
  obtain ⟨f, hf, hs⟩ := RecordType.feature?_of_body? hfound
  refine hr.becomes_put hf ?_ ?_
  · simp only [afterText, hs, hitems]
  · intro j g hg hij
    unfold afterText
    split
    · next s' hs' =>
      rw [RecordType.body?_of_feature? hg hs'] at hfound
      simp only [Option.some.injEq, Prod.mk.injEq] at hfound
      exact absurd hfound.1.symm hij
    · rfl

/-- Blank text leaves the record as its attributes made it. -/
theorem becomes_afterText_of_blank {t : RecordType} {as : List Attribute} {r : Record}
    (hr : (Record.empty t).Becomes (Feature.afterAttributes as) r) {e : Element}
    (hblank : Text.isBlankText e.ownText = true) : r.Becomes (afterText e) r := by
  apply hr.complete.becomes_self
  intro i f hf
  rw [hr.type_eq] at hf
  rw [hr.items_eq i f hf, Record.items_empty]
  unfold afterText Feature.afterAttributes
  rcases f.shape with _ | _ | ⟨_, _⟩
  · rfl
  · simp [bodyItems, hblank]
  · rfl

theorem reads_readRecordWith {children : StartTag → Record → Step ReadError Record}
    (t : RecordType) (e : Element)
    (hchildren : ∀ r : Record, r.type = t → r.IsComplete → Shows t [] r →
      Reads strict e.inside (Part.faults strict t [] e.parts)
        (r.Becomes (Feature.afterParts e.parts)) (children e.tag r)) :
    Reads strict e.inside (e.faults strict (.record t)) (fun r => r = e.record t)
      (readRecordWith children t e.tag) := by
  unfold readRecordWith
  rw [Element.faults_record]
  apply reads_bind_check (reads_attributes _ (Record.isComplete_empty t))
  intro r hr
  have htype : r.type = t := hr.type_eq
  cases hbody : t.body? with
  | none =>
    apply (hchildren r htype hr.complete (shows_nil hr)).imp
    intro s hs
    exact eq_record_of_parts hbody hr hs
  | some found =>
    obtain ⟨i, s⟩ := found
    have hsome : t.body?.isSome = true := by rw [hbody]; rfl
    rw [← htype] at hbody
    rw [← List.append_nil e.inside]
    apply reads_bind_sound (reads_readText e)
    intro text htext
    subst htext
    cases hblank : Text.isBlankText e.ownText with
    | true =>
      simp only [↓reduceIte]
      exact reads_pure (eq_record_of_text hsome hr (becomes_afterText_of_blank hr hblank))
    | false =>
      simp only [Bool.false_eq_true, ↓reduceIte]
      refine reads_bind_answer (reads_parseContent s e.tag _) fun x hx => reads_pure ?_
      refine eq_record_of_text hsome hr (becomes_afterText hr.complete e hbody ?_)
      simp [bodyItems, hblank, textItems, hx, Except.toOption]

/-- Whether a declared element is a repetition shows in the record. -/
theorem Shows.repeats_eq {t : RecordType} {seen : List String} {r : Record} (h : Shows t seen r)
    {name : String} {i : Nat} {s : ItemType} {isList : Bool}
    (hfound : t.element? name = some (i, s, isList)) :
    (!isList && seen.contains name) = (!isList && r.holds i) := by
  cases isList with
  | true => rfl
  | false =>
    rw [Bool.not_false, Bool.true_and, Bool.true_and, Bool.eq_iff_iff, List.contains_iff_mem,
      h name i s hfound]

/-- An undeclared element shows nothing. -/
theorem Shows.cons_of_undeclared {t : RecordType} {seen : List String} {r : Record}
    (h : Shows t seen r) {name : String} (hname : t.element? name = none) :
    Shows t (name :: seen) r := by
  intro other i s hfound
  have hne : other ≠ name := by
    intro heq
    rw [heq, hname] at hfound
    cases hfound
  simpa only [List.mem_cons, hne, false_or] using h other i s hfound

theorem Shows.cons_of_mem {t : RecordType} {seen : List String} {r : Record}
    (h : Shows t seen r) {name : String} (hname : name ∈ seen) : Shows t (name :: seen) r := by
  intro other i s hfound
  rw [h other i s hfound, List.mem_cons]
  constructor
  · exact .inr
  · rintro (rfl | hmem)
    · exact hname
    · exact hmem

/-- A record with another item in one feature shows that element also. -/
theorem Shows.cons_of_put {r : Record} {seen : List String} (h : Shows r.type seen r)
    (hr : r.IsComplete) {name : String} {i : Nat} {s : ItemType} {isList : Bool}
    (hfound : r.type.element? name = some (i, s, isList)) (x : Item) :
    Shows r.type (name :: seen) (r.put i (r.items i ++ [x])) := by
  obtain ⟨f, hf, -, hname⟩ := RecordType.feature?_of_element? hfound
  intro other j s' hother
  by_cases hij : i = j
  · subst hij
    obtain ⟨g, hg, -, hgname⟩ := RecordType.feature?_of_element? hother
    rw [hf] at hg
    injection hg with hfg
    have heq : other = name := by rw [← hgname, ← hname, hfg]
    simp [Record.holds, hr.items_put hf, heq]
  · have hne : other ≠ name := by
      intro heq
      rw [heq, hfound] at hother
      injection hother with hpair
      exact hij (congrArg Prod.fst hpair)
    simp only [Record.holds, Record.items_put_of_ne r hij, List.mem_cons, hne, false_or]
    exact h other j s' hother

/-- An item is read from its element if the child elements of records are. -/
theorem reads_readItem {children : StartTag → Record → Step ReadError Record} (e : Element)
    (hchildren : ∀ (t : RecordType) (r : Record), r.type = t → r.IsComplete → Shows t [] r →
      Reads strict e.inside (Part.faults strict t [] e.parts)
        (r.Becomes (Feature.afterParts e.parts)) (children e.tag r)) (s : ItemType) :
    Reads strict e.inside (e.faults strict s) (fun x => e.item? s = some x)
      (readItemWith children s e.tag) := by
  cases s with
  | simple s =>
    rw [Element.faults_simple]
    apply reads_map _ (reads_readSimple s e)
    intro x hx
    rw [Element.item?_simple, hx]
    rfl
  | record t =>
    apply reads_map _ (reads_readRecordWith t e (hchildren t))
    intro r hr
    rw [Element.item?_record, hr]

/-- Character data where only elements may stand is reported or refused. -/
theorem reads_unexpectedText (t : RecordType) {s : String} (hs : Text.isBlankText s = false) :
    Reads strict [] (strayFaults strict t s) (fun _ => True) (unexpectedText t.name s) := by
  rw [strayFaults, hs]
  exact reads_lenient _ _

theorem reads_readChildren_of_selfClosing {tag : StartTag} (hself : tag.selfClosing = true)
    {r : Record} (hr : r.IsComplete) (fuel : Nat) :
    Reads strict [] [] (r.Becomes (Feature.afterParts [])) (readChildren (fuel + 1) tag r) := by
  unfold readChildren
  apply reads_bind_check (reads_nextChild_of_selfClosing hself)
  intro child hchild
  subst hchild
  exact reads_pure (hr.becomes_self fun _ f _ => f.afterParts_nil _)

/-- After an undeclared element the other parts decide. -/
theorem becomes_of_undeclared {r s : Record} {e : Element} {parts : List Part}
    (hfound : r.type.element? e.name = none)
    (h : r.Becomes (Feature.afterParts parts) s) :
    r.Becomes (Feature.afterParts (.element e :: parts)) s := by
  refine h.congr fun i f hf => (Feature.afterParts_element_of_ne ?_ _).symm
  intro helement heq
  obtain ⟨t, isList, hfind⟩ := RecordType.element?_of_isElement hf helement
  rw [heq, hfound] at hfind
  cases hfind

/-- After a further occurrence of a single-valued element the other parts decide. -/
theorem becomes_of_repeated {r s : Record} {e : Element} {parts : List Part} {i : Nat}
    {t : ItemType} (hfound : r.type.element? e.name = some (i, t, false))
    (hheld : r.holds i = true) (h : r.Becomes (Feature.afterParts parts) s) :
    r.Becomes (Feature.afterParts (.element e :: parts)) s := by
  obtain ⟨f, hf, hshape, hname⟩ := RecordType.feature?_of_element? hfound
  refine h.congr fun j g hg => Eq.symm ?_
  by_cases hij : i = j
  · subst hij
    rw [hf] at hg
    injection hg with hfg
    subst hfg
    apply Feature.afterParts_element_of_held hshape
    simpa [Record.holds] using hheld
  · apply Feature.afterParts_element_of_ne
    exact RecordType.localName_ne_of_element? hfound hg hij

/-- After an element that adds its item to a feature, the other parts decide. -/
theorem becomes_of_put {r s : Record} (hr : r.IsComplete) {e : Element} {parts : List Part}
    {i : Nat} {t : ItemType} {isList : Bool}
    (hfound : r.type.element? e.name = some (i, t, isList))
    (hheld : (!isList && r.holds i) = false) {x : Item} (hx : e.item? t = some x)
    (h : (r.put i (r.items i ++ [x])).Becomes (Feature.afterParts parts) s) :
    r.Becomes (Feature.afterParts (.element e :: parts)) s := by
  obtain ⟨f, hf, hshape, hname⟩ := RecordType.feature?_of_element? hfound
  refine ⟨h.type_eq, h.complete, fun j g hg => ?_⟩
  rw [h.items_eq j g hg]
  by_cases hij : i = j
  · subst hij
    rw [hf] at hg
    injection hg with hfg
    rw [← hfg, hr.items_put hf, Feature.afterParts_element hshape hname hx hheld]
  · have hne := RecordType.localName_ne_of_element? hfound hg hij
    rw [Record.items_put_of_ne r hij, Feature.afterParts_element_of_ne hne]

/-- What a part of content makes of a record: what it comes to with other parts, it came
to before with this part in front of them. -/
structure AfterPart (seen : List String) (p : Part) (r s : Record) : Prop where
  type_eq : s.type = r.type
  complete : s.IsComplete
  shows : Shows r.type (p.seen seen) s
  becomes : ∀ {parts : List Part} {u : Record}, s.Becomes (Feature.afterParts parts) u →
    r.Becomes (Feature.afterParts (p :: parts)) u

/-- The reading of child elements goes on with such a record, and the fuel is spent once
at most. -/
def GoesOn (fuel : Nat) (tag : StartTag) (Q : Record → Prop) (y : Step ReadError Record) : Prop :=
  ∃ fuel' s, y = readChildren fuel' tag s ∧ fuel ≤ fuel' ∧ Q s

section Step

variable {tag : StartTag} {r : Record} {seen : List String} {fuel : Nat}

theorem leads_text (hopen : tag.selfClosing = false) (hr : r.IsComplete)
    (hseen : Shows r.type seen r) (s : String) :
    Leads strict [.text s] (strayFaults strict r.type s)
      (GoesOn fuel tag (AfterPart seen (.text s) r)) (readChildren (fuel + 1) tag r) := by
  have hafter : AfterPart seen (.text s) r r := by
    refine ⟨rfl, hr, hseen, fun hu => hu.congr fun i f _ => ?_⟩
    exact (Feature.afterParts_text s _ f _).symm
  cases hblank : Text.isBlankText s with
  | true =>
    -- Blank text is layout in front of what follows, and no part of its own.
    rw [strayFaults, hblank]
    intro rest fault events
    refine ⟨readChildren (fuel + 1) tag r, events, ?_, fuel + 1, r, rfl, Nat.le_succ fuel, hafter⟩
    unfold readChildren
    rw [List.singleton_append, run_bind, run_bind, run_nextChild_layout hopen hblank]
  | false =>
    unfold readChildren
    rw [← List.append_nil [Node.text s]]
    apply leads_bind (reads_nextChild_text hopen hblank)
    intro child hchild
    subst hchild
    apply (reads_unexpectedText r.type hblank).leads
    exact fun _ _ => ⟨fuel, r, rfl, Nat.le_refl fuel, hafter⟩

/-- An element is passed over or adds an item to the record, if its item is read. -/
theorem leads_element (hopen : tag.selfClosing = false) (hr : r.IsComplete)
    (hseen : Shows r.type seen r) (e : Element)
    (hitem : ∀ s, Reads strict e.inside (e.faults strict s) (fun x => e.item? s = some x)
      (readItemWith (readChildren fuel) s e.tag)) :
    Leads strict (.start e.tag :: e.inside) (Part.ownFaults strict r.type seen (.element e))
      (GoesOn fuel tag (AfterPart seen (.element e) r)) (readChildren (fuel + 1) tag r) := by
  unfold readChildren
  rw [← List.singleton_append]
  apply leads_bind (reads_nextChild_start hopen)
  intro child hchild
  subst hchild
  have hdispatch : r.type.element? e.tag.name = r.type.element? e.name := rfl
  simp only [Part.ownFaults, hdispatch]
  have hgoes : ∀ {s : Record}, AfterPart seen (.element e) r s →
      GoesOn fuel tag (AfterPart seen (.element e) r) (readChildren fuel tag s) :=
    fun hs => ⟨fuel, _, rfl, Nat.le_refl fuel, hs⟩
  cases hfound : r.type.element? e.name with
  | none =>
    apply (reads_unknownElement r.type.name e).leads
    exact fun _ _ => hgoes ⟨rfl, hr, hseen.cons_of_undeclared hfound, becomes_of_undeclared hfound⟩
  | some found =>
    obtain ⟨i, s, isList⟩ := found
    simp only [hseen.repeats_eq hfound]
    cases hagain : !isList && r.holds i with
    | true =>
      obtain ⟨hlist, hholds⟩ := Bool.and_eq_true_iff.mp hagain
      obtain rfl : isList = false := by simpa using hlist
      have hmem : e.name ∈ seen := (hseen e.name i s hfound).mp hholds
      apply (reads_duplicateElement r.type.name e).leads
      exact fun _ _ => hgoes ⟨rfl, hr, hseen.cons_of_mem hmem, becomes_of_repeated hfound hholds⟩
    | false =>
      apply (hitem s).leads
      exact fun x hx => hgoes ⟨rfl, hr.put i _, hseen.cons_of_put hr hfound x,
        becomes_of_put hr hfound hagain hx⟩

/-- Where reading goes on behind a part, it takes the other parts. -/
theorem Leads.readChildren {ns ms : List Node} {fs gs : List ReadError} {p : Part}
    {parts : List Part}
    (h : Leads strict ns fs (GoesOn fuel tag (AfterPart seen p r)) (readChildren (fuel + 1) tag r))
    (hrest : ∀ (s : Record) (fuel' : Nat), fuel ≤ fuel' → s.IsComplete → s.type = r.type →
      Shows r.type (p.seen seen) s →
      Reads strict ms gs (s.Becomes (Feature.afterParts parts)) (Reading.readChildren fuel' tag s)) :
    Reads strict (ns ++ ms) (fs ++ gs) (r.Becomes (Feature.afterParts (p :: parts)))
      (Reading.readChildren (fuel + 1) tag r) := by
  apply h.reads
  rintro y ⟨fuel', s, rfl, hfuel, hs⟩
  exact (hrest s fuel' hfuel hs.complete hs.type_eq hs.shows).imp fun u hu => hs.becomes hu

end Step

mutual

/-- Reading the child elements of an element takes exactly the element's nodes. -/
theorem reads_childrenOf : (e : Element) → ∀ (fuel : Nat), e.inside.length < fuel →
    ∀ (t : RecordType) (r : Record), r.type = t → r.IsComplete → Shows t [] r →
      Reads strict e.inside (Part.faults strict t [] e.parts)
        (r.Becomes (Feature.afterParts e.parts)) (readChildren fuel e.tag r)
  | .empty .., 0, hfuel => absurd hfuel (Nat.not_lt_zero _)
  | .empty .., fuel + 1, _ => fun _ _ _ hr _ => reads_readChildren_of_selfClosing rfl hr fuel
  | .around _ _ _ parts, fuel, hfuel => by
    intro t r ht hr hseen
    subst ht
    have hlength : (Part.nodes parts).length < fuel := by
      simp only [Element.inside, List.length_append, List.length_singleton] at hfuel
      omega
    exact reads_readChildren parts _ r [] fuel rfl hr hseen hlength

/-- Reading child elements takes the nodes of the content and the end tag. -/
theorem reads_readChildren : (parts : List Part) → ∀ (tag : StartTag) (r : Record)
    (seen : List String) (fuel : Nat), tag.selfClosing = false → r.IsComplete →
      Shows r.type seen r → (Part.nodes parts).length < fuel →
      Reads strict (Part.nodes parts ++ [.close]) (Part.faults strict r.type seen parts)
        (r.Becomes (Feature.afterParts parts)) (readChildren fuel tag r)
  | _, _, _, _, 0, _, _, _, hfuel => absurd hfuel (Nat.not_lt_zero _)
  | [], tag, r, seen, fuel + 1, hopen, hr, hseen, hfuel => by
    unfold readChildren
    rw [Part.nodes_nil, List.nil_append, ← List.append_nil [Node.close]]
    apply reads_bind_sound (reads_nextChild_close hopen)
    intro child hchild
    subst hchild
    exact reads_pure (hr.becomes_self fun _ f _ => f.afterParts_nil _)
  | .text s :: parts, tag, r, seen, fuel + 1, hopen, hr, hseen, hfuel => by
    simp only [Part.nodes_text, List.length_cons] at hfuel
    rw [Part.nodes, List.append_assoc, Part.faults_cons]
    apply (leads_text hopen hr hseen s).readChildren
    intro u fuel' hfuel' hu htype hshows
    rw [← htype] at hshows ⊢
    exact reads_readChildren parts tag u _ fuel' hopen hu hshows (by omega)
  | .element e :: parts, tag, r, seen, fuel + 1, hopen, hr, hseen, hfuel => by
    simp only [Part.nodes_element, List.length_cons, List.length_append] at hfuel
    have hitem : ∀ s, Reads strict e.inside (e.faults strict s) (fun x => e.item? s = some x)
        (readItemWith (readChildren fuel) s e.tag) :=
      reads_readItem e (reads_childrenOf e fuel (by omega))
    rw [Part.nodes, List.append_assoc, Part.faults_cons]
    apply (leads_element hopen hr hseen e hitem).readChildren
    intro u fuel' hfuel' hu htype hshows
    rw [← htype] at hshows ⊢
    exact reads_readChildren parts tag u _ fuel' hopen hu hshows (by omega)

end

/-- Reading a record takes exactly the nodes of its element. -/
theorem reads_readRecord (t : RecordType) (e : Element) :
    Reads strict e.inside (e.faults strict (.record t)) (fun r => r = e.record t)
      (readRecord t e.tag) := by
  intro rest fault events
  unfold readRecord
  rw [run_here_bind]
  have hfuel : e.inside.length < (e.inside ++ rest).length + 1 := by
    rw [List.length_append]
    omega
  exact reads_readRecordWith t e (reads_childrenOf e _ hfuel t) rest fault events

/-- The reader decodes as declared, in both modes and in front of any input.  Where
the element decodes to a record, it answers with the record and stands right behind
the element; else it fails with the first fault of the element. -/
theorem readRecord_refines_decode (t : RecordType) (strict : Bool) (e : Element)
    (rest : List Node) (fault : Option Fault) (events : List Event) :
    match e.decode strict t with
    | .ok r => ∃ events', (readRecord t e.tag).run ⟨e.inside ++ rest, fault, strict, events⟩ =
        (.ok r, ⟨rest, fault, strict, events'⟩)
    | .error error =>
      ((readRecord t e.tag).run ⟨e.inside ++ rest, fault, strict, events⟩).1 =
        .error error := by
  have hrun := (reads_readRecord t e : Reads strict _ _ _ _) rest fault events
  unfold Element.decode
  cases hfaults : e.faults strict (.record t) with
  | nil =>
    rw [hfaults] at hrun
    obtain ⟨r, events', hrun, rfl⟩ := hrun
    exact ⟨events', hrun⟩
  | cons error faults =>
    rw [hfaults] at hrun
    exact hrun

end TableJoin.Reading
