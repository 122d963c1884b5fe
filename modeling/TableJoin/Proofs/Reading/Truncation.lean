import TableJoin.Proofs.Reading.Extent
import TableJoin.Proofs.Reading.Refinement

/-!
Truncated elements: a reader that is given the beginning of an element, and no end of it,
fails.  What it fails with is the first fault of what it has read or, where there is none,
that the input ends inside the element that it reads or passes over just then.
-/

namespace TableJoin.Markup

open Schema Reading

/-- An element whose end is missing.  Its tag is open, and behind parts of its content
nothing follows or an element whose end is missing, too. -/
inductive OpenElement where
  | cut (nsPrefix : Option String) (name : String) (attributes : List Attribute)
      (parts : List Part)
  | around (nsPrefix : Option String) (name : String) (attributes : List Attribute)
      (parts : List Part) (inner : OpenElement)

namespace OpenElement

def tag : OpenElement → StartTag
  | cut nsPrefix name attributes _ => ⟨nsPrefix, name, attributes, false⟩
  | around nsPrefix name attributes _ _ => ⟨nsPrefix, name, attributes, false⟩

def name (o : OpenElement) : String := o.tag.name

/-- The nodes behind the start tag, up to the end of the input. -/
def inside : OpenElement → List Node
  | cut _ _ _ parts => Part.nodes parts
  | around _ _ _ parts inner => Part.nodes parts ++ .start inner.tag :: inner.inside

def nodes (o : OpenElement) : List Node := .start o.tag :: o.inside

@[simp] theorem selfClosing_tag (o : OpenElement) : o.tag.selfClosing = false := by
  cases o <;> rfl

theorem unclosed_inside (o : OpenElement) : Unclosed o.inside := by
  induction o with
  | cut _ _ _ parts => exact .parts parts
  | around _ _ _ parts inner ih => exact .start parts inner.selfClosing_tag ih

/-- Where no end tag follows an open tag, there is an element whose end is missing. -/
theorem exists_of_unclosed {ns : List Node} (h : Unclosed ns) :
    ∀ {tag : StartTag}, tag.selfClosing = false →
      ∃ o : OpenElement, o.nodes = .start tag :: ns := by
  induction h with
  | parts ps =>
    intro tag hopen
    obtain ⟨nsPrefix, name, attributes, selfClosing⟩ := tag
    subst hopen
    exact ⟨.cut nsPrefix name attributes ps, rfl⟩
  | start ps hinner _ ih =>
    intro tag hopen
    obtain ⟨nsPrefix, name, attributes, selfClosing⟩ := tag
    subst hopen
    obtain ⟨inner, heq⟩ := ih hinner
    refine ⟨.around nsPrefix name attributes ps inner, ?_⟩
    rw [← heq]
    rfl

end OpenElement

/-- What a child element is read as behind parts of a record's content.  It is not read
where the type does not declare it, nor where a single-valued one stands already. -/
def Part.readAs? (t : RecordType) (parts : List Part) (name : String) : Option ItemType :=
  match t.element? name with
  | none => none
  | some (_, s, isList) =>
    if !isList && (Part.elements parts).any (·.name = name) then none else some s

theorem Part.readAs?_eq_some {t : RecordType} {parts : List Part} {name : String}
    {s : ItemType} : Part.readAs? t parts name = some s ↔
      ∃ i isList, t.element? name = some (i, s, isList) ∧
        (!isList && (Part.elements parts).any (·.name = name)) = false := by
  unfold readAs?
  cases t.element? name with
  | none => simp
  | some found =>
    obtain ⟨i, s', isList⟩ := found
    simp only [Option.some.injEq, Prod.mk.injEq]
    by_cases hagain : (!isList && (Part.elements parts).any (·.name = name)) = true
    · rw [if_pos hagain]
      constructor
      · exact nofun
      · rintro ⟨_, _, ⟨rfl, rfl, rfl⟩, hfirst⟩
        rw [hagain] at hfirst
        cases hfirst
    · rw [if_neg hagain]
      constructor
      · intro h
        cases h
        exact ⟨i, isList, ⟨rfl, rfl, rfl⟩, Bool.eq_false_iff.mpr hagain⟩
      · rintro ⟨_, _, ⟨rfl, rfl, rfl⟩, -⟩
        rfl

/-- What a strict reader refuses a child element for that is not read. -/
def Part.rejection (t : RecordType) (name : String) : ReadError :=
  match t.element? name with
  | none => .unknownElement name t.name
  | some _ => .duplicateElement name t.name

namespace OpenElement

/-- What is refused of an element whose end is missing, in the order of the document.
Character content without an end is not looked at. -/
def faults (strict : Bool) : ItemType → OpenElement → List ReadError
  | .simple _, _ => []
  | .record t, cut _ _ attributes parts =>
    attributes.flatMap (attributeFaults strict t) ++
      if t.body?.isSome then [] else Part.faults strict t [] parts
  | .record t, around _ _ attributes parts inner =>
    attributes.flatMap (attributeFaults strict t) ++
      if t.body?.isSome then []
      else
        Part.faults strict t [] parts ++
          match Part.readAs? t parts inner.name with
          | some s => inner.faults strict s
          | none => if strict then [Part.rejection t inner.name] else []
termination_by structural _ o => o

/-- The name of the innermost element that is being read or passed over at the end of the
input: elements inside character content and inside one that is passed over do not
count. -/
def innermost : ItemType → OpenElement → String
  | .simple _, o => o.name
  | .record _, cut _ name _ _ => name
  | .record t, around _ name _ parts inner =>
    if t.body?.isSome then name
    else
      match Part.readAs? t parts inner.name with
      | some s => inner.innermost s
      | none => inner.name
termination_by structural _ o => o

end OpenElement

theorem Part.contains_foldl_seen (parts : List Part) (name : String) : ∀ seen : List String,
    (parts.foldl Part.seen seen).contains name =
      (seen.contains name || (Part.elements parts).any (·.name = name)) := by
  induction parts with
  | nil => simp [Part.elements]
  | cons p rest ih =>
    intro seen
    rw [List.foldl_cons, ih]
    cases p with
    | text s => rfl
    | element e =>
      simp only [Part.seen, Part.elements, List.contains_cons, List.any_cons]
      by_cases hname : e.name = name
      · simp [hname]
      · have hne : (name == e.name) = false := by simpa using fun heq => hname heq.symm
        simp [hname, hne]

end TableJoin.Markup

namespace TableJoin.Reading

open Markup Schema Step

/-- The input ends behind these nodes.  The step fails with the first of the faults or, if
there is none, because the input ends inside the element. -/
def Fails {α : Type} (strict : Bool) (nodes : List Node) (faults : List ReadError)
    (element : String) (x : Step ReadError α) : Prop :=
  ∀ (fault : Option Fault) (events : List Event),
    (x.run ⟨nodes, fault, strict, events⟩).1 =
      .error (faults.headD (Cursor.ending ⟨nodes, fault, strict, events⟩ element))

section Rules

variable {α β : Type} {strict : Bool} {ns ms : List Node} {fs gs : List ReadError}
  {element : String} {P : α → Prop} {x : Step ReadError α}

theorem Fails.bind (hx : Fails strict ns fs element x) (f : α → Step ReadError β) :
    Fails strict ns fs element (x >>= f) := by
  intro fault events
  have hfails := hx fault events
  cases hrun : x.run ⟨ns, fault, strict, events⟩ with
  | mk answer c =>
    rw [hrun] at hfails
    simp only at hfails
    rw [hfails] at hrun
    rw [run_bind_of_error hrun]

theorem Fails.map (hx : Fails strict ns fs element x) (f : α → β) :
    Fails strict ns fs element (f <$> x) :=
  hx.bind _

theorem Reads.fails {f : α → Step ReadError β} (hx : Reads strict ns fs P x)
    (hf : ∀ a, P a → Fails strict ms gs element (f a)) :
    Fails strict (ns ++ ms) (fs ++ gs) element (x >>= f) := by
  intro fault events
  have hrun := hx ms fault events
  cases fs with
  | nil =>
    obtain ⟨a, events', hrun, ha⟩ := hrun
    rw [run_bind_of_ok hrun]
    exact hf a ha fault events'
  | cons error fs =>
    cases hanswer : x.run ⟨ns ++ ms, fault, strict, events⟩ with
    | mk answer c =>
      simp only [hanswer] at hrun
      subst hrun
      simp only [run_bind_of_error hanswer, List.cons_append, List.headD_cons]

theorem Reads.fails_check {f : α → Step ReadError β} (hx : Reads strict [] fs P x)
    (hf : ∀ a, P a → Fails strict ms gs element (f a)) :
    Fails strict ms (fs ++ gs) element (x >>= f) :=
  hx.fails hf

theorem Leads.fails {R : Step ReadError α → Prop} (hx : Leads strict ns fs R x)
    (hy : ∀ y, R y → Fails strict ms gs element y) :
    Fails strict (ns ++ ms) (fs ++ gs) element x := by
  intro fault events
  have hrun := hx ms fault events
  cases fs with
  | nil =>
    obtain ⟨y, events', hrun, hR⟩ := hrun
    rw [hrun]
    exact hy y hR fault events'
  | cons error fs => exact hrun

end Rules

section Steps

variable {strict : Bool} {ns : List Node} {tag : StartTag}

/-- The content of an element without an end is not found. -/
theorem fails_content (hopen : tag.selfClosing = false) (h : Unclosed ns)
    (reported : List Node → List Event) :
    Fails strict ns [] tag.name (content tag reported) := by
  intro fault events
  rw [run_content hopen]
  have hnone := splitContent_of_unclosed h 0
  cases hsplit : splitContent 0 ns with
  | mk inside after =>
    rw [hsplit] at hnone
    simp only at hnone
    subst hnone
    rfl

theorem fails_readText (hopen : tag.selfClosing = false) (h : Unclosed ns) :
    Fails strict ns [] tag.name (readText tag) :=
  (fails_content hopen h _).bind _

theorem fails_skip (hopen : tag.selfClosing = false) (h : Unclosed ns) :
    Fails strict ns [] tag.name (skip tag) :=
  (fails_content hopen h _).bind _

/-- An element that is passed over is refused, or its end is missed. -/
theorem fails_unknownElement (hopen : tag.selfClosing = false) (h : Unclosed ns)
    (context : String) :
    Fails strict ns (if strict then [.unknownElement tag.name context] else []) tag.name
      (unknownElement context tag) := by
  rw [← List.append_nil (if strict then _ else _)]
  exact (reads_lenient _ _).fails_check fun _ _ => fails_skip hopen h

theorem fails_duplicateElement (hopen : tag.selfClosing = false) (h : Unclosed ns)
    (context : String) :
    Fails strict ns (if strict then [.duplicateElement tag.name context] else []) tag.name
      (duplicateElement context tag) := by
  rw [← List.append_nil (if strict then _ else _)]
  exact (reads_lenient _ _).fails_check fun _ _ => fails_skip hopen h

theorem fails_nextChild (hopen : tag.selfClosing = false) :
    Fails strict [] [] tag.name (nextChild tag) := by
  intro fault events
  rw [run_nextChild hopen]
  rfl

theorem fails_readSimple (hopen : tag.selfClosing = false) (h : Unclosed ns) (s : SimpleType) :
    Fails strict ns [] tag.name (readSimple s tag) :=
  (fails_readText hopen h).bind _

end Steps

section Children

variable {strict : Bool} {tag : StartTag} {ms : List Node} {gs : List ReadError}
  {element : String}

theorem fails_readChildren_parts {t : RecordType} (hopen : tag.selfClosing = false)
    (parts : List Part) : ∀ (r : Record) (seen : List String) (fuel : Nat), r.type = t →
      r.IsComplete → Shows t seen r → (Part.nodes parts ++ ms).length < fuel →
      (∀ (s : Record) (fuel' : Nat), s.type = t → s.IsComplete →
        Shows t (parts.foldl Part.seen seen) s → ms.length < fuel' →
        Fails strict ms gs element (readChildren fuel' tag s)) →
      Fails strict (Part.nodes parts ++ ms) (Part.faults strict t seen parts ++ gs) element
        (readChildren fuel tag r) := by
  induction parts with
  | nil =>
    intro r seen fuel ht hr hseen hfuel htail
    exact htail r fuel ht hr hseen hfuel
  | cons p rest ih =>
    intro r seen fuel ht hr hseen hfuel htail
    subst ht
    obtain ⟨fuel, rfl⟩ := Nat.exists_eq_add_one_of_ne_zero (Nat.ne_zero_of_lt hfuel)
    have hthen : ∀ {ns fs}, Leads strict ns fs (GoesOn fuel tag (AfterPart seen p r))
        (readChildren (fuel + 1) tag r) → (Part.nodes rest ++ ms).length < fuel →
        Fails strict (ns ++ (Part.nodes rest ++ ms))
          (fs ++ (Part.faults strict r.type (p.seen seen) rest ++ gs)) element
          (readChildren (fuel + 1) tag r) := by
      intro ns fs hleads hless
      apply hleads.fails
      rintro y ⟨fuel', s, rfl, hfuel', hs⟩
      apply ih s _ fuel' hs.type_eq hs.complete hs.shows (by omega)
      exact htail
    rw [Part.nodes, List.append_assoc, Part.faults_cons, List.append_assoc]
    rw [Part.nodes, List.append_assoc, List.length_append] at hfuel
    cases p with
    | text s =>
      apply hthen (leads_text hopen hr hseen s)
      simp only [Part.own, List.length_singleton] at hfuel
      omega
    | element e =>
      simp only [Part.own, List.length_cons] at hfuel
      apply hthen (leads_element hopen hr hseen e
        (reads_readItem e (reads_childrenOf e fuel (by omega))))
      omega

variable {t : RecordType} {parts : List Part} {r : Record} {inner : OpenElement} {fuel : Nat}

/-- Whether a declared element is a repetition shows in the record. -/
theorem Shows.repeats_eq_any (h : Shows t (parts.foldl Part.seen []) r) {name : String} {i : Nat}
    {s : ItemType} {isList : Bool} (hfound : t.element? name = some (i, s, isList)) :
    (!isList && (Part.elements parts).any (·.name = name)) = (!isList && r.holds i) := by
  rw [← h.repeats_eq hfound, Part.contains_foldl_seen]
  rfl

theorem fails_readChildren_read (hopen : tag.selfClosing = false) (ht : r.type = t)
    (hseen : Shows t (parts.foldl Part.seen []) r) {s : ItemType}
    (hread : Part.readAs? t parts inner.name = some s)
    (hinner : Fails strict inner.inside gs element
      (readItemWith (readChildren fuel) s inner.tag)) :
    Fails strict (.start inner.tag :: inner.inside) gs element
      (readChildren (fuel + 1) tag r) := by
  subst ht
  obtain ⟨i, isList, hfound, hagain⟩ := Part.readAs?_eq_some.mp hread
  rw [hseen.repeats_eq_any hfound] at hagain
  unfold readChildren
  rw [← List.singleton_append, ← List.nil_append gs]
  apply (reads_nextChild_start hopen).fails
  intro child hchild
  subst hchild
  have hdispatch : r.type.element? inner.tag.name = some (i, s, isList) := hfound
  simp only [hdispatch, hagain, Bool.false_eq_true, ↓reduceIte]
  exact hinner.bind _

/-- A child element that is passed over and has no end. -/
theorem fails_readChildren_skipped (hopen : tag.selfClosing = false) (ht : r.type = t)
    (hseen : Shows t (parts.foldl Part.seen []) r)
    (hskipped : Part.readAs? t parts inner.name = none) :
    Fails strict (.start inner.tag :: inner.inside)
      (if strict then [Part.rejection t inner.name] else []) inner.name
      (readChildren (fuel + 1) tag r) := by
  subst ht
  unfold readChildren
  rw [← List.singleton_append, ← List.nil_append (if strict then _ else _)]
  apply (reads_nextChild_start hopen).fails
  intro child hchild
  subst hchild
  have hdispatch : r.type.element? inner.tag.name = r.type.element? inner.name := rfl
  simp only [hdispatch, Part.rejection]
  cases hfound : r.type.element? inner.name with
  | none => exact (fails_unknownElement inner.selfClosing_tag inner.unclosed_inside _).bind _
  | some found =>
    obtain ⟨i, s, isList⟩ := found
    have hagain : (!isList && r.holds i) = true := by
      rw [← hseen.repeats_eq_any hfound, ← Bool.not_eq_false]
      intro hfirst
      have hread := Part.readAs?_eq_some.mpr ⟨i, isList, hfound, hfirst⟩
      rw [hskipped] at hread
      cases hread
    simp only [hagain, ↓reduceIte]
    exact (fails_duplicateElement inner.selfClosing_tag inner.unclosed_inside _).bind _

/-- An item without an end is not read, if no record is that begins so. -/
theorem fails_readItem {children : StartTag → Record → Step ReadError Record} (o : OpenElement)
    (h : ∀ t, Fails strict o.inside (o.faults strict (.record t)) (o.innermost (.record t))
      (readRecordWith children t o.tag)) (s : ItemType) :
    Fails strict o.inside (o.faults strict s) (o.innermost s) (readItemWith children s o.tag) := by
  cases s with
  | record t => exact (h t).map _
  | simple s =>
    have hsimple : Fails strict o.inside [] o.name (Item.scalar <$> readSimple s o.tag) :=
      (fails_readSimple o.selfClosing_tag o.unclosed_inside s).map _
    cases o <;> exact hsimple

/-- A record without an end is not read: its attributes come first, and then its text or
its child elements. -/
theorem fails_readRecordWith {children : StartTag → Record → Step ReadError Record}
    (o : OpenElement)
    (hchildren : ∀ r : Record, r.type = t → r.IsComplete → Shows t [] r →
      Fails strict o.inside gs element (children o.tag r)) :
    Fails strict o.inside
      (o.tag.attributes.flatMap (attributeFaults strict t) ++ if t.body?.isSome then [] else gs)
      (if t.body?.isSome then o.name else element) (readRecordWith children t o.tag) := by
  unfold readRecordWith
  apply (reads_attributes _ (Record.isComplete_empty t)).fails_check
  intro r hr
  cases hbody : t.body? with
  | none => exact hchildren r hr.type_eq hr.complete (shows_nil hr)
  | some found =>
    exact (fails_readText o.selfClosing_tag o.unclosed_inside).bind _

/-- A record whose element has no end is not read, however deep the end of the input
lies. -/
theorem fails_readRecord_open (o : OpenElement) : ∀ (fuel : Nat), o.inside.length < fuel →
    ∀ t, Fails strict o.inside (o.faults strict (.record t)) (o.innermost (.record t))
      (readRecordWith (readChildren fuel) t o.tag) := by
  induction o with
  | cut nsPrefix name attributes parts =>
    intro fuel hfuel t
    have hchildren : ∀ r : Record, r.type = t → r.IsComplete → Shows t [] r →
        Fails strict (Part.nodes parts ++ []) (Part.faults strict t [] parts ++ [])
          (OpenElement.cut nsPrefix name attributes parts).name
          (readChildren fuel ⟨nsPrefix, name, attributes, false⟩ r) := by
      intro r ht hr hseen
      apply fails_readChildren_parts rfl parts r [] fuel ht hr hseen
      · rwa [List.append_nil]
      · intro s fuel' _ _ _ hfuel'
        obtain ⟨fuel', rfl⟩ := Nat.exists_eq_add_one_of_ne_zero (Nat.ne_zero_of_lt hfuel')
        unfold readChildren
        exact (fails_nextChild rfl).bind _
    rw [List.append_nil, List.append_nil] at hchildren
    have hrecord := fails_readRecordWith (.cut nsPrefix name attributes parts) hchildren
    rw [ite_self] at hrecord
    exact hrecord
  | around nsPrefix name attributes parts inner ih =>
    intro fuel hfuel t
    have hbehind : ∀ {gs : List ReadError} {element : String},
        (∀ (s : Record) (fuel' : Nat), s.type = t → Shows t (parts.foldl Part.seen []) s →
          inner.inside.length < fuel' →
          Fails strict (.start inner.tag :: inner.inside) gs element
            (readChildren (fuel' + 1) ⟨nsPrefix, name, attributes, false⟩ s)) →
        ∀ r : Record, r.type = t → r.IsComplete → Shows t [] r →
          Fails strict (Part.nodes parts ++ .start inner.tag :: inner.inside)
            (Part.faults strict t [] parts ++ gs) element
            (readChildren fuel ⟨nsPrefix, name, attributes, false⟩ r) := by
      intro gs element htail r ht hr hseen
      apply fails_readChildren_parts rfl parts r [] fuel ht hr hseen hfuel
      intro s fuel' hs _ hshows hfuel'
      obtain ⟨fuel', rfl⟩ := Nat.exists_eq_add_one_of_ne_zero (Nat.ne_zero_of_lt hfuel')
      exact htail s fuel' hs hshows (Nat.lt_of_succ_lt_succ hfuel')
    cases hread : Part.readAs? t parts inner.name with
    | some s =>
      have hrecord := fails_readRecordWith (.around nsPrefix name attributes parts inner)
        (hbehind fun u fuel' hu hshows hfuel' =>
          fails_readChildren_read rfl hu hshows hread (fails_readItem inner (ih fuel' hfuel') s))
      simp only [OpenElement.faults, OpenElement.innermost, hread]
      exact hrecord
    | none =>
      have hrecord := fails_readRecordWith (.around nsPrefix name attributes parts inner)
        (hbehind fun u fuel' hu hshows _ => fails_readChildren_skipped rfl hu hshows hread)
      simp only [OpenElement.faults, OpenElement.innermost, hread]
      exact hrecord

theorem fails_readRecord (t : RecordType) (o : OpenElement) :
    Fails strict o.inside (o.faults strict (.record t)) (o.innermost (.record t))
      (readRecord t o.tag) := by
  intro fault events
  unfold readRecord
  rw [run_here_bind]
  exact fails_readRecord_open o _ (Nat.lt_succ_self _) t fault events

end Children

end TableJoin.Reading
