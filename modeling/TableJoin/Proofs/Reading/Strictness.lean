import TableJoin.Proofs.Reading.Run

/-!
Strict and lenient readers side by side.  Two readers at the same place of a
text take the same steps until the lenient one passes over something; there the
strict one rejects.  The event that a lenient reader reports is therefore an
exact trace of what a strict reader would have refused.
-/

namespace TableJoin

open Markup Schema Reading

/-- The event of a lenient reader that passes over what is not declared. -/
def Event.isSkip : Event → Bool
  | .unknownElement .. | .repeatedElement .. | .unknownAttribute .. | .strayText .. => true
  | _ => false

/-- An error that only the schema's reader raises, and only if it is strict. -/
def ReadError.isUndeclared : ReadError → Bool
  | .unknownElement .. | .duplicateElement .. | .unknownAttribute .. => true
  | _ => false

/-- An error with which a strict reader rejects a well-formed part.  Character
data in front of the root is refused in the same words, whatever the mode. -/
def ReadError.isRejection : ReadError → Bool
  | .unexpectedText .. => true
  | e => e.isUndeclared

def DocumentError.isRejection : DocumentError → Bool
  | .read e => e.isRejection
  | _ => false

/-- An error of a document that no lenient reader raises. -/
def DocumentError.isUndeclared : DocumentError → Bool
  | .read e => e.isUndeclared
  | _ => false

namespace Reading

/-- Two readers at one place of a text, the first strict and the second lenient.
What they reported so far may differ. -/
structure Twin (s l : Cursor) : Prop where
  strict : s.strict = true
  lenient : l.strict = false
  ahead : s.ahead = l.ahead
  fault : s.fault = l.fault

namespace Step

variable {ε ε' α β : Type} {rejects undeclared : ε → Bool}

/-- A step of a strict reader beside one of a lenient reader from the same
place.  The lenient one adds to its events and raises no error of the strict
kind.  If it skipped nothing, both end alike; if it skipped something, the strict
one has rejected. -/
def Parallel (rejects undeclared : ε → Bool) (x y : Step ε α) : Prop :=
  ∀ s l, Twin s l → ∃ new, (y.run l).2.events = l.events ++ new ∧
    (y.run l).2.strict = false ∧
    (∀ e, (y.run l).1 = .error e → undeclared e = false) ∧
    (new.any Event.isSkip = false ∧ (x.run s).1 = (y.run l).1 ∧
        Twin (x.run s).2 (y.run l).2 ∨
      new.any Event.isSkip = true ∧ ∃ e, (x.run s).1 = .error e ∧ rejects e = true)

/-- The lenient reader alone also has a strict reader at its side. -/
theorem twin_of_lenient {l : Cursor} (h : l.strict = false) :
    Twin { l with strict := true } l :=
  ⟨rfl, h, rfl, rfl⟩

theorem parallel_pure (a : α) :
    Parallel rejects undeclared (pure a : Step ε α) (pure a) := by
  intro s l h
  exact ⟨[], by simp, h.lenient, by simp, .inl ⟨rfl, rfl, h⟩⟩

theorem parallel_fail {e : ε} (he : undeclared e = false) :
    Parallel rejects undeclared (fail e : Step ε α) (fail e) := by
  intro s l h
  refine ⟨[], by simp, h.lenient, ?_, .inl ⟨rfl, rfl, h⟩⟩
  intro e' he'
  cases he'
  exact he

/-- Once the strict reader has rejected, whatever the lenient one goes on to do
leaves the rejection standing. -/
theorem parallel_bind {x y : Step ε α} {f g : α → Step ε β}
    (hx : Parallel rejects undeclared x y)
    (hf : ∀ a, Parallel rejects undeclared (f a) (g a)) :
    Parallel rejects undeclared (x >>= f) (y >>= g) := by
  intro s l h
  obtain ⟨new, hnew, hlenient, hund, houtcome⟩ := hx s l h
  obtain ⟨answer, l', hy⟩ : ∃ answer l', y.run l = (answer, l') := ⟨_, _, rfl⟩
  obtain ⟨answer', s', hxs⟩ : ∃ answer' s', x.run s = (answer', s') := ⟨_, _, rfl⟩
  simp only [hy, hxs] at hnew hlenient hund houtcome
  cases answer with
  | error e =>
    rw [run_bind_of_error hy]
    refine ⟨new, hnew, hlenient, fun e' he' => hund e' (by cases he'; rfl), ?_⟩
    rcases houtcome with ⟨hskip, rfl, htwin⟩ | ⟨hskip, e', rfl, hkind⟩
    · rw [run_bind_of_error hxs]
      exact .inl ⟨hskip, rfl, htwin⟩
    · rw [run_bind_of_error hxs]
      exact .inr ⟨hskip, e', rfl, hkind⟩
  | ok a =>
    rw [run_bind_of_ok hy]
    rcases houtcome with ⟨hskip, rfl, htwin⟩ | ⟨hskip, e', rfl, hkind⟩
    · rw [run_bind_of_ok hxs]
      obtain ⟨more, hmore, hlenient', hund', houtcome'⟩ := hf a s' l' htwin
      refine ⟨new ++ more, ?_, hlenient', hund', ?_⟩
      · rw [hmore, hnew, List.append_assoc]
      · simpa only [List.any_append, hskip, Bool.false_or] using houtcome'
    · rw [run_bind_of_error hxs]
      -- The lenient reader goes on alone; a twin of its own stands in for the strict one.
      obtain ⟨more, hmore, hlenient', hund', -⟩ := hf a _ l' (twin_of_lenient hlenient)
      refine ⟨new ++ more, ?_, hlenient', hund', .inr ⟨?_, e', rfl, hkind⟩⟩
      · rw [hmore, hnew, List.append_assoc]
      · rw [List.any_append, hskip, Bool.true_or]

theorem parallel_map {x y : Step ε α} (f : α → β) (hx : Parallel rejects undeclared x y) :
    Parallel rejects undeclared (f <$> x) (f <$> y) :=
  parallel_bind hx fun a => parallel_pure (f a)

theorem parallel_foldlM {f : β → α → Step ε β}
    (hf : ∀ b a, Parallel rejects undeclared (f b a) (f b a)) (as : List α) :
    ∀ b, Parallel rejects undeclared (as.foldlM f b) (as.foldlM f b) := by
  induction as with
  | nil => exact fun b => parallel_pure b
  | cons a rest ih =>
    intro b
    rw [List.foldlM_cons]
    exact parallel_bind (hf b a) ih

/-- Looking at the place shows two readers the same text ahead, not the same
mode. -/
theorem parallel_here {f g : Cursor → Step ε α}
    (hf : ∀ s l, Twin s l → Parallel rejects undeclared (f s) (g l)) :
    Parallel rejects undeclared (here >>= f) (here >>= g) :=
  fun s l h => hf s l h s l h

/-- Reports that are no skips may even differ. -/
theorem parallel_report {strictly leniently : List Event}
    (h : leniently.any Event.isSkip = false) :
    Parallel rejects undeclared (report strictly : Step ε Unit) (report leniently) := by
  intro s l ht
  refine ⟨leniently, rfl, ht.lenient, nofun, .inl ⟨h, rfl, ?_⟩⟩
  exact ⟨ht.strict, ht.lenient, ht.ahead, ht.fault⟩

/-- Renaming errors keeps two readers in parallel if it keeps both kinds. -/
theorem parallel_mapError {rejects' undeclared' : ε' → Bool} {x y : Step ε α} {g : ε → ε'}
    (hr : ∀ e, rejects' (g e) = rejects e) (hu : ∀ e, undeclared' (g e) = undeclared e)
    (hx : Parallel rejects undeclared x y) :
    Parallel rejects' undeclared' (x.mapError g) (y.mapError g) := by
  intro s l h
  obtain ⟨new, hnew, hlenient, hund, houtcome⟩ := hx s l h
  simp only [run_mapError]
  refine ⟨new, hnew, hlenient, ?_, ?_⟩
  · intro e he
    cases hy : (y.run l).1 with
    | ok a =>
      rw [hy] at he
      cases he
    | error e' =>
      rw [hy] at he
      cases he
      rw [hu]
      exact hund e' hy
  · rcases houtcome with ⟨hskip, hsame, htwin⟩ | ⟨hskip, e, hreject, hkind⟩
    · exact .inl ⟨hskip, by rw [hsame], htwin⟩
    · exact .inr ⟨hskip, g e, by rw [hreject]; rfl, by rw [hr, hkind]⟩

theorem parallel_attach {P : α → Prop} {x : Step ε α} (h : x.Ensures P)
    (hx : Parallel rejects undeclared x x) :
    Parallel rejects undeclared (x.attach h) (x.attach h) := by
  intro s l ht
  obtain ⟨new, hnew, hlenient, hund, houtcome⟩ := hx s l ht
  have hs := run_attach h s
  have hl := run_attach h l
  rw [← hs, ← hl] at houtcome
  rw [← hl] at hnew hlenient hund
  refine ⟨new, hnew, hlenient, ?_, ?_⟩
  · intro e he
    exact hund e (by rw [he]; rfl)
  · rcases houtcome with ⟨hskip, hsame, htwin⟩ | ⟨hskip, e, hreject, hkind⟩
    · refine .inl ⟨hskip, ?_, htwin⟩
      cases h₁ : ((x.attach h).run s).1 <;> cases h₂ : ((x.attach h).run l).1 <;>
        simp_all [Except.map, Subtype.ext_iff]
    · refine .inr ⟨hskip, e, ?_, hkind⟩
      cases h₁ : ((x.attach h).run s).1 <;> simp_all [Except.map]

end Step

open Step

/-- The readings of a strict and of a lenient reader of records. -/
abbrev ParallelReading {α : Type} (x : Step ReadError α) : Prop :=
  Parallel ReadError.isRejection ReadError.isUndeclared x x

theorem parallel_nextNode : ParallelReading nextNode := by
  intro s l h
  rw [run_nextNode, run_nextNode, h.ahead, h.fault]
  cases l.ahead.dropWhile isLayout with
  | nil =>
    cases l.fault with
    | none =>
      exact ⟨[], by simp, h.lenient, by simp,
        .inl ⟨rfl, rfl, h.strict, h.lenient, rfl, rfl⟩⟩
    | some fault =>
      refine ⟨[], by simp, h.lenient, ?_, .inl ⟨rfl, rfl, h.strict, h.lenient, rfl, rfl⟩⟩
      intro e he
      cases he
      rfl
  | cons node rest =>
    exact ⟨[], by simp, h.lenient, by simp,
      .inl ⟨rfl, rfl, h.strict, h.lenient, rfl, rfl⟩⟩

theorem parallel_root : ParallelReading root := by
  apply parallel_bind parallel_nextNode
  intro node
  match node with
  | some (.start tag) => exact parallel_pure _
  | some (.text s) => exact parallel_fail rfl
  | some .close => exact parallel_pure _
  | none => exact parallel_pure _

theorem parallel_nextChild (parent : StartTag) : ParallelReading (nextChild parent) := by
  unfold nextChild
  split
  · exact parallel_pure _
  · apply parallel_bind parallel_nextNode
    intro node
    match node with
    | some (.start tag) => exact parallel_pure _
    | some (.text s) => exact parallel_pure _
    | some .close => exact parallel_pure _
    | none => exact parallel_fail rfl

/-- An element's content is consumed in both modes alike. -/
theorem parallel_content (tag : StartTag) {reported : List Node → List Event}
    (hreported : ∀ nodes, (reported nodes).any Event.isSkip = false) :
    ParallelReading (content tag reported) := by
  intro s l h
  cases hself : tag.selfClosing with
  | true =>
    rw [run_content_of_selfClosing hself, run_content_of_selfClosing hself]
    exact ⟨[], by simp, h.lenient, by simp, .inl ⟨rfl, rfl, h⟩⟩
  | false =>
    rw [run_content hself, run_content hself, h.ahead]
    cases splitContent 0 l.ahead with
    | mk inside after =>
      refine ⟨reported inside, ?_⟩
      cases after with
      | some rest =>
        exact ⟨rfl, h.lenient, by simp,
          .inl ⟨hreported inside, rfl, h.strict, h.lenient, rfl, h.fault⟩⟩
      | none =>
        have hending : s.ending tag.name = l.ending tag.name := by
          rw [Cursor.ending, Cursor.ending, h.fault]
        refine ⟨rfl, h.lenient, ?_,
          .inl ⟨hreported inside, by simp [hending], h.strict, h.lenient, rfl, h.fault⟩⟩
        intro e he
        simp only [Except.error.injEq] at he
        rw [← he, Cursor.ending]
        cases l.fault <;> rfl

theorem parallel_readText (tag : StartTag) : ParallelReading (readText tag) := by
  refine parallel_bind (parallel_content tag fun nodes => ?_) fun inside => parallel_pure _
  rw [List.any_map, List.any_eq_false]
  intro name _
  exact Bool.false_ne_true

theorem parallel_skip (tag : StartTag) : ParallelReading (skip tag) :=
  parallel_bind (parallel_content tag fun _ => rfl) fun _ => parallel_pure _

/-- The one place where the modes part: the strict reader rejects exactly where
the lenient one reports that it skips. -/
theorem parallel_lenient {e : ReadError} {event : Event} (he : e.isRejection = true)
    (hevent : event.isSkip = true) : ParallelReading (lenient e event) := by
  intro s l h
  rw [run_lenient_of_strict h.strict, run_lenient_of_lenient h.lenient]
  exact ⟨[event], rfl, h.lenient, by simp, .inr ⟨by simp [hevent], e, rfl, he⟩⟩

theorem parallel_unknownElement (context : String) (tag : StartTag) :
    ParallelReading (unknownElement context tag) :=
  parallel_bind (parallel_lenient rfl rfl) fun _ => parallel_skip tag

theorem parallel_duplicateElement (context : String) (tag : StartTag) :
    ParallelReading (duplicateElement context tag) :=
  parallel_bind (parallel_lenient rfl rfl) fun _ => parallel_skip tag

theorem parallel_unknownAttribute (context : String) (a : Attribute) :
    ParallelReading (unknownAttribute context a) :=
  parallel_lenient rfl rfl

theorem parallel_unexpectedText (context text : String) :
    ParallelReading (unexpectedText context text) :=
  parallel_lenient rfl rfl

theorem parallel_parseAttribute (t : SimpleType) (context : String) (a : Attribute) :
    ParallelReading (parseAttribute t context a) := by
  unfold parseAttribute
  cases t.read a.value with
  | ok x => exact parallel_pure x
  | error cause => exact parallel_fail rfl

theorem parallel_parseContent (t : SimpleType) (tag : StartTag) (text : String) :
    ParallelReading (parseContent t tag text) := by
  unfold parseContent
  cases t.read text with
  | ok x => exact parallel_pure x
  | error cause => exact parallel_fail rfl

theorem parallel_readAttribute (r : Record) (a : Attribute) :
    ParallelReading (readAttribute r a) := by
  unfold readAttribute
  split
  · exact parallel_bind (parallel_parseAttribute _ _ a) fun _ => parallel_pure _
  · exact parallel_bind (parallel_unknownAttribute _ a) fun _ => parallel_pure r

theorem parallel_readRecordWith {children : StartTag → Record → Step ReadError Record}
    (hc : ∀ tag r, ParallelReading (children tag r)) (t : RecordType) (tag : StartTag) :
    ParallelReading (readRecordWith children t tag) := by
  unfold readRecordWith
  apply parallel_bind (parallel_foldlM parallel_readAttribute _ _)
  intro r
  split
  · apply parallel_bind (parallel_readText tag)
    intro text
    split
    · exact parallel_pure r
    · exact parallel_bind (parallel_parseContent _ tag text) fun _ => parallel_pure _
  · exact hc tag r

theorem parallel_readItemWith {children : StartTag → Record → Step ReadError Record}
    (hc : ∀ tag r, ParallelReading (children tag r)) (t : ItemType) (tag : StartTag) :
    ParallelReading (readItemWith children t tag) := by
  cases t with
  | simple s =>
    exact parallel_map _ (parallel_bind (parallel_readText tag) fun text =>
      parallel_parseContent s tag text)
  | record t => exact parallel_map _ (parallel_readRecordWith hc t tag)

/-- The readers of child elements stay side by side however deep they go; the
induction is on the fuel that both have. -/
theorem parallel_readChildren (fuel : Nat) :
    ∀ tag r, ParallelReading (readChildren fuel tag r) := by
  induction fuel with
  | zero =>
    intro tag r
    apply parallel_here
    intro s l h
    rw [Cursor.ending, Cursor.ending, h.fault]
    refine parallel_fail ?_
    cases l.fault <;> rfl
  | succ fuel ih =>
    intro tag r
    unfold readChildren
    apply parallel_bind (parallel_nextChild tag)
    intro child
    split
    · exact parallel_pure r
    · exact parallel_bind (parallel_unexpectedText _ _) fun _ => ih tag r
    · split
      · exact parallel_bind (parallel_unknownElement _ _) fun _ => ih tag r
      · split
        · exact parallel_bind (parallel_duplicateElement _ _) fun _ => ih tag r
        · exact parallel_bind (parallel_readItemWith ih _ _) fun _ => ih tag _

theorem parallel_readRecord (t : RecordType) (tag : StartTag) :
    ParallelReading (readRecord t tag) := by
  apply parallel_here
  intro s l h
  rw [h.ahead]
  exact parallel_readRecordWith (parallel_readChildren _) t tag

/-- An error of reading is the document's error of the same kind. -/
theorem parallel_read {α : Type} {x : Step ReadError α} (hx : ParallelReading x) :
    Parallel DocumentError.isRejection DocumentError.isUndeclared
      (x.mapError .read) (x.mapError .read) :=
  parallel_mapError (fun _ => rfl) (fun _ => rfl) hx

theorem parallel_document :
    Parallel DocumentError.isRejection DocumentError.isUndeclared document document := by
  apply parallel_bind (parallel_read parallel_root)
  intro found
  cases found with
  | none => exact parallel_fail rfl
  | some tag =>
    refine parallel_here fun s l _ => parallel_bind (parallel_report rfl) fun _ => ?_
    cases Root.ofName? tag.name with
    | none => exact parallel_fail rfl
    | some root =>
      have hrecord := parallel_attach (type_readRecord root.type tag)
        (parallel_readRecord root.type tag)
      exact parallel_bind (parallel_read hrecord) fun _ => parallel_pure _

end Reading

namespace Document

/-- How decoding ends in the two modes: alike if the lenient reader skipped
nothing, and else with a rejection in the strict one. -/
theorem decode_outcome (xml : String) :
    (∀ e, decode false xml = .error e → e.isUndeclared = false) ∧
      ((decodeReporting false xml).2.any Event.isSkip = false ∧
          decode true xml = decode false xml ∨
        (decodeReporting false xml).2.any Event.isSkip = true ∧
          ∃ e, decode true xml = .error e ∧ e.isRejection = true) := by
  have htwin : Twin (.ofText xml true) (.ofText xml false) := ⟨rfl, rfl, rfl, rfl⟩
  obtain ⟨new, hnew, -, hundeclared, houtcome⟩ := parallel_document _ _ htwin
  have hstart : (Cursor.ofText xml false).events = [] := rfl
  rw [hstart, List.nil_append] at hnew
  rw [decodeReporting_eq_run, decode_eq_run, decode_eq_run, hnew]
  refine ⟨hundeclared, ?_⟩
  rcases houtcome with ⟨hskip, hsame, -⟩ | houtcome
  · exact .inl ⟨hskip, hsame⟩
  · exact .inr houtcome

/-- Strict and lenient decoding differ only where the strict one must reject. -/
theorem strict_lenient_agreement (xml : String) :
    ((∀ e, decode true xml = .error e → e.isRejection = false) →
        decode false xml = decode true xml) ∧
      (∀ d, decode false xml = .ok d →
        ((∃ d', decode true xml = .ok d') ↔
          (decodeReporting false xml).2.any Event.isSkip = false) ∧
        ∀ d', decode true xml = .ok d' → d' = d) ∧
      ∀ e, decode false xml = .error e → e.isUndeclared = false := by
  obtain ⟨hundeclared, ⟨hskip, hsame⟩ | ⟨hskip, e, herror, hreject⟩⟩ := decode_outcome xml
  · refine ⟨fun _ => hsame.symm, fun d hd => ?_, hundeclared⟩
    rw [hsame, hd]
    refine ⟨⟨fun _ => hskip, fun _ => ⟨d, rfl⟩⟩, fun d' hd' => ?_⟩
    exact (Except.ok.inj hd').symm
  · refine ⟨fun h => ?_, fun d hd => ?_, hundeclared⟩
    · rw [h e herror] at hreject
      exact absurd hreject Bool.false_ne_true
    · rw [herror, hskip]
      simp

end Document

end TableJoin
