import TableJoin.Proofs.Document.Decoding
import TableJoin.Proofs.Record.Envelope
import TableJoin.Proofs.Writing.Elements
import TableJoin.Record.Construction

/-!
Reading the envelope of a request alone: whatever the text of a request holds beside it, a
lenient reader finds the envelope, since it reads three attributes and passes over the rest.
-/

namespace TableJoin

open Markup Schema Reading Writing

/-- The record of the type that a text is read as, whatever its root element is called. -/
def Record.decode (t : RecordType) (strict : Bool) (xml : String) : Except DocumentError Record :=
  ((fragment t).run (.ofText xml strict)).1

namespace Markup

/-- Nothing but layout stands in front of the element in the text. -/
def Element.IsRootOf (e : Element) (xml : String) : Prop :=
  ∃ (ps : List Part) (rest : List Node) (fault : Option Fault),
    (∀ p ∈ ps, ∃ s, p = .text s ∧ Text.isBlankText s = true) ∧
    NodeStream.ofText xml = ⟨Part.nodes ps ++ (e.nodes ++ rest), fault⟩

def Attribute.isOfEnvelope (a : Attribute) : Bool :=
  (RecordType.attribute? .requestEnvelope a.localName).isSome

def Element.envelopeAttributes (e : Element) : List Attribute :=
  e.attributes.filter Attribute.isOfEnvelope

end Markup

theorem Record.decode_of_isRootOf {e : Element} {xml : String} (h : e.IsRootOf xml)
    (t : RecordType) (strict : Bool) :
    decode t strict xml = (e.decode strict t).mapError .read := by
  obtain ⟨ps, rest, fault, hblank, hnodes⟩ := h
  have hroot := run_root (c := ⟨_, fault, strict, []⟩) (Document.dropWhile_layout hblank e rest)
  have hread := (reads_readRecord t e : Reads strict _ _ _ _) rest fault []
  rw [decode, Cursor.ofText, hnodes, run_fragment hroot, Step.run_mapError, Element.decode]
  cases hfaults : e.faults strict (.record t) with
  | nil =>
    rw [hfaults] at hread
    obtain ⟨r, events, hrun, rfl⟩ := hread
    rw [hrun]
  | cons error faults =>
    rw [hfaults] at hread
    rw [hread]

namespace Markup

/-- No child element and no character data is refused where only the envelope is read. -/
theorem Part.faults_requestEnvelope (seen : List String) (ps : List Part) :
    Part.faults false .requestEnvelope seen ps = [] := by
  induction ps generalizing seen with
  | nil => rfl
  | cons p ps ih =>
    rw [Part.faults_cons, ih, List.append_nil]
    cases p with
    | text s => simp [Part.ownFaults, strayFaults]
    | element e =>
      have hnone : RecordType.element? .requestEnvelope e.name = none := rfl
      simp [Part.ownFaults, hnone]

/-- A lenient reader passes over attributes that the envelope does not have. -/
theorem Attribute.flatMap_faults_filter (as : List Attribute) :
    (as.filter isOfEnvelope).flatMap (attributeFaults false .requestEnvelope) =
      as.flatMap (attributeFaults false .requestEnvelope) := by
  induction as with
  | nil => rfl
  | cons a as ih =>
    cases hfound : RecordType.attribute? .requestEnvelope a.localName with
    | none => simp [attributeFaults, isOfEnvelope, hfound, ih]
    | some p => simp [isOfEnvelope, hfound, ih]

/-- The last attribute of a name that the envelope has is one of the envelope's. -/
theorem Attribute.lastNamed?_filter {name : String} {p : Nat × SimpleType}
    (hname : RecordType.attribute? .requestEnvelope name = some p) (as : List Attribute) :
    lastNamed? name (as.filter isOfEnvelope) = lastNamed? name as := by
  rw [lastNamed?, lastNamed?, ← List.filter_reverse, List.find?_filter]
  congr 1
  funext a
  by_cases heq : a.localName = name
  · simp [isOfEnvelope, heq, hname]
  · simp [heq]

theorem Element.faults_requestEnvelope (e : Element) :
    e.faults false (.record .requestEnvelope) =
      e.envelopeAttributes.flatMap (attributeFaults false .requestEnvelope) := by
  have hbody : RecordType.body? .requestEnvelope = none := rfl
  rw [faults_record, hbody, envelopeAttributes, Attribute.flatMap_faults_filter]
  simp only [Part.faults_requestEnvelope, List.append_nil]

/-- Elements with the same attributes of the envelope hold the same envelope. -/
theorem Element.record_requestEnvelope_congr {e e' : Element}
    (h : e.envelopeAttributes = e'.envelopeAttributes) :
    e.record .requestEnvelope = e'.record .requestEnvelope := by
  refine congrArg (Record.mk _) (List.map_congr_left fun f hf => ?_)
  obtain ⟨i, hi⟩ := List.mem_iff_getElem?.mp hf
  obtain ⟨s, hs⟩ := Shape.isAttribute_eq_true_iff.mp
    (RecordType.isAttribute_of_requestEnvelope f hf)
  have hlast := Attribute.lastNamed?_filter (RecordType.attribute?_of_feature? hi hs)
  simp only [itemsOf, itemsWith, hs, attributeItems]
  rw [← hlast e.attributes, ← hlast e'.attributes]
  exact congrArg (fun as => (Attribute.lastNamed? _ as).elim [] _) h

/-- Elements with the same attributes of the envelope are alike to a lenient reader of it. -/
theorem Element.decode_requestEnvelope_congr {e e' : Element}
    (h : e.envelopeAttributes = e'.envelopeAttributes) :
    e.decode false .requestEnvelope = e'.decode false .requestEnvelope := by
  rw [decode, decode, faults_requestEnvelope, faults_requestEnvelope, h,
    record_requestEnvelope_congr h]

end Markup

namespace Record

variable {r : Record} {e : Element} {name : String}

/-- An attribute of the envelope is refused by the type of a request exactly if it is refused by
the type of the envelope. -/
theorem attributeFaults_of_hasEnvelope {t : RecordType} (ht : t.hasEnvelope = true) {a : Attribute}
    (ha : a.isOfEnvelope = true) :
    attributeFaults false t a = [] ↔ attributeFaults false .requestEnvelope a = [] := by
  obtain ⟨⟨i, s⟩, hfound⟩ := Option.isSome_iff_exists.mp ha
  obtain ⟨f, hf, hs, hname⟩ := RecordType.feature?_of_attribute? hfound
  have hsame := RecordType.attribute?_of_feature? (RecordType.feature?_of_hasEnvelope ht hf) hs
  rw [hname] at hsame
  rw [attributeFaults, attributeFaults, hfound, hsame]
  simp only [valueFaults]
  cases s.read a.value <;> simp

/-- The attributes of a request keep their items where blank character content is unset. -/
theorem FitsSchema.items_withoutBlankText (h : r.FitsSchema) {i : Nat} {f : Feature}
    (hf : r.type.feature? i = some f) (hattribute : f.shape.isAttribute = true) :
    r.withoutBlankText.items i = r.items i := by
  obtain ⟨s, hs⟩ := Shape.isAttribute_eq_true_iff.mp hattribute
  rw [h.becomes_withoutBlankText.items_eq i f hf, hs]
  apply Item.map_withoutBlankText_eq_self_iff.mpr
  intro x hx
  obtain ⟨v, rfl, -⟩ := exists_scalar_of_attribute h hf hs hx
  rfl

/-- An element that stands for a request is read as the request's envelope. -/
theorem decode_of_standsFor (hfits : r.Everywhere FitsSchema) (ht : r.type.hasEnvelope = true)
    (he : e.StandsFor ⟨name, .record r.type, .record r⟩) :
    e.decode false .requestEnvelope = .ok r.envelope := by
  have hpart : r.type.isRequestPart = true := by rw [RecordType.isRequestPart, ht]; rfl
  have hreadable := everywhere_isReadable_of_isRequestPart r hfits hpart
  have hback := he.item?_eq
  rw [Element.item?_record, Item.readBack?, Option.some.injEq, Item.record.injEq,
    readBack_eq_withoutBlankText r hfits hreadable] at hback
  have hlegible : r.Everywhere IsLegible := fun s hs => isLegible_of_isReadable (hreadable s hs)
  have hfaults : e.faults false (.record .requestEnvelope) = [] := by
    have hnone := (he.faults_iff false).mpr (Item.isLegibleWithin_record.mpr hlegible)
    rw [Element.faults_record, List.append_eq_nil_iff, List.flatMap_eq_nil_iff] at hnone
    rw [Element.faults_requestEnvelope, List.flatMap_eq_nil_iff]
    intro a ha
    obtain ⟨hmem, hread⟩ := List.mem_filter.mp ha
    exact (attributeFaults_of_hasEnvelope ht hread).mp (hnone.1 a hmem)
  have hrecord : e.record .requestEnvelope = r.envelope := by
    apply ext_items
    · rw [envelope_eq ht]
      rfl
    · exact List.length_map _
    · exact isComplete_envelope ht
    · intro i f hf
      have hf' := RecordType.feature?_of_hasEnvelope ht hf
      have hattribute := RecordType.isAttribute_of_requestEnvelope f (List.mem_of_getElem? hf)
      calc (e.record .requestEnvelope).items i = e.itemsOf f := items_of_rule _ hf
        _ = (e.record r.type).items i := (items_of_rule _ hf').symm
        _ = r.withoutBlankText.items i := by rw [hback]
        _ = r.items i := hfits.self.items_withoutBlankText hf' hattribute
        _ = r.envelope.items i := (items_envelope ht hf).symm
  rw [Element.decode, hfaults, hrecord]

/-- The envelope of a request can be read without regard to its type.  A lenient reader of the
envelope finds it in the text of any request that has one, be there a declaration in front of it
or not, and nothing but the three attributes is looked at: the same is found in every text whose
root element has the same ones.  The envelope reads as the request does and has the same set, and
it is all one whether the language or the version is set in the envelope, or in the request,
where nothing else changes. -/
theorem decode_envelope {o : EncodeOptions} (hsafe : o.PrefixSafe)
    (hfits : r.Everywhere FitsSchema) (ht : r.type.hasEnvelope = true) :
    (∀ (name : QName) written, isLocalName name.localName = true →
      (written = r.marks name ∨ written = .declaration :: r.marks name) →
      decode .requestEnvelope false (write o written) = .ok r.envelope ∧
      ∃ e : Element, e.IsRootOf (write o written) ∧
        ∀ (e' : Element) xml, e'.IsRootOf xml → e'.envelopeAttributes = e.envelopeAttributes →
          decode .requestEnvelope false xml = .ok r.envelope) ∧
    (∀ i f, RecordType.feature? .requestEnvelope i = some f → r.type.feature? i = some f ∧
      r.envelope.get i = r.get i ∧ r.envelope.isSet i = r.isSet i) ∧
    (∀ language, (r.withLanguage language).envelope = r.envelope.withLanguage language ∧
      (r.withLanguage language).get 0 = .ok (some (.text language)) ∧
      (r.withLanguage language).isSet 0 = .ok true ∧
      r.SameElsewhere 0 (r.withLanguage language)) ∧
    ∀ l : Literal, l.type = .requestVersion →
      ∃ s, r.withVersion l.text = .ok s ∧ r.envelope.withVersion l.text = .ok s.envelope ∧
        s.get 2 = .ok (some (.literal l)) ∧ s.isSet 2 = .ok true ∧ r.SameElsewhere 2 s := by
  have hcomplete := hfits.self.complete
  refine ⟨fun name written hname hwritten => ?_, fun i f hf => ?_, withLanguage_spec ht hcomplete,
    withVersion_spec ht hcomplete⟩
  · obtain ⟨ps, e, hblank, hnodes, he⟩ := exists_element_of_write hsafe hfits hname hwritten
    have hroot : e.IsRootOf (write o written) := ⟨ps, [], none, hblank, hnodes⟩
    have hdecode := decode_of_standsFor hfits ht he
    refine ⟨?_, e, hroot, fun e' xml hroot' hsame => ?_⟩
    · rw [decode_of_isRootOf hroot, hdecode]
      rfl
    · rw [decode_of_isRootOf hroot', Element.decode_requestEnvelope_congr hsame, hdecode]
      rfl
  · exact ⟨RecordType.feature?_of_hasEnvelope ht hf, get_envelope ht hf⟩

/-- The envelope of a request for data is read from its text, whose other attribute and whose
children it does not have. -/
theorem decode_envelope_getData :
    let r :=
      ((Construction.getData "f" "d").having "aid" (Construction.truth true)).withLanguage "de"
    decode .requestEnvelope false (write {} (r.marks (.tjs "GetData"))) = .ok r.envelope ∧
      r.envelope.get 0 = .ok (some (.text "de")) ∧ r.envelope.isSet 1 = .ok false := by
  intro r
  obtain ⟨hread, hagree, -⟩ :=
    decode_envelope (o := {}) (r := r) (by decide) (by decide +kernel) rfl
  refine ⟨(hread (.tjs "GetData") _ (by decide +kernel) (.inl rfl)).1, ?_, ?_⟩
  · rw [(hagree 0 _ rfl).2.1]
    rfl
  · rw [(hagree 1 _ rfl).2.2]
    rfl

end Record

end TableJoin
