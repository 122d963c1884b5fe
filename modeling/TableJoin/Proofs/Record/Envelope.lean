import TableJoin.Proofs.Record.Store
import TableJoin.Proofs.Schema.Table
import TableJoin.Record.Envelope

/-!
The envelope of requests: its features come first in every request that has it, so it can be
taken out of the request and set in it without regard to what else the request holds.
-/

namespace TableJoin

open Schema

namespace Schema.RecordType

variable {t : RecordType} {i : Nat} {f : Feature}

/-- The features of the envelope stand at the same positions in all types that have it. -/
theorem feature?_of_hasEnvelope (ht : t.hasEnvelope = true)
    (hf : feature? .requestEnvelope i = some f) : t.feature? i = some f := by
  have hall : ∀ p ∈ (features .requestEnvelope).zipIdx, t.feature? p.2 = some p.1 := by
    cases t <;> revert ht <;> decide +kernel
  exact hall (f, i) (List.mem_zipIdx_iff_getElem?.mpr hf)

theorem indexOf?_of_hasEnvelope (ht : t.hasEnvelope = true) : t.indexOf? "language" = some 0 ∧
    t.indexOf? "service" = some 1 ∧ t.indexOf? "version" = some 2 := by
  cases t <;> revert ht <;> decide +kernel

theorem isAttribute_of_requestEnvelope : ∀ f ∈ features .requestEnvelope,
    f.shape.isAttribute = true := by
  decide +kernel

/-- The types of requests that have an envelope, and of the records in these. -/
def isRequestPart (t : RecordType) : Bool :=
  t.hasEnvelope || t ∈ [.attributeData, .inlineGetData, .mapStyling]

end Schema.RecordType

/-- The types of what requests hold: parts of requests, and no decimals. -/
def Schema.ItemType.isRequestPart : ItemType → Bool
  | .simple s => s ≠ .decimal
  | .record t => t.isRequestPart

theorem Schema.RecordType.isRequestPart_of_mem {t : RecordType} (ht : t.isRequestPart = true) :
    ∀ f ∈ t.features, f.itemType.isRequestPart = true := by
  cases t <;> revert ht <;> decide +kernel

namespace Record

variable {r : Record} {i : Nat} {f : Feature} {xs : List Item}

/-- All that a request holds can be read again, at any depth. -/
theorem everywhere_isReadable_of_isRequestPart (r : Record) : r.Everywhere FitsSchema →
    r.type.isRequestPart = true → r.Everywhere IsReadable := by
  induction r using Record.induction with
  | step r ih =>
    intro hfits hpart
    have hr := hfits.self
    have hitems : ∀ ys ∈ r.slots, ∀ x ∈ ys, x.IsReadable ∧ ∀ s ∈ x.within, s.IsReadable := by
      intro ys hys x hx
      obtain ⟨i, f, hf, rfl⟩ := hr.complete.exists_feature hys
      have htype := RecordType.isRequestPart_of_mem hpart f (List.mem_of_getElem? hf)
      rw [← (hr.admits_items hf).type_eq x hx] at htype
      cases x with
      | scalar s =>
        refine ⟨?_, fun c hc => absurd hc List.not_mem_nil⟩
        cases s with
        | decimal d => cases htype
        | text s | integer n | boolean b | literal l => trivial
      | record c =>
        exact ⟨trivial, ih _ hys c hx (hfits.of_mem hys hx) htype⟩
    rw [everywhere_iff]
    exact ⟨fun ys hys x hx => (hitems ys hys x hx).1, fun ys hys x hx => (hitems ys hys x hx).2⟩

section Envelope

variable (ht : r.type.hasEnvelope = true)

include ht

theorem envelope_eq : r.envelope = ⟨.requestEnvelope, [r.items 0, r.items 1, r.items 2]⟩ := by
  obtain ⟨hlanguage, hservice, hversion⟩ := RecordType.indexOf?_of_hasEnvelope ht
  simp only [envelope, List.foldl_cons, List.foldl_nil, itemsNamed, hlanguage, hservice, hversion]
  rfl

theorem isComplete_envelope : r.envelope.IsComplete := by
  rw [envelope_eq ht]
  rfl

theorem items_envelope (hf : RecordType.feature? .requestEnvelope i = some f) :
    r.envelope.items i = r.items i := by
  have hi : i < 3 := (List.getElem?_eq_some_iff.mp hf).1
  rw [envelope_eq ht]
  match i, hi with
  | 0, _ | 1, _ | 2, _ => rfl

/-- The envelope reads as the request does, and the same is set in it. -/
theorem get_envelope (hf : RecordType.feature? .requestEnvelope i = some f) :
    r.envelope.get i = r.get i ∧ r.envelope.isSet i = r.isSet i := by
  have henvelope : r.envelope.type.feature? i = some f := by rw [envelope_eq ht]; exact hf
  have hrequest := RecordType.feature?_of_hasEnvelope ht hf
  rw [get_of_feature? henvelope, get_of_feature? hrequest, isSet_of_feature? henvelope,
    isSet_of_feature? hrequest, holds, holds, items_envelope ht hf]
  exact ⟨rfl, rfl⟩

/-- It is all one whether a feature of the envelope is set in the request or in the envelope. -/
theorem envelope_put (h : r.IsComplete)
    (hf : RecordType.feature? .requestEnvelope i = some f) (xs : List Item) :
    (r.put i xs).envelope = r.envelope.put i xs := by
  have htype : r.envelope.type = .requestEnvelope := by rw [envelope_eq ht]
  have hput : (r.put i xs).type.hasEnvelope = true := ht
  apply ext_items
  · rw [envelope_eq hput, type_put, htype]
  · exact isComplete_envelope hput
  · exact (isComplete_envelope ht).put i xs
  · intro j g hg
    rw [envelope_eq hput] at hg
    rw [items_envelope hput hg]
    by_cases hij : i = j
    · subst hij
      rw [h.items_put (RecordType.feature?_of_hasEnvelope ht hf),
        (isComplete_envelope ht).items_put (htype ▸ hf)]
    · rw [items_put_of_ne r hij, items_put_of_ne r.envelope hij, items_envelope ht hg]

/-- Setting the language of a request sets that of its envelope, and nothing else. -/
theorem withLanguage_spec (h : r.IsComplete) (language : String) :
    (r.withLanguage language).envelope = r.envelope.withLanguage language ∧
      (r.withLanguage language).get 0 = .ok (some (.text language)) ∧
      (r.withLanguage language).isSet 0 = .ok true ∧
      r.SameElsewhere 0 (r.withLanguage language) := by
  have heq : ∀ {q : Record}, q.type.hasEnvelope = true →
      q.withLanguage language = q.put 0 [.scalar (.text language)] := by
    intro q hq
    rw [withLanguage, having, (RecordType.indexOf?_of_hasEnvelope hq).1]
    rfl
  have henvelope : r.envelope.type.hasEnvelope = true := by rw [envelope_eq ht]; rfl
  have hlanguage : RecordType.feature? .requestEnvelope 0 = some _ := rfl
  obtain ⟨hget, hisSet⟩ := h.get_put (RecordType.feature?_of_hasEnvelope ht hlanguage) _
  rw [heq ht, heq henvelope]
  exact ⟨envelope_put ht h hlanguage _, hget, hisSet, r.sameElsewhere_put 0 _⟩

/-- Setting the version of a request sets that of its envelope, and nothing else. -/
theorem withVersion_spec (h : r.IsComplete) (l : Literal) (hl : l.type = .requestVersion) :
    ∃ s, r.withVersion l.text = .ok s ∧ r.envelope.withVersion l.text = .ok s.envelope ∧
      s.get 2 = .ok (some (.literal l)) ∧ s.isSet 2 = .ok true ∧ r.SameElsewhere 2 s := by
  have heq : ∀ {q : Record}, q.type.hasEnvelope = true →
      q.withVersion l.text = .ok (q.put 2 [.scalar (.literal l)]) := by
    intro q hq
    have hread : SimpleType.readLiteral .requestVersion l.text = .ok l := by
      simp [SimpleType.readLiteral, ← hl]
    simp only [withVersion, hread, having, (RecordType.indexOf?_of_hasEnvelope hq).2.2]
    rfl
  have henvelope : r.envelope.type.hasEnvelope = true := by rw [envelope_eq ht]; rfl
  have hversion : RecordType.feature? .requestEnvelope 2 = some _ := rfl
  obtain ⟨hget, hisSet⟩ := h.get_put (RecordType.feature?_of_hasEnvelope ht hversion) _
  refine ⟨_, heq ht, ?_, hget, hisSet, r.sameElsewhere_put 2 _⟩
  rw [heq henvelope, envelope_put ht h hversion]

end Envelope

end Record

end TableJoin
