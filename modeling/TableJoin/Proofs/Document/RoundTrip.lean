import TableJoin.Proofs.Document.Decoding
import TableJoin.Proofs.Reading.Outcome
import TableJoin.Proofs.Writing.Elements
import TableJoin.Record.Construction

/-!
Encoding and decoding again: a document comes back without the blank texts that are
character content, and otherwise as it was, if its decimals are ones that reading gives.  What
was decoded holds no such text and no other decimals, so it comes back as it is.
-/

namespace TableJoin

open Markup Schema Writing Reading

theorem Record.type_withoutBlankText (r : Record) : r.withoutBlankText.type = r.type := by
  cases r
  rfl

theorem Record.type_readBack (r : Record) : r.readBack.type = r.type := by
  cases r
  rfl

namespace Document

/-- The document with every blank character content unset, at any depth. -/
def withoutBlankText (d : Document) : Document :=
  ⟨d.root, d.content.withoutBlankText, (Record.type_withoutBlankText _).trans d.typed⟩

/-- The document that is read back where this one was written. -/
def readBack (d : Document) : Document :=
  ⟨d.root, d.content.readBack, (Record.type_readBack _).trans d.typed⟩

/-- Every record in the document holds what its type provides for; this is what
programs can build (`Record.built_iff_fitsSchema`). -/
def FitsSchema (d : Document) : Prop :=
  d.content.Everywhere Record.FitsSchema

/-- Every decimal in the document is one that some text is read as. -/
def IsReadable (d : Document) : Prop :=
  d.content.Everywhere Record.IsReadable

/-- The text of every scalar in the document can be read. -/
def IsLegible (d : Document) : Prop :=
  d.content.Everywhere Record.IsLegible

/-- Nowhere in the document is character content set to a blank text. -/
def HoldsNoBlankText (d : Document) : Prop :=
  d.content.Everywhere fun r => ¬ r.HoldsBlankText

instance (d : Document) : Decidable d.FitsSchema := by
  unfold FitsSchema
  infer_instance

instance (d : Document) : Decidable d.IsReadable := by
  unfold IsReadable
  infer_instance

instance (d : Document) : Decidable d.IsLegible := by
  unfold IsLegible
  infer_instance

instance (d : Document) : Decidable d.HoldsNoBlankText := by
  unfold HoldsNoBlankText
  infer_instance

theorem withoutBlankText_eq_self_iff {d : Document} (h : d.FitsSchema) :
    d.withoutBlankText = d ↔ d.HoldsNoBlankText := by
  have hrecord := Record.withoutBlankText_eq_self_iff d.content h
  rw [HoldsNoBlankText, ← hrecord]
  constructor
  · intro heq
    exact congrArg Document.content heq
  · intro heq
    cases d
    simp only [withoutBlankText] at heq ⊢
    congr

/-- What the root elements are called is a name, and each name tells its root. -/
theorem root_name (root : Root) :
    isLocalName root.name = true ∧ Root.ofName? root.name = some root := by
  cases root <;> decide +kernel

/-- A document that was encoded is decoded if it is legible, and then to what is read back of
it, in both modes alike. -/
theorem decode_encode_iff {o : EncodeOptions} (hsafe : o.PrefixSafe) {d d' : Document}
    (hfits : d.FitsSchema) (strict : Bool) :
    decode strict (d.encode o) = .ok d' ↔ d.IsLegible ∧ d' = d.readBack := by
  have hname : isLocalName (QName.tjs d.root.name).localName = true := (root_name d.root).1
  obtain ⟨ps, e, hblank, hnodes, he⟩ := exists_element_of_write hsafe hfits hname (.inr rfl)
  have hroot : Root.ofName? e.name = some d.root := by
    rw [he.name_eq]
    exact (root_name d.root).2
  have hfaults := (he.faults_iff strict).trans Item.isLegibleWithin_record
  have hrecord := he.item?_eq
  simp only at hfaults hrecord
  rw [d.typed] at hfaults hrecord
  rw [Element.item?_record, Item.readBack?, Option.some.injEq, Item.record.injEq] at hrecord
  rw [encode, marks, decode_element_iff hnodes hblank, hroot]
  obtain ⟨root, content, typed⟩ := d'
  constructor
  · rintro ⟨hsame, hnone, hcontent⟩
    obtain rfl := Option.some.inj hsame
    obtain rfl : content = d.content.readBack := hcontent.trans hrecord
    exact ⟨hfaults.mp hnone, rfl⟩
  · rintro ⟨hlegible, hsame⟩
    cases hsame
    exact ⟨rfl, hfaults.mpr hlegible, hrecord.symm⟩

/-- A document that was encoded is decoded, in both modes, to the document without
blank text. -/
theorem decode_encode_eq {o : EncodeOptions} (hsafe : o.PrefixSafe) {d : Document}
    (hfits : d.FitsSchema) (hread : d.IsReadable) (strict : Bool) :
    decode strict (d.encode o) = .ok d.withoutBlankText := by
  have hsame : d.withoutBlankText = d.readBack := by
    have hcontent := Record.readBack_eq_withoutBlankText d.content hfits hread
    simp only [withoutBlankText, readBack, hcontent]
  exact (decode_encode_iff hsafe hfits strict).mpr
    ⟨fun r hr => Record.isLegible_of_isReadable (hread r hr), hsame⟩

/-- What encoding loses.  A document comes back, in both modes, with exactly the
blank texts unset that are character content; so it comes back as it was exactly if
it holds none. -/
theorem decode_encode {o : EncodeOptions} (hsafe : o.PrefixSafe) {d : Document}
    (hfits : d.FitsSchema) (hread : d.IsReadable) :
    (∀ strict, decode strict (d.encode o) = .ok d.withoutBlankText) ∧
    (∀ r ∈ d.content.within, r.Becomes (fun f xs =>
      if f.shape.isBody then xs.filter fun x => !x.isBlankText
      else xs.map Item.withoutBlankText) r.withoutBlankText) ∧
    (d.withoutBlankText = d ↔ d.HoldsNoBlankText) := by
  refine ⟨decode_encode_eq hsafe hfits hread, fun r hr => ?_, withoutBlankText_eq_self_iff hfits⟩
  exact (hfits r hr).becomes_withoutBlankText

theorem decode_encode_nested :
    let d : Document := ⟨.frameworkDescriptions,
      ((Record.empty .frameworkDescriptions).having "lang" (Construction.text " ")).having
        "framework" (Construction.record ((Record.empty .describedFramework).having
          "abstract" (Construction.record (Construction.abstract " ")))), by decide +kernel⟩
    (∀ strict, decode strict (d.encode {}) = .ok d.withoutBlankText) ∧
      d.withoutBlankText ≠ d := by
  intro d
  have hfits : d.FitsSchema := by decide +kernel
  obtain ⟨hdecode, -, hsame⟩ := decode_encode (o := {}) (by decide) hfits (by decide +kernel)
  refine ⟨hdecode, fun heq => ?_⟩
  have hblank : ¬ d.HoldsNoBlankText := by decide +kernel
  exact hblank (hsame.mp heq)

/-- What is decoded holds what its types provide for, can be read again, and holds
no blank text that is character content. -/
theorem lasts_of_decode {xml : String} {strict : Bool} {d : Document}
    (h : decode strict xml = .ok d) : d.FitsSchema ∧ d.IsReadable ∧ d.HoldsNoBlankText := by
  rw [decode_eq_run] at h
  have hlasting := ensures_document _ d h
  exact ⟨fun r hr => (hlasting r hr).fits, fun r hr => (hlasting r hr).readable,
    fun r hr => (hlasting r hr).noBlankText⟩

/-- Decoding is stable: whatever was decoded comes back as it is, in both modes,
once it is encoded again. -/
theorem decode_encode_of_decode {xml : String} {strict : Bool} {d : Document}
    (h : decode strict xml = .ok d) {o : EncodeOptions} (hsafe : o.PrefixSafe)
    (strict' : Bool) : decode strict' (d.encode o) = .ok d := by
  obtain ⟨hfits, hread, hblank⟩ := lasts_of_decode h
  have hsame := (withoutBlankText_eq_self_iff hfits).mpr hblank
  rw [decode_encode_eq hsafe hfits hread, hsame]

theorem decode_encode_of_decode_lenient :
    let xml := "<DescribeKey language='de'><Key/><FrameworkURI> </FrameworkURI></DescribeKey>"
    let d : Document := ⟨.describeKey,
      ⟨.describeKey, [[.scalar (.text "de")], [], [], [.scalar (.text " ")]]⟩, rfl⟩
    decode false xml = .ok d ∧ decode true (d.encode {}) = .ok d := by
  intro xml d
  have hdecode : decode false xml = .ok d := by decide +kernel
  exact ⟨hdecode, decode_encode_of_decode hdecode (by decide) true⟩

end Document

end TableJoin
