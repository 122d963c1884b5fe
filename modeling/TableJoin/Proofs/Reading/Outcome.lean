import TableJoin.Proofs.Reading.Run
import TableJoin.Proofs.Record.BlankText
import TableJoin.Proofs.Record.Building

/-!
What reading leaves in a record, at any depth: items that the type provides for,
which some text is read as, and no blank character content.
-/

namespace TableJoin

open Markup Schema

namespace Record

/-- Nothing in the record, its contained records aside, is lost in writing. -/
structure IsLasting (r : Record) : Prop where
  fits : r.FitsSchema
  readable : r.IsReadable
  noBlankText : ¬ r.HoldsBlankText

variable {r : Record} {i : Nat} {f : Feature} {xs : List Item}

theorem isLasting_empty (t : RecordType) : (empty t).IsLasting := by
  have hnil : ∀ xs ∈ (empty t).slots, ∀ x, x ∉ xs := by
    intro xs hxs x hx
    rw [eq_nil_of_mem_slots_empty hxs] at hx
    cases hx
  refine ⟨fitsSchema_empty t, fun xs hxs x hx => absurd hx (hnil xs hxs x), ?_⟩
  rintro ⟨p, hp, x, hx, -⟩
  exact hnil p.2 (List.of_mem_zip hp).2 x hx

theorem IsLasting.put (h : r.IsLasting) (hf : r.type.feature? i = some f) (hadm : f.Admits xs)
    (hread : ∀ x ∈ xs, x.IsReadable) (hkeeps : ∀ x ∈ xs, f.keeps x = true) :
    (r.put i xs).IsLasting := by
  refine ⟨h.fits.put hf hadm, fun ys hys => ?_, ?_⟩
  · rcases List.mem_or_eq_of_mem_set hys with hys | rfl
    · exact h.readable ys hys
    · exact hread
  · rintro ⟨p, hp, x, hx, hblank⟩
    rcases h.fits.complete.mem_entries_put hf hp with rfl | hp
    · rw [hkeeps x hx] at hblank
      cases hblank
    · exact h.noBlankText ⟨p, hp, x, hx, hblank⟩

/-- A record of lasting records stays one if items that last are stored in it. -/
theorem Everywhere.put_lasting (h : r.Everywhere IsLasting) (hf : r.type.feature? i = some f)
    (hadm : f.Admits xs) (hread : ∀ x ∈ xs, x.IsReadable) (hkeeps : ∀ x ∈ xs, f.keeps x = true)
    (hin : ∀ x ∈ xs, ∀ s ∈ x.within, s.IsLasting) : (r.put i xs).Everywhere IsLasting :=
  h.put (h.self.put hf hadm hread hkeeps) hin

theorem Everywhere.put_scalar (h : r.Everywhere IsLasting) (hf : r.type.feature? i = some f)
    {s : Scalar} (htype : f.itemType = .simple s.type) (hread : s.IsReadable)
    (hkeeps : f.keeps (.scalar s) = true) : (r.put i [.scalar s]).Everywhere IsLasting := by
  have hall : ∀ {p : Item → Prop}, p (.scalar s) → ∀ x ∈ [Item.scalar s], p x := by
    intro p hp x hx
    rw [List.mem_singleton.mp hx]
    exact hp
  apply h.put_lasting hf
  · exact f.admits_singleton htype.symm
  · exact hall hread
  · exact hall hkeeps
  · exact hall fun s hs => by cases hs

end Record

/-- An item of the type that is not lost in writing, nor anything in it. -/
structure Item.Lasts (t : ItemType) (x : Item) : Prop where
  type_eq : x.type = t
  readable : x.IsReadable
  inside : ∀ s ∈ x.within, s.IsLasting

/-- A record of lasting records stays one if an item is added to child elements, where
a single-valued feature may not hold one yet. -/
theorem Record.Everywhere.append_lasting {r : Record} {i : Nat} {f : Feature} {x : Item}
    (h : r.Everywhere IsLasting) (hf : r.type.feature? i = some f)
    (hbody : f.shape.isBody = false) (hx : x.Lasts f.itemType)
    (hfree : f.isList = false → r.items i = []) :
    (r.put i (r.items i ++ [x])).Everywhere IsLasting := by
  have hslot := h.self.fits.complete.items_mem_slots hf
  have hall : ∀ {p : Item → Prop}, (∀ y ∈ r.items i, p y) → p x → ∀ y ∈ r.items i ++ [x], p y := by
    intro p hitems hp y hy
    rcases List.mem_append.mp hy with hy | hy
    · exact hitems y hy
    · rw [List.mem_singleton.mp hy]
      exact hp
  apply h.put_lasting hf
  · constructor
    · exact hall (h.self.fits.admits_items hf).type_eq hx.type_eq
    · intro hsingle
      rw [hfree hsingle]
      exact Nat.le_refl 1
  · exact hall (h.self.readable _ hslot) hx.readable
  · exact fun y _ => Feature.keeps_of_isBody_eq_false hbody y
  · exact hall (fun y hy => h.of_mem hslot hy) hx.inside

namespace Reading

open Record

namespace Step

variable {ε ε' α : Type} {P Q : α → Prop} {x : Step ε α}

theorem Ensures.mapError (h : x.Ensures P) (g : ε → ε') : (x.mapError g).Ensures P := by
  intro c a ha
  rw [run_mapError] at ha
  apply h c a
  cases hx : (x.run c).1 with
  | error e =>
    rw [hx] at ha
    cases ha
  | ok b =>
    rw [hx] at ha
    cases ha
    rfl

/-- A property that is proved beside what the step returns hides no other one. -/
theorem Ensures.attach (hx : x.Ensures P) (h : x.Ensures Q) :
    (x.attach h).Ensures fun a => P a.1 := by
  intro c a ha
  have hrun := congrArg Prod.fst (run_attach h c)
  simp only [ha] at hrun
  exact hx c a.1 hrun.symm

end Step

theorem ensures_parseAttribute (t : SimpleType) (context : String) (a : Attribute) :
    (parseAttribute t context a).Ensures fun s => s.type = t ∧ s.IsReadable := by
  unfold parseAttribute
  split
  · next s hs => exact Step.ensures_pure (SimpleType.read_sound hs)
  · exact Step.ensures_fail _

/-- Content that is read is a scalar of the type, and text stays as it is. -/
theorem ensures_parseContent (t : SimpleType) (tag : StartTag) (text : String) :
    (parseContent t tag text).Ensures fun s =>
      (s.type = t ∧ s.IsReadable) ∧ (t = .text → s = .text text) := by
  unfold parseContent
  split
  · next s hs =>
    refine Step.ensures_pure ⟨SimpleType.read_sound hs, ?_⟩
    rintro rfl
    exact (Except.ok.inj hs).symm
  · exact Step.ensures_fail _

theorem ensures_readAttribute {t : RecordType} (r : Record) (a : Attribute)
    (h : r.type = t ∧ r.Everywhere IsLasting) :
    (readAttribute r a).Ensures fun s => s.type = t ∧ s.Everywhere IsLasting := by
  unfold readAttribute
  split
  · next i s hs =>
    obtain ⟨f, hf, hshape, -⟩ := RecordType.feature?_of_attribute? hs
    refine Step.ensures_bind (ensures_parseAttribute s _ a) fun x hx => ?_
    apply Step.ensures_pure
    refine ⟨h.1, h.2.put_scalar hf ?_ hx.2 (Feature.keeps_of_isBody_eq_false ?_ _)⟩
    · rw [Feature.itemType, hshape, hx.1]
    · rw [hshape]
      rfl
  · exact Step.ensures_bind (Step.ensures_true _) fun _ _ => Step.ensures_pure h

section Children

variable {children : StartTag → Record → Step ReadError Record}

/-- What reading leaves in a record lasts, if it is so with the child elements. -/
theorem ensures_readRecordWith
    (hc : ∀ tag r, r.Everywhere IsLasting →
      (children tag r).Ensures fun s => s.type = r.type ∧ s.Everywhere IsLasting)
    (t : RecordType) (tag : StartTag) :
    (readRecordWith children t tag).Ensures fun s => s.type = t ∧ s.Everywhere IsLasting := by
  have hempty : (empty t).type = t ∧ (empty t).Everywhere IsLasting :=
    ⟨rfl, everywhere_empty (isLasting_empty t)⟩
  unfold readRecordWith
  refine Step.ensures_bind (Step.ensures_foldlM ensures_readAttribute tag.attributes hempty)
    fun r hr => ?_
  split
  · next i s hbody =>
    refine Step.ensures_bind (Step.ensures_true _) fun text _ => ?_
    by_cases hblank : Text.isBlankText text = true
    · rw [if_pos hblank]
      exact Step.ensures_pure hr
    · rw [if_neg hblank]
      obtain ⟨f, hf, hshape⟩ := RecordType.feature?_of_body? hbody
      have htext : s = .text := (RecordType.bodyAlone t _ hbody).1
      refine Step.ensures_bind (ensures_parseContent s tag text) fun x hx => ?_
      apply Step.ensures_pure
      refine ⟨hr.1, hr.2.put_scalar (hr.1 ▸ hf) ?_ hx.1.2 ?_⟩
      · rw [Feature.itemType, hshape, hx.1.1]
      · -- The text is not blank, so it is content that is kept.
        rw [hx.2 htext, Feature.keeps, Item.isBlankText]
        simp [hblank]
  · obtain ⟨rfl, hr⟩ := hr
    exact hc tag r hr

theorem ensures_readItemWith
    (hc : ∀ tag r, r.Everywhere IsLasting →
      (children tag r).Ensures fun s => s.type = r.type ∧ s.Everywhere IsLasting)
    (t : ItemType) (tag : StartTag) :
    (readItemWith children t tag).Ensures fun x => x.Lasts t := by
  unfold readItemWith
  cases t with
  | simple s =>
    have hread : (readSimple s tag).Ensures fun x => x.type = s ∧ x.IsReadable :=
      Step.ensures_bind (Step.ensures_true _) fun text _ c x hx =>
        (ensures_parseContent s tag text c x hx).1
    refine Step.ensures_bind hread fun x hx => Step.ensures_pure ?_
    exact ⟨congrArg ItemType.simple hx.1, hx.2, fun s hs => by cases hs⟩
  | record t =>
    refine Step.ensures_bind (ensures_readRecordWith hc t tag) fun r hr => Step.ensures_pure ?_
    exact ⟨congrArg ItemType.record hr.1, trivial, hr.2⟩

end Children

/-- Child elements leave a record of lasting records one. -/
theorem ensures_readChildren (fuel : Nat) :
    ∀ (tag : StartTag) (r : Record), r.Everywhere IsLasting →
      (readChildren fuel tag r).Ensures fun s => s.type = r.type ∧ s.Everywhere IsLasting := by
  induction fuel with
  | zero =>
    intro tag r hr
    exact Step.ensures_bind (Step.ensures_true _) fun _ _ => Step.ensures_fail _
  | succ fuel ih =>
    intro tag r hr
    unfold readChildren
    refine Step.ensures_bind (Step.ensures_true _) fun child _ => ?_
    split
    · exact Step.ensures_pure ⟨rfl, hr⟩
    · exact Step.ensures_bind (Step.ensures_true _) fun _ _ => ih tag r hr
    · split
      · exact Step.ensures_bind (Step.ensures_true _) fun _ _ => ih tag r hr
      · next i t isList helement =>
        obtain ⟨f, hf, hshape, -⟩ := RecordType.feature?_of_element? helement
        split
        · exact Step.ensures_bind (Step.ensures_true _) fun _ _ => ih tag r hr
        · next hfree =>
          refine Step.ensures_bind (ensures_readItemWith ih t _) fun x hx => ?_
          apply ih tag (r.put i (r.items i ++ [x]))
          apply hr.append_lasting hf
          · rw [hshape]
            rfl
          · rw [Feature.itemType, hshape]
            exact hx
          · intro hsingle
            rw [Feature.isList, hshape] at hsingle
            simp only at hsingle
            simpa [hsingle, holds] using hfree

/-- A record that is read has the type and lasts, and so does every record in it. -/
theorem ensures_readRecord (t : RecordType) (tag : StartTag) :
    (readRecord t tag).Ensures fun r => r.type = t ∧ r.Everywhere IsLasting :=
  Step.ensures_bind (Step.ensures_true _) fun _ _ =>
    ensures_readRecordWith (ensures_readChildren _) t tag

theorem ensures_document : document.Ensures fun d => d.content.Everywhere IsLasting := by
  unfold document
  refine Step.ensures_bind (Step.ensures_true _) fun tag _ => ?_
  split
  · exact Step.ensures_fail _
  · next tag =>
    refine Step.ensures_bind (Step.ensures_true _) fun _ _ => ?_
    refine Step.ensures_bind (Step.ensures_true _) fun _ _ => ?_
    split
    · exact Step.ensures_fail _
    · next found _ =>
      have hread := ensures_readRecord found.type tag
      refine Step.ensures_bind ((hread.attach _).mapError DocumentError.read) fun r hr => ?_
      exact Step.ensures_pure hr.2

end Reading

end TableJoin
