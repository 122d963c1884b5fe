import TableJoin.Proofs.Document.RoundTrip
import TableJoin.Proofs.Validation.Walk

/-!
Validity and reading back: what writing and reading changes in a record, blank character
content and the form of decimals, is nothing that validation looks at.  So a document that is
decoded where another one was encoded has the same violations.
-/

namespace TableJoin

open Schema Writing

namespace Schema.RecordType

/-- Character content may always be missing. -/
theorem isRequired_of_isBody (t : RecordType) :
    ∀ f ∈ t.features, f.shape.isBody = true → f.isRequired = false := by
  cases t <;> decide +kernel

theorem isBody_of_choice? (t : RecordType) : ∀ p ∈ t.choice?, ∀ name ∈ p.1,
    ∀ i ∈ t.indexOf? name, ∀ f ∈ t.feature? i, f.shape.isBody = false := by
  cases t <;> decide +kernel

/-- The sections of a request are a text in a child element. -/
theorem feature?_sections : indexOf? .getCapabilities "sections" = some 1 ∧
    feature? .getCapabilities 1 = some (.leaf "sections" (.tjs "Sections") .text) :=
  ⟨rfl, rfl⟩

end Schema.RecordType

/-- Legible items have the violations of what is read back of them, if the records among them
have. -/
theorem Item.listViolations_readBack {path : String} (f : Feature) (xs : List Item) : ∀ n,
    (∀ x ∈ xs, x.IsLegible) →
    (∀ c, Item.record c ∈ xs → ∀ path, c.readBack.violationsFrom path = c.violationsFrom path) →
    listViolations path f n (xs.filterMap readBack?) = listViolations path f n xs := by
  induction xs with
  | nil => exact fun _ _ _ => rfl
  | cons x xs ih =>
    intro n hlegible hrecords
    obtain ⟨hx, hxs⟩ := List.forall_mem_cons.mp hlegible
    have hrest := ih (n + 1) hxs fun c hc => hrecords c (List.mem_cons_of_mem x hc)
    cases x with
    | scalar s =>
      -- the scalar that is read back keeps its place among the items
      obtain ⟨v, hv⟩ := Option.isSome_iff_exists.mp hx
      have hback : (Item.scalar s).readBack? = some (.scalar v) := by rw [readBack?, hv]; rfl
      rw [List.filterMap_cons_some hback, listViolations, listViolations, hrest]
      rfl
    | record c =>
      have hc := hrecords c List.mem_cons_self (childPath path f n)
      have hback : (Item.record c).readBack? = some (.record c.readBack) := by rw [readBack?]
      rw [List.filterMap_cons_some hback, listViolations, listViolations, hrest, violations,
        violations, hc]

namespace Record

variable {r : Record} {i : Nat} {f : Feature} {name : String}

theorem IsComplete.items_readBack (h : r.IsComplete) (hf : r.type.feature? i = some f)
    (hbody : f.shape.isBody = false) :
    r.readBack.items i = (r.items i).filterMap Item.readBack? := by
  rw [(becomes_readBack h).items_eq i f hf, List.filter_eq_self]
  exact fun x _ => Feature.keeps_of_isBody_eq_false hbody x

/-- A legible feature that is no character content is set exactly if it was set before. -/
theorem IsComplete.isEmpty_readBack (h : r.IsComplete) (hlegible : r.IsLegible)
    (hf : r.type.feature? i = some f) (hbody : f.shape.isBody = false) :
    (r.readBack.items i).isEmpty = (r.items i).isEmpty := by
  have hlength := Item.length_filterMap_readBack? (hlegible _ (h.items_mem_slots hf))
  rw [h.items_readBack hf hbody, Bool.eq_iff_iff, List.isEmpty_iff_length_eq_zero,
    List.isEmpty_iff_length_eq_zero, hlength]

/-- Items are read back as items of the feature's type. -/
theorem FitsSchema.type_of_mem_readBack (h : r.FitsSchema) (hf : r.type.feature? i = some f)
    {y : Item} (hy : y ∈ r.readBack.items i) : y.type = f.itemType := by
  rw [(becomes_readBack h.complete).items_eq i f hf] at hy
  obtain ⟨x, hx, hback⟩ := List.mem_filterMap.mp (List.mem_of_mem_filter hy)
  rw [Item.type_of_readBack? hback, (h.admits_items hf).type_eq x hx]

theorem IsComplete.missing?_readBack (h : r.IsComplete) (hlegible : r.IsLegible)
    (hf : r.type.feature? i = some f) :
    missing? f (r.readBack.items i) = missing? f (r.items i) := by
  cases hbody : f.shape.isBody with
  | false => rw [missing?, missing?, h.isEmpty_readBack hlegible hf hbody]
  | true =>
    have hoptional := RecordType.isRequired_of_isBody r.type f (List.mem_of_getElem? hf) hbody
    simp [missing?, hoptional]

theorem IsComplete.choiceProblem?_readBack (h : r.IsComplete) (hlegible : r.IsLegible) :
    r.readBack.choiceProblem? = r.choiceProblem? := by
  unfold choiceProblem?
  rw [type_readBack]
  cases hchoice : r.type.choice? with
  | none => rfl
  | some p =>
    have hcount : r.readBack.countSet p.1 = r.countSet p.1 := by
      refine congrArg List.length (List.filter_congr fun name hname => ?_)
      rw [holdsNamed, holdsNamed, itemsNamed, itemsNamed, type_readBack]
      cases hi : r.type.indexOf? name with
      | none => rfl
      | some i =>
        obtain ⟨f, hf⟩ := exists_feature_of_indexOf? hi
        have hbody := r.type.isBody_of_choice? p hchoice name hname i hi f hf
        rw [Option.elim_some, Option.elim_some, h.isEmpty_readBack hlegible hf hbody]
    simp only [hcount]

theorem FitsSchema.sectionsProblem?_readBack (h : r.FitsSchema) :
    r.readBack.sectionsProblem? = r.sectionsProblem? := by
  unfold sectionsProblem?
  rw [type_readBack]
  by_cases htype : r.type = .getCapabilities
  · obtain ⟨hi, hf⟩ := RecordType.feature?_sections
    rw [← htype] at hi hf
    have htexts : ∀ x ∈ r.items 1, x.type = .simple .text := (h.admits_items hf).type_eq
    have hitems : r.readBack.items 1 = r.items 1 := by
      rw [h.complete.items_readBack hf rfl, Item.filterMap_readBack?_of_text htexts]
    have htext : r.readBack.textNamed? "sections" = r.textNamed? "sections" := by
      simp only [textNamed?, valueNamed?, itemsNamed, type_readBack, hi, Option.elim_some, hitems]
    rw [htext]
  · rw [if_neg htype, if_neg htype]

theorem FitsSchema.ownProblems_readBack (h : r.FitsSchema) (hlegible : r.IsLegible) :
    r.readBack.ownProblems = r.ownProblems := by
  have hmissing : r.readBack.entries.filterMap (fun p => missing? p.1 p.2) =
      r.entries.filterMap fun p => missing? p.1 p.2 := by
    rw [(becomes_readBack h.complete).complete.entries_eq, h.complete.entries_eq, type_readBack,
      List.filterMap_map, List.filterMap_map]
    refine List.filterMap_congr fun p hp => ?_
    exact h.complete.missing?_readBack hlegible (List.mem_zipIdx_iff_getElem?.mp hp)
  rw [ownProblems, ownProblems, h.complete.choiceProblem?_readBack hlegible,
    h.sectionsProblem?_readBack]
  exact congrArg (· ++ _ ++ _) hmissing

theorem violationsFrom_eq_entries (path : String) (r : Record) : r.violationsFrom path =
    r.ownProblems.map (⟨path, r.type, ·⟩) ++
      r.entries.flatMap fun p => Item.listViolations path p.1 1 p.2 := by
  cases r with
  | mk t slots => rw [violationsFrom, Item.slotViolations_eq, entries]

/-- What is read back of a legible record has the violations of the record, in the same order
and with the same paths. -/
theorem violationsFrom_readBack (r : Record) : r.Everywhere FitsSchema → r.Everywhere IsLegible →
    ∀ path, r.readBack.violationsFrom path = r.violationsFrom path := by
  induction r using Record.induction with
  | step r ih =>
    intro hfits hlegible path
    have hcomplete := hfits.self.complete
    rw [violationsFrom_eq_entries, violationsFrom_eq_entries, type_readBack,
      hfits.self.ownProblems_readBack hlegible.self]
    congr 1
    rw [(becomes_readBack hcomplete).complete.entries_eq, hcomplete.entries_eq, type_readBack,
      List.flatMap_map, List.flatMap_map]
    refine List.flatMap_congr fun p hp => ?_
    have hf : r.type.feature? p.2 = some p.1 := List.mem_zipIdx_iff_getElem?.mp hp
    have hslot := hcomplete.items_mem_slots hf
    cases hbody : p.1.shape.isBody with
    | false =>
      rw [hcomplete.items_readBack hf hbody]
      exact Item.listViolations_readBack p.1 _ 1 (hlegible.self _ hslot) fun c hc =>
        ih _ hslot c hc (hfits.of_mem hslot hc) (hlegible.of_mem hslot hc)
    | true =>
      -- character content is a scalar, before and after
      obtain ⟨s, hs⟩ := Shape.isBody_eq_true_iff.mp hbody
      have hscalar : p.1.itemType.isRecord = false := by rw [Feature.itemType, hs]; rfl
      rw [Item.listViolations_eq_nil p.1 _ 1, Item.listViolations_eq_nil p.1 _ 1]
      · intro x hx
        rw [(hfits.self.admits_items hf).type_eq x hx, hscalar]
      · intro y hy
        rw [hfits.self.type_of_mem_readBack hf hy, hscalar]

end Record

namespace Document

/-- Validity survives transport.  A document that is decoded where another one was encoded, in
either mode, has the violations of that one, in the same order and with the same paths, and is
refused for the same. -/
theorem violations_of_decode_encode {o : EncodeOptions} (hsafe : o.PrefixSafe) {d d' : Document}
    (hfits : d.FitsSchema) {strict : Bool} (h : decode strict (d.encode o) = .ok d') :
    d'.violations = d.violations ∧ d'.check = d.check := by
  obtain ⟨hlegible, rfl⟩ := (decode_encode_iff hsafe hfits strict).mp h
  have hsame : d.readBack.violations = d.violations :=
    Record.violationsFrom_readBack d.content hfits hlegible d.root.name
  exact ⟨hsame, by rw [check, check, hsame]⟩

/-- Descriptions of a framework whose abstract is blank and whose extent is given in hundreds;
much else is missing. -/
def coarseExtent : Document :=
  ⟨.frameworkDescriptions,
    (Record.empty .frameworkDescriptions).having "framework" (Construction.record
      (((Record.empty .describedFramework).having "abstract"
        (Construction.record (Construction.abstract " "))).having "bounding_coordinates"
          (Construction.record (Construction.boundingCoordinates ⟨3, 2⟩ ⟨-3, 2⟩ ⟨5, 0⟩ ⟨0, 1⟩)))),
    rfl⟩

/-- The document that arrives is another one, and is refused for the same. -/
theorem violations_of_decode_encode_coarseExtent :
    coarseExtent.FitsSchema ∧ coarseExtent.violations ≠ [] ∧
    ∃ d', decode true (coarseExtent.encode {}) = .ok d' ∧ d' ≠ coarseExtent ∧
      d'.violations = coarseExtent.violations ∧ d'.check = coarseExtent.check := by
  have hfits : coarseExtent.FitsSchema := by decide +kernel
  have hdecode : decode true (coarseExtent.encode {}) = .ok coarseExtent.readBack :=
    (decode_encode_iff (by decide) hfits true).mpr ⟨by decide +kernel, rfl⟩
  exact ⟨hfits, by decide +kernel, coarseExtent.readBack, hdecode, by decide +kernel,
    violations_of_decode_encode (by decide) hfits hdecode⟩

end Document

end TableJoin
