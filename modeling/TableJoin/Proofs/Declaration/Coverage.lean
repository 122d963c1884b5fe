import TableJoin.Proofs.Declaration.Features
import TableJoin.Proofs.Declaration.Operations
import TableJoin.Proofs.Declaration.Sites

/-!
Coverage: the code that is generated for an accepted declaration leaves no field out, and all
its parts agree on the fields and their positions.
-/

namespace TableJoin.Declaration

open Code Phrase

namespace TypeModel

variable {o : Outline} {m : TypeModel}

/-- What the items of the generated code have of each field: in order its constant, its row in
the feature table and its arm in every operation, a visit if it stands in child elements, and
one place where it is read and one where it is written. -/
structure Covers (m : TypeModel) (accessors table reflection markup : List Token) : Prop where
  constants_eq : constantsOf accessors =
    m.fields.zipIdx.map fun (f, i) => (Text.upper f.name, i)
  rows : List.Forall₂ (fun (p : FieldModel × Nat) row => RowDescribes p.1 p.2 row)
    m.fields.zipIdx (blocks (listOf "FEATURES" table))
  operates : m.Operates reflection
  visits : visitsOf? reflection =
    some ((m.fields.zipIdx.filter fun (f, _) => f.placement.isElement).map fun (f, i) =>
      (f.ident, i))
  markup : ∃ code, MarkupCode.ofItem? markup = some code ∧
    code.reader.sites.Perm (m.fields.map FieldModel.readSite) ∧
    code.writer.sites.Perm (m.fields.map FieldModel.writeSite) ∧
    code.writer.tested = m.elementFields.map fun f => ⟨f.ident, some f.cardinality⟩

/-- Nothing is left out.  The type of an accepted declaration has what its fields describe, in
their order; code is generated for it unless of the name of some field nothing is left but
underscores; and the code covers every field. -/
theorem covers_of_ofOutline (h : ofOutline o = .ok m) :
    o.Describes m ∧
    (m.items? = none ↔ ∃ f ∈ m.fields, f.name = "") ∧
    ∀ code, m.items? = some code → ∃ accessors table reflection values markup,
      code = [accessors, table, reflection, values, markup] ∧
        m.Covers accessors table reflection markup := by
  have hdescribes := describes_of_ofOutline h
  refine ⟨hdescribes, ?_, fun code hcode => ?_⟩
  · rw [items?, Option.map_eq_none_iff, accessorItem?_eq_none_iff]
  · obtain ⟨accessors, haccessors, rfl⟩ := Option.map_eq_some_iff.mp hcode
    refine ⟨_, _, _, _, _, rfl, ?_⟩
    constructor
    · exact m.constantsOf_accessorItem haccessors
    · exact m.forall₂_rows
    · exact m.operates
    · exact m.visitsOf?_reflectionItem
    · exact ⟨_, m.ofItem?_markupItem, readSites_perm hdescribes, writeSites_perm hdescribes,
        tested_of_describes hdescribes⟩

/-- A row with an identifier, which is required, a purpose, which has a default, and cells. -/
def rowOutline : Outline :=
  ⟨[], "Row", .named [
    ⟨[⟨some "tjs", .applied [.word "attribute", .mark '=', .literal "\"fid\"", .mark ',',
      .word "required"]⟩], "fid", [.word "Option", .mark '<', .word "String", .mark '>']⟩,
    ⟨[⟨some "tjs", .applied [.word "attribute", .mark '=', .literal "\"purpose\"", .mark ',',
      .word "default", .mark '=', .literal "\"Data\""]⟩], "purpose",
      [.word "Option", .mark '<', .word "String", .mark '>']⟩,
    ⟨[⟨some "tjs", .applied [.word "element", .mark '=', .literal "\"V\""]⟩], "v_",
      [.word "Vec", .mark '<', .word "Cell", .mark '>']⟩]⟩

theorem covers_of_ofOutline_row : ∃ m code, ofOutline rowOutline = .ok m ∧
    m.fields.map (·.name) = ["fid", "purpose", "v"] ∧ m.items? = some code ∧
    ∃ accessors table reflection values markup,
      code = [accessors, table, reflection, values, markup] ∧
        m.Covers accessors table reflection markup := by
  obtain ⟨m, hm, hnames, hsome⟩ : ∃ m, ofOutline rowOutline = .ok m ∧
      m.fields.map (·.name) = ["fid", "purpose", "v"] ∧ m.items?.isSome = true :=
    ⟨_, rfl, by decide +kernel, by decide +kernel⟩
  obtain ⟨code, hcode⟩ := Option.isSome_iff_exists.mp hsome
  exact ⟨m, code, hm, hnames, hcode, (covers_of_ofOutline hm).2.2 code hcode⟩

/-- A declaration is accepted whose only field is called by two underscores, and no code is
generated for it. -/
theorem exists_accepted_not_generated : ∃ o m, ofOutline o = .ok m ∧ m.items? = none :=
  ⟨⟨[], "S", .named [⟨[⟨some "tjs", .applied [.word "text"]⟩], "__",
    [.word "Option", .mark '<', .word "String", .mark '>']⟩]⟩, _, rfl, by decide +kernel⟩

end TypeModel

end TableJoin.Declaration
