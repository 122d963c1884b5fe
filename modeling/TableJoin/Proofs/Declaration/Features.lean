import TableJoin.Declaration.FeatureTable
import TableJoin.Declaration.Accessors
import TableJoin.Proofs.Declaration.Acceptance
import TableJoin.Proofs.Declaration.Operations

/-!
Features: the constants of the generated code and the rows of its feature table stand in the
order of the fields, and each says what the field says.
-/

namespace TableJoin.Declaration

open Code Phrase Scan

/-- A constant of a feature, with its name and the position that it stands for. -/
def Scan.constant : Scan (String × Nat) := do
  skip '#'
  let _ ← inside .square (between (join ["doc", '=']) text [])
  let name ← between (join ["pub", "const"]) word
    (join [':', core ["FeatureId"], '=', core ["FeatureId", "new"]])
  (name, ·) <$> between [] (inside .round position) ';'

/-- The constants of features with which an implementation begins. -/
def constantsOf (item : List Token) : List (String × Nat) :=
  (repeatedly constant (firstGroup .curly item)).1

/-- How many values a multiplicity of the generated code stands for: at least, and at most if
there is a bound. -/
def boundsOf? : String → Option (Nat × Option Nat)
  | "Optional" => some (0, some 1)
  | "Required" => some (1, some 1)
  | "Many" => some (0, none)
  | "OneOrMore" => some (1, none)
  | _ => none

/-- What a row of the feature table says of the feature of a field at a position. -/
structure RowDescribes (f : FieldModel) (i : Nat) (row : List Token) : Prop where
  id_eq : valueOf "id" row = join [core ["FeatureId", "new"], round [position i]]
  name_eq : valueOf "name" row = quoted f.name
  xmlName_eq : valueOf "xml_name" row = join [core ["QName", "new"],
    round [core ["Namespace", namespaceName f.placement.qname.space], ',',
      quoted f.placement.qname.localName]]
  kind_eq : valueOf "kind" row = core ["FeatureKind",
    match f.placement with
    | .attribute _ _ => "Attribute"
    | .element _ _ => "Element"
    | .text => "Text"]
  multiplicity : ∃ name, valueOf "multiplicity" row = core ["Multiplicity", name] ∧
    boundsOf? name = some (if f.isRequired then 1 else 0,
      match f.cardinality with
      | .single => some 1
      | .many => none)
  unsettable : join ["unsettable", ':', if f.default?.isSome then "true" else "false", ','] <:+ row

/-- In the rows that commas separate nothing stands between them. -/
theorem blocks_commaSeparated (parts : List Phrase) :
    blocks (commaSeparated parts) = parts.flatMap blocks := by
  rw [commaSeparated, join]
  induction parts with
  | nil => rfl
  | cons p parts ih =>
    cases parts with
    | nil => simp
    | cons q parts =>
      rw [List.intersperse_cons_cons, List.flatten_cons, List.flatten_cons, blocks_append,
        blocks_append, ih]
      rfl

theorem join_suffix {parts back : List Phrase} (n : Nat) (h : parts.drop n = back) :
    join back <:+ join parts := by
  refine ⟨join (parts.take n), ?_⟩
  rw [← h, join, join, join, ← List.flatten_append, List.take_append_drop]

namespace FieldModel

variable (f : FieldModel) (i : Nat)

theorem exists_row_tableEntry : ∃ row, blocks (f.tableEntry i) = [row] ∧ RowDescribes f i row := by
  refine ⟨_, rfl, rfl, rfl, rfl, ?_, ⟨f.multiplicityName, rfl, ?_⟩, ?_⟩
  · change core ["FeatureKind", f.placement.kindName] = _
    unfold Placement.kindName
    cases f.placement <;> rfl
  · unfold multiplicityName
    cases f.cardinality <;> cases f.isRequired <;> rfl
  · exact join_suffix 25 rfl

theorem constant_publicMethod (text : String) (mustUse : Bool) (name : String)
    (parameters : List Phrase) (result : Option Phrase) (body : List Phrase) (ts : List Token) :
    constant (publicMethod text mustUse name parameters result body ++ ts) = none := by
  cases mustUse <;> rfl

theorem constant_accessors (ts : List Token) : constant (f.accessors ++ ts) = none := by
  unfold accessors
  cases f.cardinality with
  | many => rfl
  | single =>
    simp only [singleAccessors, join, List.flatten_cons, List.append_assoc]
    unfold getter
    split
    · exact constant_publicMethod ..
    · exact constant_publicMethod ..
    · split
      · exact constant_publicMethod ..
      · split <;> exact constant_publicMethod ..

/-- The constant of a feature has its name in capitals and its position. -/
theorem spells_constantItem? {c : Phrase} (h : f.constantItem? i = some c) :
    Spells constant c (Text.upper f.name, i) := by
  rw [constantItem?, constant?] at h
  split at h
  · cases h
  · cases h
    have hdoc :=
      (spells_text s!"Identifier of the `{f.name}` feature.").between (join ["doc", '=']) []
    have hname := (spells_word (Text.upper f.name)).between (join ["pub", "const"])
      (join [':', core ["FeatureId"], '=', core ["FeatureId", "new"]])
    have hposition := ((spells_position i).inside .round).between [] ';'
    exact (spells_skip _).bind ((hdoc.inside .square).bind (hname.bind (hposition.map _)))

theorem constantItem?_eq_none_iff : f.constantItem? i = none ↔ f.name = "" := by
  rw [constantItem?, constant?, Option.map_eq_none_iff]
  simp

end FieldModel

namespace TypeModel

variable (m : TypeModel)

theorem forall₂_rows : List.Forall₂ (fun (p : FieldModel × Nat) row => RowDescribes p.1 p.2 row)
    m.fields.zipIdx (blocks (listOf "FEATURES" m.tableItem)) := by
  have hlist : listOf "FEATURES" m.tableItem = commaSeparated m.tableEntries ++ [] := rfl
  rw [hlist, List.append_nil, blocks_commaSeparated, tableEntries, List.flatMap_map]
  generalize m.fields.zipIdx = entries
  induction entries with
  | nil => exact .nil
  | cons p entries ih =>
    obtain ⟨row, hrow, hdescribes⟩ := p.1.exists_row_tableEntry p.2
    rw [List.flatMap_cons, hrow]
    exact .cons hdescribes ih

theorem constantItems_of_mapM {entries : List (FieldModel × Nat)} : ∀ {cs : List Phrase},
    entries.mapM (fun (f, i) => f.constantItem? i) = some cs →
      join cs = entries.flatMap (fun (f, i) => (f.constantItem? i).getD []) ∧
      ∀ p ∈ entries, ∃ c, p.1.constantItem? p.2 = some c := by
  induction entries with
  | nil =>
    intro cs h
    cases h
    exact ⟨rfl, fun p hp => absurd hp List.not_mem_nil⟩
  | cons p entries ih =>
    intro cs h
    rw [List.mapM_cons] at h
    obtain ⟨c, hc, h⟩ := Option.bind_eq_some_iff.mp h
    obtain ⟨cs', hcs, h⟩ := Option.bind_eq_some_iff.mp h
    cases h
    obtain ⟨hjoin, hall⟩ := ih hcs
    refine ⟨?_, List.forall_mem_cons.mpr ⟨⟨c, hc⟩, hall⟩⟩
    rw [join, List.flatten_cons, List.flatMap_cons, ← hjoin]
    simp [hc, join]

/-- In front of its methods the generated code has the constants of the fields, in their order. -/
theorem constantsOf_accessorItem {item : Phrase} (h : m.accessorItem? = some item) :
    constantsOf item = m.fields.zipIdx.map fun (f, i) => (Text.upper f.name, i) := by
  obtain ⟨cs, hcs, rfl⟩ := Option.map_eq_some_iff.mp h
  obtain ⟨hjoin, hall⟩ := constantItems_of_mapM hcs
  have hmethods : constant (join (m.fields.map (·.accessors))) = none := by
    cases m.fields with
    | nil => rfl
    | cons f fields => exact f.constant_accessors _
  have hbody : firstGroup .curly (join [allowing ["dead_code"], "impl", m.ident,
      curly (cs ++ m.fields.map (·.accessors))]) = join cs ++ join (m.fields.map (·.accessors)) :=
    List.flatten_append
  have hspells : ∀ p ∈ m.fields.zipIdx, Spells constant ((p.1.constantItem? p.2).getD [])
      (Text.upper p.1.name, p.2) := by
    intro p hp
    obtain ⟨c, hc⟩ := hall p hp
    rw [hc]
    exact p.1.spells_constantItem? p.2 hc
  rw [constantsOf, hbody, hjoin, repeatedly_flatMap hspells rfl hmethods]

/-- The item of the constants and methods is missing exactly if there is a field of whose name
nothing is left. -/
theorem accessorItem?_eq_none_iff : m.accessorItem? = none ↔ ∃ f ∈ m.fields, f.name = "" := by
  have hentries : ∀ entries : List (FieldModel × Nat),
      entries.mapM (fun (f, i) => f.constantItem? i) = none ↔ ∃ p ∈ entries, p.1.name = "" := by
    intro entries
    induction entries with
    | nil => simp
    | cons p entries ih =>
      have hp := p.1.constantItem?_eq_none_iff p.2
      have hcons : (∃ q ∈ p :: entries, q.1.name = "") ↔
          p.1.constantItem? p.2 = none ∨ entries.mapM (fun (f, i) => f.constantItem? i) = none := by
        rw [hp, ih]
        exact List.exists_mem_cons_iff ..
      rw [List.mapM_cons, hcons]
      cases hc : p.1.constantItem? p.2 with
      | none => simp [hc]
      | some c => cases entries.mapM fun (f, i) => f.constantItem? i <;> simp [hc]
  rw [accessorItem?, Option.map_eq_none_iff, constantItems?, hentries]
  constructor
  · rintro ⟨p, hp, hname⟩
    exact ⟨p.1, List.fst_mem_of_mem_zipIdx hp, hname⟩
  · rintro ⟨f, hf, hname⟩
    obtain ⟨i, hi⟩ := List.mem_iff_getElem?.mp hf
    exact ⟨(f, i), List.mem_zipIdx_iff_getElem?.mpr hi, hname⟩

end TypeModel

end TableJoin.Declaration
