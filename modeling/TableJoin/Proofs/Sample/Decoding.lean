import TableJoin.Proofs.Document.Source
import TableJoin.Proofs.Reading.LastChild
import TableJoin.Proofs.Reading.Strictness
import TableJoin.Proofs.Sample.Writing
import TableJoin.Record.Roles

/-!
The sample is decoded at every size, and says what it was made from: its rows in order, each
with its key and its two cells.
-/

namespace TableJoin.Sample

open Markup Numeral Schema

section Views

theorem elements_written (cs : List Char) : SourcePart.elements (written cs) = [] := by
  rw [written]
  induction cs with
  | nil => rfl
  | cons c cs ih => exact ih

theorem stands_written (cs : List Char) : (written cs).flatMap SourcePart.stands = cs := by
  rw [written, List.flatMap_map]
  exact List.flatMap_singleton' cs

/-- A reader sees the children of an element that is written around them. -/
theorem elements_branch (indent : Nat) (name : String) (attributes : List SourceAttribute)
    (children : List SourceElement) :
    Part.elements (branch indent name attributes children).view.parts =
      children.map SourceElement.view := by
  have hchildren : SourcePart.elements (children.flatMap
      (fun e => written (line (indent + 2)) ++ [SourcePart.element e]) ++
        written (line indent)) = children := by
    rw [SourcePart.elements_append, elements_written, List.append_nil]
    induction children with
    | nil => rfl
    | cons e children ih =>
      rw [List.flatMap_cons, SourcePart.elements_append, SourcePart.elements_append,
        elements_written, ih]
      rfl
  exact (SourcePart.elements_views _ []).trans (congrArg _ hchildren)

theorem ownText_branch (indent : Nat) (name : String) (attributes : List SourceAttribute)
    (children : List SourceElement) : (branch indent name attributes children).view.ownText =
      String.ofList (children.flatMap (fun _ => line (indent + 2)) ++ line indent) := by
  have hstands : (children.flatMap
      (fun e => written (line (indent + 2)) ++ [SourcePart.element e]) ++
        written (line indent)).flatMap SourcePart.stands =
        children.flatMap (fun _ => line (indent + 2)) ++ line indent := by
    rw [List.flatMap_append, stands_written, List.flatMap_assoc]
    simp [stands_written, SourcePart.stands]
  exact (SourcePart.ownText_views_nil _).trans (congrArg String.ofList hstands)

theorem isBlankText_branch (indent : Nat) (name : String) (attributes : List SourceAttribute)
    (children : List SourceElement) :
    Text.isBlankText (branch indent name attributes children).view.ownText = true := by
  have hline : ∀ indent, (line indent).all Text.isBlank = true := by
    intro indent
    have hspace : Text.isBlank ' ' = true := rfl
    rw [line, List.all_cons, List.all_replicate, hspace, ite_self]
    rfl
  rw [ownText_branch, Text.isBlankText, String.toList_ofList, List.all_append, hline, Bool.and_true,
    List.all_flatMap]
  exact List.all_eq_true.mpr fun _ _ => hline _

theorem localName_tagNamed (name : String) (attributes : List SourceAttribute) :
    (tagNamed name attributes).localName = name :=
  congrArg Prod.snd (splitRawName_join (by decide : isLocalName "tjs" = true))

theorem name_branch (indent : Nat) (name : String) (attributes : List SourceAttribute)
    (children : List SourceElement) :
    (branch indent name attributes children).view.name = name :=
  localName_tagNamed name attributes

theorem name_leaf (name : String) (attributes : List SourceAttribute) (text : String) :
    (leaf name attributes text).view.name = name :=
  localName_tagNamed name attributes

theorem ownText_leaf (name : String) (attributes : List SourceAttribute) (text : String) :
    (leaf name attributes text).view.ownText = text := by
  exact (SourcePart.ownText_views_nil _).trans
    (by rw [SourcePart.ownText, stands_written, String.ofList_toList])

/-- Elements that are written around the same children but for the last one. -/
theorem swapsLast_branch (indent : Nat) (name : String) (attributes : List SourceAttribute)
    (es : List SourceElement) {e e' : SourceElement} (hname : e'.localName = e.localName)
    (hother : ∀ d ∈ es, d.localName ≠ e.localName) :
    Element.SwapsLast (branch indent name attributes (es ++ [e])).view
      (branch indent name attributes (es ++ [e'])).view e.view e'.view where
  attributes := rfl
  ownText := by simp only [ownText_branch, List.flatMap_append, List.flatMap_singleton]
  elements := by
    refine ⟨es.map SourceElement.view, ?_, ?_, ?_⟩
    · rw [elements_branch, List.map_append]
      rfl
    · rw [elements_branch, List.map_append]
      rfl
    · simpa only [List.forall_mem_map, SourceElement.name_view] using hother
  name := by rw [SourceElement.name_view, SourceElement.name_view, hname]

/-- The tables of the types that the sample is made of have features of these names, and no
other part of the framework or the dataset has the name of the last one. -/
theorem features_eq :
    (Root.ofName? "GDAS" = some .attributeSet ∧
      RecordType.attributeSet.element? "Framework" =
        some (0, .record .tabulatedFramework, false) ∧
      RecordType.tabulatedFramework.element? "Dataset" =
        some (10, .record .tabulatedDataset, false) ∧
      RecordType.tabulatedDataset.element? "Rowset" = some (9, .record .dataRowset, false) ∧
      RecordType.dataRowset.element? "Row" = some (0, .record .dataRow, true) ∧
      RecordType.dataRow.element? "K" = some (0, .record .key, true) ∧
      RecordType.dataRow.element? "V" = some (1, .record .cell, true)) ∧
    (RecordType.attributeSet.indexOf? "framework" = some 0 ∧
      RecordType.tabulatedFramework.indexOf? "dataset" = some 10 ∧
      RecordType.tabulatedDataset.indexOf? "rowset" = some 9) ∧
    (∀ d ∈ frameworkParts, d.localName ≠ "Dataset") ∧
      ∀ d ∈ datasetParts, d.localName ≠ "Rowset" := by
  decide +kernel

variable (rows rows' : List SourceElement)

theorem swapsLast_root : Element.SwapsLast (root rows).view (root rows').view
    (framework rows).view (framework rows').view :=
  swapsLast_branch 0 "GDAS" rootAttributes [] rfl nofun

theorem swapsLast_framework : Element.SwapsLast (framework rows).view (framework rows').view
    (dataset rows).view (dataset rows').view := by
  refine swapsLast_branch 2 "Framework" [] frameworkParts rfl fun d hd => ?_
  rw [← SourceElement.name_view (dataset rows), dataset, name_branch]
  exact features_eq.2.2.1 d hd

theorem swapsLast_dataset : Element.SwapsLast (dataset rows).view (dataset rows').view
    (rowset rows).view (rowset rows').view := by
  refine swapsLast_branch 4 "Dataset" [] datasetParts rfl fun d hd => ?_
  rw [← SourceElement.name_view (rowset rows), rowset, name_branch]
  exact features_eq.2.2.2 d hd

theorem element?_framework : RecordType.attributeSet.element? (framework rows).view.name =
    some (0, .record .tabulatedFramework, false) := by
  rw [framework, name_branch]
  exact features_eq.1.2.1

theorem element?_dataset : RecordType.tabulatedFramework.element? (dataset rows).view.name =
    some (10, .record .tabulatedDataset, false) := by
  rw [dataset, name_branch]
  exact features_eq.1.2.2.1

theorem element?_rowset : RecordType.tabulatedDataset.element? (rowset rows).view.name =
    some (9, .record .dataRowset, false) := by
  rw [rowset, name_branch]
  exact features_eq.1.2.2.2.1

end Views

section Rows

def keyRecord (text : String) : Record :=
  ⟨.key, [[], [.scalar (.text text)]]⟩

def cellRecord (isNull : Bool) (text : String) : Record :=
  ⟨.cell, [[], if isNull then [.scalar (.boolean true)] else [], [.scalar (.text text)]]⟩

def incomeRecord (i : Nat) : Record :=
  if i % 10 = 9 then cellRecord true "-1" else cellRecord false (incomeText i)

def rowRecord (i : Nat) : Record :=
  ⟨.dataRow, [[.record (keyRecord (paddedDigits 5 i))],
    [.record (cellRecord false (toString (households i))), .record (incomeRecord i)]]⟩

section Leaves

variable {name text : String}

theorem itemsOf_body_leaf (name : String) (htext : Text.isBlankText text = false)
    (feature : String) :
    (leaf name [] text).view.itemsOf (Feature.body feature .text) = [.scalar (.text text)] := by
  have hitems : (leaf name [] text).view.itemsOf (Feature.body feature .text) =
      bodyItems .text (leaf name [] text).view.ownText := rfl
  rw [hitems, ownText_leaf, bodyItems, htext]
  rfl

/-- A key that is written around a text that is not blank. -/
theorem record_key (htext : Text.isBlankText text = false) :
    (leaf name [] text).view.record .key = keyRecord text := by
  have hslots : RecordType.key.features.map (leaf name [] text).view.itemsOf =
      [[], [.scalar (.text text)]] := by
    rw [← itemsOf_body_leaf name htext "value"]
    rfl
  rw [Element.record, hslots]
  rfl

/-- A cell that is written around a text that is not blank. -/
theorem record_cell (htext : Text.isBlankText text = false) :
    (leaf name [] text).view.record .cell = cellRecord false text := by
  have hslots : RecordType.cell.features.map (leaf name [] text).view.itemsOf =
      [[], [], [.scalar (.text text)]] := by
    rw [← itemsOf_body_leaf name htext "value"]
    rfl
  rw [Element.record, hslots]
  rfl

/-- Any text may be the content of a key or a cell. -/
theorem faults_leaf (name text : String) {t : RecordType} {i : Nat}
    (hbody : t.body? = some (i, .text)) (strict : Bool) :
    (leaf name [] text).view.faults strict (.record t) = [] := by
  have hattributes : (leaf name [] text).view.attributes = [] := rfl
  rw [Element.faults_record, hbody, hattributes, List.flatMap_nil, List.nil_append]
  simp only
  split <;> rfl

end Leaves

theorem nullCell_spec : (leaf "V" [attr " " "null" "true"] "-1").view.record .cell =
      cellRecord true "-1" ∧
    ∀ strict, (leaf "V" [attr " " "null" "true"] "-1").view.faults strict (.record .cell) = [] := by
  decide +kernel

/-- The second cell of a row is one, whether null or not. -/
theorem income_spec (i : Nat) : (income i).view.name = "V" ∧
    (income i).view.record .cell = incomeRecord i ∧
      ∀ strict, (income i).view.faults strict (.record .cell) = [] := by
  unfold income incomeRecord
  split
  · exact ⟨name_leaf _ _ _, nullCell_spec⟩
  · exact ⟨name_leaf _ _ _, record_cell (isNumeral_incomeText i).not_isBlankText,
      faults_leaf _ _ rfl⟩

theorem elements_row (i : Nat) : Part.elements (row i).view.parts =
    [(leaf "K" [] (paddedDigits 5 i)).view, (leaf "V" [] (toString (households i))).view,
      (income i).view] :=
  rfl

theorem named_row (i : Nat) :
    Element.named "K" (Part.elements (row i).view.parts) =
        [(leaf "K" [] (paddedDigits 5 i)).view] ∧
      Element.named "V" (Part.elements (row i).view.parts) =
        [(leaf "V" [] (toString (households i))).view, (income i).view] ∧
      ∀ name, name ≠ "K" → name ≠ "V" →
        Element.named name (Part.elements (row i).view.parts) = [] := by
  rw [elements_row]
  simp +contextual [Element.named, name_leaf, (income_spec i).1, eq_comm]

theorem record_row (i : Nat) : (row i).view.record .dataRow = rowRecord i := by
  obtain ⟨hkeys, hcells, -⟩ := named_row i
  have hslots : RecordType.dataRow.features.map (row i).view.itemsOf =
      [Part.items (.record .key) true "K" (row i).view.parts,
        Part.items (.record .cell) true "V" (row i).view.parts] := rfl
  rw [Element.record, hslots, Part.items_eq_named, Part.items_eq_named, hkeys, hcells]
  simp only [↓reduceIte, List.filterMap_cons, List.filterMap_nil, Element.item?_record,
    record_key (isNumeral_paddedDigits 5 i).not_isBlankText,
    record_cell (isNumeral_toString _).not_isBlankText, (income_spec i).2.1]
  rfl

theorem faults_row (i : Nat) (strict : Bool) :
    (row i).view.faults strict (.record .dataRow) = [] := by
  obtain ⟨hkeys, hcells, hother⟩ := named_row i
  have hbody : RecordType.dataRow.body? = none := rfl
  have hattributes : (row i).view.attributes = [] := rfl
  have htext : Part.ownText (row i).view.parts = "" := rfl
  obtain ⟨-, -, -, -, -, hkey, hcell⟩ := features_eq.1
  rw [Element.faults_record, hbody, hattributes, List.flatMap_nil, List.nil_append]
  refine (Part.faults_eq_nil_iff _ _).mpr ⟨fun _ => by rw [htext]; rfl, fun name => ?_⟩
  by_cases hK : name = "K"
  · rw [hK, hkeys, RecordType.Accepts, hkey]
    exact List.forall_mem_singleton.mpr (faults_leaf "K" _ rfl strict)
  · by_cases hV : name = "V"
    · rw [hV, hcells, RecordType.Accepts, hcell]
      exact List.forall_mem_cons.mpr ⟨faults_leaf "V" _ rfl strict,
        List.forall_mem_singleton.mpr ((income_spec i).2.2 strict)⟩
    · rw [hother name hK hV]
      exact RecordType.accepts_nil ..

end Rows

section Rowset

theorem elements_rowset (n : Nat) : Part.elements (rowset ((List.range n).map row)).view.parts =
    (List.range n).map fun i => (row i).view := by
  rw [rowset, elements_branch, List.map_map]
  rfl

theorem named_rowset (n : Nat) :
    Element.named "Row" (Part.elements (rowset ((List.range n).map row)).view.parts) =
        (List.range n).map (fun i => (row i).view) ∧
      ∀ name, name ≠ "Row" →
        Element.named name (Part.elements (rowset ((List.range n).map row)).view.parts) = [] := by
  have hrow : ∀ i, (row i).view.name = "Row" := fun i => localName_tagNamed "Row" []
  rw [elements_rowset]
  constructor
  · simp [Element.named, List.filter_map, Function.comp_def, hrow]
  · intro name hname
    simp [Element.named, List.filter_eq_nil_iff, hrow, hname.symm]

def rowsetRecord (n : Nat) : Record :=
  ⟨.dataRowset, [(List.range n).map fun i => .record (rowRecord i)]⟩

theorem record_rowset (n : Nat) :
    (rowset ((List.range n).map row)).view.record .dataRowset = rowsetRecord n := by
  have hslots : ∀ e : Element, RecordType.dataRowset.features.map e.itemsOf =
      [Part.items (.record .dataRow) true "Row" e.parts] := fun _ => rfl
  rw [Element.record, hslots, Part.items_eq_named, (named_rowset n).1]
  simp only [↓reduceIte, Element.item?_record, List.filterMap_eq_map', List.map_map,
    Function.comp_def, record_row, rowsetRecord]

theorem faults_rowset (n : Nat) (strict : Bool) :
    (rowset ((List.range n).map row)).view.faults strict (.record .dataRowset) = [] := by
  obtain ⟨hrows, hother⟩ := named_rowset n
  have hbody : RecordType.dataRowset.body? = none := rfl
  obtain ⟨-, -, -, -, hrow, -⟩ := features_eq.1
  have hattributes : (rowset ((List.range n).map row)).view.attributes = [] := rfl
  rw [Element.faults_record, hbody, hattributes, List.flatMap_nil, List.nil_append]
  refine (Part.faults_eq_nil_iff _ _).mpr ⟨fun _ => isBlankText_branch .., fun name => ?_⟩
  by_cases hname : name = "Row"
  · rw [hname, hrows, RecordType.Accepts, hrow]
    exact List.forall_mem_map.mpr fun i _ => faults_row i strict
  · rw [hother name hname]
    exact RecordType.accepts_nil ..

end Rowset

section Validation

theorem violationsFrom_rowRecord (path : String) (i : Nat) :
    (rowRecord i).violationsFrom path = [] := by
  unfold rowRecord incomeRecord
  split <;> rfl

/-- Nothing is reported of rows but that there are none. -/
theorem violationsFrom_rowsetRecord (path : String) (n : Nat) :
    (rowsetRecord n).violationsFrom path =
      if n = 0 then [⟨path, .dataRowset, .noItems (QName.tjs "Row")⟩] else [] := by
  have hrows : ∀ (is : List Nat) (f : Feature) (k : Nat),
      Item.listViolations path f k (is.map fun i => .record (rowRecord i)) = [] := by
    intro is f
    induction is with
    | nil => exact fun _ => rfl
    | cons i is ih =>
      intro k
      rw [List.map_cons, Item.listViolations, ih, List.append_nil]
      exact violationsFrom_rowRecord _ i
  cases n with
  | zero => rfl
  | succ n =>
    have hown : ∀ x xs, Record.ownProblems ⟨.dataRowset, [x :: xs]⟩ = [] := fun _ _ => rfl
    have hslots : ∀ xs : List Item, Item.slotViolations path RecordType.dataRowset.features [xs] =
        Item.listViolations path (.needed (.listed (.child "row" (.tjs "Row") .dataRow))) 1 xs ++
          [] := fun _ => rfl
    rw [if_neg (Nat.succ_ne_zero n), rowsetRecord, Record.violationsFrom, hslots, hrows,
      List.range_succ_eq_map, List.map_cons, hown]
    rfl

end Validation

section Document

def rows (n : Nat) : List SourceElement :=
  (List.range n).map row

theorem root_one_spec : (root (rows 1)).view.faults true (.record .attributeSet) = [] ∧
    ((root (rows 1)).view.record .attributeSet).violationsFrom "GDAS" = [] := by
  simp (disch := exact rfl) only [root, framework, dataset, rowset, rootAttributes, frameworkParts,
    datasetParts, leaf, branch, link, unit, keyColumn, householdsColumn, incomeColumn, tagNamed,
    qualified, attr, String.toList_append, toList_eq]
  decide +kernel

/-- Nothing is refused of the sample, because nothing is of the one with one row, and nothing
of the rows. -/
theorem faults_root (n : Nat) : (root (rows n)).view.faults true (.record .attributeSet) = [] := by
  have hframework := swapsLast_root (rows 1) (rows n)
  have hdataset := swapsLast_framework (rows 1) (rows n)
  have hrowset := swapsLast_dataset (rows 1) (rows n)
  have hframework₁ := hframework.faults_child (element?_framework _) root_one_spec.1
  have hdataset₁ := hdataset.faults_child (element?_dataset _) hframework₁
  refine hframework.faults_eq_nil (element?_framework _) root_one_spec.1 ?_
  refine hdataset.faults_eq_nil (element?_dataset _) hframework₁ ?_
  exact hrowset.faults_eq_nil (element?_rowset _) hdataset₁ (faults_rowset n true)

/-- What is reported of the sample is what is reported of its rows. -/
theorem violationsFrom_root (n : Nat) :
    ((root (rows n)).view.record .attributeSet).violationsFrom "GDAS" =
      (rowsetRecord n).violationsFrom "GDAS/Framework/Dataset/Rowset" := by
  have hframework := swapsLast_root (rows 1) (rows n)
  have hdataset := swapsLast_framework (rows 1) (rows n)
  have hrowset := swapsLast_dataset (rows 1) (rows n)
  have hnone := root_one_spec.2
  rw [hframework.violationsFrom_eq (element?_framework _) rfl nofun hnone]
  replace hnone := hframework.violationsFrom_child (element?_framework _) rfl nofun hnone
  rw [hdataset.violationsFrom_eq (element?_dataset _) rfl nofun hnone]
  replace hnone := hdataset.violationsFrom_child (element?_dataset _) rfl nofun hnone
  rw [hrowset.violationsFrom_eq (element?_rowset _) rfl nofun hnone, rows, record_rowset]
  rfl

def record (n : Nat) : Record :=
  (root (rows n)).view.record .attributeSet

/-- The sample is decoded in both modes, as the same document. -/
theorem decode_text (n : Nat) (strict : Bool) :
    Document.decode strict (text n) = .ok ⟨.attributeSet, record n, rfl⟩ := by
  have hspells : (source (rows n)).Spells (text n) := ⟨isWellFormed_source n, text_source n⟩
  have hname : Root.ofName? (root (rows n)).view.name = some .attributeSet := by
    rw [root, name_branch]
    exact features_eq.1.1
  have hstrict : Document.decode true (text n) = .ok ⟨.attributeSet, record n, rfl⟩ :=
    (SourceDocument.decode_iff hspells).mpr ⟨hname, faults_root n, rfl⟩
  cases strict with
  | true => exact hstrict
  | false =>
    obtain ⟨-, ⟨-, hsame⟩ | ⟨-, e, herror, -⟩⟩ := Document.decode_outcome (text n)
    · rw [← hsame, hstrict]
    · rw [hstrict] at herror
      cases herror

end Document

section Contents

/-- What a row of the sample says: its key has at least five digits, and every tenth income is
null. -/
structure IsSampleRow (i : Nat) (r : Record) : Prop where
  keys : r.rowKeys = [paddedDigits 5 i]
  cells : r.rowCells = [some (toString (1000 + 37 * i)),
    if i % 10 = 9 then none
    else some (toString (40000 + 11 * i) ++ "." ++ paddedDigits 2 (i % 100))]
  null : i % 10 = 9 → ∃ count income, r.recordsNamed "v" = [count, income] ∧
    income.isNullCell = true ∧ income.textNamed? "value" = some "-1"

theorem cellText?_cellRecord (isNull : Bool) (text : String) :
    (cellRecord isNull text).cellText? = if isNull then none else some text := by
  cases isNull <;> rfl

theorem isSampleRow_rowRecord (i : Nat) : IsSampleRow i (rowRecord i) where
  keys := rfl
  cells := by
    have hcells : (rowRecord i).rowCells =
        [(cellRecord false (toString (households i))).cellText?, (incomeRecord i).cellText?] := rfl
    have hincome : (incomeRecord i).cellText? =
        if i % 10 = 9 then none else some (incomeText i) := by
      unfold incomeRecord
      split <;> rw [cellText?_cellRecord] <;> rfl
    rw [hcells, hincome, cellText?_cellRecord, households, incomeText, Nat.mul_comm i,
      Nat.mul_comm i]
    rfl
  null hnine := by
    refine ⟨_, incomeRecord i, rfl, ?_⟩
    rw [incomeRecord, if_pos hnine]
    exact ⟨rfl, rfl⟩

theorem hasNull_rowRecord (i : Nat) :
    (rowRecord i).rowCells.contains none = decide (i % 10 = 9) := by
  rw [(isSampleRow_rowRecord i).cells]
  split
  · next hnine => simp [hnine]
  · next hnine => simp [hnine]

theorem length_filter_nines (n : Nat) :
    ((List.range n).filter fun i => decide (i % 10 = 9)).length = n / 10 := by
  induction n with
  | zero => rfl
  | succ n ih =>
    rw [List.range_succ, List.filter_append, List.length_append, ih]
    by_cases hnine : n % 10 = 9
    · simp [hnine]
      omega
    · simp [hnine]
      omega

theorem recordsNamed_eq_singleton {r c : Record} {name : String} {i : Nat}
    (hindex : r.type.indexOf? name = some i) (hitems : r.items i = [.record c]) :
    r.recordsNamed name = [c] := by
  rw [Record.recordsNamed, Record.itemsNamed, hindex, Option.elim_some, hitems]
  rfl

theorem recordsNamed_row (n : Nat) :
    (rowsetRecord n).recordsNamed "row" = (List.range n).map rowRecord := by
  have hitems : (rowsetRecord n).recordsNamed "row" =
      ((List.range n).map fun i => Item.record (rowRecord i)).filterMap Item.record? := rfl
  rw [hitems, List.filterMap_map]
  exact List.filterMap_eq_map (f := rowRecord) ▸ rfl

theorem document_of_write {rows : UInt64} (n : Nat) (h : write rows = .ok (text n)) :
    document rows = .ok ⟨.attributeSet, record n, rfl⟩ := by
  refine Except.bind_eq_ok_iff.mpr ⟨text n, by rw [h]; rfl, Except.bind_eq_ok_iff.mpr
    ⟨⟨.attributeSet, record n, rfl⟩, ?_, rfl⟩⟩
  rw [decode_text]
  rfl

/-- The sample is written if there can be twice the room that is reserved for it, and then it is
decoded in both modes as the same document.  It has as many rows as were asked for, in order, each
with its key and its two cells, the second of which is null in every tenth row.  Nothing is
reported of it, unless it has no row, and then only that.  A greater sample is not written. -/
theorem document_spec (rows : UInt64) :
    (2 * reserved rows.toNat ≤ Text.greatestRoom → ∃ (xml : String) (d : Document),
      write rows = .ok xml ∧ d.root = .attributeSet ∧ Document.decode true xml = .ok d ∧
      Document.decode false xml = .ok d ∧ document rows = .ok d ∧
      (∃ framework dataset rowset : Record, d.content.recordsNamed "framework" = [framework] ∧
        framework.recordsNamed "dataset" = [dataset] ∧
        dataset.recordsNamed "rowset" = [rowset] ∧
        (rowset.recordsNamed "row").length = rows.toNat ∧
        (∀ i r, (rowset.recordsNamed "row")[i]? = some r → IsSampleRow i r) ∧
        ((rowset.recordsNamed "row").filter (·.rowCells.contains none)).length =
          rows.toNat / 10) ∧
      d.violations =
        if rows.toNat = 0 then
          [⟨"GDAS/Framework/Dataset/Rowset", .dataRowset, .noItems (QName.tjs "Row")⟩]
        else []) ∧
    (Text.greatestRoom < 2 * reserved rows.toNat →
      ∃ o, write rows = .error o ∧ document rows = .error (.overrun o)) := by
  obtain ⟨hwritten, hnot⟩ := write_spec rows
  constructor
  · intro hroom
    replace hwritten := hwritten hroom
    generalize rows.toNat = n at hwritten ⊢
    have hframework := (swapsLast_root (Sample.rows n) (Sample.rows n)).items_eq
      (element?_framework _)
    have hdataset := (swapsLast_framework (Sample.rows n) (Sample.rows n)).items_eq
      (element?_dataset _)
    have hrowset := (swapsLast_dataset (Sample.rows n) (Sample.rows n)).items_eq
      (element?_rowset _)
    rw [Sample.rows, record_rowset, ← Sample.rows] at hrowset
    have hindex := features_eq.2.1
    refine ⟨text n, ⟨.attributeSet, record n, rfl⟩, hwritten, rfl, decode_text n true,
      decode_text n false, document_of_write n hwritten,
      ⟨(framework (Sample.rows n)).view.record .tabulatedFramework,
        (dataset (Sample.rows n)).view.record .tabulatedDataset, rowsetRecord n,
        recordsNamed_eq_singleton hindex.1 hframework,
        recordsNamed_eq_singleton hindex.2.1 hdataset,
        recordsNamed_eq_singleton hindex.2.2 hrowset, ?_, ?_, ?_⟩, ?_⟩
    · rw [recordsNamed_row, List.length_map, List.length_range]
    · intro i r hr
      rw [recordsNamed_row, List.getElem?_map, Option.map_eq_some_iff] at hr
      obtain ⟨j, hj, rfl⟩ := hr
      obtain ⟨-, rfl⟩ := List.getElem?_eq_some_iff.mp hj
      rw [List.getElem_range]
      exact isSampleRow_rowRecord i
    · rw [recordsNamed_row, List.filter_map, List.length_map, ← length_filter_nines]
      simp only [Function.comp_def, hasNull_rowRecord]
    · rw [Document.violations]
      exact (violationsFrom_root n).trans (violationsFrom_rowsetRecord _ n)
  · intro hroom
    obtain ⟨o, ho⟩ := hnot hroom
    refine ⟨o, ho, ?_⟩
    rw [document, ho]
    rfl

/-- The sample with twenty-five rows is written, and nothing is reported of it. -/
theorem document_twentyFive : 2 * reserved (25 : UInt64).toNat ≤ Text.greatestRoom ∧
    ∃ d, document 25 = .ok d ∧ d.violations = [] := by
  have hroom : 2 * reserved (25 : UInt64).toNat ≤ Text.greatestRoom := reserved_le (by decide)
  obtain ⟨-, d, -, -, -, -, hd, -, hvalid⟩ := (document_spec 25).1 hroom
  exact ⟨hroom, d, hd, hvalid⟩

/-- The numbers of a sample of 10 ^ 17 rows fit into 64 bits, but it is not written. -/
theorem document_tooLarge :
    1000 + 37 * (100000000000000000 : UInt64).toNat < 2 ^ 64 ∧
      40000 + 11 * (100000000000000000 : UInt64).toNat < 2 ^ 64 ∧
      ∃ o, write 100000000000000000 = .error o ∧
        document 100000000000000000 = .error (.overrun o) := by
  have hroom : Text.greatestRoom < 2 * reserved (100000000000000000 : UInt64).toNat :=
    lt_reserved (by decide)
  exact ⟨by decide, by decide, (document_spec 100000000000000000).2 hroom⟩

end Contents

end TableJoin.Sample
