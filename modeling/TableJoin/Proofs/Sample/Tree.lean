import Mathlib.Data.List.Basic
import TableJoin.Proofs.Markup.SourceNodes
import TableJoin.Proofs.Numeral.Canonical
import TableJoin.Proofs.Sample.Text

/-!
The sample as a tree: elements on lines of their own, each line indented by the depth of its
element.  The rows are whatever elements they are; all else is fixed.
-/

namespace TableJoin.Sample

open Markup Numeral

section Layout

def written (cs : List Char) : List SourcePart :=
  cs.map .plain

def line (indent : Nat) : List Char :=
  '\n' :: List.replicate indent ' '

def attr (gap key value : String) : SourceAttribute :=
  ⟨gap.toList, key.toList, [], [], '"', value.toList⟩

/-- A name in the prefix of the schema. -/
def qualified (name : String) : List Char :=
  "tjs".toList ++ ':' :: name.toList

def tagNamed (name : String) (attributes : List SourceAttribute) : SourceTag :=
  ⟨qualified name, attributes, []⟩

def leaf (name : String) (attributes : List SourceAttribute) (text : String) : SourceElement :=
  .around (tagNamed name attributes) (written text.toList) (qualified name)

/-- An element around elements on lines of their own. -/
def branch (indent : Nat) (name : String) (attributes : List SourceAttribute)
    (children : List SourceElement) : SourceElement :=
  .around (tagNamed name attributes)
    (children.flatMap (fun e => written (line (indent + 2)) ++ [.element e]) ++
      written (line indent))
    (qualified name)

end Layout

section Elements

/-- The key column, of which framework and dataset both speak. -/
def keyColumn : SourceElement :=
  .empty (tagNamed "Column" [attr " " "name" "FIPS",
    attr " " "type" "http://www.w3.org/TR/xmlschema-2/#string", attr " " "length" "5"])

def link (name request : String) : SourceElement :=
  .empty (tagNamed name
    [attr " " "xlink:href" ("http://example.org/tjs?request=" ++ request)])

def frameworkParts : List SourceElement :=
  [leaf "FrameworkURI" [] "http://example.org/frameworks/counties",
    leaf "Organization" [] "Example Census Bureau",
    leaf "Title" [] "Counties",
    leaf "Abstract" [] "County boundaries",
    leaf "ReferenceDate" [] "2020",
    leaf "Version" [] "1",
    branch 4 "FrameworkKey" [] [keyColumn],
    branch 4 "BoundingCoordinates" []
      [leaf "North" [] "71.5", leaf "South" [] "18.9", leaf "East" [] "-66.9",
        leaf "West" [] "-179.2"],
    link "DescribeDatasetsRequest" "DescribeDatasets"]

def unit (short long : String) : SourceElement :=
  branch 16 "UOM" [] [leaf "ShortForm" [] short, leaf "LongForm" [] long]

def householdsColumn : SourceElement :=
  branch 10 "Column" [attr " " "name" "HH",
      attr " " "type" "http://www.w3.org/TR/xmlschema-2/#integer",
      attr "\n              " "length" "9", attr " " "purpose" "Attribute"]
    [leaf "Title" [] "Households",
      leaf "Abstract" [] "Occupied housing units",
      branch 12 "Values" [] [branch 14 "Count" [] [unit "hh" "households"]]]

/-- The column of the incomes, with the value that stands for none. -/
def incomeColumn : SourceElement :=
  branch 10 "Column" [attr " " "name" "INCOME",
      attr " " "type" "http://www.w3.org/TR/xmlschema-2/#decimal",
      attr "\n              " "length" "10", attr " " "decimals" "2",
      attr " " "purpose" "Attribute"]
    [leaf "Title" [] "Median income",
      leaf "Abstract" [] "Median household income",
      branch 12 "Values" [] [branch 14 "Measure" []
        [unit "USD" "US dollars",
          branch 16 "Exceptions" [] [branch 18 "Null" []
            [leaf "Identifier" [] "-1", leaf "Title" [] "Suppressed",
              leaf "Abstract" [] "Withheld for disclosure protection"]]]]]

def datasetParts : List SourceElement :=
  [leaf "DatasetURI" [] "http://example.org/datasets/households",
    leaf "Organization" [] "Example Census Bureau",
    leaf "Title" [] "Households",
    leaf "Abstract" [] "Households and median income",
    leaf "ReferenceDate" [] "2020",
    leaf "Version" [] "1",
    link "DescribeDataRequest" "DescribeData",
    branch 6 "Columnset" []
      [branch 8 "FrameworkKey" [attr " " "complete" "true", attr " " "relationship" "one"]
        [keyColumn],
        branch 8 "Attributes" [] [householdsColumn, incomeColumn]]]

def rowset (rows : List SourceElement) : SourceElement :=
  branch 6 "Rowset" [] rows

def dataset (rows : List SourceElement) : SourceElement :=
  branch 4 "Dataset" [] (datasetParts ++ [rowset rows])

def framework (rows : List SourceElement) : SourceElement :=
  branch 2 "Framework" [] (frameworkParts ++ [dataset rows])

def rootAttributes : List SourceAttribute :=
  [attr " " "xmlns:tjs" "http://www.opengis.net/tjs/1.0",
    attr "\n    " "xmlns:xlink" "http://www.w3.org/1999/xlink",
    attr "\n    " "capabilities" "http://example.org/tjs?request=GetCapabilities",
    attr "\n    " "lang" "en", attr " " "service" "TJS", attr " " "version" "1.0"]

def root (rows : List SourceElement) : SourceElement :=
  branch 0 "GDAS" rootAttributes [framework rows]

/-- What stands in front of the root element. -/
def declaration : List SourcePart :=
  [.aside "<?xml version=\"1.0\" encoding=\"UTF-8\"?>".toList, .plain '\n']

/-- The sample with any rows, as it is written. -/
def source (rows : List SourceElement) : SourceDocument :=
  ⟨false, declaration, root rows, ['\n']⟩

/-- The income of a row, with two places. -/
def incomeText (i : Nat) : String :=
  toString (40000 + i * 11) ++ "." ++ paddedDigits 2 (i % 100)

def income (i : Nat) : SourceElement :=
  if i % 10 = 9 then leaf "V" [attr " " "null" "true"] "-1" else leaf "V" [] (incomeText i)

def row (i : Nat) : SourceElement :=
  .around (tagNamed "Row" [])
    [.element (leaf "K" [] (paddedDigits 5 i)),
      .element (leaf "V" [] (toString (households i))), .element (income i)]
    (qualified "Row")

end Elements

section Characters

def opening (name : String) (attributes : List SourceAttribute) : List Char :=
  '<' :: ((tagNamed name attributes).chars ++ ['>'])

def closing (name : String) : List Char :=
  '<' :: '/' :: (qualified name ++ ['>'])

def lines (indent : Nat) (es : List SourceElement) : List Char :=
  es.flatMap fun e => line indent ++ e.chars

theorem chars_written (cs : List Char) : SourcePart.chars (written cs) = cs := by
  rw [written]
  induction cs with
  | nil => rfl
  | cons c cs ih => rw [List.map_cons, SourcePart.chars_cons, ih]; rfl

theorem chars_leaf (name : String) (attributes : List SourceAttribute) (text : String) :
    (leaf name attributes text).chars =
      opening name attributes ++ (text.toList ++ closing name) := by
  simp [leaf, SourceElement.chars, chars_written, opening, closing]

theorem chars_branch (indent : Nat) (name : String) (attributes : List SourceAttribute)
    (children : List SourceElement) : (branch indent name attributes children).chars =
      opening name attributes ++
        (lines (indent + 2) children ++ (line indent ++ closing name)) := by
  have hchildren : SourcePart.chars
      (children.flatMap fun e => written (line (indent + 2)) ++ [.element e]) =
        lines (indent + 2) children := by
    induction children with
    | nil => rfl
    | cons e children ih =>
      rw [List.flatMap_cons, SourcePart.chars_append, SourcePart.chars_append, chars_written, ih]
      simp [lines]
  simp [branch, SourceElement.chars, SourcePart.chars_append, hchildren, chars_written, opening,
    closing]

theorem lines_append (indent : Nat) (es es' : List SourceElement) :
    lines indent (es ++ es') = lines indent es ++ lines indent es' :=
  List.flatMap_append

theorem lines_singleton (indent : Nat) (e : SourceElement) :
    lines indent [e] = line indent ++ e.chars :=
  List.flatMap_singleton ..

/-- The characters in front of the first row. -/
def front : List Char :=
  SourcePart.chars declaration ++ opening "GDAS" rootAttributes ++ line 2 ++
    opening "Framework" [] ++ lines 4 frameworkParts ++ line 4 ++ opening "Dataset" [] ++
    lines 6 datasetParts ++ line 6 ++ opening "Rowset" [] ++ ['\n']

/-- The characters behind the last row. -/
def back : List Char :=
  List.replicate 6 ' ' ++ closing "Rowset" ++ line 4 ++ closing "Dataset" ++ line 2 ++
    closing "Framework" ++ line 0 ++ closing "GDAS" ++ ['\n']

theorem lines_shift (indent : Nat) (es : List SourceElement) (more : List Char) :
    lines indent es ++ '\n' :: more =
      '\n' :: (es.flatMap (fun e => List.replicate indent ' ' ++ (e.chars ++ ['\n'])) ++ more) := by
  induction es with
  | nil => rfl
  | cons e es ih =>
    simp only [lines, List.flatMap_cons, List.append_assoc] at ih ⊢
    rw [ih]
    simp [line]

/-- The source with any rows: what stands in front of them, the rows on lines of their own, and
what stands behind them. -/
theorem chars_source (rows : List SourceElement) : (source rows).chars =
    front ++ (rows.flatMap (fun e => List.replicate 8 ' ' ++ (e.chars ++ ['\n'])) ++ back) := by
  have hrows := lines_shift 8 rows (List.replicate 6 ' ' ++ (closing "Rowset" ++ (line 4 ++
    (closing "Dataset" ++ (line 2 ++ (closing "Framework" ++ (line 0 ++ (closing "GDAS" ++
      ['\n']))))))))
  have hline : line 6 = '\n' :: List.replicate 6 ' ' := rfl
  have hsource : (source rows).chars =
      SourcePart.chars declaration ++ ((root rows).chars ++ ['\n']) := rfl
  rw [hsource]
  simp only [root, framework, dataset, rowset, chars_branch, lines_append, lines_singleton,
    List.append_assoc, Nat.reduceAdd, front, back, List.cons_append, List.nil_append] at hrows ⊢
  rw [← hrows]
  rfl

set_option maxRecDepth 40000 in
/-- The sample up to its first row and after its last one, as they are written. -/
theorem head_tail_eq : head = String.ofList front ∧ tail = String.ofList back := by
  unfold head tail
  have hcompare : ∀ {s t : List Char}, front = s → back = t →
      String.ofList s = String.ofList front ∧ String.ofList t = String.ofList back := by
    rintro _ _ rfl rfl
    exact ⟨rfl, rfl⟩
  refine hcompare ?_ ?_
  · simp (disch := exact rfl) only [front, opening, declaration, rootAttributes, frameworkParts,
      datasetParts, leaf, branch, link, unit, keyColumn, householdsColumn, incomeColumn, tagNamed,
      qualified, attr, String.toList_append, toList_eq]
    decide +kernel
  · decide +kernel

theorem rowTags_eq :
    List.replicate 8 ' ' ++ (opening "Row" [] ++ opening "K" []) =
        "        <tjs:Row><tjs:K>".toList ∧
      closing "K" = "</tjs:K>".toList ∧ opening "V" [] = "<tjs:V>".toList ∧
      closing "V" = "</tjs:V>".toList ∧ closing "Row" ++ ['\n'] = "</tjs:Row>\n".toList ∧
      (leaf "V" [attr " " "null" "true"] "-1").chars =
        "<tjs:V null=\"true\">-1</tjs:V>".toList := by
  decide +kernel

theorem chars_income (i : Nat) : (income i).chars = (incomeCell i).toList := by
  obtain ⟨-, -, hopening, hclosing, -, hnull⟩ := rowTags_eq
  have hstring : ∀ s : String, toString s = s := fun _ => rfl
  unfold income incomeCell
  split
  · exact hnull
  · simp only [chars_leaf, incomeText, hopening, hclosing, hstring, String.toList_append,
      List.append_assoc]

theorem toList_rowText (i : Nat) :
    (rowText i).toList = List.replicate 8 ' ' ++ ((row i).chars ++ ['\n']) := by
  obtain ⟨hfront, hkey, hopening, hclosing, hback, -⟩ := rowTags_eq
  have hstring : ∀ s : String, toString s = s := fun _ => rfl
  have hrow : (row i).chars = opening "Row" [] ++
      (opening "K" [] ++ ((paddedDigits 5 i).toList ++ closing "K") ++
        (opening "V" [] ++ ((toString (households i)).toList ++ closing "V") ++
          ((income i).chars ++ closing "Row"))) := by
    simp [row, SourceElement.chars, chars_leaf, opening, closing]
  rewrite [hrow, chars_income]
  unfold rowText
  generalize paddedDigits 5 i = key
  generalize toString (households i) = count
  generalize incomeCell i = cell
  simp only [String.toList_append, hstring, ← hfront, ← hkey, ← hopening, ← hclosing, ← hback,
    List.append_assoc]

theorem text_source (n : Nat) : (source ((List.range n).map row)).text = text n := by
  have hrows : ((List.range n).map row).flatMap
      (fun e => List.replicate 8 ' ' ++ (e.chars ++ ['\n'])) =
        (rowsText n).toList := by
    rw [rowsText, String.toList_join, List.flatMap_map, List.flatMap_map]
    exact List.flatMap_congr fun i _ => (toList_rowText i).symm
  rw [SourceDocument.text, ← String.toList_inj, String.toList_ofList, chars_source, text, hrows,
    String.toList_append, String.toList_append, head_tail_eq.1, head_tail_eq.2,
    String.toList_ofList, String.toList_ofList, List.append_assoc]

end Characters

section Numerals

/-- Digits and points, at least one of them. -/
def IsNumeral (s : String) : Prop :=
  s.toList ≠ [] ∧ ∀ c ∈ s.toList, c.isDigit = true ∨ c = '.'

theorem IsNumeral.append {s t : String} (hs : IsNumeral s) (ht : IsNumeral t) :
    IsNumeral (s ++ t) := by
  rw [IsNumeral, String.toList_append]
  refine ⟨fun h => hs.1 (List.append_eq_nil_iff.mp h).1, fun c hc => ?_⟩
  exact (List.mem_append.mp hc).elim (hs.2 c) (ht.2 c)

theorem IsNumeral.all_isPlain {s : String} (h : IsNumeral s) : s.toList.all isPlain = true := by
  rw [List.all_eq_true]
  intro c hc
  obtain hdigit | rfl := h.2 c hc
  · rw [isPlain, Bool.and_eq_true, bne_iff_ne, bne_iff_ne]
    constructor <;> (rintro rfl; exact absurd hdigit (by decide))
  · decide

theorem IsNumeral.not_isBlankText {s : String} (h : IsNumeral s) :
    Text.isBlankText s = false := by
  obtain ⟨c, hc⟩ := List.exists_mem_of_ne_nil _ h.1
  have hblank : Text.isBlank c = false := by
    obtain hdigit | rfl := h.2 c hc
    · exact Text.isBlank_of_isDigit hdigit
    · decide
  exact List.all_eq_false.mpr ⟨c, hc, by rw [hblank]; decide⟩

theorem isNumeral_toString (n : Nat) : IsNumeral (toString n) := by
  rw [Nat.toString_eq_ofList_toDigits, IsNumeral, String.toList_ofList]
  exact ⟨digits_ne_nil n, fun c hc => .inl (isDigit_of_mem_digits hc)⟩

theorem isNumeral_paddedDigits (width n : Nat) : IsNumeral (paddedDigits width n) := by
  rw [paddedDigits, IsNumeral, String.toList_ofList]
  refine ⟨fun h => ?_, fun c hc => .inl (isDigit_of_mem_padZeros hc)⟩
  exact digits_ne_nil n (List.append_eq_nil_iff.mp h).2

theorem isNumeral_incomeText (i : Nat) : IsNumeral (incomeText i) := by
  have hpoint : IsNumeral "." := by
    have hchars : ".".toList = ['.'] := rfl
    rw [IsNumeral, hchars]
    simp
  exact ((isNumeral_toString _).append hpoint).append (isNumeral_paddedDigits 2 _)

end Numerals

section WellFormed

/-- The tags of an element with content are well-formed. -/
def isFramed (name : String) (attributes : List SourceAttribute) : Bool :=
  (tagNamed name attributes).isWellFormed &&
    isToken (opening name attributes) (.startTag (tagNamed name attributes).chars) &&
      isToken (closing name) (.endTag (tagNamed name attributes).name)

theorem isWellFormed_around {name : String} {attributes : List SourceAttribute}
    {parts : List SourcePart} : (SourceElement.around (tagNamed name attributes) parts
      (qualified name)).isWellFormed = true ↔
        isFramed name attributes = true ∧ SourcePart.areWellFormed parts = true := by
  rw [SourceElement.isWellFormed_around, isFramed, Bool.and_eq_true, Bool.and_eq_true, and_assoc,
    and_assoc]
  rfl

theorem areWellFormed_written (cs : List Char) :
    SourcePart.areWellFormed (written cs) = cs.all isPlain := by
  rw [written]
  induction cs with
  | nil => rfl
  | cons c cs ih => rw [List.map_cons, SourcePart.areWellFormed, ih]; rfl

theorem areWellFormed_line (indent : Nat) :
    SourcePart.areWellFormed (written (line indent)) = true := by
  have hspace : isPlain ' ' = true := rfl
  rw [areWellFormed_written, line, List.all_cons, List.all_replicate, hspace, ite_self]
  rfl

theorem isWellFormed_leaf {name : String} {attributes : List SourceAttribute} {text : String} :
    (leaf name attributes text).isWellFormed = true ↔
      isFramed name attributes = true ∧ text.toList.all isPlain = true := by
  rw [leaf, isWellFormed_around, areWellFormed_written]

theorem isWellFormed_branch {indent : Nat} {name : String} {attributes : List SourceAttribute}
    {children : List SourceElement} :
    (branch indent name attributes children).isWellFormed = true ↔
      isFramed name attributes = true ∧ ∀ e ∈ children, e.isWellFormed = true := by
  rw [branch, isWellFormed_around, SourcePart.areWellFormed_append,
    and_iff_left (areWellFormed_line indent)]
  refine and_congr_right fun _ => ?_
  induction children with
  | nil => simp [SourcePart.areWellFormed]
  | cons e children ih =>
    rw [List.flatMap_cons, SourcePart.areWellFormed_append, ih, SourcePart.areWellFormed_append,
      SourcePart.areWellFormed_cons, List.forall_mem_cons, and_iff_right (areWellFormed_line _)]
    exact and_congr_left fun _ => and_iff_left rfl

theorem isWellFormed_fixed :
    (SourcePart.areWellFormed declaration && (SourcePart.elements declaration).isEmpty &&
        (declaration.flatMap SourcePart.stands).all Text.isBlank) = true ∧
      isFramed "GDAS" rootAttributes = true ∧ isFramed "Framework" [] = true ∧
      (∀ e ∈ frameworkParts, e.isWellFormed = true) ∧ isFramed "Dataset" [] = true ∧
      (∀ e ∈ datasetParts, e.isWellFormed = true) ∧ isFramed "Rowset" [] = true := by
  simp (disch := exact rfl) only [declaration, rootAttributes, frameworkParts, datasetParts, leaf,
    branch, link, unit, keyColumn, householdsColumn, incomeColumn, tagNamed, qualified, attr,
    String.toList_append, toList_eq]
  decide +kernel

theorem rowTags_isFramed : isFramed "Row" [] = true ∧ isFramed "K" [] = true ∧
    isFramed "V" [] = true ∧ isFramed "V" [attr " " "null" "true"] = true := by
  decide +kernel

theorem isWellFormed_row (i : Nat) : (row i).isWellFormed = true := by
  obtain ⟨hrow, hkey, hcell, hnull⟩ := rowTags_isFramed
  have hincome : (income i).isWellFormed = true := by
    unfold income
    split
    · exact isWellFormed_leaf.mpr ⟨hnull, rfl⟩
    · exact isWellFormed_leaf.mpr ⟨hcell, (isNumeral_incomeText i).all_isPlain⟩
  rw [row, isWellFormed_around]
  refine ⟨hrow, ?_⟩
  simp only [SourcePart.areWellFormed, SourcePart.isWellFormed, Bool.and_eq_true, hincome]
  exact ⟨isWellFormed_leaf.mpr ⟨hkey, (isNumeral_paddedDigits 5 i).all_isPlain⟩,
    isWellFormed_leaf.mpr ⟨hcell, (isNumeral_toString _).all_isPlain⟩, trivial, trivial⟩

theorem isWellFormed_source (n : Nat) :
    (source ((List.range n).map row)).isWellFormed = true := by
  obtain ⟨hdeclaration, hroot, hframework, hframeworkParts, hdataset, hdatasetParts, hrowset⟩ :=
    isWellFormed_fixed
  have hrows : ∀ e ∈ (List.range n).map row, e.isWellFormed = true :=
    List.forall_mem_map.mpr fun i _ => isWellFormed_row i
  rw [SourceDocument.isWellFormed, Bool.and_eq_true]
  refine ⟨hdeclaration, ?_⟩
  simp only [source, root, framework, dataset, rowset, isWellFormed_branch, List.forall_mem_append,
    List.forall_mem_singleton]
  exact ⟨hroot, hframework, hframeworkParts, hdataset, hdatasetParts, hrowset, hrows⟩

end WellFormed

end TableJoin.Sample
