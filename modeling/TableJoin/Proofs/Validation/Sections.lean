import Mathlib.Computability.RegularExpressions
import Mathlib.Data.Set.List
import TableJoin.Sections

/-!
Lists of section names: the check of the commas and names between them accepts the sequences
of section names that are joined by commas, which are the words of a regular expression.
-/

namespace TableJoin

/-- The text is one section name or several ones with a comma between any two. -/
def IsSectionSequence (s : String) : Prop :=
  ∃ names : List String, names ≠ [] ∧ (∀ name ∈ names, name ∈ sectionNames) ∧
    s = ",".intercalate names

theorem comma_not_mem_of_mem : ∀ name ∈ sectionNames, ',' ∉ name.toList := by
  decide

/-- The check splits a sequence of section names into these names. -/
theorem isSectionList_iff {s : String} : isSectionList s = true ↔ IsSectionSequence s := by
  rw [isSectionList, List.all_eq_true]
  constructor
  · intro hall
    refine ⟨(s.toList.splitOn ',').map String.ofList, by simp, ?_, ?_⟩
    · intro name hname
      obtain ⟨cs, hcs, rfl⟩ := List.mem_map.mp hname
      exact decide_eq_true_iff.mp (hall cs hcs)
    · apply String.toList_inj.mp
      rw [String.toList_intercalate, List.map_map]
      simp [Function.comp_def, List.intercalate_splitOn]
  · rintro ⟨names, hne, hnames, rfl⟩ cs hcs
    have hsplit : (",".intercalate names).toList.splitOn ',' = names.map String.toList := by
      rw [String.toList_intercalate]
      apply List.splitOn_intercalate
      · intro cs hcs
        obtain ⟨name, hname, rfl⟩ := List.mem_map.mp hcs
        exact comma_not_mem_of_mem name (hnames name hname)
      · simpa using hne
    rw [hsplit] at hcs
    obtain ⟨name, hname, rfl⟩ := List.mem_map.mp hcs
    simpa using hnames name hname

instance (s : String) : Decidable (IsSectionSequence s) :=
  decidable_of_iff _ isSectionList_iff

section Pattern

open RegularExpression

def spelling (s : String) : RegularExpression Char :=
  s.toList.foldr (fun c rest => char c * rest) 1

def sectionPattern : RegularExpression Char :=
  spelling "ServiceIdentification" + spelling "ServiceProvider" + spelling "OperationsMetadata" +
    spelling "Contents" + spelling "Themes"

/-- The expression of section names, one or more, with a comma in front of each but the first. -/
def sectionsPattern : RegularExpression Char :=
  sectionPattern * (char ',' * sectionPattern).star

theorem mem_matches'_spelling {s : String} {cs : List Char} :
    cs ∈ (spelling s).matches' ↔ cs = s.toList := by
  rw [spelling]
  induction s.toList generalizing cs with
  | nil => exact Language.mem_one cs
  | cons c rest ih =>
    rw [List.foldr_cons, matches'_mul, Language.mem_mul]
    constructor
    · rintro ⟨_, rfl, b, hb, rfl⟩
      rw [ih.mp hb]
      rfl
    · rintro rfl
      exact ⟨[c], rfl, rest, ih.mpr rfl, rfl⟩

theorem mem_matches'_sectionPattern {cs : List Char} :
    cs ∈ sectionPattern.matches' ↔ ∃ name ∈ sectionNames, cs = name.toList := by
  simp only [sectionPattern, matches'_add, Language.mem_add, mem_matches'_spelling, sectionNames,
    List.mem_cons, List.not_mem_nil, or_false, exists_eq_or_imp, exists_eq_left, or_assoc]

/-- Joining puts the separator in front of each part but the first. -/
theorem intercalate_cons_eq {sep first : List Char} {parts : List (List Char)} :
    sep.intercalate (first :: parts) = first ++ (parts.map (sep ++ ·)).flatten := by
  induction parts generalizing first with
  | nil => simp
  | cons second parts ih =>
    rw [List.intercalate_cons_cons, ih]
    simp

/-- The words of the expression are the sequences of section names. -/
theorem mem_matches'_sectionsPattern {s : String} :
    s.toList ∈ sectionsPattern.matches' ↔ IsSectionSequence s := by
  have hjoined : ∀ (name : String) (names : List String),
      (",".intercalate (name :: names)).toList =
        name.toList ++ (names.map fun other => ',' :: other.toList).flatten := by
    intro name names
    rw [String.toList_intercalate, List.map_cons, intercalate_cons_eq, List.map_map]
    rfl
  rw [sectionsPattern, matches'_mul, Language.mem_mul]
  constructor
  · rintro ⟨first, hfirst, rest, hrest, hs⟩
    obtain ⟨name, hname, rfl⟩ := mem_matches'_sectionPattern.mp hfirst
    obtain ⟨parts, rfl, hparts⟩ := Language.mem_kstar.mp hrest
    -- every further part is a comma and a name
    obtain ⟨names, rfl⟩ : parts ∈ Set.range (List.map fun other : { n // n ∈ sectionNames } =>
        ',' :: other.1.toList) := by
      rw [Set.range_list_map]
      intro part hpart
      obtain ⟨_, rfl, cs, hcs, rfl⟩ := Language.mem_mul.mp (hparts part hpart)
      obtain ⟨other, hother, rfl⟩ := mem_matches'_sectionPattern.mp hcs
      exact ⟨⟨other, hother⟩, rfl⟩
    refine ⟨name :: names.map Subtype.val, List.cons_ne_nil _ _,
      List.forall_mem_cons.mpr ⟨hname, ?_⟩, String.toList_inj.mp ?_⟩
    · intro other hother
      obtain ⟨known, -, rfl⟩ := List.mem_map.mp hother
      exact known.2
    · rw [hjoined, List.map_map, ← hs]
      rfl
  · rintro ⟨names, hne, hnames, rfl⟩
    obtain ⟨name, names, rfl⟩ := List.exists_cons_of_ne_nil hne
    obtain ⟨hname, hothers⟩ := List.forall_mem_cons.mp hnames
    refine ⟨name.toList, mem_matches'_sectionPattern.mpr ⟨name, hname, rfl⟩, _,
      Language.join_mem_kstar ?_, (hjoined name names).symm⟩
    intro part hpart
    obtain ⟨other, hother, rfl⟩ := List.mem_map.mp hpart
    have hpattern := mem_matches'_sectionPattern.mpr ⟨other, hothers other hother, rfl⟩
    exact Language.append_mem_mul (a := [',']) rfl hpattern

/-- A comma divides a text into two that are checked apart. -/
theorem isSectionList_append (s t : String) :
    isSectionList (s ++ "," ++ t) = (isSectionList s && isSectionList t) := by
  have hchars : (s ++ "," ++ t).toList = s.toList ++ ',' :: t.toList := by simp
  rw [isSectionList, hchars, List.splitOn,
    List.splitOnP_append_cons (p := (· == ',')) _ _ (beq_self_eq_true ','), List.all_append]
  rfl

/-- The check accepts the words of the expression and no other text; so a comma joins two
accepted texts, and joins no others, to an accepted one. -/
theorem isSectionList_iff_pattern :
    (∀ s, isSectionList s = true ↔ s.toList ∈ sectionsPattern.matches') ∧
    ∀ s t, isSectionList (s ++ "," ++ t) = true ↔
      isSectionList s = true ∧ isSectionList t = true := by
  refine ⟨fun s => ?_, fun s t => ?_⟩
  · rw [isSectionList_iff, mem_matches'_sectionsPattern]
  · rw [isSectionList_append, Bool.and_eq_true]

end Pattern

end TableJoin
