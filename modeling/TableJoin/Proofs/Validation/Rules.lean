import Mathlib.Data.List.Nodup
import TableJoin.Proofs.Record.Building
import TableJoin.Proofs.Record.Reads
import TableJoin.Proofs.Validation.Sections
import TableJoin.Validation

/-!
Rules: what the schema demands of a record, and that the problems of a record are those of the
rules that it breaks.
-/

namespace TableJoin

open Schema

/-- A demand that the schema makes on a record. -/
inductive Rule where
  /-- The feature has to be set. -/
  | required (position : Nat) (feature : Feature)
  /-- One of the named features has to be set, and no other one of them. -/
  | oneOf (names : List String) (alternatives : String)
  /-- The sections, if there are any, are a sequence of section names. -/
  | sections

/-- The rule that the feature at a position has to be set; there is none if the feature is
optional or has a default. -/
def Schema.Feature.rules (f : Feature) (i : Nat) : List Rule :=
  if f.isRequired = true ∧ f.default? = none then [.required i f] else []

/-- What some types demand beyond their features: one of several alternatives, or that the
sections are well formed. -/
def Schema.RecordType.ownRules : RecordType → List Rule
  | .values =>
    [.oneOf ["nominal", "ordinal", "count", "measure"] "Nominal, Ordinal, Count or Measure"]
  | .joinStatus => [.oneOf ["accepted", "completed", "failed"] "Accepted, Completed or Failed"]
  | .attributeData => [.oneOf ["get_data_url", "get_data_xml"] "GetDataURL or GetDataXML"]
  | .joinedOutput => [.oneOf ["resource", "exception_report"] "Resource or ExceptionReport"]
  | .getCapabilities => [.sections]
  | _ => []

/-- The rules of a type: what has to be set, in the order of the features, then what the
type demands beyond that. -/
def Schema.RecordType.rules (t : RecordType) : List Rule :=
  t.features.zipIdx.flatMap (fun p => p.1.rules p.2) ++ t.ownRules

/-- A type demands a choice, or well-formed sections, or nothing. -/
theorem Schema.RecordType.ownRules_eq (t : RecordType) :
    t.ownRules = t.choice?.toList.map (fun p => .oneOf p.1 p.2) ++
      if t = .getCapabilities then [.sections] else [] := by
  cases t <;> rfl

namespace Record

def IsSetNamed (r : Record) (name : String) : Prop :=
  ∃ i, r.indexOf name = .ok i ∧ r.isSet i = .ok true

/-- The text that the feature with the given name reads as. -/
def readText? (r : Record) (name : String) : Option String :=
  (r.getNamed name).toOption.join.bind Value.text?

variable {r : Record} {name : String} {i : Nat}

theorem exists_feature_of_indexOf? {t : RecordType} (h : t.indexOf? name = some i) :
    ∃ f, t.feature? i = some f :=
  ⟨_, List.getElem?_eq_getElem (List.findIdx?_eq_some_iff_getElem.mp h).1⟩

theorem holdsNamed_iff : r.holdsNamed name = true ↔ r.IsSetNamed name := by
  cases hi : r.type.indexOf? name with
  | none => simp [holdsNamed, itemsNamed, IsSetNamed, indexOf, hi]
  | some i =>
    obtain ⟨f, hf⟩ := exists_feature_of_indexOf? hi
    simp [holdsNamed, itemsNamed, IsSetNamed, indexOf, hi, isSet_of_feature? hf, holds]

instance (r : Record) (name : String) : Decidable (r.IsSetNamed name) :=
  decidable_of_iff _ holdsNamed_iff

instance (r : Record) (i : Nat) : Decidable (r.isSet i = .ok true) :=
  decidable_of_iff ((r.type.feature? i).isSome ∧ r.items i ≠ []) (by
    rw [isSet_eq_ok_true, Option.isSome_iff_exists]
    simp)

end Record

/-- The record keeps to the rule, by what can be read of it. -/
def Rule.Holds (r : Record) : Rule → Prop
  | required i _ => r.isSet i = .ok true
  | oneOf names _ => ∃ name ∈ names, r.IsSetNamed name ∧ ∀ other ∈ names,
      r.IsSetNamed other → other = name
  | sections => ∀ text ∈ r.readText? "sections", IsSectionSequence text

instance (r : Record) (rule : Rule) : Decidable (rule.Holds r) := by
  unfold Rule.Holds
  split <;> infer_instance

/-- What is wrong with a record that breaks the rule. -/
def Rule.problem (r : Record) : Rule → Problem
  | required _ f => if f.isList then .noItems f.xmlName else .missing f.xmlName
  | oneOf names alternatives =>
    .choice alternatives (names.filter fun name => r.IsSetNamed name).length
  | sections => .badSections ((r.readText? "sections").getD "")

/-- The problem with a rule, if the record breaks it. -/
def Rule.problems (r : Record) (rule : Rule) : List Problem :=
  if rule.Holds r then [] else [rule.problem r]

namespace Record

variable {r : Record}

theorem IsComplete.entries_eq (h : r.IsComplete) :
    r.entries = r.type.features.zipIdx.map fun p => (p.1, r.items p.2) := by
  apply List.ext_getElem
  · simp [entries, h.symm]
  · intro i hi hi'
    have hslot : i < r.slots.length := by
      simp only [entries, List.length_zip] at hi
      omega
    simp [entries, items, hslot]

theorem toList_missing? {i : Nat} {f : Feature} (hf : r.type.feature? i = some f) :
    (missing? f (r.items i)).toList = (f.rules i).flatMap (·.problems r) := by
  have hholds : (Rule.required i f).Holds r ↔ r.items i ≠ [] := by
    simp [Rule.Holds, isSet_eq_ok_true, hf]
  by_cases hdemanded : f.isRequired = true ∧ f.default? = none
  · by_cases hitems : r.items i = []
    · simp [missing?, Feature.isUnsettable, Feature.rules, Rule.problems, Rule.problem, hdemanded,
        hitems, hholds]
    · simp [missing?, Feature.isUnsettable, Feature.rules, Rule.problems, hdemanded, hitems,
        hholds]
  · simp [missing?, Feature.isUnsettable, Feature.rules, hdemanded]

/-- Exactly one of several names passes a test where the names that pass are one. -/
theorem length_filter_eq_one_iff {names : List String} (hnames : names.Nodup)
    (p : String → Prop) [DecidablePred p] : (names.filter fun name => p name).length = 1 ↔
      ∃ name ∈ names, p name ∧ ∀ other ∈ names, p other → other = name := by
  constructor
  · intro h
    obtain ⟨name, hname⟩ := List.length_eq_one_iff.mp h
    have hmem : ∀ other, other ∈ names ∧ p other ↔ other = name := by
      intro other
      simpa using congrArg (other ∈ ·) hname
    exact ⟨name, ((hmem name).mpr rfl).1, ((hmem name).mpr rfl).2,
      fun other hother hp => (hmem other).mp ⟨hother, hp⟩⟩
  · rintro ⟨name, hname, hp, honly⟩
    rw [← List.countP_eq_length_filter, ← List.count_eq_one_of_mem hnames hname, List.count]
    apply List.countP_congr
    intro other hother
    rw [decide_eq_true_iff, beq_iff_eq]
    exact ⟨honly other hother, fun heq => heq ▸ hp⟩

theorem nodup_choice? (t : RecordType) : ∀ p ∈ t.choice?, p.1.Nodup := by
  cases t <;> decide

theorem countSet_eq (r : Record) (names : List String) :
    r.countSet names = (names.filter fun name => r.IsSetNamed name).length := by
  simp only [countSet, ← holdsNamed_iff, Bool.decide_eq_true]

/-- The choice that a type demands is the rule about its alternatives. -/
theorem toList_choiceProblem? (r : Record) : r.choiceProblem?.toList =
    (r.type.choice?.toList.map fun p => Rule.oneOf p.1 p.2).flatMap (·.problems r) := by
  unfold choiceProblem?
  cases hchoice : r.type.choice? with
  | none => rfl
  | some p =>
    have hholds : (Rule.oneOf p.1 p.2).Holds r ↔ r.countSet p.1 = 1 := by
      rw [countSet_eq]
      exact (length_filter_eq_one_iff (nodup_choice? r.type p hchoice) r.IsSetNamed).symm
    by_cases hone : r.countSet p.1 = 1
    · simp [Rule.problems, hholds, hone]
    · simp [Rule.problems, Rule.problem, hholds, hone, ← countSet_eq]

/-- A feature reads the same by its name and directly. -/
theorem getNamed_eq_valueNamed? {name : String} {i : Nat} (hi : r.type.indexOf? name = some i) :
    r.getNamed name = .ok (r.valueNamed? name) := by
  obtain ⟨f, hf⟩ := exists_feature_of_indexOf? hi
  rw [getNamed, indexOf, hi, valueNamed?, hi, itemsNamed, hi, Option.bind_some, hf]
  exact get_of_feature? hf

theorem FitsSchema.readText?_sections (h : r.FitsSchema) (htype : r.type = .getCapabilities) :
    r.readText? "sections" = r.textNamed? "sections" := by
  have hi : r.type.indexOf? "sections" = some 1 := by
    rw [htype]
    rfl
  have hf : r.type.feature? 1 = some (.leaf "sections" (.tjs "Sections") .text) := by
    rw [htype]
    rfl
  rw [readText?, getNamed_eq_valueNamed? hi, textNamed?, valueNamed?, itemsNamed, hi,
    Option.bind_some, hf]
  rcases (h.admits_items hf).eq_nil_or_singleton rfl with hnil | ⟨x, hx⟩
  · simp only [Option.elim_some, Option.bind_some, hnil]
    rfl
  · -- the feature stores texts, so that no literal can be read here
    have htext : x.type = .simple .text := (h.admits_items hf).type_eq x (by simp [hx])
    match x, htext with
    | .scalar (.text s), _ =>
      simp only [Option.elim_some, Option.bind_some, hx]
      rfl

theorem FitsSchema.toList_sectionsProblem? (h : r.FitsSchema) : r.sectionsProblem?.toList =
    (if r.type = .getCapabilities then [Rule.sections] else []).flatMap (·.problems r) := by
  unfold sectionsProblem?
  by_cases htype : r.type = .getCapabilities
  · rw [if_pos htype, if_pos htype, ← h.readText?_sections htype]
    cases htext : r.readText? "sections" with
    | none => simp [Rule.problems, Rule.Holds, htext]
    | some text =>
      by_cases hseq : isSectionList text = true
      · simp [Rule.problems, Rule.Holds, htext, ← isSectionList_iff, hseq]
      · simp [Rule.problems, Rule.Holds, Rule.problem, htext, ← isSectionList_iff, hseq]
  · rw [if_neg htype, if_neg htype]
    rfl

/-- The problems of a record are those of the rules that it breaks, one for each. -/
theorem FitsSchema.ownProblems_eq (h : r.FitsSchema) :
    r.ownProblems = r.type.rules.flatMap (·.problems r) := by
  rw [ownProblems, h.complete.entries_eq, List.filterMap_map, toList_choiceProblem?,
    h.toList_sectionsProblem?, RecordType.rules, RecordType.ownRules_eq, List.flatMap_append,
    List.flatMap_append, List.flatMap_assoc, List.filterMap_eq_flatMap_toList, List.append_assoc]
  congr 1
  apply List.flatMap_congr
  intro p hp
  exact toList_missing? (List.mem_zipIdx_iff_getElem?.mp hp)

end Record

end TableJoin
