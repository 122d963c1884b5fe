import TableJoin.Proofs.Reading.Decoding
import TableJoin.Proofs.Schema.Table

/-!
What decoding an element depends on: its attributes name by name, its text, and its
child elements name by name.  How the names stand to each other does not matter.
-/

namespace TableJoin.Markup

def Element.named (name : String) (es : List Element) : List Element :=
  es.filter (·.name = name)

def Attribute.named (name : String) (as : List Attribute) : List Attribute :=
  as.filter (·.localName = name)

end TableJoin.Markup

namespace TableJoin.Schema

open Markup

/-- Nothing is refused of child elements with one local name.  A single-valued feature
takes the first of them, unless one stood before. -/
def RecordType.Accepts (t : RecordType) (strict before : Bool) (name : String)
    (es : List Element) : Prop :=
  match t.element? name with
  | none => strict = true → es = []
  | some (_, s, true) => ∀ e ∈ es, e.faults strict s = []
  | some (_, s, false) =>
    if before then strict = true → es = []
    else (∀ e ∈ es.head?, e.faults strict s = []) ∧ (strict = true → es.tail = [])

def RecordType.childFaults (t : RecordType) (strict before : Bool) (e : Element) :
    List ReadError :=
  match t.element? e.name with
  | none => if strict then [.unknownElement e.name t.name] else []
  | some (_, s, isList) =>
    if !isList && before then if strict then [.duplicateElement e.name t.name] else []
    else e.faults strict s

variable {t : RecordType} {strict before : Bool} {e : Element} {es : List Element}

theorem RecordType.accepts_nil (t : RecordType) (strict before : Bool) (name : String) :
    t.Accepts strict before name [] := by
  unfold Accepts
  split
  · exact fun _ => rfl
  · simp
  · split <;> simp

/-- The first child element of a name decides for itself, and stands before the others. -/
theorem RecordType.accepts_cons :
    t.Accepts strict before e.name (e :: es) ↔
      t.childFaults strict before e = [] ∧ t.Accepts strict true e.name es := by
  unfold Accepts childFaults
  rcases t.element? e.name with _ | ⟨_, s, _ | _⟩
  · cases strict <;> simp
  · cases strict <;> cases before <;> simp
  · simp

end TableJoin.Schema

namespace TableJoin.Text

theorem isBlankText_append (s s' : String) :
    isBlankText (s ++ s') = (isBlankText s && isBlankText s') := by
  simp only [isBlankText, String.toList_append, List.all_append]

end TableJoin.Text

namespace TableJoin.Markup

open Schema

variable {t : RecordType} {strict : Bool}

/-- Child elements of one name are accepted whatever stands between them. -/
theorem Element.forall_accepts_cons {e : Element} {es : List Element} {seen : List String} :
    (∀ name, t.Accepts strict (seen.contains name) name (Element.named name (e :: es))) ↔
      t.childFaults strict (seen.contains e.name) e = [] ∧
        ∀ name, t.Accepts strict ((e.name :: seen).contains name) name (Element.named name es) := by
  have hself : Element.named e.name (e :: es) = e :: Element.named e.name es := by
    simp [Element.named]
  have hother : ∀ name, name ≠ e.name →
      Element.named name (e :: es) = Element.named name es ∧
        (e.name :: seen).contains name = seen.contains name := by
    intro name hne
    simp [Element.named, hne.symm, hne]
  have hmember : (e.name :: seen).contains e.name = true := by simp
  constructor
  · intro h
    have hfirst := h e.name
    rw [hself, RecordType.accepts_cons] at hfirst
    refine ⟨hfirst.1, fun name => ?_⟩
    by_cases hname : name = e.name
    · rw [hname, hmember]
      exact hfirst.2
    · rw [← (hother name hname).1, (hother name hname).2]
      exact h name
  · rintro ⟨hchild, h⟩ name
    by_cases hname : name = e.name
    · have hrest := h e.name
      rw [hmember] at hrest
      rw [hname, hself, RecordType.accepts_cons]
      exact ⟨hchild, hrest⟩
    · rw [(hother name hname).1, ← (hother name hname).2]
      exact h name

/-- Nothing is refused of content if no text is that matters, and nothing of the child
elements of each name. -/
theorem Part.faults_eq_nil_iff (ps : List Part) : ∀ seen : List String,
    Part.faults strict t seen ps = [] ↔
      (strict = true → Text.isBlankText (Part.ownText ps) = true) ∧
        ∀ name, t.Accepts strict (seen.contains name) name
          (Element.named name (Part.elements ps)) := by
  induction ps with
  | nil =>
    intro seen
    simp [Part.faults, Part.ownText, Part.elements, Element.named, RecordType.accepts_nil]
  | cons p ps ih =>
    intro seen
    cases p with
    | text s =>
      rw [Part.faults, List.append_eq_nil_iff, ih, Part.ownText, Text.isBlankText_append,
        Part.elements, ← and_assoc]
      have hstray : strayFaults strict t s = [] ↔ (strict = true → Text.isBlankText s = true) := by
        unfold strayFaults
        cases strict <;> cases Text.isBlankText s <;> simp
      rw [hstray, ← forall_and]
      simp only [Bool.and_eq_true, imp_and]
    | element e =>
      have hchild : Part.faults strict t seen (.element e :: ps) =
          t.childFaults strict (seen.contains e.name) e ++
            Part.faults strict t (e.name :: seen) ps := rfl
      rw [hchild, List.append_eq_nil_iff, ih, Part.ownText, Part.elements,
        Element.forall_accepts_cons]
      constructor
      · rintro ⟨h₁, h₂, h₃⟩
        exact ⟨h₂, h₁, h₃⟩
      · rintro ⟨h₂, h₁, h₃⟩
        exact ⟨h₁, h₂, h₃⟩

/-- What a child feature holds: the items of all child elements of its name, or of the
first one. -/
theorem Part.items_eq_named (s : ItemType) (isList : Bool) (name : String) (ps : List Part) :
    Part.items s isList name ps =
      (if isList then Element.named name (Part.elements ps)
        else (Element.named name (Part.elements ps)).head?.toList).filterMap (·.item? s) := by
  cases isList with
  | true => exact Part.items_list s name ps
  | false =>
    rw [Part.items_single, Element.named, List.head?_filter]
    rfl

theorem Attribute.lastNamed?_eq_named (name : String) (as : List Attribute) :
    Attribute.lastNamed? name as = (Attribute.named name as).getLast? := by
  rw [Attribute.lastNamed?, Attribute.named, ← List.head?_filter, List.filter_reverse,
    List.head?_reverse]

end TableJoin.Markup
