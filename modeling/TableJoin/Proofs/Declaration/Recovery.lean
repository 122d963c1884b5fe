import TableJoin.Proofs.Declaration.Coverage
import TableJoin.Proofs.Declaration.Spreading

/-!
Recovery: what the generated writer makes of a value is read by the generated reader as the same
value again, item by item, if names are told apart.
-/

namespace TableJoin

open Markup Reading Schema Writing

namespace Declaration

namespace TypeModel

variable {m : TypeModel} {T : ItemTypes}

/-- The code of the items' types gives the items of a value back: a text is parsed, and an
element is read, as what `back` says. -/
structure ItemsComeBack (T : ItemTypes) (back : (type : List Token) → T.Value type → T.Value type)
    (v : m.Value T) : Prop where
  texts : ∀ i, (m.field i).placement.isElement = false → ∀ x ∈ (v i).items,
    T.parse (m.field i).type (T.toText x) = .ok (back _ x)
  elements : ∀ i, (m.field i).placement.isElement = true → ∀ x ∈ (v i).items,
    ComesBackAs (fun name => T.marks name x) (T.read (m.field i).type) (back _ x)

/-- The value as it comes back: every item as it comes back by itself, but blank character
content is left out. -/
def readBack (back : (type : List Token) → T.Value type → T.Value type) (v : m.Value T) :
    m.Value T := fun i =>
  ((v i).filter fun x =>
    !((m.field i).placement = .text && Text.isBlankText (T.toText x))).map (back _)

section Acceptance

variable {o : Outline}

theorem pairwise_of_length_le_one {α : Type} {r : α → α → Prop} :
    ∀ {l : List α}, l.length ≤ 1 → l.Pairwise r
  | [], _ => .nil
  | [a], _ => List.pairwise_singleton r a

theorem eq_of_describes (h : o.Describes m) {i j : m.Place} (hi : (m.field i).placement = .text)
    (hj : (m.field j).placement = .text) : i = j := by
  have hnone : (m.fields.filter fun f => f.placement = .text).Pairwise fun _ _ => False :=
    pairwise_of_length_le_one h.texts
  rw [List.pairwise_filter, List.pairwise_iff_getElem] at hnone
  rcases Nat.lt_trichotomy i j with hij | hij | hij
  · exact (hnone i j i.isLt j.isLt hij (decide_eq_true hi) (decide_eq_true hj)).elim
  · exact Fin.ext hij
  · exact (hnone j i j.isLt i.isLt hij (decide_eq_true hj) (decide_eq_true hi)).elim

end Acceptance

section Values

variable {o : Outline} {v : m.Value T} {back : (type : List Token) → T.Value type → T.Value type}

theorem items_readBack {i : m.Place} (hi : (m.field i).placement ≠ .text) :
    (m.readBack back v i).items = (v i).items.map (back _) := by
  simp [readBack, Held.filter, Held.map, hi]

/-- The value that only the attributes have been read into. -/
def attributesOnly (u : m.Value T) : m.Value T := overlay m.attributePlaces u fun _ => .unset

theorem attributesOnly_of_mem {u : m.Value T} {i : m.Place} (hi : i ∈ m.attributePlaces) :
    m.attributesOnly u i = u i :=
  if_pos hi

theorem attributesOnly_of_notMem {u : m.Value T} {i : m.Place} (hi : i ∉ m.attributePlaces) :
    m.attributesOnly u i = .unset :=
  if_neg hi

theorem reads_own_attributes (h : o.Describes m) (hapart : m.NamesApart)
    (hv : ItemsComeBack T back v) (opts : EncodeOptions) (strict : Bool) :
    Reads strict [] [] (fun w => w = m.attributesOnly (m.readBack back v))
      ((readAttributes opts (m.placedCode.writer.attributesOf v)).foldlM
        (m.readAttribute T m.placedCode.reader.attributes) fun _ => .unset) := by
  have hnames := hapart.attributes
  rw [← map_localName_attributePlaces] at hnames
  have hreturns : ∀ i ∈ m.attributePlaces, ReturnsInAttribute m.placedCode.reader.attributes back v
      (m.readBack back v) (m.field i).placement.qname i := by
    intro i hi
    have helement := isElement_of_mem hi
    constructor
    · exact fieldFor?_armsAt hnames hi
    · exact single_of_describes h helement
    · exact items_readBack (ne_text_of_mem hi)
    · exact hv.texts i helement
  have hreads : Reads strict [] [] _ _ := reads_attributes (o := opts) (m.namedAt m.attributePlaces)
    (List.forall_mem_map.mpr hreturns) (fun _ => .unset) fun _ _ _ => rfl
  rwa [map_snd_namedAt] at hreads

section Children

/-- The elements that a value is written around. -/
def childMarks (v : m.Value T) : List Mark :=
  (m.namedAt m.elementPlaces).flatMap fun (name, i) => (v i).elements name

theorem childMarks_eq_nil_iff (hproper : m.NamesProper) (hv : ItemsComeBack T back v) :
    m.childMarks v = [] ↔ ∀ i ∈ m.elementPlaces, (v i).items = [] := by
  rw [childMarks, List.flatMap_eq_nil_iff, namedAt, List.forall_mem_map]
  refine forall₂_congr fun i hi => ⟨fun hmarks => ?_, fun hitems => ?_⟩
  · cases hitems : (v i).items with
    | nil => rfl
    | cons x xs =>
      simp only [Held.elements, hitems, List.flatMap_cons, List.append_eq_nil_iff] at hmarks
      have hback := hv.elements i (mem_elementPlaces.mp hi) x (by simp [hitems])
      exact absurd hmarks.1 (hback.marks_ne_nil (isLocalName_of_mem hproper hi))
  · simp [Held.elements, hitems]

/-- Attributes and child elements are all there is where no field holds the text. -/
theorem overlay_attributesOnly (htext : m.textAt? = none) (u : m.Value T) :
    overlay m.elementPlaces u (m.attributesOnly u) = u := by
  funext i
  rcases mem_places (placement_ne_text htext i) with hi | hi
  · simp [overlay, attributesOnly_of_mem hi]
  · simp [overlay, hi]

theorem attributesOnly_of_empty (htext : m.textAt? = none)
    (hempty : ∀ i ∈ m.elementPlaces, (v i).items = []) :
    m.attributesOnly (m.readBack back v) = m.readBack back v := by
  funext i
  have hplacement := placement_ne_text htext i
  rcases mem_places hplacement with hi | hi
  · exact attributesOnly_of_mem hi
  · rw [attributesOnly_of_notMem (notMem_attributePlaces hi)]
    ext1
    rw [items_readBack hplacement, hempty i hi]
    rfl

/-- The child elements of a value are gathered as they come back. -/
theorem exists_content (htext : m.textAt? = none) (hapart : m.NamesApart)
    (hproper : m.NamesProper) (hv : ItemsComeBack T back v) {opts : EncodeOptions}
    (hsafe : opts.PrefixSafe) (depth : Nat) :
    ∃ parts, Prints opts ⟨depth, true, true⟩ (m.childMarks v) parts ⟨depth, true, true⟩ ∧
      Gathers T (m.armsAt m.elementPlaces) (m.attributesOnly (m.readBack back v)) parts
        (m.readBack back v) := by
  have hnames := hapart.elements
  rw [← map_localName_elementPlaces] at hnames
  have hreturns : ∀ i ∈ m.elementPlaces, ReturnsInElements (m.armsAt m.elementPlaces) back v
      (m.readBack back v) (m.field i).placement.qname i := by
    intro i hi
    constructor
    · exact isLocalName_of_mem hproper hi
    · exact fieldFor?_armsAt hnames hi
    · exact items_readBack (placement_ne_text htext i)
    · exact hv.elements i (mem_elementPlaces.mp hi)
  have hparts := exists_parts hsafe depth (l := m.namedAt m.elementPlaces)
    (by rw [map_snd_namedAt]; exact nodup_elementPlaces) (List.forall_mem_map.mpr hreturns)
    (m.attributesOnly (m.readBack back v))
    (by
      rw [map_snd_namedAt]
      exact fun i hi => attributesOnly_of_notMem (notMem_attributePlaces hi))
  rwa [map_snd_namedAt, overlay_attributesOnly htext] at hparts

/-- Where no field holds the text, a value is written as an element around its child elements. -/
theorem run_of_children (hproper : m.NamesProper) (hv : ItemsComeBack T back v)
    (htext : m.textAt? = none) (name : QName) :
    m.placedCode.writer.run v name =
      enclose name (m.placedCode.writer.attributesOf v) (m.childMarks v) := by
  have hempty := childMarks_eq_nil_iff hproper hv
  have hrun : m.placedCode.writer.run v name =
      if m.elementPlaces.all fun i => (v i).items.isEmpty
      then [.empty name (m.placedCode.writer.attributesOf v)]
      else .start name (m.placedCode.writer.attributesOf v) :: m.childMarks v ++ [.close name] := by
    have hcode : m.placedCode.writer.content =
        .children m.elementPlaces (m.namedAt m.elementPlaces) := by rw [placedCode, htext]
    rw [WriteCode.run, hcode]
    rfl
  rw [hrun, enclose]
  exact if_congr (by simp [hempty]) rfl rfl

/-- A value of a type without character content comes back. -/
theorem comesBackAs_of_children (h : o.Describes m) (hapart : m.NamesApart)
    (hproper : m.NamesProper) (hv : ItemsComeBack T back v) (htext : m.textAt? = none) :
    ComesBackAs (m.placedCode.writer.run v) (m.placedCode.reader.run T) (m.readBack back v) := by
  intro opts name p hsafe hname
  have hwritable := writable_attributes hapart hproper v
  have hown := reads_own_attributes h hapart hv opts
  have hcode : m.placedCode.reader.content = .children (m.armsAt m.elementPlaces) := by
    rw [placedCode, htext]
  rw [run_of_children hproper hv htext]
  by_cases hnil : m.childMarks v = []
  · rw [hnil]
    refine ⟨_, rfl, prints_empty hsafe hname hwritable p, fun strict => ?_⟩
    refine reads_run_of_gathers hcode (hown strict) ?_
    rw [attributesOnly_of_empty htext ((childMarks_eq_nil_iff hproper hv).mp hnil)]
    exact .nil
  · obtain ⟨parts, hprints, hparts⟩ := exists_content htext hapart hproper hv hsafe (p.depth + 1)
    refine ⟨_, rfl, prints_around hsafe hname hwritable hnil hprints.fills, fun strict => ?_⟩
    exact reads_run_of_gathers hcode (hown strict) (hparts.append (.of_layout _ _))

end Children

section Body

variable {i : m.Place}

/-- Attributes and the text are all there is where a field holds the text. -/
theorem update_attributesOnly (h : o.Describes m) (hi : (m.field i).placement = .text)
    (u : m.Value T) : Function.update (m.attributesOnly u) i (u i) = u := by
  funext j
  by_cases hji : j = i
  · subst hji
    exact Function.update_self _ _ _
  · have hj : (m.field j).placement ≠ .text := fun hj => hji (eq_of_describes h hj hi)
    have helement := h.unmixed ⟨m.field i, m.field_mem i, hi⟩ (m.field j) (m.field_mem j)
    have hattribute : j ∈ m.attributePlaces := (mem_places hj).resolve_right fun hmem => by
      rw [mem_elementPlaces.mp hmem] at helement
      cases helement
    rw [Function.update_of_ne hji, attributesOnly_of_mem hattribute]

def bodyText (v : m.Value T) (i : m.Place) : String := (v i).items.head?.elim "" T.toText

/-- The character content comes back unless it is blank. -/
theorem readBack_of_text (h : o.Describes m) (hi : (m.field i).placement = .text)
    (back : (type : List Token) → T.Value type → T.Value type) (v : m.Value T) :
    (Text.isBlankText (m.bodyText v i) = true ∧ m.readBack back v i = .unset) ∨
      ∃ x ∈ (v i).items, Text.isBlankText (m.bodyText v i) = false ∧
        m.bodyText v i = T.toText x ∧ m.readBack back v i = .one (back _ x) := by
  have hsingle : (m.field i).cardinality = .single := single_of_describes h (by rw [hi]; rfl)
  have hlength := (v i).single hsingle
  match hitems : (v i).items with
  | [] =>
    have htext : m.bodyText v i = "" := by simp [bodyText, hitems]
    refine .inl ⟨by rw [htext]; rfl, ?_⟩
    ext1
    simp [readBack, Held.map, Held.filter, hitems, Held.unset]
  | [x] =>
    have htext : m.bodyText v i = T.toText x := by simp [bodyText, hitems]
    cases hblank : Text.isBlankText (T.toText x) with
    | true =>
      refine .inl ⟨by rw [htext, hblank], ?_⟩
      ext1
      simp [readBack, Held.map, Held.filter, hitems, Held.unset, hi, hblank]
    | false =>
      refine .inr ⟨x, List.mem_singleton_self x, by rw [htext, hblank], htext, ?_⟩
      ext1
      simp [readBack, Held.map, Held.filter, hitems, Held.one, hi, hblank]
  | _ :: _ :: _ =>
    rw [hitems] at hlength
    simp at hlength

/-- Where a field holds the text, a value is written as an element around it. -/
theorem run_of_text (htext : m.textAt? = some i) (v : m.Value T) (name : QName) :
    m.placedCode.writer.run v name =
      textElement name (m.placedCode.writer.attributesOf v) (m.bodyText v i) := by
  have hcode : m.placedCode.writer.content = .text i := by rw [placedCode, htext]
  simp only [WriteCode.run, hcode, bodyText]
  cases (v i).items <;> rfl

/-- A value of a type with character content comes back. -/
theorem comesBackAs_of_text (h : o.Describes m) (hapart : m.NamesApart)
    (hproper : m.NamesProper) (hv : ItemsComeBack T back v) (htext : m.textAt? = some i) :
    ComesBackAs (m.placedCode.writer.run v) (m.placedCode.reader.run T) (m.readBack back v) := by
  intro opts name p hsafe hname
  have hi := placement_of_textAt? htext
  have hcode : m.placedCode.reader.content = .text i := by rw [placedCode, htext]
  obtain ⟨e, hename, hattributes, hbody, hprints⟩ := exists_textElement hsafe hname
    (writable_attributes hapart hproper v) (m.bodyText v i) p
  rw [run_of_text htext]
  refine ⟨e, hename, hprints, fun strict => ?_⟩
  have hown := reads_own_attributes h hapart hv opts strict
  rw [← hattributes] at hown
  unfold ReadCode.run
  apply reads_bind_check hown
  rintro _ rfl
  rw [hcode]
  have hwhole := update_attributesOnly h hi (m.readBack back v)
  rcases readBack_of_text h hi back v with ⟨hblank, hunset⟩ | ⟨x, hx, hblank, htoText, hone⟩
  · have honly : m.attributesOnly (m.readBack back v) i = .unset :=
      attributesOnly_of_notMem (by simp [mem_attributePlaces, hi, Placement.isAttribute])
    rw [hunset, ← honly, Function.update_eq_self] at hwhole
    rw [← hbody] at hblank
    apply (reads_readBody_of_blank hblank _).imp
    rintro _ rfl
    exact hwhole
  · rw [← hbody] at hblank
    have hparse : T.parse (m.field i).type e.ownText = .ok (back _ x) := by
      rw [hbody, htoText]
      exact hv.texts i (by rw [hi]; rfl) x hx
    apply (reads_readBody hblank hparse _).imp
    rintro _ rfl
    rw [← hone]
    exact hwhole

end Body

/-- A value of an accepted declaration comes back, item by item. -/
theorem comesBackAs_readBack (h : o.Describes m) (hapart : m.NamesApart)
    (hproper : m.NamesProper) (hv : ItemsComeBack T back v) :
    ComesBackAs (m.placedCode.writer.run v) (m.placedCode.reader.run T) (m.readBack back v) := by
  cases htext : m.textAt? with
  | some i => exact comesBackAs_of_text h hapart hproper hv htext
  | none => exact comesBackAs_of_children h hapart hproper hv htext

end Values

/-- Nothing is lost but blank text where names are told apart.  In the methods of an accepted
declaration, the code that reads sends a name to the first attribute, or child element, that has it
as its local name; so that every arm is reached exactly if no two attributes and no two child
elements have a local name in common.  The code is compiled if no two fields have one identifier;
and when it runs, if names are told apart and are names, every value that is written is read as
its items come back each by itself, except for blank character content. -/
theorem recovered_of_ofOutline {o : Outline} {m : TypeModel} (h : ofOutline o = .ok m) :
    (∃ code, MarkupCode.ofItem? m.markupItem = some code ∧ m.DispatchesByName code.reader ∧
      (m.NamesApart ↔ code.reader.IsReached)) ∧
    ((m.fields.map (·.ident)).Nodup → ∃ code, m.compiled? = some code ∧
      (m.NamesApart → m.NamesProper →
        ∀ (T : ItemTypes) (back : (type : List Token) → T.Value type → T.Value type)
          (v : m.Value T), ItemsComeBack T back v →
            ComesBackAs (code.writer.run v) (code.reader.run T) (m.readBack back v))) := by
  have hdescribes := describes_of_ofOutline h
  refine ⟨⟨_, m.ofItem?_markupItem, dispatchesByName hdescribes,
    namesApart_iff_isReached hdescribes⟩, fun hidents => ⟨_, compiled?_eq hdescribes hidents, ?_⟩⟩
  intro hapart hproper T back v hv
  exact comesBackAs_readBack hdescribes hapart hproper hv

end TypeModel

def ItemTypes.strings : ItemTypes where
  Value _ := String
  toText s := s
  parse _ s := .ok s
  marks name s := textElement name [] s
  read _ tag := readText tag

namespace TypeModel

theorem itemsComeBack_strings {m : TypeModel} (v : m.Value .strings) :
    ItemsComeBack .strings (fun _ x => x) v :=
  ⟨fun _ _ _ _ => rfl, fun _ _ x _ => comesBackAs_text x⟩

theorem recovered_of_ofOutline_row : ∃ m code, ofOutline rowOutline = .ok m ∧
    (m.fields.map (·.ident)).Nodup ∧ m.compiled? = some code ∧ m.NamesApart ∧ m.NamesProper ∧
    ∀ v : m.Value .strings,
      ComesBackAs (code.writer.run v) (code.reader.run .strings)
        (m.readBack (fun _ x => x) v) := by
  obtain ⟨m, hm, hidents, hapart, hproper⟩ : ∃ m, ofOutline rowOutline = .ok m ∧
      (m.fields.map (·.ident)).Nodup ∧ m.NamesApart ∧ m.NamesProper :=
    ⟨_, rfl, by decide +kernel⟩
  obtain ⟨code, hcode, hback⟩ := (recovered_of_ofOutline hm).2 hidents
  refine ⟨m, code, hm, hidents, hcode, hapart, hproper, fun v => ?_⟩
  exact hback hapart hproper .strings _ v (itemsComeBack_strings v)

section Losses

/-- A type of which each field holds one string at most. -/
def ofPlacements (fields : List (String × Placement)) : TypeModel :=
  ⟨"S", "S", fields.map fun (ident, placement) =>
    ⟨ident, ident, [.word "String"], .single, placement, false, none⟩⟩

/-- A value that holds the same string in every field. -/
def filled (m : TypeModel) (s : String) : m.Value .strings := fun _ => .one s

/-- The value of a type of strings does not come back by the code of its declaration. -/
def Loses (m : TypeModel) (v : m.Value .strings) : Prop :=
  ∃ code, m.compiled? = some code ∧
    ¬ ComesBackAs (code.writer.run v) (code.reader.run .strings) v

/-- The text of an accepted declaration has an outline that describes its type. -/
theorem exists_describes_of_ofText {s : String} {m : TypeModel} (h : ofText s = .ok m) :
    ∃ o : Outline, o.Describes m := by
  unfold ofText at h
  split at h
  · next o _ => exact ⟨o, describes_of_ofOutline h⟩
  · cases h

/-- A value is lost that comes back as another one. -/
theorem loses_of_ofText {s : String} {m : TypeModel} (h : ofText s = .ok m)
    (hidents : (m.fields.map (·.ident)).Nodup) {v : m.Value .strings}
    (hv : ¬ ComesBackAs (m.placedCode.writer.run v) (m.placedCode.reader.run .strings) v) :
    m.Loses v := by
  obtain ⟨o, hdescribes⟩ := exists_describes_of_ofText h
  exact ⟨_, compiled?_eq hdescribes hidents, hv⟩

/-- Two child elements whose names differ in nothing but the short name. -/
def titles : TypeModel :=
  ofPlacements [("a", .element none "Title"), ("b", .element (some "ows") "Title")]

def secondTitle : titles.Value .strings := fun i => if i.val = 1 then .one "x" else .unset

theorem comesBackAs_secondTitle :
    ComesBackAs (titles.placedCode.writer.run secondTitle) (titles.placedCode.reader.run .strings)
      (Function.update (fun _ => .unset) ⟨0, by decide⟩ (.one "x")) := by
  intro o name p hsafe hname
  obtain ⟨e, hename, hprints, hreads⟩ :=
    comesBackAs_text "x" o (QName.ows "Title") ⟨p.depth + 1, true, true⟩ hsafe (by decide)
  have hmarks : titles.placedCode.writer.run secondTitle name =
      enclose name [] (textElement (QName.ows "Title") [] "x") := rfl
  have hsent : fieldFor? (titles.armsAt titles.elementPlaces) e.name = some ⟨0, by decide⟩ := by
    rw [hename]
    rfl
  have hparts : Gathers .strings (titles.armsAt titles.elementPlaces) (fun _ => .unset)
      (layout o ⟨p.depth + 1, true, true⟩ ++ [.element e])
      (Function.update (fun _ => .unset) ⟨0, by decide⟩ (.one "x")) :=
    (Gathers.of_layout o _).append (.element rfl hsent hreads .nil)
  rw [hmarks]
  refine ⟨_, rfl, prints_around hsafe hname writable_nil (enclose_ne_nil _ _ _) hprints.fills,
    fun strict => ?_⟩
  exact reads_run_of_gathers rfl (reads_pure rfl) (hparts.append (.of_layout _ _))

def note : TypeModel := ofPlacements [("a", .text)]

/-- A type with an attribute that is called like a declaration of a namespace. -/
def declaring : TypeModel := ofPlacements [("a", .attribute none "xmlns")]

theorem eq_unset_of_declaring {v : declaring.Value .strings}
    (h : ComesBackAs (declaring.placedCode.writer.run (declaring.filled "x"))
      (declaring.placedCode.reader.run .strings) v) : v = fun _ => .unset := by
  obtain ⟨e, hnodes, hreads⟩ :=
    h.exists_nodes (by decide : isLocalName (QName.tjs "S").localName = true)
  have hwritten : (NodeStream.ofChars [] (writeFrom .standard {}
      (declaring.placedCode.writer.run (declaring.filled "x") (QName.tjs "S")))).nodes =
        [.start ⟨some "tjs", "S", [], true⟩] := by decide +kernel
  rw [hwritten, Element.nodes, List.cons.injEq, Node.start.injEq] at hnodes
  obtain ⟨htag, hinside⟩ := hnodes
  obtain ⟨a, events, hrun, rfl⟩ := hreads true [] none []
  rw [← htag, ← hinside] at hrun
  exact (Except.ok.inj (Prod.mk.inj hrun).1).symm

/-- Declarations are accepted of which an arm is not reached and a value does not come back: two
child elements have one local name.  Nor does blank text come back, or an attribute that is
called like a declaration of a namespace. -/
theorem exists_accepted_not_recovered :
    (ofText ("struct S \x7b #[tjs(element = \"Title\")] a: Option<String>, " ++
        "#[tjs(element = \"ows:Title\")] b: Option<String> \x7d") = .ok titles ∧
      ¬ titles.NamesApart ∧
      (∃ code, MarkupCode.ofItem? titles.markupItem = some code ∧ ¬ code.reader.IsReached) ∧
      titles.Loses secondTitle) ∧
    (ofText "struct S \x7b #[tjs(text)] a: Option<String> \x7d" = .ok note ∧
      note.Loses (note.filled " ")) ∧
    (ofText "struct S \x7b #[tjs(attribute = \"xmlns\")] a: Option<String> \x7d" =
        .ok declaring ∧
      declaring.Loses (declaring.filled "x")) := by
  have htitles : ofText ("struct S \x7b #[tjs(element = \"Title\")] a: Option<String>, " ++
      "#[tjs(element = \"ows:Title\")] b: Option<String> \x7d") = .ok titles := by
    decide +kernel
  have hnote : ofText "struct S \x7b #[tjs(text)] a: Option<String> \x7d" = .ok note := by
    decide +kernel
  have hdeclaring : ofText "struct S \x7b #[tjs(attribute = \"xmlns\")] a: Option<String> \x7d" =
      .ok declaring := by
    decide +kernel
  have hclash : ¬ titles.NamesApart := by decide
  obtain ⟨o, hdescribes⟩ := exists_describes_of_ofText htitles
  refine ⟨⟨htitles, hclash, ⟨_, titles.ofItem?_markupItem, ?_⟩, ?_⟩, ⟨hnote, ?_⟩, hdeclaring, ?_⟩
  · exact mt (namesApart_iff_isReached hdescribes).mpr hclash
  · refine loses_of_ofText htitles (by decide) fun h => ?_
    have hitems := congrArg (fun v => (v ⟨0, by decide⟩).items) (h.eq comesBackAs_secondTitle)
    cases hitems
  · refine loses_of_ofText hnote (by decide) fun h => ?_
    obtain ⟨o, hdescribes⟩ := exists_describes_of_ofText hnote
    have hback := comesBackAs_readBack hdescribes (by decide) (by decide)
      (itemsComeBack_strings (note.filled " "))
    have hitems := congrArg (fun v => (v ⟨0, by decide⟩).items) (h.eq hback)
    cases hitems
  · refine loses_of_ofText hdeclaring (by decide) fun h => ?_
    have hitems := congrArg (fun v => (v ⟨0, by decide⟩).items) (eq_unset_of_declaring h)
    cases hitems

end Losses

end TypeModel

end Declaration

end TableJoin
