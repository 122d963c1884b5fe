import Mathlib.Data.List.Nodup
import Mathlib.Data.List.TakeWhile
import TableJoin.Proofs.Numeral.Canonical
import TableJoin.Proofs.Schema.Table
import TableJoin.Proofs.Validation.Walk

/-!
The paths of validation: each leads back to one record, by reading in turn what its segments
name, and no two records that are contained have the same path.
-/

namespace TableJoin

open Schema

/-- How a feature is called in the path of an item with a number. -/
def Schema.Feature.segment (f : Feature) (n : Nat) : String :=
  if f.isList then f.xmlName.localName ++ "[" ++ toString n ++ "]" else f.xmlName.localName

/-- A segment leads from a record to one that a feature reads as: a local name to the record in
a single feature, and with a number to the record of that number in a list, counted from one.
Beside the segment stands the place, which is the positions of the feature and of the item. -/
inductive Record.StepsTo (r : Record) : String → Nat × Nat → Record → Prop
  | single {i : Nat} {f : Feature} {c : Record} (hf : r.type.feature? i = some f)
    (hcontains : f.isContainment = true) (hsingle : f.isList = false)
    (hget : r.get i = .ok (some (.record c))) : StepsTo r f.xmlName.localName (i, 0) c
  | item {i n : Nat} {f : Feature} {vs : List Value} {c : Record}
    (hf : r.type.feature? i = some f) (hcontains : f.isContainment = true)
    (hlist : f.isList = true) (hget : r.get i = .ok (some (.list vs)))
    (hn : vs[n]? = some (.record c)) :
    StepsTo r (f.xmlName.localName ++ "[" ++ toString (n + 1) ++ "]") (i, n) c

/-- A path that begins at the path of a record leads on from there to what is contained in
that record at some place, segment by segment. -/
inductive Record.LeadsTo : Record → String → String → List (Nat × Nat) → Record → Prop
  | here {r : Record} {root : String} : LeadsTo r root root [] r
  | step {r c s : Record} {root path segment : String} {p : Nat × Nat} {place : List (Nat × Nat)}
    (h : r.StepsTo segment p c) (hrest : LeadsTo c (root ++ "/" ++ segment) path place s) :
    LeadsTo r root path (p :: place) s

namespace Schema

variable {t : RecordType} {f g : Feature} {i j n m : Nat}

theorem Feature.segment_of_isList (h : f.isList = true) (n : Nat) :
    f.segment n = f.xmlName.localName ++ "[" ++ toString n ++ "]" :=
  if_pos h

theorem Feature.segment_of_single (h : f.isList = false) (n : Nat) :
    f.segment n = f.xmlName.localName := by
  simp only [segment, h, Bool.false_eq_true, ↓reduceIte]

theorem Feature.toList_segment (h : f.isList = true) (n : Nat) : (f.segment n).toList =
    f.xmlName.localName.toList ++ '[' :: (Numeral.digits n ++ [']']) := by
  rw [segment_of_isList h, Nat.toString_eq_ofList_toDigits]
  simp [Numeral.digits]

theorem Feature.isElement_of_isContainment (h : f.isContainment = true) :
    f.shape.isElement = true := by
  rw [isContainment, itemType] at h
  cases hshape : f.shape with
  | element u isList => rfl
  | _ => simp [hshape, ItemType.isRecord] at h

theorem RecordType.isNameChar_of_isContainment (hf : t.feature? i = some f)
    (hcontains : f.isContainment = true) :
    ∀ c ∈ f.xmlName.localName.toList, Markup.isNameChar c = true := by
  have helement := Feature.isElement_of_isContainment hcontains
  have hbody : f.shape.isBody = false := by
    cases hshape : f.shape with
    | body s => simp [hshape, Shape.isElement] at helement
    | _ => rfl
  exact Markup.isNameChar_of_isLocalName
    (t.isLocalName_of_mem f (List.mem_of_getElem? hf) hbody).1

theorem RecordType.takeWhile_segment (hf : t.feature? i = some f)
    (hcontains : f.isContainment = true) (n : Nat) :
    (f.segment n).toList.takeWhile Markup.isNameChar = f.xmlName.localName.toList := by
  have hname := isNameChar_of_isContainment hf hcontains
  cases hlist : f.isList with
  | false =>
    rw [Feature.segment_of_single hlist]
    exact List.takeWhile_eq_self_iff.mpr hname
  | true =>
    rw [Feature.toList_segment hlist, List.takeWhile_append_of_pos hname]
    have hbracket : Markup.isNameChar '[' = false := by decide
    simp [hbracket]

/-- A segment tells which feature and, in a list, which item it is about. -/
theorem RecordType.segment_inj (hf : t.feature? i = some f) (hg : t.feature? j = some g)
    (hcontains : f.isContainment = true) (hcontains' : g.isContainment = true)
    (h : f.segment n = g.segment m) : i = j ∧ (f.isList = true → n = m) := by
  have hname : f.xmlName.localName = g.xmlName.localName := by
    apply String.toList_inj.mp
    rw [← takeWhile_segment hf hcontains n, ← takeWhile_segment hg hcontains' m, h]
  obtain rfl : i = j := eq_of_isElement hf hg (Feature.isElement_of_isContainment hcontains)
    (Feature.isElement_of_isContainment hcontains') hname
  refine ⟨rfl, fun hlist => ?_⟩
  cases hf.symm.trans hg
  have hdigits : Numeral.digits n = Numeral.digits m := by
    simpa [Feature.toList_segment hlist] using congrArg String.toList h
  have hvalues := Numeral.natOfDigits?_digits n
  rw [hdigits, Numeral.natOfDigits?_digits] at hvalues
  exact (Option.some.inj hvalues).symm

theorem RecordType.slash_not_mem_segment (hf : t.feature? i = some f)
    (hcontains : f.isContainment = true) (n : Nat) : '/' ∉ (f.segment n).toList := by
  have hname : '/' ∉ f.xmlName.localName.toList := fun hmem =>
    absurd (isNameChar_of_isContainment hf hcontains _ hmem) (by decide)
  cases hlist : f.isList with
  | false => rwa [Feature.segment_of_single hlist]
  | true =>
    have hdigits : '/' ∉ Numeral.digits n := fun hmem =>
      absurd (Numeral.isDigit_of_mem_digits hmem) (by decide)
    rw [Feature.toList_segment hlist]
    simp [hname, hdigits]

end Schema

theorem childPath_eq (path : String) (f : Feature) (n : Nat) :
    childPath path f n = path ++ "/" ++ f.segment n := by
  cases hlist : f.isList with
  | false =>
    rw [childPath, Feature.segment_of_single hlist, hlist]
    rfl
  | true =>
    rw [childPath, Feature.segment_of_isList hlist, hlist]
    simp only [↓reduceIte, String.append_assoc]
    rfl

theorem Value.ofItem_eq_record {x : Item} {c : Record} :
    ofItem x = .record c ↔ x = .record c :=
  ofItem_inj (y := .record c)

/-- A single feature reads as a record exactly if that is its item. -/
theorem Schema.Feature.read_eq_record {f : Feature} {xs : List Item} {c : Record}
    (hsingle : f.isList = false) : f.read xs = some (.record c) ↔ xs[0]? = some (.record c) := by
  cases xs with
  | nil => simp [read_nil, hsingle, Value.ofScalar]
  | cons x xs => simp [read, hsingle, Value.ofItem_eq_record]

namespace Record

variable {r s c c' : Record} {root path segment : String} {p p' : Nat × Nat}
  {i n : Nat} {f : Feature}

/-- What a step finds is held by a feature of contained records, at the place of the step. -/
theorem StepsTo.exists_feature (h : r.StepsTo segment p c) : ∃ f,
    r.type.feature? p.1 = some f ∧ f.isContainment = true ∧ segment = f.segment (p.2 + 1) ∧
      (f.isList = false → p.2 = 0) ∧ (r.items p.1)[p.2]? = some (.record c) := by
  cases h with
  | @single i f c hf hcontains hsingle hget =>
    refine ⟨f, hf, hcontains, (Feature.segment_of_single hsingle 1).symm, fun _ => rfl, ?_⟩
    rw [get_of_feature? hf, Except.ok.injEq] at hget
    exact (Feature.read_eq_record hsingle).mp hget
  | @item i n f vs c hf hcontains hlist hget hn =>
    refine ⟨f, hf, hcontains, (Feature.segment_of_isList hlist (n + 1)).symm, by simp [hlist], ?_⟩
    rw [get_of_feature? hf, Feature.read_of_isList hlist] at hget
    cases hget
    simpa [Value.ofItem_eq_record] using hn

/-- What a feature of contained records holds can be stepped to. -/
theorem FitsSchema.stepsTo (h : r.FitsSchema) (hf : r.type.feature? i = some f)
    (hcontains : f.isContainment = true) (hitem : (r.items i)[n]? = some (.record c)) :
    r.StepsTo (f.segment (n + 1)) (i, n) c := by
  cases hlist : f.isList with
  | true =>
    have hget : r.get i = .ok (some (.list ((r.items i).map .ofItem))) := by
      rw [get_of_feature? hf, Feature.read_of_isList hlist]
      rfl
    rw [Feature.segment_of_isList hlist]
    exact .item hf hcontains hlist hget (by simp [hitem, Value.ofItem])
  | false =>
    obtain ⟨hlt, -⟩ := List.getElem?_eq_some_iff.mp hitem
    have hle := (h.admits_items hf).single hlist
    obtain rfl : n = 0 := by omega
    rw [Feature.segment_of_single hlist]
    refine .single hf hcontains hlist ?_
    rw [get_of_feature? hf, (Feature.read_eq_record hlist).mpr hitem]

theorem StepsTo.unique (h : r.StepsTo segment p c) (h' : r.StepsTo segment p' c') :
    p = p' ∧ c = c' := by
  obtain ⟨f, hf, hcontains, hsegment, hsingle, hitem⟩ := h.exists_feature
  obtain ⟨g, hg, hcontains', hsegment', hsingle', hitem'⟩ := h'.exists_feature
  obtain ⟨hi, hnumber⟩ :=
    RecordType.segment_inj hf hg hcontains hcontains' (hsegment.symm.trans hsegment')
  rw [← hi] at hg
  cases hf.symm.trans hg
  have hplace : p = p' := by
    refine Prod.ext hi ?_
    cases hlist : f.isList with
    | true => exact Nat.succ.inj (hnumber hlist)
    | false => rw [hsingle hlist, hsingle' hlist]
  subst hplace
  rw [hitem, Option.some.injEq, Item.record.injEq] at hitem'
  exact ⟨rfl, hitem'⟩

theorem StepsTo.slash_not_mem (h : r.StepsTo segment p c) : '/' ∉ segment.toList := by
  obtain ⟨f, hf, hcontains, rfl, -⟩ := h.exists_feature
  exact RecordType.slash_not_mem_segment hf hcontains _

/-- The records among the items of a feature, with their paths. -/
def childrenIn (path : String) (f : Feature) (xs : List Item) : List (String × Record) :=
  if f.isContainment then
    ((xs.filterMap Item.record?).zipIdx 1).map fun (c, n) => (childPath path f n, c)
  else []

theorem IsComplete.childrenAt_eq (h : r.IsComplete) (path : String) : r.childrenAt path =
    r.type.features.zipIdx.flatMap fun q => childrenIn path q.1 (r.items q.2) := by
  rw [childrenAt, h.entries_eq, List.flatMap_map]
  rfl

theorem getElem?_filterMap_record? {xs : List Item} (hf : f.Admits xs)
    (hcontains : f.isContainment = true) :
    (xs.filterMap Item.record?)[n]? = some c ↔ xs[n]? = some (.record c) := by
  -- there are records only among the items, so that each keeps its number
  have hrecords : (xs.filterMap Item.record?).map Item.record = xs := by
    rw [List.map_filterMap]
    conv_rhs => rw [← List.filterMap_some (l := xs)]
    apply List.filterMap_congr
    intro x hx
    have htype := hf.type_eq x hx
    cases x with
    | record c => rfl
    | scalar s =>
      rw [Feature.isContainment, ← htype] at hcontains
      cases hcontains
  conv_rhs => rw [← hrecords]
  simp

theorem mem_childrenIn {xs : List Item} {q : String} (hf : f.Admits xs) :
    (q, c) ∈ childrenIn path f xs ↔ f.isContainment = true ∧
      ∃ n, q = path ++ "/" ++ f.segment (n + 1) ∧ xs[n]? = some (.record c) := by
  by_cases hcontains : f.isContainment = true
  · simp only [childrenIn, hcontains, ↓reduceIte, List.mem_map, true_and, Prod.exists,
      Prod.mk.injEq, List.mem_zipIdx_iff_le_and_getElem?_sub, childPath_eq]
    constructor
    · rintro ⟨c, n, ⟨hn, hc⟩, rfl, rfl⟩
      refine ⟨n - 1, ?_, (getElem?_filterMap_record? hf hcontains).mp hc⟩
      rw [Nat.sub_add_cancel hn]
    · rintro ⟨n, rfl, hc⟩
      exact ⟨c, n + 1, ⟨Nat.le_add_left 1 n,
        (getElem?_filterMap_record? hf hcontains).mpr hc⟩, rfl, rfl⟩
  · simp [childrenIn, hcontains]

/-- The children of a record with their paths are what can be stepped to. -/
theorem FitsSchema.mem_childrenAt_iff (h : r.FitsSchema) {q : String} :
    (q, c) ∈ r.childrenAt path ↔
      ∃ segment p, q = path ++ "/" ++ segment ∧ r.StepsTo segment p c := by
  rw [h.complete.childrenAt_eq, List.mem_flatMap]
  constructor
  · rintro ⟨⟨f, i⟩, hmem, hq⟩
    have hf : r.type.feature? i = some f := List.mem_zipIdx_iff_getElem?.mp hmem
    obtain ⟨hcontains, n, rfl, hitem⟩ := (mem_childrenIn (h.admits_items hf)).mp hq
    exact ⟨_, _, rfl, h.stepsTo hf hcontains hitem⟩
  · rintro ⟨segment, p, rfl, hstep⟩
    obtain ⟨f, hf, hcontains, rfl, -, hitem⟩ := hstep.exists_feature
    exact ⟨(f, p.1), List.mem_zipIdx_iff_getElem?.mpr hf,
      (mem_childrenIn (h.admits_items hf)).mpr ⟨hcontains, p.2, rfl, hitem⟩⟩

theorem map_fst_childrenIn (path : String) (f : Feature) (xs : List Item) :
    (childrenIn path f xs).map Prod.fst =
      if f.isContainment then
        (List.range' 1 (xs.filterMap Item.record?).length).map (childPath path f)
      else [] := by
  by_cases hcontains : f.isContainment = true
  · simp only [childrenIn, hcontains, ↓reduceIte, List.map_map, ← List.zipIdx_map_snd]
    rfl
  · simp [childrenIn, hcontains]

theorem nodup_childrenIn (hf : r.type.feature? i = some f) {xs : List Item} (h : f.Admits xs)
    (path : String) : ((childrenIn path f xs).map Prod.fst).Nodup := by
  rw [map_fst_childrenIn]
  by_cases hcontains : f.isContainment = true
  · rw [if_pos hcontains]
    refine List.Nodup.map_on ?_ List.nodup_range'
    intro n hn m hm heq
    cases hlist : f.isList with
    | true =>
      rw [childPath_eq, childPath_eq, String.append_right_inj] at heq
      exact (RecordType.segment_inj hf hf hcontains hcontains heq).2 hlist
    | false =>
      -- a single feature holds one item at most
      have hle := h.single hlist
      have hlength := List.length_filterMap_le Item.record? xs
      rw [List.mem_range'_1] at hn hm
      omega
  · rw [if_neg hcontains]
    exact List.nodup_nil

theorem exists_segment_of_mem {xs : List Item} {q : String}
    (h : q ∈ (childrenIn path f xs).map Prod.fst) :
    f.isContainment = true ∧ ∃ n, q = path ++ "/" ++ f.segment n := by
  rw [map_fst_childrenIn, List.mem_ite_nil_right, List.mem_map] at h
  obtain ⟨hcontains, n, -, rfl⟩ := h
  exact ⟨hcontains, n, childPath_eq path f n⟩

theorem FitsSchema.nodup_childrenAt (h : r.FitsSchema) (path : String) :
    ((r.childrenAt path).map Prod.fst).Nodup := by
  rw [h.complete.childrenAt_eq, List.map_flatMap, List.nodup_flatMap]
  have hfeature {q : Feature × Nat} (hq : q ∈ r.type.features.zipIdx) :
      r.type.feature? q.2 = some q.1 := List.mem_zipIdx_iff_getElem?.mp hq
  refine ⟨fun q hq => nodup_childrenIn (hfeature hq) (h.admits_items (hfeature hq)) path, ?_⟩
  have hnodup : r.type.features.zipIdx.Nodup := by
    apply List.Nodup.of_map Prod.snd
    rw [List.zipIdx_map_snd]
    exact List.nodup_range'
  apply hnodup.pairwise_of_forall_ne
  rintro ⟨f, i⟩ hi ⟨g, j⟩ hj hne q hq hq'
  obtain ⟨hcontains, n, rfl⟩ := exists_segment_of_mem hq
  obtain ⟨hcontains', m, heq⟩ := exists_segment_of_mem hq'
  rw [String.append_right_inj] at heq
  have hij : i = j :=
    (RecordType.segment_inj (hfeature hi) (hfeature hj) hcontains hcontains' heq).1
  subst hij
  exact hne (congrArg (·, i) (Option.some.inj ((hfeature hi).symm.trans (hfeature hj))))

end Record

/-- The path is another one, or goes on behind it with further segments. -/
def Extends (path q : String) : Prop :=
  q = path ∨ ∃ rest, q = path ++ "/" ++ rest

namespace Extends

variable {path q segment segment' : String}

theorem of_segment (h : Extends (path ++ "/" ++ segment) q) : Extends path q := by
  rcases h with rfl | ⟨rest, rfl⟩
  · exact .inr ⟨segment, rfl⟩
  · exact .inr ⟨segment ++ "/" ++ rest, by simp only [String.append_assoc]⟩

theorem not_of_segment : ¬ Extends (path ++ "/" ++ segment) path := by
  rintro (heq | ⟨rest, heq⟩)
  all_goals
    have hlength := congrArg (fun s : String => s.toList.length) heq
    simp only [String.toList_append, List.length_append, String.reduceToList,
      List.length_singleton] at hlength
    omega

/-- The segment behind a path is what follows up to the next separator. -/
theorem toList_segment (h : Extends (path ++ "/" ++ segment) q) (hslash : '/' ∉ segment.toList) :
    (q.toList.drop (path.toList.length + 1)).takeWhile (· ≠ '/') = segment.toList := by
  have hall : ∀ c ∈ segment.toList, decide (c ≠ '/') = true := fun c hc =>
    decide_eq_true fun heq => hslash (heq ▸ hc)
  have hdrop (rest : List Char) :
      (path.toList ++ '/' :: rest).drop (path.toList.length + 1) = rest := by
    rw [← List.drop_drop, List.drop_left]
    rfl
  rcases h with rfl | ⟨rest, rfl⟩
  · have hlist : (path ++ "/" ++ segment).toList = path.toList ++ '/' :: segment.toList := by simp
    rw [hlist, hdrop, List.takeWhile_eq_self_iff.mpr hall]
  · have hlist : (path ++ "/" ++ segment ++ "/" ++ rest).toList =
        path.toList ++ '/' :: (segment.toList ++ '/' :: rest.toList) := by simp
    rw [hlist, hdrop, List.takeWhile_append_of_pos hall]
    simp

theorem segment_inj (h : Extends (path ++ "/" ++ segment) q)
    (h' : Extends (path ++ "/" ++ segment') q) (hslash : '/' ∉ segment.toList)
    (hslash' : '/' ∉ segment'.toList) : segment = segment' :=
  String.toList_inj.mp ((h.toList_segment hslash).symm.trans (h'.toList_segment hslash'))

end Extends

namespace Record

variable {r s c : Record} {root path q segment : String} {place place' : List (Nat × Nat)}

theorem LeadsTo.extends (h : r.LeadsTo root path place s) : Extends root path := by
  induction h with
  | here => exact .inl rfl
  | step _ _ ih => exact ih.of_segment

/-- A path leads to one place only, and to the record that is there. -/
theorem LeadsTo.unique {s' : Record} (h : r.LeadsTo root path place s) :
    r.LeadsTo root path place' s' → place = place' ∧ s = s' := by
  induction h generalizing place' with
  | here =>
    intro h'
    cases h' with
    | here => exact ⟨rfl, rfl⟩
    | step _ hrest => exact absurd hrest.extends Extends.not_of_segment
  | step hstep hrest ih =>
    intro h'
    cases h' with
    | here => exact absurd hrest.extends Extends.not_of_segment
    | step hstep' hrest' =>
      obtain rfl := hrest.extends.segment_inj hrest'.extends hstep.slash_not_mem
        hstep'.slash_not_mem
      obtain ⟨rfl, rfl⟩ := hstep.unique hstep'
      obtain ⟨rfl, rfl⟩ := ih hrest'
      exact ⟨rfl, rfl⟩

theorem Everywhere.mem_located_iff (path : String) (r : Record) (h : r.Everywhere FitsSchema) :
    (q, s) ∈ r.located path ↔ ∃ place, r.LeadsTo path q place s := by
  induction path, r using located.induct with
  | case1 path r ih =>
    rw [located_eq, List.mem_cons, List.mem_flatMap]
    constructor
    · rintro (heq | ⟨⟨p, c⟩, hp, hq⟩)
      · cases heq
        exact ⟨[], .here⟩
      · obtain ⟨segment, i, rfl, hstep⟩ := h.self.mem_childrenAt_iff.mp hp
        obtain ⟨place, hplace⟩ :=
          (ih ⟨_, hp⟩ (h.of_contains (contains_of_mem_childrenAt hp))).mp hq
        exact ⟨i :: place, .step hstep hplace⟩
    · rintro ⟨place, hplace⟩
      cases hplace with
      | here => exact .inl rfl
      | @step _ c _ _ _ segment _ _ hstep hrest =>
        have hp : (path ++ "/" ++ segment, c) ∈ r.childrenAt path :=
          h.self.mem_childrenAt_iff.mpr ⟨segment, _, rfl, hstep⟩
        exact .inr ⟨_, hp,
          (ih ⟨_, hp⟩ (h.of_contains (contains_of_mem_childrenAt hp))).mpr ⟨_, hrest⟩⟩

theorem Everywhere.extends_of_mem (h : r.Everywhere FitsSchema)
    (hq : q ∈ (r.located path).map Prod.fst) : Extends path q := by
  obtain ⟨⟨q, s⟩, hmem, rfl⟩ := List.mem_map.mp hq
  obtain ⟨place, hplace⟩ := (Everywhere.mem_located_iff path r h).mp hmem
  exact hplace.extends

/-- The walk gives no two records the same path. -/
theorem Everywhere.nodup_located (path : String) (r : Record) (h : r.Everywhere FitsSchema) :
    ((r.located path).map Prod.fst).Nodup := by
  induction path, r using located.induct with
  | case1 path r ih =>
    have hchild {p : String × Record} (hp : p ∈ r.childrenAt path) :
        p.2.Everywhere FitsSchema ∧
          ∃ segment, p.1 = path ++ "/" ++ segment ∧ '/' ∉ segment.toList := by
      obtain ⟨segment, _, heq, hstep⟩ := h.self.mem_childrenAt_iff.mp hp
      exact ⟨h.of_contains (contains_of_mem_childrenAt hp), segment, heq, hstep.slash_not_mem⟩
    rw [located_eq, List.map_cons, List.map_flatMap, List.nodup_cons, List.nodup_flatMap]
    refine ⟨?_, fun p hp => ih ⟨p, hp⟩ (hchild hp).1, ?_⟩
    · rw [List.mem_flatMap]
      rintro ⟨p, hp, hq⟩
      obtain ⟨heverywhere, segment, heq, -⟩ := hchild hp
      exact Extends.not_of_segment (heq ▸ heverywhere.extends_of_mem hq)
    · -- what the walk comes to below different children goes on behind different segments
      apply (List.pairwise_map.mp (h.self.nodup_childrenAt path)).imp_of_mem
      intro p p' hp hp' hne q hq hq'
      obtain ⟨heverywhere, segment, heq, hslash⟩ := hchild hp
      obtain ⟨heverywhere', segment', heq', hslash'⟩ := hchild hp'
      have hextends := heverywhere.extends_of_mem hq
      have hextends' := heverywhere'.extends_of_mem hq'
      rw [heq] at hextends
      rw [heq'] at hextends'
      apply hne
      rw [heq, heq', hextends.segment_inj hextends' hslash hslash']

/-- What is reported is reported of a record that the walk comes to, which breaks a rule of its
type. -/
theorem Everywhere.exists_of_mem_violationsFrom (h : r.Everywhere FitsSchema) {v : Violation}
    (hv : v ∈ r.violationsFrom root) : ∃ s, (v.path, s) ∈ r.located root ∧ s.type = v.type ∧
      ∃ rule ∈ s.type.rules, ¬ rule.Holds s ∧ rule.problem s = v.problem := by
  rw [Everywhere.violationsFrom_eq root r h, List.mem_flatMap] at hv
  obtain ⟨⟨q, s⟩, hmem, hv⟩ := hv
  obtain ⟨rule, hrule, hv⟩ := List.mem_flatMap.mp hv
  obtain ⟨problem, hproblem, rfl⟩ := List.mem_map.mp hv
  rw [Rule.problems, List.mem_ite_nil_left, List.mem_singleton] at hproblem
  exact ⟨s, hmem, rfl, rule, hrule, hproblem.1, hproblem.2.symm⟩

/-- Paths identify records.  No two records that validation comes to have the same path; a path
is the path of a record exactly if reading what its segments name leads there, and it leads to
one place only.  The path of what is reported leads to the record of the reported type that
breaks the reported rule. -/
theorem Everywhere.paths_identify (h : r.Everywhere FitsSchema) (root : String) :
    (r.violationsFrom root = (r.located root).flatMap fun p => p.2.breaches p.1) ∧
    ((r.located root).map Prod.fst).Nodup ∧
    (∀ path s, (path, s) ∈ r.located root ↔ ∃ place, r.LeadsTo root path place s) ∧
    (∀ path place place' s s', r.LeadsTo root path place s → r.LeadsTo root path place' s' →
      place = place' ∧ s = s') ∧
    ∀ v ∈ r.violationsFrom root, ∃ place s, r.LeadsTo root v.path place s ∧
      (∀ place' s', r.LeadsTo root v.path place' s' → place' = place ∧ s' = s) ∧
      s.type = v.type ∧ ∃ rule ∈ s.type.rules, ¬ rule.Holds s ∧ rule.problem s = v.problem := by
  refine ⟨Everywhere.violationsFrom_eq root r h, Everywhere.nodup_located root r h,
    fun path s => Everywhere.mem_located_iff root r h,
    fun path place place' s s' hs hs' => hs.unique hs', fun v hv => ?_⟩
  obtain ⟨s, hmem, htype, hrule⟩ := h.exists_of_mem_violationsFrom hv
  obtain ⟨place, hplace⟩ := (Everywhere.mem_located_iff root r h).mp hmem
  exact ⟨place, s, hplace, fun place' s' h' => h'.unique hplace, htype, hrule⟩

def twinRows : Record :=
  (empty .dataRowset).having "row" [.record (empty .dataRow), .record (empty .dataRow)]

/-- Equal rows are told apart by their paths. -/
theorem paths_identify_twinRows : twinRows.Everywhere FitsSchema ∧
    ∃ v ∈ twinRows.violationsFrom "Rowset", v.path = "Rowset/Row[2]" ∧
      ∃ s, twinRows.LeadsTo "Rowset" v.path [(0, 1)] s ∧ s.type = v.type := by
  have hfits : twinRows.Everywhere FitsSchema := by decide +kernel
  have hv : (⟨"Rowset/Row[2]", .dataRow, .noItems (.tjs "K")⟩ : Violation) ∈
      twinRows.violationsFrom "Rowset" := by decide +kernel
  obtain ⟨-, -, -, -, hreported⟩ := hfits.paths_identify "Rowset"
  obtain ⟨place, s, hplace, hunique, htype, -⟩ := hreported _ hv
  have hstep : twinRows.StepsTo "Row[2]" (0, 1) (empty .dataRow) := by
    have hsegment : "Row[2]" = Feature.segment AttributeTable.dataRowset[0] 2 := by decide +kernel
    rw [hsegment]
    exact hfits.self.stepsTo rfl rfl rfl
  obtain ⟨rfl, -⟩ := hunique [(0, 1)] (empty .dataRow) (.step hstep .here)
  exact ⟨hfits, _, hv, rfl, s, hplace, htype⟩

end Record

end TableJoin
