import TableJoin.Proofs.Record.Fits
import TableJoin.Record.Access

/-!
Reading: what the features of a record read as, and that what they read as, with whether
they are set, determines what they hold.
-/

namespace TableJoin

open Schema

namespace Value

theorem ofItem_inj {x y : Item} : ofItem x = ofItem y ↔ x = y := by
  cases x <;> cases y <;> simp [ofItem, ofScalar, Scalar.datum_inj]

theorem ofItems_inj {xs ys : List Item} : ofItems xs = ofItems ys ↔ xs = ys := by
  simp only [ofItems, list.injEq]
  constructor
  · exact fun h => (List.map_inj_right fun _ _ => ofItem_inj.mp).mp h
  · exact congrArg _

theorem ofItem_ne_list (x : Item) (vs : List Value) : ofItem x ≠ list vs := by
  cases x <;> exact fun h => nomatch h

end Value

namespace Schema.Feature

variable {f : Feature} {x : Item} {xs ys : List Item}

theorem read_of_isList (h : f.isList = true) (xs : List Item) : f.read xs = some (.ofItems xs) := by
  simp only [read, h, ↓reduceIte]

theorem read_singleton (h : f.isList = false) (x : Item) : f.read [x] = some (.ofItem x) := by
  simp only [read, h, Bool.false_eq_true, ↓reduceIte]

/-- A feature without items reads as the empty list, or as its default. -/
theorem read_nil (f : Feature) :
    f.read [] = if f.isList then some (.list []) else f.default?.map .ofScalar := rfl

/-- What a single feature admits is nothing or one item. -/
theorem Admits.eq_nil_or_singleton (h : f.Admits xs) (hsingle : f.isList = false) :
    xs = [] ∨ ∃ x, xs = [x] := by
  match xs, h.single hsingle with
  | [], _ => exact .inl rfl
  | [x], _ => exact .inr ⟨x, rfl⟩

/-- Items that a feature admits are the same if they read alike and are set alike. -/
theorem Admits.eq_of_read_eq (hx : f.Admits xs) (hy : f.Admits ys) (hread : f.read xs = f.read ys)
    (hset : xs.isEmpty = ys.isEmpty) : xs = ys := by
  cases hlist : f.isList with
  | true =>
    rw [read_of_isList hlist, read_of_isList hlist] at hread
    exact Value.ofItems_inj.mp (Option.some.inj hread)
  | false =>
    rcases hx.eq_nil_or_singleton hlist with rfl | ⟨x, rfl⟩
    · exact (List.isEmpty_iff.mp hset.symm).symm
    · rcases hy.eq_nil_or_singleton hlist with rfl | ⟨y, rfl⟩
      · cases hset
      · rw [read_singleton hlist, read_singleton hlist] at hread
        rw [Value.ofItem_inj.mp (Option.some.inj hread)]

end Schema.Feature

namespace Record

variable {r s : Record} {i : Nat} {f : Feature}

theorem feature_of_feature? (h : r.type.feature? i = some f) : r.feature i = .ok f := by
  simp only [feature, h]

theorem feature_of_undeclared (h : r.type.feature? i = none) :
    r.feature i = .error (.noFeature r.type i) := by
  simp only [feature, h]

theorem get_of_feature? (h : r.type.feature? i = some f) : r.get i = .ok (f.read (r.items i)) := by
  rw [get, feature_of_feature? h]
  rfl

theorem get_of_undeclared (h : r.type.feature? i = none) :
    r.get i = .error (.noFeature r.type i) := by
  rw [get, feature_of_undeclared h]
  rfl

theorem isSet_of_feature? (h : r.type.feature? i = some f) : r.isSet i = .ok (r.holds i) := by
  rw [isSet, feature_of_feature? h]
  rfl

theorem isSet_of_undeclared (h : r.type.feature? i = none) :
    r.isSet i = .error (.noFeature r.type i) := by
  rw [isSet, feature_of_undeclared h]
  rfl

theorem isSet_eq_ok_true : r.isSet i = .ok true ↔
    ∃ f, r.type.feature? i = some f ∧ r.items i ≠ [] := by
  cases hf : r.type.feature? i with
  | none => simp [isSet_of_undeclared hf]
  | some f => simp [isSet_of_feature? hf, holds]

/-- Records of one type that hold the same items in a feature read alike there. -/
theorem get_congr (htype : s.type = r.type) (hitems : s.items i = r.items i) :
    s.get i = r.get i ∧ s.isSet i = r.isSet i := by
  cases hf : r.type.feature? i with
  | none =>
    have hs : s.type.feature? i = none := by rw [htype, hf]
    rw [get_of_undeclared hf, get_of_undeclared hs, isSet_of_undeclared hf,
      isSet_of_undeclared hs, htype]
    exact ⟨rfl, rfl⟩
  | some f =>
    have hs : s.type.feature? i = some f := by rw [htype, hf]
    rw [get_of_feature? hf, get_of_feature? hs, isSet_of_feature? hf, isSet_of_feature? hs,
      holds, holds, hitems]
    exact ⟨rfl, rfl⟩

/-- Where records of one type read alike and are set alike, they hold the same items. -/
theorem FitsSchema.items_eq_of_get_eq (hr : r.FitsSchema) (hs : s.FitsSchema)
    (htype : s.type = r.type) (hf : r.type.feature? i = some f) (hget : s.get i = r.get i)
    (hset : s.isSet i = r.isSet i) : s.items i = r.items i := by
  have hsf : s.type.feature? i = some f := by rw [htype, hf]
  rw [get_of_feature? hf, get_of_feature? hsf] at hget
  rw [isSet_of_feature? hf, isSet_of_feature? hsf] at hset
  apply (hs.admits_items hsf).eq_of_read_eq (hr.admits_items hf) (Except.ok.inj hget)
  simpa [holds] using hset

theorem agree_eq_true (htype : s.type = r.type) (hf : r.type.feature? i = some f) :
    s.agree r i = true ↔ s.items i = r.items i := by
  simp [agree, htype, lt_of_feature? hf]

/-- Records of one type agree in a feature exactly if it reads alike and is set alike. -/
theorem FitsSchema.agree_iff (hr : r.FitsSchema) (hs : s.FitsSchema) (htype : s.type = r.type)
    (hf : r.type.feature? i = some f) :
    s.agree r i = true ↔ s.get i = r.get i ∧ s.isSet i = r.isSet i := by
  rw [agree_eq_true htype hf]
  exact ⟨get_congr htype, fun h => hr.items_eq_of_get_eq hs htype hf h.1 h.2⟩

end Record

end TableJoin
