import Mathlib.Data.List.Forall2
import TableJoin.Proofs.Numeral.Canonical
import TableJoin.Proofs.Observation.Transparency
import TableJoin.Proofs.Schema.Table

/-!
Records as stores: what a feature accepts, what it reads as once it is set or unset, that the
other features stay, and that a refused value changes nothing.
-/

namespace TableJoin

open Schema

/-- A value is not of its kind in name only: a literal is one that its enumeration declares, and
an object is one of the schema. -/
structure Value.IsGenuine (v : Value) : Prop where
  declared : ∀ type text, v = .scalar (.literal type text) →
    ∃ l : Literal, l.type.name = type ∧ l.text = text
  ofSchema : ∀ type, v ≠ .scalar (.foreign type)

/-- A value that an item of the type can be given, and what the item reads as then.  A value
of the type's own kind reads as itself, a text as the literal that it spells, and an integer as
the decimal of the same number, if its mantissa can hold it. -/
inductive Schema.ItemType.Takes : ItemType → Value → Value → Prop
  | own {t : ItemType} {v : Value} (h : v.kind = t.kind) (hgenuine : v.IsGenuine) : Takes t v v
  | spelled (l : Literal) : Takes (.simple (.enumeration l.type)) (.text l.text) (.literal l)
  | whole {n : UInt64} {d : Decimal} (hle : n.toNat ≤ 9223372036854775807)
      (hmantissa : d.mantissa.toInt = n.toNat) (hexponent : d.exponent = 0) :
      Takes (.simple .decimal) (.scalar (.integer n)) (.scalar (.decimal d))

/-- A value that a feature can be given, and what the feature reads as then.  A list feature
takes a list of values that its items can be given. -/
inductive Schema.Feature.Takes (f : Feature) : Value → Value → Prop
  | single {v w : Value} (hsingle : f.isList = false) (h : f.itemType.Takes v w) : Takes f v w
  | list {vs ws : List Value} (hlist : f.isList = true)
      (h : List.Forall₂ f.itemType.Takes vs ws) : Takes f (.list vs) (.list ws)

/-- Records that read alike and are set alike in every other feature. -/
def Record.SameElsewhere (i : Nat) (r s : Record) : Prop :=
  ∀ j, j ≠ i → s.get j = r.get j ∧ s.isSet j = r.isSet j

/-- The laws of a feature as a store.  Nothing is set where there is no feature, nor to a
value that the feature does not take; a value that it takes is what it reads as afterwards. -/
structure Record.StoresAt (r : Record) (i : Nat) : Prop where
  set_undeclared : ∀ v, (∃ t p, ((Editing.set i v).perform r).1 = .error (.noFeature t p)) ↔
    r.type.features.length ≤ i
  set_refused : ∀ f v, r.type.feature? i = some f →
    ((∃ expected found, ((Editing.set i v).perform r).1 =
        .error (.mismatch r.type.name f.name expected found)) ↔ ¬ ∃ w, f.Takes v w)
  set_taken : ∀ f v w, r.type.feature? i = some f → f.Takes v w →
    ∃ s, (Editing.set i v).perform r = (.ok (), s) ∧ s.get i = .ok (some w) ∧
      s.isSet i = .ok (w ≠ .list []) ∧ r.SameElsewhere i s
  /-- A failure changes nothing, in a plain record and in an observed one. -/
  set_failed : ∀ v e, ((Editing.set i v).perform r).1 = .error e →
    ((Editing.set i v).perform r).2 = r ∧
      ∀ o : Observed, o.target = r → (Observing.set i v).perform o = (.error e, o)
  unset_undeclared : (∃ t p, ((Editing.unset i).perform r).1 = .error (.noFeature t p)) ↔
    r.type.features.length ≤ i
  unset_done : ∀ f, r.type.feature? i = some f →
    ∃ s, (Editing.unset i).perform r = (.ok (), s) ∧ s.isSet i = .ok false ∧
      s.get i = .ok (if f.isList then some (.list []) else f.default?.map .ofScalar) ∧
      r.SameElsewhere i s
  unset_failed : ∀ e, ((Editing.unset i).perform r).1 = .error e →
    ((Editing.unset i).perform r).2 = r

namespace Schema

variable {t : ItemType} {f : Feature} {v w : Value} {x : Item} {xs : List Item}
  {owner feature : String}

theorem isGenuine_ofItem (x : Item) : (Value.ofItem x).IsGenuine := by
  cases x with
  | scalar a =>
    cases a with
    | literal l =>
      refine ⟨fun type text h => ?_, fun type h => ?_⟩
      · cases h
        exact ⟨l, rfl, rfl⟩
      · cases h
    | _ => exact ⟨fun _ _ h => (by cases h), fun _ h => (by cases h)⟩
  | record r => exact ⟨fun _ _ h => (by cases h), fun _ h => (by cases h)⟩

theorem ItemType.takes_ofItem (x : Item) : x.type.Takes (.ofItem x) (.ofItem x) :=
  .own (Value.kind_ofItem x) (isGenuine_ofItem x)

theorem ItemType.Takes.isGenuine (h : t.Takes v w) : v.IsGenuine := by
  cases h with
  | own _ hgenuine => exact hgenuine
  | spelled l => exact isGenuine_ofItem (.scalar (.text l.text))
  | @whole n => exact isGenuine_ofItem (.scalar (.integer n))

/-- What is of the kind of a type, and not in name only, is an item of the type. -/
theorem exists_ofItem_of_kind (h : v.kind = t.kind) (hgenuine : v.IsGenuine) :
    ∃ x : Item, v = .ofItem x ∧ x.type = t := by
  cases v with
  | scalar d =>
    cases t with
    | record t =>
      cases d with
      | foreign type => exact absurd rfl (hgenuine.ofSchema type)
      | _ => cases h
    | simple t =>
      cases d with
      | literal type text =>
        obtain ⟨l, rfl, rfl⟩ := hgenuine.declared type text rfl
        cases t with
        | enumeration e =>
          cases Enumeration.name_inj.mp (Kind.enumeration.inj h)
          exact ⟨.scalar (.literal l), rfl, rfl⟩
        | _ => cases h
      | foreign type => exact absurd rfl (hgenuine.ofSchema type)
      | text s => cases t <;> cases h; exact ⟨.scalar (.text s), rfl, rfl⟩
      | boolean b => cases t <;> cases h; exact ⟨.scalar (.boolean b), rfl, rfl⟩
      | integer n => cases t <;> cases h; exact ⟨.scalar (.integer n), rfl, rfl⟩
      | decimal d => cases t <;> cases h; exact ⟨.scalar (.decimal d), rfl, rfl⟩
  | record r =>
    cases t with
    | simple t => cases t <;> cases h
    | record t => exact ⟨.record r, rfl, congrArg _ (RecordType.name_inj.mp (Kind.object.inj h))⟩
  | list vs =>
    cases t with
    | simple t => cases t <;> cases h
    | record t => cases h

/-- A whole number is accepted as the decimal of the same number. -/
theorem SimpleType.accept?_whole {n : UInt64} {d : Decimal} (hle : n.toNat ≤ 9223372036854775807)
    (hmantissa : d.mantissa.toInt = n.toNat) (hexponent : d.exponent = 0) :
    SimpleType.decimal.accept? (.integer n) = some (.decimal d) := by
  have hofNat : Int64.ofNat n.toNat = d.mantissa := by
    apply Int64.toInt_inj.mp
    rw [hmantissa]
    exact Int64.toInt_ofNat_of_lt (by omega)
  rw [← Decimal.toNatClampNeg_maxValue] at hle
  rw [accept?, if_pos hle, hofNat, ← hexponent]

/-- What is accepted and is not of the type itself is spelled, or is a whole number. -/
theorem SimpleType.takes_of_accept? {t : SimpleType} {d : Datum} {s : Scalar}
    (h : t.accept? d = some s) : (ItemType.simple t).Takes (.scalar d) (.ofScalar s) := by
  have hown : ∀ s : Scalar, (ItemType.simple s.type).Takes (.ofScalar s) (.ofScalar s) :=
    fun s => ItemType.takes_ofItem (.scalar s)
  unfold accept? at h
  split at h
  · cases h
    exact hown (.text _)
  · cases h
    exact hown (.boolean _)
  · cases h
    exact hown (.integer _)
  · cases h
    exact hown (.decimal _)
  · split at h
    · next hle =>
      cases h
      rw [Decimal.toNatClampNeg_maxValue] at hle
      refine .whole hle ?_ rfl
      exact Int64.toInt_ofNat_of_lt (by omega)
    · cases h
  · split at h
    · next htype =>
      obtain ⟨l, hl, rfl⟩ := Option.map_eq_some_iff.mp h
      obtain ⟨rfl, rfl⟩ := Literal.eq_of_ofText? hl
      exact htype ▸ hown (.literal l)
    · cases h
  · obtain ⟨l, hl, rfl⟩ := Option.map_eq_some_iff.mp h
    obtain ⟨rfl, rfl⟩ := Literal.eq_of_ofText? hl
    exact .spelled l
  · cases h

theorem ItemType.takes_iff : t.Takes v w ↔ ∃ x, t.accept? v = some x ∧ w = .ofItem x := by
  constructor
  · intro h
    cases h with
    | own hkind hgenuine =>
      obtain ⟨x, rfl, rfl⟩ := exists_ofItem_of_kind hkind hgenuine
      exact ⟨x, ItemType.accept?_ofItem x, rfl⟩
    | spelled l =>
      exact ⟨.scalar (.literal l), by simp [accept?, SimpleType.accept?, Value.text], rfl⟩
    | whole hle hmantissa hexponent =>
      refine ⟨.scalar (.decimal _), ?_, rfl⟩
      rw [accept?, SimpleType.accept?_whole hle hmantissa hexponent]
      rfl
  · rintro ⟨x, hx, rfl⟩
    unfold accept? at hx
    split at hx
    · obtain ⟨s, hs, rfl⟩ := Option.map_eq_some_iff.mp hx
      exact SimpleType.takes_of_accept? hs
    · split at hx
      · next htype =>
        cases hx
        exact htype ▸ takes_ofItem (.record _)
      · cases hx
    · cases hx

/-- Values are accepted as items one by one as they are taken one by one. -/
theorem ItemType.forall₂_takes_iff {vs ws : List Value} : List.Forall₂ t.Takes vs ws ↔
    ∃ xs : List Item, vs.map t.accept? = xs.map some ∧ ws = xs.map .ofItem := by
  constructor
  · intro h
    induction h with
    | nil => exact ⟨[], rfl, rfl⟩
    | cons hv _ ih =>
      obtain ⟨x, hx, rfl⟩ := takes_iff.mp hv
      obtain ⟨xs, hxs, rfl⟩ := ih
      exact ⟨x :: xs, by rw [List.map_cons, hx, hxs, List.map_cons], rfl⟩
  · rintro ⟨xs, hxs, rfl⟩
    induction xs generalizing vs with
    | nil =>
      rw [List.map_eq_nil_iff.mp hxs]
      exact .nil
    | cons x xs ih =>
      obtain ⟨v, vs, rfl, hv, hvs⟩ := List.map_eq_cons_iff.mp hxs
      exact .cons (takes_iff.mpr ⟨x, hv, rfl⟩) (ih hvs)

/-- What a feature takes is what is converted for it, and reads as what it is converted to. -/
theorem Feature.takes_iff (owner : String) :
    f.Takes v w ↔ ∃ xs, f.convert owner v = .ok xs ∧ f.read xs = some w := by
  constructor
  · intro h
    cases h with
    | single hsingle h =>
      obtain ⟨x, hx, rfl⟩ := ItemType.takes_iff.mp h
      exact ⟨[x], convert_eq_ok.mpr (.inl ⟨hsingle, x, hx, rfl⟩), read_singleton hsingle x⟩
    | list hlist h =>
      obtain ⟨xs, hxs, rfl⟩ := ItemType.forall₂_takes_iff.mp h
      exact ⟨xs, convert_eq_ok.mpr (.inr ⟨hlist, _, rfl, hxs⟩), read_of_isList hlist xs⟩
  · rintro ⟨xs, hxs, hread⟩
    rcases convert_eq_ok.mp hxs with ⟨hsingle, x, hx, rfl⟩ | ⟨hlist, vs, rfl, hvs⟩
    · rw [read_singleton hsingle] at hread
      cases hread
      exact .single hsingle (ItemType.takes_iff.mpr ⟨x, hx, rfl⟩)
    · rw [read_of_isList hlist] at hread
      cases hread
      exact .list hlist (ItemType.forall₂_takes_iff.mpr ⟨xs, hvs, rfl⟩)

theorem Feature.exists_takes (h : f.convert owner v = .ok xs) : ∃ w, f.Takes v w := by
  rcases convert_eq_ok.mp h with ⟨hsingle, x, hx, rfl⟩ | ⟨hlist, vs, rfl, hvs⟩
  · exact ⟨_, (takes_iff owner).mpr ⟨_, h, read_singleton hsingle x⟩⟩
  · exact ⟨_, (takes_iff owner).mpr ⟨_, h, read_of_isList hlist xs⟩⟩

/-- Of what a feature takes, only an empty list is stored as no items. -/
theorem Feature.eq_nil_iff_of_read (h : f.read xs = some w) (hxs : f.isList = true ∨ xs ≠ []) :
    xs = [] ↔ w = .list [] := by
  cases hlist : f.isList with
  | true =>
    rw [read_of_isList hlist] at h
    cases h
    simp [Value.ofItems]
  | false =>
    cases xs with
    | nil => simp [hlist] at hxs
    | cons x xs =>
      simp only [read, hlist, Bool.false_eq_true, ↓reduceIte] at h
      cases h
      simp [Value.ofItem_ne_list]

/-- A list of values is refused because of the first one that does not fit. -/
theorem ItemType.mapM_convert_eq_error {e : ModelError} (vs : List Value)
    (h : vs.mapM (t.convert owner feature) = .error e) :
    ∃ expected found, e = .mismatch owner feature expected found := by
  induction vs with
  | nil => cases h
  | cons v vs ih =>
    rw [List.mapM_cons] at h
    cases hv : t.accept? v with
    | none =>
      simp only [convert, hv, bind, Except.bind, Except.error.injEq] at h
      exact ⟨_, _, h.symm⟩
    | some x =>
      cases hvs : vs.mapM (t.convert owner feature) with
      | error e' =>
        simp only [convert, hv, hvs, bind, Except.bind, Except.error.injEq] at h
        exact ih (h ▸ hvs)
      | ok xs => simp [convert, hv, hvs, bind, Except.bind, pure, Except.pure] at h

/-- A value that does not fit is refused for its kind, or for the kind of one in it. -/
theorem Feature.convert_eq_error {e : ModelError} (h : f.convert owner v = .error e) :
    ∃ expected found, e = .mismatch owner f.name expected found := by
  cases hlist : f.isList with
  | false =>
    cases hx : f.itemType.accept? v with
    | none =>
      simp only [convert, hlist, ItemType.convert, hx, Except.map, Bool.false_eq_true, ↓reduceIte,
        Except.error.injEq] at h
      exact ⟨_, _, h.symm⟩
    | some x => simp [convert, hlist, ItemType.convert, hx, Except.map] at h
  | true =>
    rw [convert, if_pos hlist] at h
    unfold ItemType.convertList at h
    split at h
    · next vs => exact ItemType.mapM_convert_eq_error vs h
    · cases h
      exact ⟨_, _, rfl⟩

end Schema

namespace Record

variable {r s : Record} {i : Nat} {f : Feature} {v w : Value} {xs : List Item}

/-- Storing items in one feature leaves what the others read as. -/
theorem sameElsewhere_put (r : Record) (i : Nat) (xs : List Item) :
    r.SameElsewhere i (r.put i xs) :=
  fun _ hj => get_congr rfl (items_put_of_ne r (Ne.symm hj) xs)

/-- A feature in which items are stored reads as they do, and is set if there are any. -/
theorem IsComplete.get_put (h : r.IsComplete) (hf : r.type.feature? i = some f)
    (xs : List Item) : (r.put i xs).get i = .ok (f.read xs) ∧
      (r.put i xs).isSet i = .ok (!xs.isEmpty) := by
  have hput : (r.put i xs).type.feature? i = some f := hf
  rw [get_of_feature? hput, isSet_of_feature? hput, holds, h.items_put hf]
  exact ⟨rfl, rfl⟩

theorem feature?_eq_none_iff {t : RecordType} : t.feature? i = none ↔ t.features.length ≤ i :=
  List.getElem?_eq_none_iff

theorem set_of_undeclared (h : r.type.feature? i = none) (v : Value) :
    r.set i v = .error (.noFeature r.type i) := by
  rw [set, Doing.after_eq_error, Editing.perform_set, feature_of_undeclared h]

theorem unset_of_undeclared (h : r.type.feature? i = none) :
    r.unset i = .error (.noFeature r.type i) := by
  rw [unset, Doing.after_eq_error, Editing.perform_unset, feature_of_undeclared h]

theorem set_eq_error_of_feature? (hf : r.type.feature? i = some f) {e : ModelError} :
    r.set i v = .error e ↔ f.convert r.type.name v = .error e := by
  rw [set, Doing.after_eq_error, Editing.perform_set, feature_of_feature? hf]
  cases hxs : f.convert r.type.name v <;> simp [hxs]

/-- Where there is a feature, a value is refused as one that does not fit. -/
theorem mismatch_of_set_eq_error (hf : r.type.feature? i = some f) {e : ModelError}
    (h : r.set i v = .error e) :
    ∃ expected found, e = .mismatch r.type.name f.name expected found :=
  Feature.convert_eq_error ((set_eq_error_of_feature? hf).mp h)

/-- A value that a feature takes is stored and is what the feature reads as; no other
feature changes. -/
theorem IsComplete.exists_set (h : r.IsComplete) (hf : r.type.feature? i = some f)
    (hw : f.Takes v w) :
    ∃ s, r.set i v = .ok s ∧ s.get i = .ok (some w) ∧ s.isSet i = .ok (w ≠ .list []) ∧
      r.SameElsewhere i s := by
  obtain ⟨xs, hxs, hread⟩ := (Feature.takes_iff r.type.name).mp hw
  obtain ⟨hget, hisSet⟩ := h.get_put hf xs
  refine ⟨r.put i xs, set_eq_ok.mpr ⟨f, xs, hf, hxs, rfl⟩, ?_, ?_, r.sameElsewhere_put i xs⟩
  · rw [hget, hread]
  · rw [hisSet]
    -- only a list can be given without being set afterwards
    have hempty := Feature.eq_nil_iff_of_read hread (Feature.isSet_of_convert hxs)
    cases xs with
    | nil => simp [hempty.mp rfl]
    | cons x xs => simp [mt hempty.mpr (List.cons_ne_nil x xs)]

/-- A value is refused for want of a feature exactly beyond the features of the type. -/
theorem set_eq_noFeature_iff (v : Value) :
    (∃ t p, r.set i v = .error (.noFeature t p)) ↔ r.type.features.length ≤ i := by
  rw [← feature?_eq_none_iff]
  constructor
  · rintro ⟨t, p, herr⟩
    cases hf : r.type.feature? i with
    | none => rfl
    | some f =>
      obtain ⟨expected, found, hmismatch⟩ := mismatch_of_set_eq_error hf herr
      cases hmismatch
  · exact fun hf => ⟨_, _, set_of_undeclared hf v⟩

theorem unset_eq_noFeature_iff :
    (∃ t p, r.unset i = .error (.noFeature t p)) ↔ r.type.features.length ≤ i := by
  rw [← feature?_eq_none_iff]
  constructor
  · rintro ⟨t, p, herr⟩
    cases hf : r.type.feature? i with
    | none => rfl
    | some f =>
      rw [unset_eq_ok.mpr ⟨f, hf, rfl⟩] at herr
      cases herr
  · exact fun hf => ⟨_, _, unset_of_undeclared hf⟩

/-- A value is refused as one that does not fit exactly if the feature does not take it. -/
theorem set_eq_mismatch_iff (hf : r.type.feature? i = some f) :
    (∃ expected found, r.set i v = .error (.mismatch r.type.name f.name expected found)) ↔
      ¬ ∃ w, f.Takes v w := by
  constructor
  · rintro ⟨expected, found, herr⟩ ⟨w, hw⟩
    obtain ⟨xs, hxs, -⟩ := (Feature.takes_iff r.type.name).mp hw
    rw [set_eq_ok.mpr ⟨f, xs, hf, hxs, rfl⟩] at herr
    cases herr
  · intro hno
    cases hs : r.set i v with
    | error e =>
      obtain ⟨expected, found, rfl⟩ := mismatch_of_set_eq_error hf hs
      exact ⟨expected, found, rfl⟩
    | ok s =>
      obtain ⟨g, xs, hg, hxs, -⟩ := set_eq_ok.mp hs
      cases hf.symm.trans hg
      exact absurd (Feature.exists_takes hxs) hno

/-- What is of the kind of a feature in name only, such as a literal that its enumeration does
not declare, is refused although the kind that is expected is the one that is found. -/
theorem set_of_not_isGenuine (hf : r.type.feature? i = some f) (hsingle : f.isList = false)
    (hkind : v.kind = f.itemType.kind) (h : ¬ v.IsGenuine) :
    r.set i v = .error (.mismatch r.type.name f.name v.kind v.kind) := by
  have hrefused : f.itemType.accept? v = none := by
    rw [Option.eq_none_iff_forall_ne_some]
    intro x hx
    exact h (ItemType.takes_iff.mpr ⟨x, hx, rfl⟩).isGenuine
  rw [set_eq_error_of_feature? hf, Feature.convert, hsingle]
  simp only [Bool.false_eq_true, ↓reduceIte, ItemType.convert, hrefused, Except.map, hkind]

/-- A feature that is unset reads as its default, or as the empty list; no other feature
changes. -/
theorem IsComplete.exists_unset (h : r.IsComplete) (hf : r.type.feature? i = some f) :
    ∃ s, r.unset i = .ok s ∧ s.isSet i = .ok false ∧
      s.get i = .ok (if f.isList then some (.list []) else f.default?.map .ofScalar) ∧
      r.SameElsewhere i s := by
  obtain ⟨hget, hisSet⟩ := h.get_put hf []
  refine ⟨r.put i [], unset_eq_ok.mpr ⟨f, hf, rfl⟩, hisSet, ?_, r.sameElsewhere_put i []⟩
  rw [hget, Feature.read_nil]

/-- Every feature of a complete record is a store. -/
theorem IsComplete.storesAt (h : r.IsComplete) (i : Nat) : r.StoresAt i where
  set_undeclared v := by
    simpa only [set, Doing.after_eq_error] using set_eq_noFeature_iff (r := r) (i := i) v
  set_refused f v hf := by
    simpa only [set, Doing.after_eq_error] using set_eq_mismatch_iff (v := v) hf
  set_taken f v w hf hw := by
    simpa only [set, Doing.after_eq_ok] using h.exists_set hf hw
  set_failed v e herr := by
    refine ⟨Editing.isAtomic_set i v r e herr, ?_⟩
    rintro o rfl
    exact Observing.perform_changeFeature_of_error (Observing.actsAt_set i v) .set
      (Doing.after_eq_error.mpr herr)
  unset_undeclared := by
    simpa only [unset, Doing.after_eq_error] using unset_eq_noFeature_iff (r := r) (i := i)
  unset_done f hf := by
    simpa only [unset, Doing.after_eq_ok] using h.exists_unset hf
  unset_failed e herr := Editing.isAtomic_unset i r e herr

def onlyVersion : Literal := ⟨.acceptedVersion, "1.0", by decide⟩

/-- A list of versions stores the literal that a text spells. -/
theorem storesAt_acceptVersions : (empty .acceptVersions).IsComplete ∧
    ∃ s, (Editing.set 0 (.list [.text "1.0"])).perform (empty .acceptVersions) = (.ok (), s) ∧
      s.get 0 = .ok (some (.list [.literal onlyVersion])) ∧ s.isSet 0 = .ok true := by
  refine ⟨isComplete_empty .acceptVersions, ?_⟩
  obtain ⟨s, hs, hget, hisSet, -⟩ := ((isComplete_empty .acceptVersions).storesAt 0).set_taken
    _ _ _ rfl (.list rfl (.cons (.spelled onlyVersion) .nil))
  exact ⟨s, hs, hget, hisSet⟩

end Record

end TableJoin
