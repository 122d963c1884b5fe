import TableJoin.Proofs.Record.Fits
import TableJoin.Record.Access

/-!
Building records: those that setting, adding and unsetting lead to, from records in
which nothing is set, are the ones that hold what their types provide for.
-/

namespace TableJoin

open Schema

namespace Record

variable {r s : Record} {i : Nat} {f : Feature} {xs : List Item} {P : Record → Prop}

/-- Storing items in one feature leaves the entries of the others. -/
theorem IsComplete.mem_entries_put (h : r.IsComplete) (hf : r.type.feature? i = some f)
    {p : Feature × List Item} (hp : p ∈ (r.put i xs).entries) : p = (f, xs) ∨ p ∈ r.entries := by
  obtain ⟨j, hg, hitems⟩ := (h.put i xs).mem_entries.mp hp
  by_cases hij : i = j
  · subst hij
    rw [h.items_put hf] at hitems
    rw [type_put, hf, Option.some.injEq] at hg
    exact .inl (Prod.ext hg.symm hitems.symm)
  · rw [items_put_of_ne r hij] at hitems
    exact .inr (h.mem_entries.mpr ⟨j, hg, hitems⟩)

/-- A feature in which nothing is set holds no items. -/
theorem eq_nil_of_mem_slots_empty {t : RecordType} (hxs : xs ∈ (empty t).slots) : xs = [] := by
  obtain ⟨g, -, rfl⟩ := List.mem_map.mp hxs
  rfl

theorem fitsSchema_empty (t : RecordType) : (empty t).FitsSchema := by
  refine ⟨isComplete_empty t, fun p hp => ?_⟩
  have hnil := eq_nil_of_mem_slots_empty (List.of_mem_zip hp).2
  rw [hnil]
  exact p.1.admits_nil

theorem FitsSchema.put (h : r.FitsSchema) (hf : r.type.feature? i = some f)
    (hxs : f.Admits xs) : (r.put i xs).FitsSchema := by
  refine ⟨h.complete.put i xs, fun p hp => ?_⟩
  rcases h.complete.mem_entries_put hf hp with rfl | hp
  · exact hxs
  · exact h.admits p hp

theorem everywhere_empty {t : RecordType} (h : P (empty t)) : (empty t).Everywhere P := by
  rw [everywhere_iff]
  refine ⟨h, fun xs hxs x hx => ?_⟩
  rw [eq_nil_of_mem_slots_empty hxs] at hx
  cases hx

/-- A record in which one feature is changed has a property at any depth if it has it
itself and the new items have it. -/
theorem Everywhere.put (h : r.Everywhere P) (hself : P (r.put i xs))
    (hxs : ∀ x ∈ xs, ∀ s ∈ x.within, P s) : (r.put i xs).Everywhere P := by
  rw [everywhere_iff]
  refine ⟨hself, fun ys hys x hx => ?_⟩
  rcases List.mem_or_eq_of_mem_set hys with hys | rfl
  · exact h.of_mem hys hx
  · exact hxs x hx

end Record

/-- The records that a feature would store of a value; lists in lists are not
accepted. -/
def Value.records : Value → List Record
  | .scalar _ => []
  | .record r => [r]
  | .list vs => vs.filterMap Value.record?

theorem Value.record?_ofItem {x : Item} {r : Record} (h : (ofItem x).record? = some r) :
    x = .record r := by
  cases x with
  | scalar s => cases h
  | record c => exact congrArg Item.record (Option.some.inj h)

theorem Value.mem_records_of_record? {v : Value} {r : Record} (h : v.record? = some r) :
    r ∈ v.records := by
  cases v with
  | scalar s => cases h
  | record c => exact List.mem_singleton.mpr (Option.some.inj h).symm
  | list vs => cases h

namespace Schema

variable {v : Value} {x : Item} {xs : List Item} {owner feature : String}

theorem SimpleType.type_of_accept? {t : SimpleType} {d : Datum} {s : Scalar}
    (h : t.accept? d = some s) : s.type = t := by
  unfold accept? at h
  split at h
  · cases h
    rfl
  · cases h
    rfl
  · cases h
    rfl
  · cases h
    rfl
  · split at h
    · cases h
      rfl
    · cases h
  · split at h
    · obtain ⟨l, hl, rfl⟩ := Option.map_eq_some_iff.mp h
      exact congrArg SimpleType.enumeration (Literal.eq_of_ofText? hl).1
    · cases h
  · obtain ⟨l, hl, rfl⟩ := Option.map_eq_some_iff.mp h
    exact congrArg SimpleType.enumeration (Literal.eq_of_ofText? hl).1
  · cases h

theorem SimpleType.accept?_datum (s : Scalar) : s.type.accept? s.datum = some s := by
  cases s <;> simp [accept?, Scalar.type, Scalar.datum]

/-- What a value stands for has the type, and is no other record than the value. -/
theorem ItemType.accept?_sound {t : ItemType} (h : t.accept? v = some x) :
    x.type = t ∧ ∀ r, x = .record r → v.record? = some r := by
  unfold accept? at h
  split at h
  · obtain ⟨s, hs, rfl⟩ := Option.map_eq_some_iff.mp h
    exact ⟨congrArg ItemType.simple (SimpleType.type_of_accept? hs), fun r hr => by cases hr⟩
  · split at h
    · next htype =>
      cases h
      refine ⟨congrArg ItemType.record htype, fun r hr => ?_⟩
      cases hr
      rfl
    · cases h
  · cases h

theorem ItemType.accept?_ofItem (x : Item) : x.type.accept? (.ofItem x) = some x := by
  cases x with
  | scalar s => simp [Item.type, Value.ofItem, Value.ofScalar, accept?, SimpleType.accept?_datum]
  | record r => simp [Item.type, Value.ofItem, accept?]

theorem ItemType.mapM_convert_eq_ok {t : ItemType} {vs : List Value} :
    ∀ {xs : List Item}, vs.mapM (t.convert owner feature) = .ok xs ↔
      vs.map t.accept? = xs.map some := by
  induction vs with
  | nil =>
    intro xs
    cases xs <;> simp [pure, Except.pure]
  | cons v vs ih =>
    intro xs
    rw [List.mapM_cons]
    cases hv : t.accept? v with
    | none => cases xs <;> simp [convert, hv, bind, Except.bind]
    | some x =>
      cases hvs : vs.mapM (t.convert owner feature) with
      | error e => cases xs <;> simp [convert, hv, hvs, bind, Except.bind, ← ih]
      | ok ys => cases xs <;> simp [convert, hv, hvs, bind, Except.bind, pure, Except.pure, ← ih]

/-- Where values are accepted as items, each item is what one of the values is accepted as. -/
theorem ItemType.exists_of_map_accept? {t : ItemType} {vs : List Value}
    (h : vs.map t.accept? = xs.map some) (hx : x ∈ xs) : ∃ v ∈ vs, t.accept? v = some x :=
  List.mem_map.mp (h ▸ List.mem_map_of_mem hx)

/-- A single feature converts a value to the item that it is accepted as, a list feature the
values of a list one by one. -/
theorem Feature.convert_eq_ok {f : Feature} : f.convert owner v = .ok xs ↔
    (f.isList = false ∧ ∃ x, f.itemType.accept? v = some x ∧ xs = [x]) ∨
      (f.isList = true ∧ ∃ vs, v = .list vs ∧ vs.map f.itemType.accept? = xs.map some) := by
  cases hlist : f.isList with
  | false =>
    cases hx : f.itemType.accept? v with
    | none => simp [convert, hlist, ItemType.convert, hx, Except.map]
    | some x => simp [convert, hlist, ItemType.convert, hx, Except.map, eq_comm]
  | true =>
    cases v with
    | list vs => simp [convert, hlist, ItemType.convertList, ItemType.mapM_convert_eq_ok]
    | scalar s => simp [convert, hlist, ItemType.convertList]
    | record r => simp [convert, hlist, ItemType.convertList]

/-- What a value is converted to is admitted, and holds no other records than the
value. -/
theorem Feature.convert_sound {f : Feature} (h : f.convert owner v = .ok xs) :
    f.Admits xs ∧ ∀ r, Item.record r ∈ xs → r ∈ v.records := by
  rcases convert_eq_ok.mp h with ⟨-, x, hx, rfl⟩ | ⟨hlist, vs, rfl, hvs⟩
  · obtain ⟨htype, hrecord⟩ := ItemType.accept?_sound hx
    refine ⟨f.admits_singleton htype, fun r hr => ?_⟩
    exact Value.mem_records_of_record? (hrecord r (List.mem_singleton.mp hr).symm)
  · refine ⟨⟨fun x hx => ?_, fun hsingle => ?_⟩, fun r hr => ?_⟩
    · obtain ⟨v, -, hv⟩ := ItemType.exists_of_map_accept? hvs hx
      exact (ItemType.accept?_sound hv).1
    · rw [hlist] at hsingle
      cases hsingle
    · obtain ⟨v, hmem, hv⟩ := ItemType.exists_of_map_accept? hvs hr
      have hrecord := (ItemType.accept?_sound hv).2 r rfl
      exact List.mem_filterMap.mpr ⟨v, hmem, hrecord⟩

theorem Feature.isSet_of_convert {f : Feature} (h : f.convert owner v = .ok xs) :
    f.isList = true ∨ xs ≠ [] := by
  rcases convert_eq_ok.mp h with ⟨-, x, -, rfl⟩ | ⟨hlist, -⟩
  · exact .inr (List.cons_ne_nil x [])
  · exact .inl hlist

/-- One more item of the type is admitted in a list. -/
theorem Feature.Admits.append {f : Feature} (h : f.Admits xs) (hx : x.type = f.itemType)
    (hlist : f.isList = true) : f.Admits (xs ++ [x]) := by
  constructor
  · intro y hy
    rcases List.mem_append.mp hy with hy | hy
    · exact h.type_eq y hy
    · rw [List.mem_singleton.mp hy]
      exact hx
  · intro hsingle
    rw [hlist] at hsingle
    cases hsingle

/-- Admitted items that are set are what the value that they read as is converted to. -/
theorem Feature.Admits.exists_convert {f : Feature} (h : f.Admits xs)
    (hxs : f.isList = true ∨ xs ≠ []) :
    ∃ v, f.read xs = some v ∧ f.convert owner v = .ok xs ∧
      ∀ r ∈ v.records, Item.record r ∈ xs := by
  by_cases hlist : f.isList = true
  · refine ⟨.ofItems xs, ?_, ?_, fun r hr => ?_⟩
    · simp only [Feature.read, hlist, ↓reduceIte]
    · refine convert_eq_ok.mpr (.inr ⟨hlist, _, rfl, ?_⟩)
      rw [List.map_map]
      apply List.map_congr_left
      intro x hx
      rw [← h.type_eq x hx]
      exact ItemType.accept?_ofItem x
    · obtain ⟨v, hv, hr⟩ := List.mem_filterMap.mp hr
      obtain ⟨x, hx, rfl⟩ := List.mem_map.mp hv
      exact Value.record?_ofItem hr ▸ hx
  · obtain ⟨x, rfl⟩ : ∃ x, xs = [x] := by
      apply List.length_eq_one_iff.mp
      have hle := h.single (Bool.not_eq_true _ ▸ hlist)
      have hpos := List.length_pos_iff.mpr (hxs.resolve_left hlist)
      omega
    refine ⟨.ofItem x, ?_, ?_, fun r hr => ?_⟩
    · simp only [Feature.read, hlist, Bool.false_eq_true, ↓reduceIte]
    · have hx : f.itemType.accept? (.ofItem x) = some x := by
        rw [← h.type_eq x (List.mem_singleton_self x)]
        exact ItemType.accept?_ofItem x
      exact convert_eq_ok.mpr (.inl ⟨Bool.not_eq_true _ ▸ hlist, x, hx, rfl⟩)
    · cases x with
      | scalar s => cases hr
      | record c => rw [List.mem_singleton.mp hr]; exact List.mem_singleton_self _

end Schema

/-- What fails changes nothing. -/
def Doing.IsAtomic {ε σ α : Type} (x : Doing ε σ α) : Prop :=
  ∀ s e, (x.perform s).1 = .error e → (x.perform s).2 = s

theorem Doing.IsAtomic.perform_of_after {ε σ : Type} {x : Doing ε σ Unit} (h : x.IsAtomic) {s : σ}
    {e : ε} (he : x.after s = .error e) : x.perform s = (.error e, s) := by
  have hanswer := after_eq_error.mp he
  exact Prod.ext hanswer (h s e hanswer)

namespace Editing

theorem isAtomic_set (i : Nat) (v : Value) : (set i v).IsAtomic := by
  intro r e h
  rw [perform_set] at h ⊢
  split
  · rfl
  · next f hf =>
    simp only [hf] at h
    split
    · rfl
    · next xs hxs =>
      rw [hxs] at h
      cases h

theorem isAtomic_add (i : Nat) (v : Value) : (add i v).IsAtomic := by
  intro r e h
  rw [perform_add] at h ⊢
  split
  · rfl
  · next f hf =>
    simp only [hf] at h
    split
    · next hlist =>
      rw [if_pos hlist] at h
      split
      · rfl
      · next x hx =>
        rw [hx] at h
        cases h
    · rfl

theorem isAtomic_unset (i : Nat) : (unset i).IsAtomic := by
  intro r e h
  rw [perform_unset] at h ⊢
  split
  · rfl
  · next f hf =>
    rw [hf] at h
    cases h

end Editing

namespace Record

variable {r s : Record} {i : Nat} {v : Value}

/-- Setting a feature stores what the value is converted to. -/
theorem set_eq_ok : r.set i v = .ok s ↔
    ∃ f xs, r.type.feature? i = some f ∧ f.convert r.type.name v = .ok xs ∧ r.put i xs = s := by
  rw [set, Doing.after_eq_ok, Editing.perform_set]
  cases hf : r.type.feature? i with
  | none => simp [feature, hf]
  | some f => cases hxs : f.convert r.type.name v <;> simp [feature, hf, hxs]

/-- Adding to a feature stores one more item, if the feature is a list. -/
theorem add_eq_ok : r.add i v = .ok s ↔
    ∃ f x, r.type.feature? i = some f ∧ f.isList = true ∧ f.itemType.accept? v = some x ∧
      r.put i (r.items i ++ [x]) = s := by
  rw [add, Doing.after_eq_ok, Editing.perform_add]
  cases hf : r.type.feature? i with
  | none => simp [feature, hf]
  | some f =>
    cases hlist : f.isList with
    | false => simp [feature, hf, hlist]
    | true =>
      cases hx : f.itemType.accept? v <;> simp [feature, hf, hlist, ItemType.convert, hx]

theorem unset_eq_ok : r.unset i = .ok s ↔
    ∃ f, r.type.feature? i = some f ∧ r.put i [] = s := by
  rw [unset, Doing.after_eq_ok, Editing.perform_unset]
  cases hf : r.type.feature? i <;> simp [feature, hf]

theorem FitsSchema.of_set (h : r.FitsSchema) (hset : r.set i v = .ok s) : s.FitsSchema := by
  obtain ⟨f, xs, hf, hxs, rfl⟩ := set_eq_ok.mp hset
  exact h.put hf (Feature.convert_sound hxs).1

theorem FitsSchema.of_add (h : r.FitsSchema) (hadd : r.add i v = .ok s) : s.FitsSchema := by
  obtain ⟨f, x, hf, hlist, hx, rfl⟩ := add_eq_ok.mp hadd
  apply h.put hf
  exact (h.admits_items hf).append (ItemType.accept?_sound hx).1 hlist

theorem FitsSchema.of_unset (h : r.FitsSchema) (hunset : r.unset i = .ok s) : s.FitsSchema := by
  obtain ⟨f, hf, rfl⟩ := unset_eq_ok.mp hunset
  exact h.put hf f.admits_nil

/-- The records that programs come to: nothing is set in a new one, and features are
set, added to and unset with values in which every record is such a one. -/
inductive Built : Record → Prop
  | empty (t : RecordType) : Built (empty t)
  | set {r s : Record} {i : Nat} {v : Value} (h : Built r) (hv : ∀ c ∈ v.records, Built c)
    (hset : r.set i v = .ok s) : Built s
  | add {r s : Record} {i : Nat} {v : Value} (h : Built r) (hv : ∀ c ∈ v.records, Built c)
    (hadd : r.add i v = .ok s) : Built s
  | unset {r s : Record} {i : Nat} (h : Built r) (hunset : r.unset i = .ok s) : Built s

theorem Everywhere.put_fitsSchema {f : Feature} {xs : List Item}
    (h : r.Everywhere FitsSchema) (hf : r.type.feature? i = some f) (hadm : f.Admits xs)
    (hxs : ∀ c, Item.record c ∈ xs → c.Everywhere FitsSchema) :
    (r.put i xs).Everywhere FitsSchema := by
  apply h.put (h.self.put hf hadm)
  intro x hx
  cases x with
  | scalar s => exact fun s hs => by cases hs
  | record c => exact hxs c hx

/-- What programs build holds what its types provide for. -/
theorem Built.fitsSchema (h : r.Built) : r.Everywhere FitsSchema := by
  induction h with
  | empty t => exact everywhere_empty (fitsSchema_empty t)
  | set _ _ hset ih ihv =>
    obtain ⟨f, xs, hf, hxs, rfl⟩ := set_eq_ok.mp hset
    obtain ⟨hadm, hrecords⟩ := Feature.convert_sound hxs
    exact ih.put_fitsSchema hf hadm fun c hc => ihv c (hrecords c hc)
  | add _ _ hadd ih ihv =>
    obtain ⟨f, x, hf, hlist, hx, rfl⟩ := add_eq_ok.mp hadd
    obtain ⟨htype, hrecord⟩ := ItemType.accept?_sound hx
    apply ih.put_fitsSchema hf
    · exact (ih.self.admits_items hf).append htype hlist
    · intro c hc
      rcases List.mem_append.mp hc with hc | hc
      · exact ih.of_mem (ih.self.complete.items_mem_slots hf) hc
      · exact ihv c (Value.mem_records_of_record? (hrecord c (List.mem_singleton.mp hc).symm))
  | unset _ hunset ih =>
    obtain ⟨f, hf, rfl⟩ := unset_eq_ok.mp hunset
    apply ih.put_fitsSchema hf
    · exact f.admits_nil
    · exact fun c hc => absurd hc List.not_mem_nil

/-- A record can be built up to a feature, one feature after the other, if the
records in it can. -/
theorem FitsSchema.exists_built (h : r.FitsSchema)
    (hin : ∀ xs ∈ r.slots, ∀ c, Item.record c ∈ xs → c.Built) (n : Nat) :
    ∃ s : Record, s.Built ∧ s.type = r.type ∧
      ∀ i f, i < n → r.type.feature? i = some f → s.items i = r.items i := by
  induction n with
  | zero => exact ⟨empty r.type, .empty r.type, rfl, fun i f hi => absurd hi (Nat.not_lt_zero i)⟩
  | succ n ih =>
    obtain ⟨s, hs, htype, hitems⟩ := ih
    cases hf : r.type.feature? n with
    | none =>
      refine ⟨s, hs, htype, fun i g hi hg => ?_⟩
      rcases Nat.lt_succ_iff_lt_or_eq.mp hi with hi | rfl
      · exact hitems i g hi hg
      · rw [hf] at hg
        cases hg
    | some f =>
      have hsf : s.type.feature? n = some f := by
        rw [htype]
        exact hf
      have hput : (s.put n (r.items n)).Built := by
        by_cases hxs : f.isList = true ∨ r.items n ≠ []
        · obtain ⟨v, -, hv, hrecords⟩ := (h.admits_items hf).exists_convert hxs
          have hslot := h.complete.items_mem_slots hf
          exact .set hs (fun c hc => hin _ hslot c (hrecords c hc))
            (set_eq_ok.mpr ⟨f, _, hsf, hv, rfl⟩)
        · have hnil : r.items n = [] :=
            Decidable.byContradiction fun hne => hxs (.inr hne)
          rw [hnil]
          exact .unset hs (unset_eq_ok.mpr ⟨f, hsf, rfl⟩)
      refine ⟨s.put n (r.items n), hput, htype, fun i g hi hg => ?_⟩
      rcases Nat.lt_succ_iff_lt_or_eq.mp hi with hi | rfl
      · rw [items_put_of_ne s (Nat.ne_of_gt hi)]
        exact hitems i g hi hg
      · exact hs.fitsSchema.self.complete.items_put hsf _

/-- The records that can be built are those that hold what their types provide for. -/
theorem built_iff_fitsSchema : r.Built ↔ r.Everywhere FitsSchema := by
  constructor
  · exact Built.fitsSchema
  · intro h
    induction r using Record.induction with
    | step r ih =>
      have hin : ∀ xs ∈ r.slots, ∀ c, Item.record c ∈ xs → c.Built := fun xs hxs c hc =>
        ih xs hxs c hc (h.of_mem hxs hc)
      obtain ⟨s, hs, htype, hitems⟩ := h.self.exists_built hin r.type.features.length
      have heq : s = r := by
        apply ext_items htype hs.fitsSchema.self.complete h.self.complete
        intro i f hf
        rw [htype] at hf
        exact hitems i f (lt_of_feature? hf) hf
      exact heq ▸ hs

end Record

end TableJoin
