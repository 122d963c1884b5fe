import TableJoin.Proofs.Record.Store

/-!
Appending: to append a value is to set the list anew with that value at its end, and to append
values one by one is to set them all at once, up to what is left where one of them is refused.
-/

namespace TableJoin

open Schema

/-- The operations in turn until one fails; what went before the failure stays. -/
def Operation.inTurn {α : Type} (r : Record) : List (Operation α) → Answer α × Record
  | [] => (.ok none, r)
  | op :: rest =>
    match op.plain r with
    | (.ok _, s) => inTurn s rest
    | (.error e, s) => (.error e, s)

/-- The list in a feature is emptied, and the values are appended one by one. -/
def Record.appendEach (r : Record) (i : Nat) (vs : List Value) : Answer Unit × Record :=
  Operation.inTurn r (.unset i :: vs.map (.add i))

/-- The list in a feature is set to the values at once. -/
def Record.setWhole (r : Record) (i : Nat) (vs : List Value) : Answer Unit × Record :=
  (Operation.set i (.list vs)).plain r

/-- The laws of appending to a feature.  They relate it to setting the whole list. -/
structure Record.AppendsAt (r : Record) (i : Nat) : Prop where
  undeclared : r.type.feature? i = none → ∀ v,
    (Operation.add i v : Operation Unit).plain r = (.error (.noFeature r.type i), r)
  single : ∀ f, r.type.feature? i = some f → f.isList = false → ∀ v,
    (Operation.add i v : Operation Unit).plain r =
      (.error (.mismatch r.type.name f.name f.itemType.kind .list), r)
  /-- One value goes behind those that the feature reads as. -/
  append : ∀ f, r.type.feature? i = some f → f.isList = true →
    ∃ vs, r.get i = .ok (some (.list vs)) ∧
      ∀ v, (Operation.add i v).plain r = r.setWhole i (vs ++ [v])
  same_answer : ∀ f vs, r.type.feature? i = some f → f.isList = true →
    (r.appendEach i vs).1 = (r.setWhole i vs).1
  same_record : ∀ f vs a, r.type.feature? i = some f → f.isList = true →
    (r.setWhole i vs).1 = .ok a → r.appendEach i vs = r.setWhole i vs
  /-- A value that is refused is refused in the same way.  Setting changes nothing then, and
  appending leaves the values before the first one that is refused. -/
  refused : ∀ f vs e, r.type.feature? i = some f → f.isList = true →
    (r.setWhole i vs).1 = .error e → (r.setWhole i vs).2 = r ∧
      ∃ before v after ws, vs = before ++ v :: after ∧
        List.Forall₂ f.itemType.Takes before ws ∧ (¬ ∃ w, f.itemType.Takes v w) ∧
        e = .mismatch r.type.name f.name f.itemType.kind v.kind ∧
        r.setWhole i before = (.ok none, (r.appendEach i vs).2) ∧
        (r.appendEach i vs).2.get i = .ok (some (.list ws))

namespace Schema.ItemType

variable {t : ItemType} {v : Value} {vs before : List Value} {xs : List Item}
  {owner feature : String}

theorem accept?_eq_none_iff : t.accept? v = none ↔ ¬ ∃ w, t.Takes v w := by
  rw [Option.eq_none_iff_forall_ne_some, not_exists]
  constructor
  · intro h w hw
    obtain ⟨x, hx, -⟩ := takes_iff.mp hw
    exact h x hx
  · exact fun h x hx => h _ (takes_iff.mpr ⟨x, hx, rfl⟩)

theorem convert_of_refused (h : t.accept? v = none) :
    t.convert owner feature v = .error (.mismatch owner feature t.kind v.kind) := by
  rw [convert, h]

theorem accepted_or_refused (t : ItemType) (vs : List Value) :
    (∃ xs : List Item, vs.map t.accept? = xs.map some) ∨
      ∃ before v after, ∃ xs : List Item, vs = before ++ v :: after ∧
        before.map t.accept? = xs.map some ∧ t.accept? v = none := by
  induction vs with
  | nil => exact .inl ⟨[], rfl⟩
  | cons u vs ih =>
    cases hu : t.accept? u with
    | none => exact .inr ⟨[], u, vs, [], rfl, rfl, hu⟩
    | some x =>
      rcases ih with ⟨xs, hxs⟩ | ⟨before, v, after, xs, rfl, hxs, hv⟩
      · exact .inl ⟨x :: xs, by rw [List.map_cons, hu, hxs, List.map_cons]⟩
      · exact .inr ⟨u :: before, v, after, x :: xs, rfl,
          by rw [List.map_cons, hu, hxs, List.map_cons], hv⟩

/-- A list of values is refused for the kind of the first one that does not fit. -/
theorem mapM_convert_of_refused (hbefore : before.map t.accept? = xs.map some)
    (hv : t.accept? v = none) (after : List Value) :
    (before ++ v :: after).mapM (t.convert owner feature) =
      .error (.mismatch owner feature t.kind v.kind) := by
  rw [List.mapM_append, mapM_convert_eq_ok.mpr hbefore, List.mapM_cons, convert_of_refused hv]
  rfl

end Schema.ItemType

namespace Record

variable {r s : Record} {i : Nat} {f : Feature} {v : Value} {vs before : List Value}
  {x : Item} {xs ys : List Item}

theorem put_put (r : Record) (i : Nat) (xs ys : List Item) :
    (r.put i xs).put i ys = r.put i ys :=
  congrArg (Record.mk r.type) (List.set_set xs)

theorem set_list_of_accepted (hf : r.type.feature? i = some f) (hlist : f.isList = true)
    (h : vs.map f.itemType.accept? = xs.map some) : r.set i (.list vs) = .ok (r.put i xs) :=
  set_eq_ok.mpr ⟨f, xs, hf, Feature.convert_eq_ok.mpr (.inr ⟨hlist, vs, rfl, h⟩), rfl⟩

theorem set_list_of_refused (hf : r.type.feature? i = some f) (hlist : f.isList = true)
    (hbefore : before.map f.itemType.accept? = xs.map some) (hv : f.itemType.accept? v = none)
    (after : List Value) : r.set i (.list (before ++ v :: after)) =
      .error (.mismatch r.type.name f.name f.itemType.kind v.kind) := by
  rw [set_eq_error_of_feature? hf, Feature.convert, if_pos hlist]
  exact ItemType.mapM_convert_of_refused hbefore hv after

theorem add_of_accepted (hf : r.type.feature? i = some f) (hlist : f.isList = true)
    (hx : f.itemType.accept? v = some x) : r.add i v = .ok (r.put i (r.items i ++ [x])) :=
  add_eq_ok.mpr ⟨f, x, hf, hlist, hx, rfl⟩

theorem add_of_refused (hf : r.type.feature? i = some f) (hlist : f.isList = true)
    (hv : f.itemType.accept? v = none) :
    r.add i v = .error (.mismatch r.type.name f.name f.itemType.kind v.kind) := by
  rw [add, Doing.after_eq_error, Editing.perform_add, feature_of_feature? hf]
  simp only [hlist, ↓reduceIte, ItemType.convert_of_refused hv]

theorem add_of_single (hf : r.type.feature? i = some f) (hsingle : f.isList = false)
    (v : Value) : r.add i v = .error (.mismatch r.type.name f.name f.itemType.kind .list) := by
  rw [add, Doing.after_eq_error, Editing.perform_add, feature_of_feature? hf]
  simp only [hsingle, Bool.false_eq_true, ↓reduceIte]

theorem add_of_undeclared (h : r.type.feature? i = none) (v : Value) :
    r.add i v = .error (.noFeature r.type i) := by
  rw [add, Doing.after_eq_error, Editing.perform_add, feature_of_undeclared h]

/-- What is held is accepted as it is read, so that only a new value can be refused. -/
theorem FitsSchema.accept?_items (h : r.FitsSchema) (hf : r.type.feature? i = some f) :
    ((r.items i).map .ofItem).map f.itemType.accept? = (r.items i).map some := by
  rw [List.map_map]
  apply List.map_congr_left
  intro x hx
  rw [← (h.admits_items hf).type_eq x hx]
  exact ItemType.accept?_ofItem x

/-- To append a value is to set the list with that value at its end. -/
theorem FitsSchema.add_eq_set (h : r.FitsSchema) (hf : r.type.feature? i = some f)
    (hlist : f.isList = true) (v : Value) :
    r.add i v = r.set i (.list ((r.items i).map .ofItem ++ [v])) := by
  have hitems := h.accept?_items hf
  cases hx : f.itemType.accept? v with
  | none => rw [add_of_refused hf hlist hx, set_list_of_refused hf hlist hitems hx]
  | some x =>
    rw [add_of_accepted hf hlist hx]
    refine (set_list_of_accepted hf hlist ?_).symm
    rw [List.map_append, hitems, List.map_cons, hx, List.map_append]
    rfl

end Record

namespace Operation

variable {r s : Record} {i : Nat} {f : Feature} {v : Value} {vs before : List Value}
  {xs ys : List Item}

theorem inTurn_cons_of_ok {α : Type} {op : Operation α} {a : Option α}
    (h : op.plain r = (.ok a, s)) (rest : List (Operation α)) :
    inTurn r (op :: rest) = inTurn s rest := by
  simp only [inTurn, h]

theorem inTurn_cons_of_error {α : Type} {op : Operation α} {e : ModelError}
    (h : op.plain r = (.error e, s)) (rest : List (Operation α)) :
    inTurn r (op :: rest) = (.error e, s) := by
  simp only [inTurn, h]

/-- Values that are accepted are appended, and the rest follows. -/
theorem inTurn_add_append (h : r.IsComplete) (hf : r.type.feature? i = some f)
    (hlist : f.isList = true) (rest : List (Operation Unit)) (xs : List Item)
    (hvs : vs.map f.itemType.accept? = ys.map some) :
    inTurn (r.put i xs) (vs.map (.add i) ++ rest) = inTurn (r.put i (xs ++ ys)) rest := by
  induction vs generalizing xs ys with
  | nil =>
    rw [List.map_eq_nil_iff.mp hvs.symm, List.append_nil]
    rfl
  | cons v vs ih =>
    obtain ⟨y, ys, rfl, hy, hys⟩ := List.map_eq_cons_iff.mp hvs.symm
    have hput : (r.put i xs).type.feature? i = some f := hf
    have hadd : (r.put i xs).add i v = .ok (r.put i (xs ++ [y])) := by
      rw [Record.add_of_accepted hput hlist hy.symm, h.items_put hf, Record.put_put]
    have hplain : (Operation.add i v : Operation Unit).plain (r.put i xs) =
        (.ok none, r.put i (xs ++ [y])) :=
      Editing.perform_answering_of_ok hadd
    rw [List.map_cons, List.cons_append, inTurn_cons_of_ok hplain, ih (xs ++ [y]) hys.symm,
      List.append_assoc]
    rfl

end Operation

namespace Record

variable {r : Record} {i : Nat} {f : Feature} {v : Value} {vs before : List Value}
  {xs : List Item}

theorem appendEach_of_feature? (hf : r.type.feature? i = some f) (vs : List Value) :
    r.appendEach i vs = Operation.inTurn (r.put i []) (vs.map (.add i)) := by
  apply Operation.inTurn_cons_of_ok (a := none)
  exact Editing.perform_answering_of_ok (unset_eq_ok.mpr ⟨f, hf, rfl⟩)

theorem IsComplete.appendEach_of_accepted (h : r.IsComplete) (hf : r.type.feature? i = some f)
    (hlist : f.isList = true) (hvs : vs.map f.itemType.accept? = xs.map some) :
    r.appendEach i vs = (.ok none, r.put i xs) := by
  rw [appendEach_of_feature? hf, ← List.append_nil (vs.map _),
    Operation.inTurn_add_append h hf hlist [] [] hvs]
  rfl

theorem IsComplete.appendEach_of_refused (h : r.IsComplete) (hf : r.type.feature? i = some f)
    (hlist : f.isList = true) (hbefore : before.map f.itemType.accept? = xs.map some)
    (hv : f.itemType.accept? v = none) (after : List Value) :
    r.appendEach i (before ++ v :: after) =
      (.error (.mismatch r.type.name f.name f.itemType.kind v.kind), r.put i xs) := by
  rw [appendEach_of_feature? hf, List.map_append,
    Operation.inTurn_add_append h hf hlist _ [] hbefore]
  have hput : (r.put i xs).type.feature? i = some f := hf
  apply Operation.inTurn_cons_of_error
  exact Editing.perform_answering_of_error (Editing.isAtomic_add i v)
    (add_of_refused hput hlist hv)

theorem setWhole_of_accepted (hf : r.type.feature? i = some f) (hlist : f.isList = true)
    (hvs : vs.map f.itemType.accept? = xs.map some) :
    r.setWhole i vs = (.ok none, r.put i xs) :=
  Editing.perform_answering_of_ok (set_list_of_accepted hf hlist hvs)

theorem setWhole_of_refused (hf : r.type.feature? i = some f) (hlist : f.isList = true)
    (hbefore : before.map f.itemType.accept? = xs.map some) (hv : f.itemType.accept? v = none)
    (after : List Value) : r.setWhole i (before ++ v :: after) =
      (.error (.mismatch r.type.name f.name f.itemType.kind v.kind), r) :=
  Editing.perform_answering_of_error (Editing.isAtomic_set i _)
    (set_list_of_refused hf hlist hbefore hv after)

/-- Appending one by one answers as setting all at once, and leads to the same record unless
a value is refused. -/
theorem IsComplete.appendEach_eq_setWhole (h : r.IsComplete) (hf : r.type.feature? i = some f)
    (hlist : f.isList = true) (vs : List Value) :
    (r.appendEach i vs).1 = (r.setWhole i vs).1 ∧
      ∀ a, (r.setWhole i vs).1 = .ok a → r.appendEach i vs = r.setWhole i vs := by
  rcases f.itemType.accepted_or_refused vs with ⟨xs, hxs⟩ | ⟨before, v, after, xs, rfl, hxs, hv⟩
  · rw [h.appendEach_of_accepted hf hlist hxs, setWhole_of_accepted hf hlist hxs]
    exact ⟨rfl, fun _ _ => rfl⟩
  · rw [h.appendEach_of_refused hf hlist hxs hv, setWhole_of_refused hf hlist hxs hv]
    exact ⟨rfl, nofun⟩

/-- Appending to a feature is setting its list, value by value. -/
theorem FitsSchema.appendsAt (h : r.FitsSchema) (i : Nat) : r.AppendsAt i where
  undeclared hf v :=
    Editing.perform_answering_of_error (Editing.isAtomic_add i v) (add_of_undeclared hf v)
  single f hf hsingle v :=
    Editing.perform_answering_of_error (Editing.isAtomic_add i v) (add_of_single hf hsingle v)
  append f hf hlist := by
    refine ⟨(r.items i).map .ofItem, ?_, fun v => ?_⟩
    · rw [get_of_feature? hf, Feature.read_of_isList hlist]
      rfl
    · exact Editing.perform_answering_congr (Editing.isAtomic_add i v)
        (Editing.isAtomic_set i _) (h.add_eq_set hf hlist v)
  same_answer f vs hf hlist := (h.complete.appendEach_eq_setWhole hf hlist vs).1
  same_record f vs a hf hlist := (h.complete.appendEach_eq_setWhole hf hlist vs).2 a
  refused f vs e hf hlist herror := by
    rcases f.itemType.accepted_or_refused vs with
      ⟨xs, hxs⟩ | ⟨before, v, after, xs, rfl, hxs, hv⟩
    · rw [setWhole_of_accepted hf hlist hxs] at herror
      cases herror
    · rw [setWhole_of_refused hf hlist hxs hv] at herror ⊢
      rw [h.complete.appendEach_of_refused hf hlist hxs hv]
      refine ⟨rfl, before, v, after, xs.map .ofItem, rfl, ?_, ?_, ?_, ?_, ?_⟩
      · exact ItemType.forall₂_takes_iff.mpr ⟨xs, hxs, rfl⟩
      · exact ItemType.accept?_eq_none_iff.mp hv
      · exact (Except.error.inj herror).symm
      · exact setWhole_of_accepted hf hlist hxs
      · rw [(h.complete.get_put hf xs).1, Feature.read_of_isList hlist]
        rfl

/-- Of two versions the one that there is can be appended, while neither is set together with
one that there is not. -/
theorem appendsAt_acceptVersions :
    let r := empty .acceptVersions
    let vs := [.text "1.0", .text "2.0"]
    r.FitsSchema ∧ ∃ e, (r.appendEach 0 vs).1 = .error e ∧ r.setWhole 0 vs = (.error e, r) ∧
      (r.appendEach 0 vs).2.get 0 = .ok (some (.list [.literal onlyVersion])) := by
  intro r vs
  have hfits : r.FitsSchema := by decide +kernel
  have herror : (r.setWhole 0 vs).1 = .error (.mismatch "AcceptVersionsType" "version"
      (.enumeration "VersionType") .text) := rfl
  have hlaws := hfits.appendsAt 0
  have hrecord := (hlaws.refused _ vs _ rfl rfl herror).1
  exact ⟨hfits, _, (hlaws.same_answer _ vs rfl rfl).trans herror, Prod.ext herror hrecord, rfl⟩

end Record

end TableJoin
