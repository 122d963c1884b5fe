import TableJoin.Proofs.Record.Store
import TableJoin.Record.Construction
import TableJoin.Record.Typed

/-!
Two ways into one store: a record answers and moves in the same way whether a feature is
accessed by a typed call or by its position, over every sequence of calls.
-/

namespace TableJoin

open Schema

/-- Takes what a feature holds out of a record, by its position: what it reads as, and then it
is unset.  A single feature that is not set reads as its default, which is not taken. -/
def Editing.pull (i : Nat) : Editing (Option Value) := do
  let r ← get
  let f ← r.feature i
  let isSet ← r.isSet i
  let v ← r.get i
  Editing.unset i
  return if isSet || f.isList then v else none

/-- A call to a record, through the accessors of a feature or by its position. -/
inductive Call where
  | typed (c : TypedCall)
  | set (i : Nat) (v : Value)
  | add (i : Nat) (v : Value)
  | unset (i : Nat)
  /-- Takes out what is held. -/
  | pull (i : Nat)

/-- What a call answers, and the record afterwards. -/
def Call.perform (r : Record) : Call → Answer Value × Record
  | typed c => (.ok ((c.perform r).1.bind View.value?), (c.perform r).2)
  | set i v => (Editing.set i v).answering.perform r
  | add i v => (Editing.add i v).answering.perform r
  | unset i => (Editing.unset i).answering.perform r
  | pull i => (Editing.pull i).perform r

/-- What calls answer one after the other, and the record after all of them. -/
def Record.performAll (r : Record) : List Call → List (Answer Value) × Record
  | [] => ([], r)
  | c :: cs =>
    let (answers, s) := (c.perform r).2.performAll cs
    ((c.perform r).1 :: answers, s)

/-- The accessors of a type offer the call: there is the feature, it is single or a list as the
call wants it, and what is passed in is of its type. -/
def TypedCall.IsOffered (t : RecordType) : TypedCall → Prop
  | set i x => ∃ f, t.feature? i = some f ∧ f.isList = false ∧ x.type = f.itemType
  | add i x => ∃ f, t.feature? i = some f ∧ f.isList = true ∧ x.type = f.itemType
  | give i x => ∃ f, t.feature? i = some f ∧ x.type = f.itemType
  | replace i xs => ∃ f, t.feature? i = some f ∧ f.isList = true ∧ ∀ x ∈ xs, x.type = f.itemType
  | unset i => ∃ f, t.feature? i = some f
  | take i => ∃ f, t.feature? i = some f

/-- A call by position can always be made; what does not fit is refused. -/
def Call.IsOffered (t : RecordType) : Call → Prop
  | typed c => c.IsOffered t
  | _ => True

/-- The call of the other style: the same is done to the same feature, with a value that is taken
as what is passed in. -/
inductive TypedCall.Counterpart (t : RecordType) : TypedCall → Call → Prop
  | set {i : Nat} {f : Feature} {v : Value} {x : Item} (hf : t.feature? i = some f)
      (hsingle : f.isList = false) (hv : f.itemType.Takes v (.ofItem x)) :
      Counterpart t (.set i x) (.set i v)
  | add {i : Nat} {f : Feature} {v : Value} {x : Item} (hf : t.feature? i = some f)
      (hlist : f.isList = true) (hv : f.itemType.Takes v (.ofItem x)) :
      Counterpart t (.add i x) (.add i v)
  | giveSingle {i : Nat} {f : Feature} {v : Value} {x : Item} (hf : t.feature? i = some f)
      (hsingle : f.isList = false) (hv : f.itemType.Takes v (.ofItem x)) :
      Counterpart t (.give i x) (.set i v)
  | giveList {i : Nat} {f : Feature} {v : Value} {x : Item} (hf : t.feature? i = some f)
      (hlist : f.isList = true) (hv : f.itemType.Takes v (.ofItem x)) :
      Counterpart t (.give i x) (.add i v)
  | replace {i : Nat} {f : Feature} {vs : List Value} {xs : List Item} (hf : t.feature? i = some f)
      (hlist : f.isList = true) (hvs : List.Forall₂ f.itemType.Takes vs (xs.map .ofItem)) :
      Counterpart t (.replace i xs) (.set i (.list vs))
  | unset {i : Nat} {f : Feature} (hf : t.feature? i = some f) :
      Counterpart t (.unset i) (.unset i)
  | take {i : Nat} {f : Feature} (hf : t.feature? i = some f) :
      Counterpart t (.take i) (.pull i)

/-- One call may stand for the other: it is the same one, or the one of the other style. -/
inductive Call.Interchangeable (t : RecordType) : Call → Call → Prop
  | same (c : Call) : Interchangeable t c c
  | byPosition {c : TypedCall} {d : Call} (h : c.Counterpart t d) : Interchangeable t (.typed c) d
  | byAccessor {c : TypedCall} {d : Call} (h : c.Counterpart t d) : Interchangeable t d (.typed c)

/-- What the accessors of each feature tell of a record is what is told by position: what they
hand out, and whether the feature is set.  That is the list in a list feature, and elsewhere the
item that is set, or else the default if there is one. -/
def Record.ReadsAlike (r : Record) : Prop :=
  ∀ i f, r.type.feature? i = some f → ∃ w isSet,
    r.view? i = some w ∧ r.get i = .ok w.value? ∧
    r.viewsSet? i = some isSet ∧ r.isSet i = .ok isSet ∧
    (f.isList = true → w = .list (r.items i) ∧ isSet = !(r.items i).isEmpty) ∧
    (f.isList = false → isSet = true → ∃ x, r.items i = [x] ∧ w.value? = some (.ofItem x)) ∧
    (f.isList = false → isSet = false →
      r.items i = [] ∧ w = f.default?.elim (.optional none) (.item ∘ .scalar))

/-- What is taken out of a feature leaves it unset, and a feature of the same shape in any record
can be given it.  What was taken is then what is read there, and what was held is held there. -/
def Record.TakesOut (r : Record) (i : Nat) : Prop :=
  ∀ f v, r.type.feature? i = some f → (f.taken (r.items i)).value? = some v →
    let s := ((TypedCall.take i).perform r).2
    s.items i = [] ∧ s.isSet i = .ok false ∧ r.SameElsewhere i s ∧
    ∀ (q : Record) j g, q.FitsSchema → q.type.feature? j = some g →
      g.itemType = f.itemType → g.isList = f.isList →
        ∃ q', q.set j v = .ok q' ∧ q'.items j = r.items i ∧ q'.get j = .ok (some v) ∧
          (q'.view? j).bind View.value? = some v ∧ q.SameElsewhere j q'

namespace Schema

variable {t : ItemType} {f : Feature} {v : Value} {x : Item} {xs : List Item}

theorem ItemType.takes_ofItem_iff : t.Takes v (.ofItem x) ↔ t.accept? v = some x := by
  rw [takes_iff]
  constructor
  · rintro ⟨y, hy, heq⟩
    rw [hy, Value.ofItem_inj.mp heq]
  · exact fun h => ⟨x, h, rfl⟩

theorem ItemType.forall₂_takes_ofItem (h : ∀ x ∈ xs, x.type = t) :
    List.Forall₂ t.Takes (xs.map .ofItem) (xs.map .ofItem) := by
  induction xs with
  | nil => exact .nil
  | cons x xs ih =>
    obtain ⟨hx, hxs⟩ := List.forall_mem_cons.mp h
    exact .cons (hx ▸ takes_ofItem x) (ih hxs)

/-- What the getter of a feature hands out is what the feature reads as. -/
theorem Feature.value?_view (f : Feature) (xs : List Item) : (f.view xs).value? = f.read xs := by
  unfold view read
  cases f.isList with
  | true => rfl
  | false =>
    cases xs with
    | nil => cases f.default? <;> rfl
    | cons x xs => cases f.default? <;> rfl

theorem Feature.isSetBy_eq (f : Feature) (xs : List Item) : f.isSetBy xs = !xs.isEmpty := by
  unfold isSetBy
  cases f.isList <;> cases xs <;> rfl

/-- What is taken out of a feature is what it reads as, unless that is a default. -/
theorem Feature.value?_taken (f : Feature) (xs : List Item) :
    (f.taken xs).value? = if (!xs.isEmpty) || f.isList then f.read xs else none := by
  unfold taken read
  cases f.isList with
  | true => simp [View.value?]
  | false => cases xs <;> simp [View.value?]

end Schema

namespace Record

variable {r : Record} {i : Nat} {f : Feature} {v : Value} {x : Item}

/-- What the getter of a feature hands out is what the feature reads as by its position, and it
tells by itself whether the feature is set. -/
theorem get_eq_view (hf : r.type.feature? i = some f) :
    r.view? i = some (f.view (r.items i)) ∧ r.get i = .ok (f.view (r.items i)).value? ∧
      r.viewsSet? i = some (f.isSetBy (r.items i)) ∧ r.isSet i = .ok (f.isSetBy (r.items i)) := by
  refine ⟨by rw [view?, hf]; rfl, ?_, by rw [viewsSet?, hf]; rfl, ?_⟩
  · rw [get_of_feature? hf, Feature.value?_view]
  · rw [isSet_of_feature? hf, Feature.isSetBy_eq]
    rfl

theorem give_of_single (hf : r.type.feature? i = some f) (hsingle : f.isList = false) (x : Item) :
    r.give i x = r.put i [x] := by
  simp [give, hf, hsingle]

theorem give_of_isList (hf : r.type.feature? i = some f) (hlist : f.isList = true) (x : Item) :
    r.give i x = r.put i (r.items i ++ [x]) := by
  simp [give, hf, hlist]

/-- A value that is taken as an item sets a single feature to that item. -/
theorem set_of_takes (hf : r.type.feature? i = some f) (hsingle : f.isList = false)
    (hv : f.itemType.Takes v (.ofItem x)) : r.set i v = .ok (r.put i [x]) := by
  have haccept := ItemType.takes_ofItem_iff.mp hv
  exact set_eq_ok.mpr
    ⟨f, [x], hf, Feature.convert_eq_ok.mpr (.inl ⟨hsingle, x, haccept, rfl⟩), rfl⟩

/-- A value that is taken as an item adds that item to a list. -/
theorem add_of_takes (hf : r.type.feature? i = some f) (hlist : f.isList = true)
    (hv : f.itemType.Takes v (.ofItem x)) : r.add i v = .ok (r.put i (r.items i ++ [x])) :=
  add_eq_ok.mpr ⟨f, x, hf, hlist, ItemType.takes_ofItem_iff.mp hv, rfl⟩

/-- Values that are taken as items replace a list by these items. -/
theorem set_of_forall₂_takes {vs : List Value} {xs : List Item} (hf : r.type.feature? i = some f)
    (hlist : f.isList = true) (hvs : List.Forall₂ f.itemType.Takes vs (xs.map .ofItem)) :
    r.set i (.list vs) = .ok (r.put i xs) := by
  obtain ⟨ys, hys, heq⟩ := ItemType.forall₂_takes_iff.mp hvs
  obtain rfl : xs = ys := Value.ofItems_inj.mp (congrArg Value.list heq)
  exact set_eq_ok.mpr
    ⟨f, xs, hf, Feature.convert_eq_ok.mpr (.inr ⟨hlist, vs, rfl, hys⟩), rfl⟩

theorem perform_pull_of_feature? (hf : r.type.feature? i = some f) :
    (Editing.pull i).perform r = (.ok (f.taken (r.items i)).value?, r.put i []) := by
  have hunset := Doing.after_eq_ok.mp (unset_eq_ok.mpr ⟨f, hf, rfl⟩)
  rw [Editing.pull, Doing.perform_get_bind, feature_of_feature? hf, isSet_of_feature? hf,
    get_of_feature? hf, Feature.value?_taken]
  exact Doing.perform_bind_of_ok hunset _

theorem perform_pull_of_undeclared (hf : r.type.feature? i = none) :
    (Editing.pull i).perform r = (.error (.noFeature r.type i), r) := by
  rw [Editing.pull, Doing.perform_get_bind, feature_of_undeclared hf]
  rfl

end Record

section Calls

variable {r s : Record} {cs ds : List Call}

theorem TypedCall.Counterpart.perform_eq {c : TypedCall} {d : Call}
    (h : c.Counterpart r.type d) : (Call.typed c).perform r = d.perform r := by
  cases h with
  | set hf hsingle hv =>
    exact (Editing.perform_answering_of_ok (Record.set_of_takes hf hsingle hv)).symm
  | add hf hlist hv =>
    exact (Editing.perform_answering_of_ok (Record.add_of_takes hf hlist hv)).symm
  | @giveSingle i f v x hf hsingle hv =>
    have hset := Editing.perform_answering_of_ok (α := Value) (Record.set_of_takes hf hsingle hv)
    rw [Call.perform, Call.perform, hset, TypedCall.perform, Record.give_of_single hf hsingle]
    rfl
  | @giveList i f v x hf hlist hv =>
    have hadd := Editing.perform_answering_of_ok (α := Value) (Record.add_of_takes hf hlist hv)
    rw [Call.perform, Call.perform, hadd, TypedCall.perform, Record.give_of_isList hf hlist]
    rfl
  | replace hf hlist hvs =>
    exact (Editing.perform_answering_of_ok (Record.set_of_forall₂_takes hf hlist hvs)).symm
  | unset hf =>
    exact (Editing.perform_answering_of_ok (Record.unset_eq_ok.mpr ⟨_, hf, rfl⟩)).symm
  | take hf =>
    rw [Call.perform, Call.perform, Record.perform_pull_of_feature? hf, TypedCall.perform, hf]
    rfl

theorem Call.Interchangeable.perform_eq {c d : Call} (h : c.Interchangeable r.type d) :
    c.perform r = d.perform r := by
  cases h with
  | same c => rfl
  | byPosition h => exact h.perform_eq
  | byAccessor h => exact h.perform_eq.symm

/-- A typed call leaves the record or sets the items of one feature, to ones that the feature
admits if the call is offered. -/
theorem TypedCall.perform_cases (c : TypedCall) (r : Record) : (c.perform r).2 = r ∨
    ∃ i xs, (c.perform r).2 = r.put i xs ∧ (c.IsOffered r.type → r.FitsSchema →
      ∃ f, r.type.feature? i = some f ∧ f.Admits xs) := by
  cases c with
  | set i x =>
    refine .inr ⟨i, _, rfl, ?_⟩
    rintro ⟨f, hf, -, hx⟩ -
    exact ⟨f, hf, f.admits_singleton hx⟩
  | add i x =>
    refine .inr ⟨i, _, rfl, ?_⟩
    rintro ⟨f, hf, hlist, hx⟩ hr
    exact ⟨f, hf, (hr.admits_items hf).append hx hlist⟩
  | give i x =>
    cases hf : r.type.feature? i with
    | none => exact .inl (by simp [perform, Record.give, hf])
    | some f =>
      right
      cases hlist : f.isList with
      | true =>
        refine ⟨i, _, Record.give_of_isList hf hlist x, ?_⟩
        rintro ⟨g, hg, hx⟩ hr
        exact ⟨g, hg, (hr.admits_items hg).append hx (Option.some.inj (hf.symm.trans hg) ▸ hlist)⟩
      | false =>
        refine ⟨i, _, Record.give_of_single hf hlist x, ?_⟩
        rintro ⟨g, hg, hx⟩ -
        exact ⟨g, hg, g.admits_singleton hx⟩
  | replace i xs =>
    refine .inr ⟨i, _, rfl, ?_⟩
    rintro ⟨f, hf, hlist, hxs⟩ -
    exact ⟨f, hf, hxs, fun hsingle => absurd hlist (by simp [hsingle])⟩
  | unset i | take i =>
    refine .inr ⟨i, _, rfl, ?_⟩
    rintro ⟨f, hf⟩ -
    exact ⟨f, hf, f.admits_nil⟩

theorem Editing.snd_perform_answering {x : Editing Unit} (hatomic : x.IsAtomic) (r : Record) :
    (x.answering.perform r : Answer Value × Record).2 = r ∨
      ∃ s, x.after r = .ok s ∧ (x.answering.perform r : Answer Value × Record).2 = s := by
  rcases Editing.perform_answering_cases (α := Value) hatomic r with
    ⟨e, -, hperform⟩ | ⟨s, hs, hperform⟩
  · exact .inl (by rw [hperform])
  · exact .inr ⟨s, hs, by rw [hperform]⟩

/-- A call leaves the record or sets the items of one feature, to ones that the feature admits if
the call is offered. -/
theorem Call.perform_cases (c : Call) (r : Record) : (c.perform r).2 = r ∨
    ∃ i xs, (c.perform r).2 = r.put i xs ∧ (c.IsOffered r.type → r.FitsSchema →
      ∃ f, r.type.feature? i = some f ∧ f.Admits xs) := by
  cases c with
  | typed c => exact c.perform_cases r
  | set i v =>
    refine (Editing.snd_perform_answering (Editing.isAtomic_set i v) r).imp_right ?_
    rintro ⟨s, hs, heq⟩
    obtain ⟨f, xs, hf, hxs, rfl⟩ := Record.set_eq_ok.mp hs
    exact ⟨i, xs, heq, fun _ _ => ⟨f, hf, (Feature.convert_sound hxs).1⟩⟩
  | add i v =>
    refine (Editing.snd_perform_answering (Editing.isAtomic_add i v) r).imp_right ?_
    rintro ⟨s, hs, heq⟩
    obtain ⟨f, x, hf, hlist, hx, rfl⟩ := Record.add_eq_ok.mp hs
    have htype := (ItemType.accept?_sound hx).1
    exact ⟨i, _, heq, fun _ hr => ⟨f, hf, (hr.admits_items hf).append htype hlist⟩⟩
  | unset i =>
    refine (Editing.snd_perform_answering (Editing.isAtomic_unset i) r).imp_right ?_
    rintro ⟨s, hs, heq⟩
    obtain ⟨f, hf, rfl⟩ := Record.unset_eq_ok.mp hs
    exact ⟨i, [], heq, fun _ _ => ⟨f, hf, f.admits_nil⟩⟩
  | pull i =>
    cases hf : r.type.feature? i with
    | none => exact .inl (by rw [perform, Record.perform_pull_of_undeclared hf])
    | some f =>
      refine .inr ⟨i, [], ?_, fun _ _ => ⟨f, hf, f.admits_nil⟩⟩
      rw [perform, Record.perform_pull_of_feature? hf]

theorem Call.type_perform (c : Call) (r : Record) : (c.perform r).2.type = r.type := by
  rcases c.perform_cases r with heq | ⟨i, xs, heq, -⟩ <;> rw [heq]
  exact Record.type_put r i xs

/-- An object stays one through a call that is offered. -/
theorem Record.FitsSchema.perform (h : r.FitsSchema) {c : Call} (hc : c.IsOffered r.type) :
    (c.perform r).2.FitsSchema := by
  rcases c.perform_cases r with heq | ⟨i, xs, heq, hadmits⟩ <;> rw [heq]
  · exact h
  · obtain ⟨f, hf, hxs⟩ := hadmits hc h
    exact h.put hf hxs

/-- Calls that are interchangeable one by one answer and move in the same way. -/
theorem Record.performAll_congr {cs ds : List Call} : ∀ r : Record,
    List.Forall₂ (Call.Interchangeable r.type) cs ds → r.performAll cs = r.performAll ds := by
  induction cs generalizing ds with
  | nil =>
    intro r h
    cases h
    rfl
  | cons c cs ih =>
    intro r h
    obtain ⟨d, rest, hcd, hrest, rfl⟩ := List.forall₂_cons_left_iff.mp h
    rw [performAll, performAll, ← hcd.perform_eq]
    rw [← c.type_perform r] at hrest
    rw [ih _ hrest]

theorem Record.type_performAll (cs : List Call) : ∀ r : Record,
    (r.performAll cs).2.type = r.type := by
  induction cs with
  | nil => exact fun r => rfl
  | cons c cs ih => exact fun r => (ih _).trans (c.type_perform r)

/-- An object stays one through every sequence of calls that are offered. -/
theorem Record.fitsSchema_performAll (cs : List Call) : ∀ r : Record, r.FitsSchema →
    (∀ c ∈ cs, c.IsOffered r.type) → (r.performAll cs).2.FitsSchema := by
  induction cs with
  | nil => exact fun r h _ => h
  | cons c cs ih =>
    intro r h hcs
    obtain ⟨hc, hrest⟩ := List.forall_mem_cons.mp hcs
    rw [← c.type_perform r] at hrest
    exact ih _ (h.perform hc) hrest

theorem TypedCall.IsOffered.exists_counterpart {t : RecordType} {c : TypedCall}
    (hc : c.IsOffered t) : ∃ d, c.Counterpart t d := by
  cases c with
  | set i x =>
    obtain ⟨f, hf, hsingle, hx⟩ := hc
    exact ⟨_, .set hf hsingle (hx ▸ ItemType.takes_ofItem x)⟩
  | add i x =>
    obtain ⟨f, hf, hlist, hx⟩ := hc
    exact ⟨_, .add hf hlist (hx ▸ ItemType.takes_ofItem x)⟩
  | give i x =>
    obtain ⟨f, hf, hx⟩ := hc
    cases hlist : f.isList with
    | true => exact ⟨_, .giveList hf hlist (hx ▸ ItemType.takes_ofItem x)⟩
    | false => exact ⟨_, .giveSingle hf hlist (hx ▸ ItemType.takes_ofItem x)⟩
  | replace i xs =>
    obtain ⟨f, hf, hlist, hxs⟩ := hc
    exact ⟨_, .replace hf hlist (ItemType.forall₂_takes_ofItem hxs)⟩
  | unset i =>
    obtain ⟨f, hf⟩ := hc
    exact ⟨_, .unset hf⟩
  | take i =>
    obtain ⟨f, hf⟩ := hc
    exact ⟨_, .take hf⟩

theorem TypedCall.Counterpart.isOffered {t : RecordType} {c : TypedCall} {d : Call}
    (h : c.Counterpart t d) : c.IsOffered t := by
  have htype : ∀ {u : ItemType} {v x}, u.Takes v (.ofItem x) → x.type = u := by
    intro u v x hv
    exact (ItemType.accept?_sound (ItemType.takes_ofItem_iff.mp hv)).1
  cases h with
  | set hf hsingle hv => exact ⟨_, hf, hsingle, htype hv⟩
  | add hf hlist hv => exact ⟨_, hf, hlist, htype hv⟩
  | giveSingle hf _ hv | giveList hf _ hv => exact ⟨_, hf, htype hv⟩
  | replace hf hlist hvs =>
    refine ⟨_, hf, hlist, fun x hx => ?_⟩
    obtain ⟨ys, hys, heq⟩ := ItemType.forall₂_takes_iff.mp hvs
    rw [Value.ofItems_inj.mp (congrArg Value.list heq)] at hx
    obtain ⟨v, -, hv⟩ := ItemType.exists_of_map_accept? hys hx
    exact (ItemType.accept?_sound hv).1
  | unset hf | take hf => exact ⟨_, hf⟩

/-- What is answered where a change may be refused comes from a change that is made. -/
theorem Editing.after_of_answering {x : Editing Unit} (hatomic : x.IsAtomic)
    {answer : Option Value} (h : x.answering.perform r = (.ok answer, s)) : x.after r = .ok s := by
  rcases Editing.perform_answering_cases (α := Value) hatomic r with
    ⟨e, -, hperform⟩ | ⟨q, hq, hperform⟩
  · cases hperform.symm.trans h
  · cases hperform.symm.trans h
    exact hq

/-- Every call by position that is not refused is the counterpart of a typed call. -/
theorem Call.exists_typed {d : Call} {answer : Option Value} (h : d.perform r = (.ok answer, s)) :
    ∃ c : TypedCall, d = .typed c ∨ c.Counterpart r.type d := by
  cases d with
  | typed c => exact ⟨c, .inl rfl⟩
  | set i v =>
    have hafter := Editing.after_of_answering (Editing.isAtomic_set i v) h
    obtain ⟨f, xs, hf, hxs, -⟩ := Record.set_eq_ok.mp hafter
    rcases Feature.convert_eq_ok.mp hxs with ⟨hsingle, x, hx, -⟩ | ⟨hlist, vs, rfl, hvs⟩
    · exact ⟨_, .inr (.set hf hsingle (ItemType.takes_ofItem_iff.mpr hx))⟩
    · exact ⟨_, .inr (.replace hf hlist (ItemType.forall₂_takes_iff.mpr ⟨xs, hvs, rfl⟩))⟩
  | add i v =>
    have hafter := Editing.after_of_answering (Editing.isAtomic_add i v) h
    obtain ⟨f, x, hf, hlist, hx, -⟩ := Record.add_eq_ok.mp hafter
    exact ⟨_, .inr (.add hf hlist (ItemType.takes_ofItem_iff.mpr hx))⟩
  | unset i =>
    have hafter := Editing.after_of_answering (Editing.isAtomic_unset i) h
    obtain ⟨f, hf, -⟩ := Record.unset_eq_ok.mp hafter
    exact ⟨_, .inr (.unset hf)⟩
  | pull i =>
    cases hf : r.type.feature? i with
    | none =>
      rw [perform, Record.perform_pull_of_undeclared hf] at h
      cases h
    | some f => exact ⟨_, .inr (.take hf)⟩

/-- The accessors of an object tell what is told by position. -/
theorem Record.FitsSchema.readsAlike (h : r.FitsSchema) : r.ReadsAlike := by
  intro i f hf
  obtain ⟨hview, hget, hviewsSet, hisSet⟩ := get_eq_view hf
  refine ⟨_, _, hview, hget, hviewsSet, hisSet, fun hlist => ?_, fun hsingle hset => ?_,
    fun hsingle hset => ?_⟩
  · exact ⟨by rw [Feature.view, if_pos hlist], f.isSetBy_eq _⟩
  · rcases (h.admits_items hf).eq_nil_or_singleton hsingle with heq | ⟨x, heq⟩
    · rw [Feature.isSetBy_eq, heq] at hset
      cases hset
    · exact ⟨x, heq, by rw [Feature.value?_view, heq, Feature.read_singleton hsingle]⟩
  · rw [Feature.isSetBy_eq, Bool.not_eq_false'] at hset
    have hnil := List.isEmpty_iff.mp hset
    refine ⟨hnil, ?_⟩
    rw [hnil, Feature.view, hsingle]
    cases f.default? <;> rfl

/-- What a feature has taken out of it can be given to every feature of the same shape. -/
theorem Schema.Feature.Admits.of_shape {f g : Feature} {xs : List Item} (h : f.Admits xs)
    (htype : g.itemType = f.itemType) (hlist : g.isList = f.isList) : g.Admits xs :=
  ⟨fun x hx => (h.type_eq x hx).trans htype.symm, fun hsingle => h.single (hlist ▸ hsingle)⟩

/-- Only what is held is taken out, and it is what the feature reads as. -/
theorem Schema.Feature.read_of_taken {f : Feature} {xs : List Item} {v : Value}
    (hv : (f.taken xs).value? = some v) : (f.isList = true ∨ xs ≠ []) ∧ f.read xs = some v := by
  rw [value?_taken, Option.ite_none_right_eq_some, Bool.or_eq_true] at hv
  refine ⟨hv.1.symm.imp_right fun hset hnil => ?_, hv.2⟩
  rw [hnil] at hset
  cases hset

/-- Taking moves what is held from one object to another. -/
theorem Record.FitsSchema.takesOut (h : r.FitsSchema) (i : Nat) : r.TakesOut i := by
  intro f v hf hv
  obtain ⟨-, hisSet⟩ := h.complete.get_put hf []
  refine ⟨h.complete.items_put hf [], hisSet, r.sameElsewhere_put i [], ?_⟩
  intro q j g hq hg htype hlist
  -- the features take and read the same items alike, since they are of the same shape
  have hv' : (g.taken (r.items i)).value? = some v := by
    rw [← hv, Feature.taken, Feature.taken, hlist]
  obtain ⟨hheld, hread⟩ := Feature.read_of_taken hv'
  have hadmits := (h.admits_items hf).of_shape htype hlist
  have hset : q.set j v = .ok (q.put j (r.items i)) := by
    obtain ⟨w, hw, hconvert, -⟩ := hadmits.exists_convert hheld
    obtain rfl : w = v := Option.some.inj (hw.symm.trans hread)
    exact set_eq_ok.mpr ⟨g, _, hg, hconvert, rfl⟩
  have hitems := hq.complete.items_put hg (r.items i)
  have hview : (q.put j (r.items i)).view? j = some (g.view (r.items i)) := by
    rw [view?, type_put, hg, hitems]
    rfl
  refine ⟨_, hset, hitems, ?_, ?_, q.sameElsewhere_put j _⟩
  · rw [(hq.complete.get_put hg _).1, hread]
  · rw [hview, Option.bind_some, Feature.value?_view, hread]

/-- Access by accessors and access by position are access to the same store.  Calls that are
interchangeable one by one, in which accessor calls stand for calls by position and the other
way round, give the same answers and leave the same object.  There is a counterpart to each call
that the accessors offer, and a typed call to each call by position that is accepted.  After any
calls the object is one of its type, each of its features reads alike in both ways, and what is
taken out of a feature can be put into another object. -/
theorem Record.FitsSchema.accesses_agree (h : r.FitsSchema) :
    (∀ cs ds, List.Forall₂ (Call.Interchangeable r.type) cs ds →
      r.performAll cs = r.performAll ds) ∧
    (∀ c : TypedCall, c.IsOffered r.type ↔ ∃ d, c.Counterpart r.type d) ∧
    (∀ cs (d : Call) answer s, d.perform (r.performAll cs).2 = (.ok answer, s) →
      ∃ c : TypedCall, d = .typed c ∨ c.Counterpart r.type d) ∧
    ∀ cs, (∀ c ∈ cs, c.IsOffered r.type) →
      (r.performAll cs).2.FitsSchema ∧ (r.performAll cs).2.type = r.type ∧
      (r.performAll cs).2.ReadsAlike ∧ ∀ i, (r.performAll cs).2.TakesOut i := by
  refine ⟨fun cs ds => r.performAll_congr, fun c => ⟨TypedCall.IsOffered.exists_counterpart, ?_⟩,
    fun cs d answer s hd => ?_, fun cs hcs => ?_⟩
  · rintro ⟨d, hd⟩
    exact hd.isOffered
  · rw [← r.type_performAll cs]
    exact d.exists_typed hd
  · have hfits := r.fitsSchema_performAll cs h hcs
    exact ⟨hfits, r.type_performAll cs, hfits.readsAlike, hfits.takesOut⟩

/-- A version is added as a literal or as the text that spells it, and then the list is taken. -/
theorem Record.accesses_agree_acceptVersions : (empty .acceptVersions).FitsSchema ∧
    (empty .acceptVersions).performAll
        [.typed (.add 0 (.scalar (.literal onlyVersion))), .typed (.take 0)] =
      (empty .acceptVersions).performAll [.add 0 (.text "1.0"), .pull 0] ∧
    ((empty .acceptVersions).performAll [.add 0 (.text "1.0")]).2.ReadsAlike ∧
    ((empty .acceptVersions).performAll [.add 0 (.text "1.0")]).2.TakesOut 0 := by
  have hfits : (empty .acceptVersions).FitsSchema := by decide +kernel
  obtain ⟨hagree, -, -, hafter⟩ := hfits.accesses_agree
  obtain ⟨-, -, hreads, htakes⟩ := hafter [.add 0 (.text "1.0")]
    (List.forall_mem_singleton.mpr trivial)
  refine ⟨hfits, hagree _ _ ?_, hreads, htakes 0⟩
  exact .cons (.byPosition (.add rfl rfl (.spelled onlyVersion)))
    (.cons (.byPosition (.take rfl)) .nil)

end Calls

end TableJoin
