import Mathlib.Data.List.Forall2
import TableJoin.Proofs.Observation.Journal

/-!
Who is told what: in a run in which observers come and delivery is switched on and off, each
observer is told of the operations made after its registration while delivery is on, and of
nothing else.
-/

namespace TableJoin

open Schema

/-- A feature differs between two records if it reads differently or is set in one of them
only. -/
def Record.DiffersAt (before after : Record) (i : Nat) : Prop :=
  before.get i ≠ after.get i ∨ before.isSet i ≠ after.isSet i

/-- The notification is of a change of some kind to a feature of the record. -/
structure Notification.Names (n : Notification) (kind : ChangeKind) (r : Record) (i : Nat) :
    Prop where
  kind_eq : n.kind = kind
  type_eq : n.type = r.type
  position_eq : n.position = i
  feature_eq : (r.feature i).map Feature.name = .ok n.feature

/-- The notification says what a feature read as before a change and reads as after it. -/
structure Notification.Reports (n : Notification) (kind : ChangeKind) (before after : Record)
    (i : Nat) : Prop extends n.Names kind after i where
  old_eq : before.get i = .ok n.old
  new_eq : after.get i = .ok n.new

/-- What an operation that is made has to tell, by what can be read before and after it: one
notification, or after an edit one for each feature that differs, in feature order. -/
def Operation.Tells {α : Type} (before after : Record) (ns : List Notification) :
    Operation α → Prop
  | .set i _ => ∃ n, ns = [n] ∧ n.Reports .set before after i
  | .unset i => ∃ n, ns = [n] ∧ n.Reports .unset before after i
  | .add i v => ∃ n, ns = [n] ∧ n.Names .add after i ∧ n.old = none ∧ n.new = some v
  | .edit _ =>
    (ns.map (·.position)).Pairwise (· < ·) ∧
      (∀ i, i ∈ ns.map (·.position) ↔ before.DiffersAt after i) ∧
      ∀ n ∈ ns, ∃ isSet, after.isSet n.position = .ok isSet ∧
        n.Reports (if isSet then .set else .unset) before after n.position

/-- What an act has to tell: an operation that succeeds while delivery is on tells its
changes, and nothing else is told. -/
def Act.Tells {α : Type} (o : Observed) (ns : List Notification) : Act α → Prop
  | .operate op =>
    match (op.observed.perform o).1 with
    | .ok _ =>
      if o.delivers then op.Tells o.target (op.observed.perform o).2.target ns else ns = []
    | .error _ => ns = []
  | _ => ns = []

namespace Record

variable {r s : Record} {i : Nat} {f : Feature}

/-- The notification of a change says what can be read before and after it. -/
theorem exists_changeAt (kind : ChangeKind) (htype : s.type = r.type)
    (hf : r.type.feature? i = some f) :
    ∃ n, r.changeAt kind s i = [n] ∧ n.Reports kind r s i := by
  have hs : s.type.feature? i = some f := by rw [htype, hf]
  refine ⟨_, by rw [changeAt, hs]; rfl, ⟨rfl, rfl, rfl, ?_⟩, ?_, ?_⟩
  · rw [feature_of_feature? hs]
    rfl
  · exact get_of_feature? hf
  · exact get_of_feature? hs

theorem exists_additionAt (v : Value) (hf : s.type.feature? i = some f) :
    ∃ n, s.additionAt i v = [n] ∧ n.Names .add s i ∧ n.old = none ∧ n.new = some v := by
  refine ⟨_, by rw [additionAt, hf]; rfl, ⟨rfl, rfl, rfl, ?_⟩, rfl, rfl⟩
  rw [feature_of_feature? hf]
  rfl

/-- Records of one type differ in features of that type only. -/
theorem DiffersAt.exists_feature (h : r.DiffersAt s i) (htype : s.type = r.type) :
    ∃ f, r.type.feature? i = some f := by
  cases hf : r.type.feature? i with
  | some f => exact ⟨f, rfl⟩
  | none =>
    have hs : s.type.feature? i = none := by rw [htype, hf]
    rw [DiffersAt, get_of_undeclared hf, get_of_undeclared hs, isSet_of_undeclared hf,
      isSet_of_undeclared hs, htype] at h
    simp at h

/-- A feature in which records do not agree is one that differs in what can be read. -/
theorem FitsSchema.not_agree_iff (hr : r.FitsSchema) (hs : s.FitsSchema) (htype : s.type = r.type)
    (hf : r.type.feature? i = some f) : (!s.agree r i) = true ↔ r.DiffersAt s i := by
  rw [Bool.not_eq_true', ← Bool.not_eq_true, hr.agree_iff hs htype hf, not_and_or]
  exact or_congr ne_comm ne_comm

/-- What is told of some features is told of those in which the records do not agree, in
their order. -/
theorem map_position_flatMap (is : List Nat) (h : ∀ i ∈ is, i < s.type.features.length) :
    (is.flatMap (r.differenceAt s)).map (·.position) = is.filter fun i => !s.agree r i := by
  induction is with
  | nil => rfl
  | cons i rest ih =>
    obtain ⟨hi, hrest⟩ := List.forall_mem_cons.mp h
    have hf : s.type.feature? i = some s.type.features[i] := List.getElem?_eq_getElem hi
    rw [List.flatMap_cons, List.map_append, ih hrest, differenceAt, changeAt, hf]
    by_cases hagree : s.agree r i = true
    · simp [hagree]
    · simp [hagree]

/-- What is told after an edit are the features that differ, each with what it reads as
before and after, in feature order. -/
theorem tells_differences {α : Type} (e : Edit α) (hr : r.FitsSchema) (hs : s.FitsSchema)
    (htype : s.type = r.type) : (Operation.edit e).Tells r s (r.differences s) := by
  have hpositions := map_position_flatMap (r := r) (List.range s.type.features.length)
    fun i hi => List.mem_range.mp hi
  refine ⟨?_, fun i => ?_, fun n hn => ?_⟩
  · rw [differences, hpositions]
    exact List.pairwise_lt_range.filter _
  · rw [differences, hpositions, List.mem_filter, List.mem_range]
    constructor
    · rintro ⟨hi, hagree⟩
      have hf : r.type.feature? i = some s.type.features[i] := by
        rw [← htype]
        exact List.getElem?_eq_getElem hi
      exact (hr.not_agree_iff hs htype hf).mp hagree
    · intro hdiffers
      obtain ⟨f, hf⟩ := hdiffers.exists_feature htype
      exact ⟨htype ▸ lt_of_feature? hf, (hr.not_agree_iff hs htype hf).mpr hdiffers⟩
  · obtain ⟨i, hi, hn⟩ := List.mem_flatMap.mp hn
    obtain ⟨f, hf⟩ : ∃ f, s.type.feature? i = some f :=
      ⟨_, List.getElem?_eq_getElem (List.mem_range.mp hi)⟩
    obtain ⟨n', hchange, hreports⟩ :=
      exists_changeAt (if s.holds i then .set else .unset) htype (by rw [← htype, hf])
    rw [differenceAt, hchange] at hn
    by_cases hagree : s.agree r i = true
    · simp [hagree] at hn
    · rw [if_neg hagree, List.mem_singleton] at hn
      subst hn
      rw [hreports.position_eq]
      exact ⟨s.holds i, isSet_of_feature? hf, hreports⟩

end Record

namespace Operation

open Record

variable {α : Type} {r : Record}

/-- What holds of the record that a change leads to, and of what is told of it, holds of the
record afterwards and of all that is told, if the change is made. -/
theorem told_of_made {P : Record → List Notification → Prop} {y : Editing Unit}
    (hatomic : y.IsAtomic) {told : Record → List Notification} {a : Option α}
    (hok : (y.answering.perform r).1 = .ok a) (h : ∀ s, y.after r = .ok s → P s (told s)) :
    P ((y.answering : Editing (Option α)).perform r).2
      ((y.after r).toOption.toList.flatMap told) := by
  rcases y.perform_answering_cases (α := α) hatomic r with ⟨e, -, hy⟩ | ⟨s, hs, hy⟩
  · rw [hy] at hok
    cases hok
  · rw [hy, hs]
    simpa [Except.toOption] using h s hs

theorem tells_changes (op : Operation α) (h : r.FitsSchema) {a : Option α}
    (hok : (op.plain r).1 = .ok a) : op.Tells r (op.plain r).2 (op.changes r) := by
  cases op with
  | set i v =>
    apply told_of_made (P := fun s ns => (set i v : Operation α).Tells r s ns)
      (Editing.isAtomic_set i v) hok
    intro s hset
    obtain ⟨f, xs, hf, -, rfl⟩ := set_eq_ok.mp hset
    exact exists_changeAt .set rfl hf
  | unset i =>
    apply told_of_made (P := fun s ns => (unset i : Operation α).Tells r s ns)
      (Editing.isAtomic_unset i) hok
    intro s hunset
    obtain ⟨f, hf, rfl⟩ := unset_eq_ok.mp hunset
    exact exists_changeAt .unset rfl hf
  | add i v =>
    apply told_of_made (P := fun s ns => (add i v : Operation α).Tells r s ns)
      (Editing.isAtomic_add i v) hok
    intro s hadd
    obtain ⟨f, x, hf, -, -, rfl⟩ := add_eq_ok.mp hadd
    exact exists_additionAt v hf
  | edit e => exact tells_differences e h (e.fitsSchema r h) (e.type_eq r)

end Operation

/-- The observer after it is told several changes, if somebody attends. -/
def Observer.hears (w : Observer) (ns : List Notification) : Observer :=
  if w.attended then { w with inbox := w.inbox ++ ns } else w

namespace Observer

@[simp] theorem hears_nil (w : Observer) : w.hears [] = w := by
  simp [hears]

@[simp] theorem hears_append (w : Observer) (ns ms : List Notification) :
    (w.hears ns).hears ms = w.hears (ns ++ ms) := by
  by_cases h : w.attended = true
  · simp [hears, h]
  · simp [hears, h]

end Observer

/-- Whoever observes when the target moves is told the changes, if delivery is on. -/
theorem Observed.observers_moveTo (o : Observed) (target : Record) (changes : List Notification) :
    (o.moveTo target changes).observers =
      o.observers.map (·.hears (if o.delivers then changes else [])) := by
  rw [moveTo]
  cases hdelivers : o.delivers with
  | false => simp [delivering, hdelivers]
  | true =>
    cases hnone : o.observers.isEmpty with
    | true => simp [delivering, List.isEmpty_iff.mp hnone]
    | false =>
      simp only [delivering, hdelivers, hnone, Bool.not_false, Bool.and_self, ↓reduceIte]
      exact observers_tellAll changes _

namespace Act

variable {α : Type}

/-- The act is one of whoever holds the observed record; receivers are fetched from, and
get lost, elsewhere. -/
def isOwn : Act α → Bool
  | .dropReceivers | .fetch => false
  | _ => true

/-- Each act of a run with the observed record to which it happens. -/
def stages (o : Observed) : List (Act α) → List (Observed × Act α)
  | [] => []
  | a :: rest => (o, a) :: stages (a.observed o).2 rest

/-- The observers that acts register, each with all that is told after its registration. -/
def newcomers : List (Act α) → List (List Notification) → List Observer
  | .observe viaChannel :: rest, _ :: told =>
    ⟨viaChannel, true, told.flatten⟩ :: newcomers rest told
  | _ :: rest, _ :: told => newcomers rest told
  | _, _ => []

/-- Whoever is registered by the first act hears what is told in the rest of the run. -/
theorem newcomers_cons (a : Act α) (rest : List (Act α)) (ns : List Notification)
    (told : List (List Notification)) : newcomers (a :: rest) (ns :: told) =
      (newcomers [a] [[]]).map (·.hears told.flatten) ++ newcomers rest told := by
  cases a <;> simp [newcomers, Observer.hears]

/-- One act tells what it has to tell, to all who observe then, and may register one more
observer. -/
theorem exists_told_act (a : Act α) (o : Observed) (hfits : o.target.FitsSchema)
    (hown : a.isOwn = true) : ∃ ns, a.Tells o ns ∧ (a.observed o).2.target.FitsSchema ∧
      (a.observed o).2.observers = o.observers.map (·.hears ns) ++ newcomers [a] [[]] := by
  cases a with
  | operate op =>
    have hmoved := op.perform_observed o
    have hfits' : (op.observed.perform o).2.target.FitsSchema := by
      rw [hmoved, Observed.target_moveTo]
      exact op.fitsSchema_plain hfits
    refine ⟨if o.delivers then op.changes o.target else [], ?_, hfits', ?_⟩
    · rw [Tells, hmoved]
      simp only [Observed.target_moveTo]
      cases hanswer : (op.plain o.target).1 with
      | error e => simp [(Operation.plain_of_error hanswer).2]
      | ok a =>
        by_cases hdelivers : o.delivers = true
        · simpa only [hdelivers, ↓reduceIte] using op.tells_changes hfits hanswer
        · simp only [hdelivers, Bool.false_eq_true, ↓reduceIte]
    · rw [observed, hmoved, Observed.observers_moveTo]
      simp [newcomers]
  | observe viaChannel => exact ⟨[], rfl, hfits, by simp [observed, Observed.observe, newcomers]⟩
  | deliver on => exact ⟨[], rfl, hfits, by simp [observed, Observed.setDelivers, newcomers]⟩
  | dropReceivers => cases hown
  | fetch => cases hown

/-- In every run, each observer is told, in order, of the operations made after its
registration while delivery is on, and of nothing else. -/
theorem exists_told (acts : List (Act α)) : ∀ o : Observed, o.target.FitsSchema →
    (∀ a ∈ acts, a.isOwn = true) → ∃ told : List (List Notification),
      List.Forall₂ (fun stage ns => stage.2.Tells stage.1 ns) (stages o acts) told ∧
      (runObserved o acts).2.observers =
        o.observers.map (·.hears told.flatten) ++ newcomers acts told := by
  induction acts with
  | nil => exact fun o _ _ => ⟨[], .nil, by simp [runObserved, newcomers]⟩
  | cons a rest ih =>
    intro o hfits hown
    obtain ⟨ha, hrest⟩ := List.forall_mem_cons.mp hown
    obtain ⟨ns, htells, hfits', hobservers⟩ := exists_told_act a o hfits ha
    obtain ⟨told, htold, hfinal⟩ := ih _ hfits' hrest
    refine ⟨ns :: told, .cons htells htold, ?_⟩
    calc (runObserved o (a :: rest)).2.observers
      _ = (o.observers.map (·.hears ns) ++ newcomers [a] [[]]).map (·.hears told.flatten) ++
            newcomers rest told := by rw [← hobservers, ← hfinal]; rfl
      _ = (o.observers.map (·.hears ns)).map (·.hears told.flatten) ++
            newcomers (a :: rest) (ns :: told) := by
          rw [newcomers_cons a rest ns told, List.map_append, List.append_assoc]
      _ = o.observers.map (·.hears (ns :: told).flatten) ++ newcomers (a :: rest) (ns :: told) := by
          simp only [List.map_map, Function.comp_def, Observer.hears_append, List.flatten_cons]

/-- A request that nobody observes yet. -/
def unwatched : Observed := { target := .empty .describeKey }

/-- The edit that empties a record in which a feature is set, and leaves any other one. -/
def clearing (i : Nat) : Edit Unit where
  run r := ((), if r.holds i then .empty r.type else r)
  type_eq r := by
    by_cases h : r.holds i = true
    · simp [h]
    · simp [h]
  fitsSchema r hr := by
    by_cases h : r.holds i = true
    · simpa [h] using Record.fitsSchema_empty r.type
    · simpa [h] using hr

/-- A feature is set before anybody observes, an edit is told to the first observer and an
unset to nobody; of the last two, the one that fails is not told either. -/
def latecomerActs : List (Act Unit) :=
  [.operate (.set 3 (.text "u")), .observe true, .operate (.edit (clearing 3)), .deliver false,
    .operate (.unset 3), .deliver true, .observe false, .operate (.unset 9), .operate (.unset 3)]

theorem exists_told_latecomer :
    unwatched.target.FitsSchema ∧ (∀ a ∈ latecomerActs, a.isOwn = true) ∧
      ∃ told : List (List Notification),
        List.Forall₂ (fun stage ns => stage.2.Tells stage.1 ns) (stages unwatched latecomerActs)
          told ∧
        (runObserved unwatched latecomerActs).2.observers =
          unwatched.observers.map (·.hears told.flatten) ++ newcomers latecomerActs told :=
  ⟨Record.fitsSchema_empty _, by decide,
    exists_told latecomerActs unwatched (Record.fitsSchema_empty _) (by decide)⟩

end Act

end TableJoin
