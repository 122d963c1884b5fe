import TableJoin.Proofs.Observation.Delivery
import TableJoin.Proofs.Record.Typed

/-!
What is told of an addition: the value as it was passed in, beside the item that the list ends
with afterwards.  They are the same unless the value is the text of a literal.
-/

namespace TableJoin

open Schema

def Schema.ItemType.isEnumeration : ItemType → Bool
  | .simple (.enumeration _) => true
  | _ => false

/-- No list is one of decimals, and only the versions that a client accepts are a list of
literals. -/
theorem Schema.RecordType.itemType_of_isList (t : RecordType) : ∀ f ∈ t.features,
    f.isList = true → f.itemType ≠ .simple .decimal ∧
      (f.itemType.isEnumeration = true → t = .acceptVersions) := by
  cases t <;> decide +kernel

/-- What is taken by the items of a list reads as itself, or is the text of a version that a
client accepts. -/
theorem Schema.Feature.eq_or_spelled_of_takes {t : RecordType} {i : Nat} {f : Feature}
    {v w : Value} (hf : t.feature? i = some f) (hlist : f.isList = true)
    (h : f.itemType.Takes v w) :
    w = v ∨ t = .acceptVersions ∧ ∃ l : Literal, v = .text l.text ∧ w = .literal l := by
  obtain ⟨hdecimal, honly⟩ := t.itemType_of_isList f (List.mem_of_getElem? hf) hlist
  generalize f.itemType = u at h hdecimal honly
  cases h with
  | own hkind => exact .inl rfl
  | spelled l => exact .inr ⟨honly rfl, l, rfl, rfl⟩
  | whole hle hmantissa hexponent => exact absurd rfl hdecimal

theorem Observed.observers_moveTo_singleton {o : Observed} (hdelivering : o.delivering = true)
    (target : Record) (n : Notification) :
    (o.moveTo target [n]).observers = o.observers.map (·.receive n) := by
  have hdelivers : o.delivers = true := (Bool.and_eq_true_iff.mp hdelivering).1
  rw [observers_moveTo, hdelivers, if_pos rfl]
  rfl

namespace Observing

variable {o o' : Observed} {i : Nat} {v : Value}

/-- A value that is added is told as it was passed in, and the list reads as before with one more
value at its end, as which the list's items take what was passed in. -/
theorem told_of_add (h : o.target.IsComplete) (hdelivering : o.delivering = true)
    (hadd : (add i v).perform o = (.ok (), o')) :
    ∃ f vs w, o.target.type.feature? i = some f ∧ f.isList = true ∧ f.itemType.Takes v w ∧
      o.target.get i = .ok (some (.list vs)) ∧
      o'.target.get i = .ok (some (.list (vs ++ [w]))) ∧
      o'.observers =
        o.observers.map (·.receive ⟨o.target.type, i, f.name, .add, none, some v⟩) := by
  cases hs : o.target.add i v with
  | error e =>
    rw [perform_add_of_error hs] at hadd
    cases hadd
  | ok s =>
    rw [perform_add_of_ok hs] at hadd
    obtain rfl : o.moveTo s (s.additionAt i v) = o' := congrArg Prod.snd hadd
    obtain ⟨f, x, hf, hlist, hx, rfl⟩ := Record.add_eq_ok.mp hs
    have hput : (o.target.put i (o.target.items i ++ [x])).type.feature? i = some f := hf
    refine ⟨f, (o.target.items i).map .ofItem, .ofItem x, hf, hlist,
      ItemType.takes_ofItem_iff.mpr hx, ?_, ?_, ?_⟩
    · rw [Record.get_of_feature? hf, Feature.read_of_isList hlist]
      rfl
    · rw [Observed.target_moveTo, (h.get_put hf _).1, Feature.read_of_isList hlist, Value.ofItems,
        List.map_append]
      rfl
    · rw [Record.additionAt, hput]
      exact Observed.observers_moveTo_singleton hdelivering _ _

/-- A value that is set is told as what the feature reads as afterwards. -/
theorem told_of_set (hdelivering : o.delivering = true)
    (hset : (Observing.set i v).perform o = (.ok (), o')) :
    ∃ f old new, o.target.type.feature? i = some f ∧ o.target.get i = .ok old ∧
      o'.target.get i = .ok new ∧
      o'.observers = o.observers.map (·.receive ⟨o.target.type, i, f.name, .set, old, new⟩) := by
  cases hs : o.target.set i v with
  | error e =>
    rw [Observing.set, perform_changeFeature_of_error (actsAt_set i v) .set hs] at hset
    cases hset
  | ok s =>
    rw [Observing.set, perform_changeFeature_of_ok (actsAt_set i v) .set hs] at hset
    obtain rfl := congrArg Prod.snd hset
    obtain ⟨f, xs, hf, -, rfl⟩ := Record.set_eq_ok.mp hs
    have hput : (o.target.put i xs).type.feature? i = some f := hf
    refine ⟨f, f.read (o.target.items i), f.read ((o.target.put i xs).items i), hf,
      Record.get_of_feature? hf, ?_, ?_⟩
    · rw [Observed.target_moveTo, Record.get_of_feature? hput]
    · rw [Record.changeAt, hput]
      exact Observed.observers_moveTo_singleton hdelivering _ _

/-- What is told of additions.  A value that is added to a list is told as it was passed in,
while the list ends with what its items take that as.  That is the same value in every list of
every type, but for one: a version that a client accepts is told as a text if it is passed in as
a text, and the list ends with the literal.  A value that is set is told as what the feature
reads as afterwards. -/
theorem told_of_add_or_set (h : o.target.FitsSchema) (hdelivering : o.delivering = true) :
    (∀ i v o', (add i v).perform o = (.ok (), o') → ∃ f vs w,
      o.target.type.feature? i = some f ∧ f.isList = true ∧
      o.target.get i = .ok (some (.list vs)) ∧ o'.target.get i = .ok (some (.list (vs ++ [w]))) ∧
      o'.observers =
        o.observers.map (·.receive ⟨o.target.type, i, f.name, .add, none, some v⟩) ∧
      (w = v ∨
        o.target.type = .acceptVersions ∧ ∃ l : Literal, v = .text l.text ∧ w = .literal l)) ∧
    (∀ i v o', (Observing.set i v).perform o = (.ok (), o') → ∃ f old new,
      o.target.type.feature? i = some f ∧ o.target.get i = .ok old ∧
      o'.target.get i = .ok new ∧
      o'.observers =
        o.observers.map (·.receive ⟨o.target.type, i, f.name, .set, old, new⟩)) := by
  refine ⟨fun i v o' hadd => ?_, fun i v o' hset => told_of_set hdelivering hset⟩
  obtain ⟨f, vs, w, hf, hlist, htakes, hbefore, hafter, htold⟩ :=
    told_of_add h.complete hdelivering hadd
  exact ⟨f, vs, w, hf, hlist, hbefore, hafter, htold,
    Feature.eq_or_spelled_of_takes hf hlist htakes⟩

/-- An observer of an empty list of versions. -/
def watchedVersions : Observed :=
  { target := .empty .acceptVersions, observers := [⟨false, true, []⟩] }

/-- A version that is added as a literal is told as the literal that the list ends with. -/
theorem told_of_add_literal : watchedVersions.target.FitsSchema ∧
    watchedVersions.delivering = true ∧
    ∃ o' vs, (add 0 (.literal Record.onlyVersion)).perform watchedVersions = (.ok (), o') ∧
      o'.target.get 0 = .ok (some (.list (vs ++ [.literal Record.onlyVersion]))) ∧
      o'.observers = watchedVersions.observers.map (·.receive
        ⟨.acceptVersions, 0, "version", .add, none, some (.literal Record.onlyVersion)⟩) := by
  have hfits : watchedVersions.target.FitsSchema := by decide +kernel
  have hadd : (add 0 (.literal Record.onlyVersion)).perform watchedVersions = (.ok (), _) := rfl
  obtain ⟨f, vs, w, hf, -, -, hafter, htold, hsame⟩ := (told_of_add_or_set hfits rfl).1 _ _ _ hadd
  cases hf
  rcases hsame with rfl | ⟨-, l, hl, -⟩
  · exact ⟨hfits, rfl, _, vs, hadd, hafter, htold⟩
  · cases hl

/-- A version that is added as a text is told as the text, which is not what the list ends
with. -/
theorem told_of_add_unconverted : watchedVersions.target.FitsSchema ∧
    watchedVersions.delivering = true ∧
    ∃ o' n w, (add 0 (.text "1.0")).perform watchedVersions = (.ok (), o') ∧
      o'.observers.map (·.inbox) = [[n]] ∧ n.kind = .add ∧
      o'.target.get 0 = .ok (some (.list [w])) ∧ n.new ≠ some w :=
  ⟨by decide +kernel, rfl, _, _, .literal Record.onlyVersion, rfl, rfl, rfl, rfl, by decide⟩

end Observing

end TableJoin
