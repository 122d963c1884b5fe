import Mathlib.Tactic.ByContra
import TableJoin.Proofs.Record.Reads
import TableJoin.Proofs.Schema.Table
import TableJoin.Record.Construction

/-!
Telling records apart: two records of one type are equal exactly if all their features read
alike and are set alike, and two records that are not equal are told apart by reading, perhaps
through records that they contain.
-/

namespace TableJoin

open Schema

/-- Reading shows a difference.  Scalars are compared; of records, what their features are
read as and whether they are set; of lists, the lengths and the items. -/
inductive Value.ToldApart : Value → Value → Prop
  | kind {v w : Value} (h : v.kind ≠ w.kind) : ToldApart v w
  | scalar {a b : Datum} (h : a ≠ b) : ToldApart (.scalar a) (.scalar b)
  | length {vs ws : List Value} (h : vs.length ≠ ws.length) : ToldApart (.list vs) (.list ws)
  | item {vs ws : List Value} {k : Nat} {v w : Value} (hv : vs[k]? = some v)
    (hw : ws[k]? = some w) (h : ToldApart v w) : ToldApart (.list vs) (.list ws)
  | isSet {r s : Record} {i : Nat} (h : r.isSet i ≠ s.isSet i) : ToldApart (.record r) (.record s)
  | get {r s : Record} {i : Nat} {v w : Value} (hv : r.get i = .ok (some v))
    (hw : s.get i = .ok (some w)) (h : ToldApart v w) : ToldApart (.record r) (.record s)

/-- Reading the feature shows a difference of two records. -/
def Record.ToldApartAt (r s : Record) (i : Nat) : Prop :=
  r.isSet i ≠ s.isSet i ∨
    ∃ v w, r.get i = .ok (some v) ∧ s.get i = .ok (some w) ∧ v.ToldApart w

theorem Value.ToldApart.ne {v w : Value} (h : v.ToldApart w) : v ≠ w := by
  induction h with
  | kind h => exact fun heq => h (congrArg Value.kind heq)
  | scalar h => exact fun heq => h (Value.scalar.inj heq)
  | length h => exact fun heq => h (congrArg List.length (Value.list.inj heq))
  | item hv hw _ ih =>
    intro heq
    cases heq
    exact ih (Option.some.inj (hv.symm.trans hw))
  | isSet h =>
    intro heq
    cases heq
    exact h rfl
  | get hv hw _ ih =>
    intro heq
    cases heq
    exact ih (Option.some.inj (Except.ok.inj (hv.symm.trans hw)))

theorem Value.toldApart_ofItem {x y : Item} (hne : x ≠ y)
    (hrecords : ∀ c c', x = .record c → y = .record c' → c ≠ c' →
      (Value.record c).ToldApart (.record c')) : (Value.ofItem x).ToldApart (.ofItem y) := by
  match x, y with
  | .scalar a, .scalar b =>
    exact .scalar fun heq => hne (congrArg Item.scalar (Scalar.datum_inj.mp heq))
  | .record c, .record c' =>
    exact hrecords c c' rfl rfl fun heq => hne (congrArg Item.record heq)
  | .scalar a, .record c => exact .kind fun heq => by cases a <;> cases heq
  | .record c, .scalar a => exact .kind fun heq => by cases a <;> cases heq

theorem Value.getElem?_ofItems {xs : List Item} {k : Nat} (h : k < xs.length) :
    (xs.map Value.ofItem)[k]? = some (.ofItem xs[k]) := by
  rw [List.getElem?_map, List.getElem?_eq_getElem h]
  rfl

/-- Different lists of items are told apart, if the records among the items are. -/
theorem Value.toldApart_ofItems {xs ys : List Item} (hne : xs ≠ ys)
    (hrecords : ∀ c c', Item.record c ∈ xs → Item.record c' ∈ ys → c ≠ c' →
      (Value.record c).ToldApart (.record c')) : (Value.ofItems xs).ToldApart (.ofItems ys) := by
  by_cases hlength : xs.length = ys.length
  · -- lists of one length differ at some place
    obtain ⟨k, hx, hy, hk⟩ : ∃ k, ∃ hx : k < xs.length, ∃ hy : k < ys.length, xs[k] ≠ ys[k] := by
      by_contra! hsame
      exact hne (List.ext_getElem hlength fun k hx hy => hsame k hx hy)
    apply ToldApart.item (getElem?_ofItems hx) (getElem?_ofItems hy)
    apply toldApart_ofItem hk
    intro c c' hc hc'
    exact hrecords c c' (hc ▸ List.getElem_mem hx) (hc' ▸ List.getElem_mem hy)
  · exact .length (by simpa using hlength)

/-- Different items of a feature are set differently, or read differently. -/
theorem Schema.Feature.Admits.toldApart {f : Feature} {xs ys : List Item} (hx : f.Admits xs)
    (hy : f.Admits ys) (hne : xs ≠ ys)
    (hrecords : ∀ c c', Item.record c ∈ xs → Item.record c' ∈ ys → c ≠ c' →
      (Value.record c).ToldApart (.record c')) :
    xs.isEmpty ≠ ys.isEmpty ∨
      ∃ v w, f.read xs = some v ∧ f.read ys = some w ∧ v.ToldApart w := by
  cases hlist : f.isList with
  | true =>
    exact .inr ⟨_, _, read_of_isList hlist xs, read_of_isList hlist ys,
      Value.toldApart_ofItems hne hrecords⟩
  | false =>
    rcases hx.eq_nil_or_singleton hlist with rfl | ⟨x, rfl⟩
    · rcases hy.eq_nil_or_singleton hlist with rfl | ⟨y, rfl⟩
      · exact absurd rfl hne
      · exact .inl nofun
    · rcases hy.eq_nil_or_singleton hlist with rfl | ⟨y, rfl⟩
      · exact .inl nofun
      · refine .inr ⟨_, _, read_singleton hlist x, read_singleton hlist y, ?_⟩
        apply Value.toldApart_ofItem fun heq => hne (congrArg (fun z => [z]) heq)
        rintro c c' rfl rfl
        exact hrecords c c' (List.mem_singleton_self _) (List.mem_singleton_self _)

namespace Record

variable {r s : Record} {i : Nat} {f : Feature}

theorem ToldApartAt.toldApart (h : r.ToldApartAt s i) : (Value.record r).ToldApart (.record s) := by
  rcases h with h | ⟨v, w, hv, hw, h⟩
  · exact .isSet h
  · exact .get hv hw h

/-- What reading shows to be different does not read alike. -/
theorem ToldApartAt.not_alike (h : r.ToldApartAt s i) :
    ¬(r.isSet i = s.isSet i ∧ r.get i = s.get i) := by
  rintro ⟨hset, hget⟩
  rcases h with h | ⟨v, w, hv, hw, h⟩
  · exact h hset
  · exact h.ne (Option.some.inj (Except.ok.inj (hv.symm.trans (hget.trans hw))))

/-- Where two records of one type hold different items, reading shows a difference. -/
theorem FitsSchema.toldApartAt (hr : r.FitsSchema) (hs : s.FitsSchema) (htype : s.type = r.type)
    (hf : r.type.feature? i = some f) (hne : r.items i ≠ s.items i)
    (hrecords : ∀ c c', Item.record c ∈ r.items i → Item.record c' ∈ s.items i → c ≠ c' →
      (Value.record c).ToldApart (.record c')) : r.ToldApartAt s i := by
  have hsf : s.type.feature? i = some f := by rw [htype, hf]
  rcases (hr.admits_items hf).toldApart (hs.admits_items hsf) hne hrecords with
    hempty | ⟨v, w, hv, hw, h⟩
  · left
    rw [isSet_of_feature? hf, isSet_of_feature? hsf, holds, holds]
    simpa using hempty
  · right
    exact ⟨v, w, by rw [get_of_feature? hf, hv], by rw [get_of_feature? hsf, hw], h⟩

theorem toldApart_of_ne (r : Record) : r.Everywhere FitsSchema → ∀ s : Record,
    s.Everywhere FitsSchema → r ≠ s → (Value.record r).ToldApart (.record s) := by
  induction r using Record.induction with
  | step r ih =>
    intro hr s hs hne
    by_cases htype : s.type = r.type
    · obtain ⟨i, f, hf, hitems⟩ : ∃ i f, r.type.feature? i = some f ∧ r.items i ≠ s.items i := by
        by_contra! hsame
        exact hne (ext_items htype.symm hr.self.complete hs.self.complete hsame)
      have hsf : s.type.feature? i = some f := by rw [htype, hf]
      have hrslot := hr.self.complete.items_mem_slots hf
      have hsslot := hs.self.complete.items_mem_slots hsf
      apply (hr.self.toldApartAt hs.self htype hf hitems ?_).toldApart
      intro c c' hc hc' hcc'
      exact ih _ hrslot c hc (hr.of_mem hrslot hc) c' (hs.of_mem hsslot hc') hcc'
    · apply Value.ToldApart.kind
      simpa only [Value.kind, ne_eq, Kind.object.injEq, RecordType.name_inj, eq_comm] using htype

/-- Reading shows a difference exactly where the records hold different items. -/
theorem Everywhere.toldApartAt_iff (hr : r.Everywhere FitsSchema) (hs : s.Everywhere FitsSchema)
    (htype : s.type = r.type) (hf : r.type.feature? i = some f) :
    r.ToldApartAt s i ↔ r.items i ≠ s.items i := by
  have hsf : s.type.feature? i = some f := by rw [htype, hf]
  constructor
  · intro h hitems
    obtain ⟨hget, hset⟩ := get_congr htype hitems.symm
    exact h.not_alike ⟨hset.symm, hget.symm⟩
  · intro hne
    apply hr.self.toldApartAt hs.self htype hf hne
    intro c c' hc hc' hcc'
    exact toldApart_of_ne c (hr.of_mem (hr.self.complete.items_mem_slots hf) hc) c'
      (hs.of_mem (hs.self.complete.items_mem_slots hsf) hc') hcc'

/-- Two records of one type are equal exactly if all their features read alike and are set
alike, and a feature compares as equal exactly if it does.  Records of different types agree
in no feature.  Records differ exactly if reading tells them apart, maybe only in what is set
in records that they contain. -/
theorem Everywhere.determined_by_reads (hr : r.Everywhere FitsSchema)
    (hs : s.Everywhere FitsSchema) :
    (r.type = s.type →
      (r = s ↔ ∀ i < r.type.features.length, r.isSet i = s.isSet i ∧ r.get i = s.get i) ∧
      ∀ i < r.type.features.length,
        (r.agree s i = true ↔ r.isSet i = s.isSet i ∧ r.get i = s.get i) ∧
        (r.agree s i = false ↔ r.ToldApartAt s i)) ∧
    (r.type ≠ s.type → ∀ i, r.agree s i = false) ∧
    (r ≠ s ↔ (Value.record r).ToldApart (.record s)) := by
  refine ⟨fun htype => ⟨⟨?_, fun hreads => ?_⟩, fun i hi => ?_⟩, fun htype i => ?_, ?_⟩
  · rintro rfl i -
    exact ⟨rfl, rfl⟩
  · apply ext_items htype hr.self.complete hs.self.complete
    intro i f hf
    obtain ⟨hset, hget⟩ := hreads i (lt_of_feature? hf)
    exact hs.self.items_eq_of_get_eq hr.self htype (htype ▸ hf) hget hset
  · obtain ⟨f, hf⟩ : ∃ f, r.type.feature? i = some f := ⟨_, List.getElem?_eq_getElem hi⟩
    have hsf : s.type.feature? i = some f := by rw [← htype, hf]
    constructor
    · rw [and_comm]
      exact hs.self.agree_iff hr.self htype hsf
    · rw [hr.toldApartAt_iff hs htype.symm hf, ne_eq, ← agree_eq_true htype hsf, Bool.not_eq_true]
  · simp [agree, htype]
  · exact ⟨toldApart_of_ne r hr s hs, fun h heq => h.ne (congrArg Value.record heq)⟩

def rowOf (cell : Record) : Record :=
  (empty .dataRow).having "v" (Construction.record cell)

/-- A cell that is explicitly marked not null, as the default says. -/
def markedCell : Record :=
  (Construction.cell "a").having "null" (Construction.truth false)

/-- Rows that differ only in whether the mark of their cell is set are not equal. -/
theorem determined_by_reads_rowOf :
    (rowOf (Construction.cell "a")).Everywhere FitsSchema ∧
    (rowOf markedCell).Everywhere FitsSchema ∧
    (Construction.cell "a").get 1 = markedCell.get 1 ∧
    rowOf (Construction.cell "a") ≠ rowOf markedCell := by
  have hrow : (rowOf (Construction.cell "a")).Everywhere FitsSchema := by decide +kernel
  have hmarked : (rowOf markedCell).Everywhere FitsSchema := by decide +kernel
  have hcells : (Value.record (Construction.cell "a")).ToldApart (.record markedCell) :=
    .isSet (i := 1) nofun
  refine ⟨hrow, hmarked, rfl, (hrow.determined_by_reads hmarked).2.2.mpr ?_⟩
  exact .get (i := 1) rfl rfl (.item (k := 0) rfl rfl hcells)

end Record

end TableJoin
