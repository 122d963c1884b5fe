import TableJoin.Proofs.Reading.Extent

/-!
The loops of a reader end by themselves: every round takes a node, so that with more
rounds than there are nodes ahead the number of rounds allowed makes no difference.
-/

namespace TableJoin.Reading

open Markup Schema Step

/-- The steps do the same where so many nodes at most are ahead. -/
def AgreeUpTo {α : Type} (n : Nat) (x y : Step ReadError α) : Prop :=
  ∀ c : Cursor, c.ahead.length ≤ n → x.run c = y.run c

section Rules

variable {α β : Type} {n : Nat} {x y : Step ReadError α} {f g : α → Step ReadError β}
  {P : α → List Node → Prop}

theorem agree_refl (x : Step ReadError α) : AgreeUpTo n x x :=
  fun _ _ => rfl

/-- What is done with one answer is done at the place behind it. -/
theorem run_bind_congr {c : Cursor} (h : ∀ a c', x.run c = (.ok a, c') →
    (f a).run c' = (g a).run c') : (x >>= f).run c = (x >>= g).run c := by
  rw [run_bind, run_bind]
  cases hrun : x.run c with
  | mk answer c' =>
    cases answer with
    | ok a => exact h a c' hrun
    | error e => rfl

/-- Steps take nodes and put none back. -/
theorem Takes.length_le (hx : Takes P x) {c c' : Cursor} {a : α} (h : x.run c = (.ok a, c')) :
    c'.ahead.length ≤ c.ahead.length := by
  obtain ⟨ns, hahead, -⟩ := hx c a c' h
  rw [hahead, List.length_append]
  exact Nat.le_add_left _ _

theorem AgreeUpTo.bind (hxy : AgreeUpTo n x y) (hx : Takes P x)
    (hfg : ∀ a, AgreeUpTo n (f a) (g a)) : AgreeUpTo n (x >>= f) (y >>= g) := by
  intro c hc
  have hsecond : (x >>= f).run c = (x >>= g).run c := by
    apply run_bind_congr
    intro a c' hrun
    exact hfg a c' (Nat.le_trans (hx.length_le hrun) hc)
  rw [hsecond, run_bind, run_bind, hxy c hc]

theorem Takes.agree (hx : Takes P x) (hfg : ∀ a, AgreeUpTo n (f a) (g a)) :
    AgreeUpTo n (x >>= f) (x >>= g) :=
  (agree_refl x).bind hx hfg

end Rules

section Records

variable {n : Nat} {children children' : StartTag → Record → Step ReadError Record}

theorem agree_readRecordWith (h : ∀ tag r, AgreeUpTo n (children tag r) (children' tag r))
    (t : RecordType) (tag : StartTag) :
    AgreeUpTo n (readRecordWith children t tag) (readRecordWith children' t tag) := by
  unfold readRecordWith
  apply (takesNothing_foldlM takesNothing_readAttribute _ _).agree
  intro r
  cases t.body? with
  | some found => exact agree_refl _
  | none => exact h tag r

theorem agree_readItemWith (h : ∀ tag r, AgreeUpTo n (children tag r) (children' tag r))
    (hc : ∀ tag r, TakesInside tag (children tag r)) (t : ItemType) (tag : StartTag) :
    AgreeUpTo n (readItemWith children t tag) (readItemWith children' t tag) := by
  cases t with
  | simple s => exact agree_refl _
  | record t =>
    apply (agree_readRecordWith h t tag).bind (takesInside_readRecordWith hc t tag)
    exact fun _ => agree_refl _

/-- With more rounds than nodes ahead, child elements are read in the same way. -/
theorem agree_readChildren (n : Nat) : ∀ {fuel fuel' : Nat}, n < fuel → n < fuel' →
    ∀ tag r, AgreeUpTo n (readChildren fuel tag r) (readChildren fuel' tag r) := by
  induction n using Nat.strongRecOn with
  | ind n ih =>
    intro fuel fuel' hfuel hfuel' tag r c hc
    obtain ⟨fuel, rfl⟩ := Nat.exists_eq_add_one_of_ne_zero (Nat.ne_zero_of_lt hfuel)
    obtain ⟨fuel', rfl⟩ := Nat.exists_eq_add_one_of_ne_zero (Nat.ne_zero_of_lt hfuel')
    unfold readChildren
    apply run_bind_congr
    intro child c' hrun
    by_cases hself : tag.selfClosing = true
    · rw [run_nextChild_of_selfClosing hself] at hrun
      cases hrun
      rfl
    · -- The round has taken a node, so that there are fewer for the next one.
      have hopen : tag.selfClosing = false := Bool.eq_false_iff.mpr hself
      obtain ⟨taken, hahead, ps, rfl⟩ := takes_nextChild hopen c child c' hrun
      have hless : c'.ahead.length < n := by
        rw [hahead] at hc
        simp only [List.length_append, List.length_singleton] at hc
        omega
      have hnext : ∀ tag r,
          AgreeUpTo c'.ahead.length (readChildren fuel tag r) (readChildren fuel' tag r) :=
        ih _ hless (by omega) (by omega)
      rcases child with _ | child | s
      · rfl
      · cases hfound : r.type.element? child.name with
        | none =>
          simp only [hfound]
          exact (takesInside_unknownElement _ child).agree (fun _ => hnext tag r) c' (Nat.le_refl _)
        | some found =>
          obtain ⟨i, s, isList⟩ := found
          simp only [hfound]
          by_cases hagain : (!isList && r.holds i) = true
          · simp only [hagain, ↓reduceIte]
            exact (takesInside_duplicateElement _ child).agree (fun _ => hnext tag r) c'
              (Nat.le_refl _)
          · simp only [hagain, Bool.false_eq_true, ↓reduceIte]
            have hitem := agree_readItemWith hnext (takesInside_readChildren fuel) s child
            apply hitem.bind
            · exact takesInside_readItemWith (takesInside_readChildren fuel) s child
            · exact fun _ => hnext tag _
            · exact Nat.le_refl _
      · have htakes : TakesNothing (unexpectedText r.type.name s) := takesNothing_lenient _ _
        exact htakes.agree (fun _ => hnext tag r) c' (Nat.le_refl _)

/-- A record is read in the same way with any number of rounds that exceeds that of the
nodes ahead. -/
theorem run_readRecordWith_of_lt {c : Cursor} {fuel : Nat} (h : c.ahead.length < fuel)
    (t : RecordType) (tag : StartTag) :
    (readRecordWith (readChildren fuel) t tag).run c = (readRecord t tag).run c := by
  unfold readRecord
  rw [run_here_bind]
  apply agree_readRecordWith _ t tag c (Nat.le_refl _)
  exact agree_readChildren _ h (Nat.lt_succ_self _)

end Records

end TableJoin.Reading
