import TableJoin.Proofs.Numeral.DecimalForm

/-!
The forms of non-negative integers: which texts are read as one, as which number, and that the
canonical form of every number is among them.  Up to two plus signs may stand in front of the
digits, one more than a number has.
-/

namespace TableJoin.Numeral

open Schema

variable {cs run : List Char} {limit : Nat} {s : String}

/-- A run of digits behind so many plus signs at most. -/
def IsPlused (limit : Nat) (cs run : List Char) : Prop :=
  IsRun run ∧ ∃ signs ≤ limit, cs = List.replicate signs '+' ++ run

theorem isPlused_zero_iff : IsPlused 0 cs run ↔ IsRun cs ∧ cs = run := by
  constructor
  · rintro ⟨hrun, signs, hsigns, rfl⟩
    obtain rfl := Nat.le_zero.mp hsigns
    exact ⟨hrun, rfl⟩
  · rintro ⟨hrun, rfl⟩
    exact ⟨hrun, 0, Nat.le_refl _, rfl⟩

/-- A sign may be cut off, and then one fewer may stand in front of what is left. -/
theorem isPlused_dropPlus_iff : IsPlused limit (dropPlus cs) run ↔ IsPlused (limit + 1) cs run := by
  constructor
  · rintro ⟨hrun, signs, hsigns, hcs⟩
    refine ⟨hrun, ?_⟩
    unfold dropPlus at hcs
    split at hcs
    · next rest =>
      subst hcs
      exact ⟨signs + 1, Nat.succ_le_succ hsigns, rfl⟩
    · exact ⟨signs, Nat.le_succ_of_le hsigns, hcs⟩
  · rintro ⟨hrun, signs, hsigns, rfl⟩
    refine ⟨hrun, ?_⟩
    cases signs with
    | zero => exact ⟨0, Nat.zero_le _, dropPlus_of_isDigit hrun.isDigit⟩
    | succ signs => exact ⟨signs, Nat.le_of_succ_le_succ hsigns, rfl⟩

/-- What is read as a number: digits that spell it, behind up to two plus signs. -/
theorem unsigned?_eq_some_iff {n : UInt64} : unsigned? s = some n ↔
    ∃ run, IsPlused 2 (Text.trimChars s.toList) run ∧ spelledBy run = n.toNat := by
  have hplused : ∀ run, IsPlused 2 (Text.trimChars s.toList) run ↔
      IsRun (dropPlus (dropPlus (Text.trimChars s.toList))) ∧
        dropPlus (dropPlus (Text.trimChars s.toList)) = run := by
    intro run
    rw [← isPlused_dropPlus_iff, ← isPlused_dropPlus_iff, isPlused_zero_iff]
  simp only [hplused]
  rw [unsigned?]
  constructor
  · intro h
    split at h
    · next k hk =>
      obtain ⟨hrun, rfl⟩ := natOfDigits?_eq_some_iff.mp hk
      obtain ⟨hlt, hn⟩ := Option.ite_none_right_eq_some.mp h
      refine ⟨_, ⟨hrun, rfl⟩, ?_⟩
      rw [← Option.some.inj hn, UInt64.toNat_ofNat_of_lt' hlt]
    · cases h
  · rintro ⟨run, ⟨hrun, rfl⟩, hvalue⟩
    simp only [natOfDigits?_eq_some_iff.mpr ⟨hrun, hvalue⟩, n.toNat_lt_size, ↓reduceIte,
      UInt64.ofNat_toNat]

theorem read_integer_eq_ok_iff {v : Scalar} :
    SimpleType.integer.read s = .ok v ↔ ∃ n, unsigned? s = some n ∧ .integer n = v := by
  rw [SimpleType.read]
  cases unsigned? s with
  | none => simp
  | some n => simp

theorem exists_read_iff : (∃ v, SimpleType.integer.read s = .ok v) ↔
    ∃ run, IsPlused 2 (Text.trimChars s.toList) run ∧ spelledBy run < 18446744073709551616 := by
  constructor
  · rintro ⟨v, hv⟩
    obtain ⟨n, hn, -⟩ := read_integer_eq_ok_iff.mp hv
    obtain ⟨run, hrun, hvalue⟩ := unsigned?_eq_some_iff.mp hn
    exact ⟨run, hrun, hvalue ▸ n.toNat_lt_size⟩
  · rintro ⟨run, hrun, hlt⟩
    have hn : unsigned? s = some (UInt64.ofNat (spelledBy run)) :=
      unsigned?_eq_some_iff.mpr ⟨run, hrun, (UInt64.toNat_ofNat_of_lt' hlt).symm⟩
    exact ⟨_, read_integer_eq_ok_iff.mpr ⟨_, hn, rfl⟩⟩

theorem isPlused_two_iff : IsPlused 2 cs run ↔
    IsPlused 1 cs run ∨ IsRun run ∧ cs = '+' :: '+' :: run := by
  constructor
  · rintro ⟨hrun, signs, hsigns, hcs⟩
    rcases Nat.lt_or_eq_of_le hsigns with hlt | rfl
    · exact .inl ⟨hrun, signs, Nat.le_of_lt_succ hlt, hcs⟩
    · exact .inr ⟨hrun, hcs⟩
  · rintro (⟨hrun, signs, hsigns, hcs⟩ | ⟨hrun, hcs⟩)
    · exact ⟨hrun, signs, Nat.le_succ_of_le hsigns, hcs⟩
    · exact ⟨hrun, 2, Nat.le_refl 2, hcs⟩

/-- What stands behind two plus signs does not stand behind one at most. -/
theorem not_isPlused_one {run' : List Char} : ¬ IsPlused 1 ('+' :: '+' :: run) run' := by
  rintro ⟨hrun', signs, hsigns, hcs⟩
  have hplus : '+' ∈ run' := by
    match signs, hsigns with
    | 0, _ =>
      rw [List.replicate_zero, List.nil_append] at hcs
      exact hcs ▸ List.mem_cons_self
    | 1, _ =>
      rw [List.replicate_one, List.singleton_append] at hcs
      exact (List.cons.inj hcs).2 ▸ List.mem_cons_self
  exact absurd (hrun'.isDigit _ hplus) (by decide)

/-- A text is read as a non-negative integer exactly if, blanks at its ends aside, it is digits
behind up to two plus signs that spell a number of 64 bits.  It is read as that number, and any
other text is refused without the blanks at its ends.  So the texts that are read are those with
at most one plus sign, unless there are two in front of such digits.  The canonical form of
every number is read as that number. -/
theorem read_iff_plused (s : String) (n : UInt64) :
    ((∃ v, SimpleType.integer.read s = .ok v) ↔
      ∃ run, IsPlused 2 (Text.trimChars s.toList) run ∧ spelledBy run < 18446744073709551616) ∧
    (SimpleType.integer.read s = .ok (.integer n) ↔
      ∃ run, IsPlused 2 (Text.trimChars s.toList) run ∧ spelledBy run = n.toNat) ∧
    (∀ e, SimpleType.integer.read s = .error e → e = .integer (Text.trim s)) ∧
    (((∃ v, SimpleType.integer.read s = .ok v) ↔
        ∃ run, IsPlused 1 (Text.trimChars s.toList) run ∧ spelledBy run < 18446744073709551616) ↔
      ¬ ∃ run, Text.trimChars s.toList = '+' :: '+' :: run ∧ IsRun run ∧
        spelledBy run < 18446744073709551616) ∧
    SimpleType.integer.read (Scalar.integer n).toText = .ok (.integer n) := by
  refine ⟨exists_read_iff, ?_, fun e he => ?_, ?_, ?_⟩
  · rw [read_integer_eq_ok_iff, ← unsigned?_eq_some_iff]
    simp
  · cases hs : unsigned? s with
    | none => simpa [SimpleType.read, hs, eq_comm] using he
    | some n => simp [SimpleType.read, hs] at he
  · rw [exists_read_iff]
    constructor
    · rintro hsame ⟨run, htrim, hrun, hlt⟩
      obtain ⟨run', hone, -⟩ := hsame.mp ⟨run, isPlused_two_iff.mpr (.inr ⟨hrun, htrim⟩), hlt⟩
      exact not_isPlused_one (htrim ▸ hone)
    · intro hnone
      refine exists_congr fun run => and_congr_left fun hlt => ?_
      rw [isPlused_two_iff, or_iff_left]
      rintro ⟨hrun, htrim⟩
      exact hnone ⟨run, htrim, hrun, hlt⟩
  · exact read_integer_eq_ok_iff.mpr ⟨n, unsigned?_unsignedText n, rfl⟩

/-- A text with blanks, a sign and zeros, and one with a sign that no such number has. -/
theorem read_iff_plused_padded :
    IsPlused 2 (Text.trimChars "\t+007 ".toList) "007".toList ∧
    SimpleType.integer.read "\t+007 " = .ok (.integer 7) ∧
    SimpleType.integer.read " -1 " = .error (.integer "-1") ∧
    LexicalError.integer "-1" = .integer (Text.trim " -1 ") := by
  have hform : IsPlused 2 (Text.trimChars "\t+007 ".toList) "007".toList :=
    ⟨by decide, 1, by decide, by decide⟩
  have hrefused : SimpleType.integer.read " -1 " = .error (.integer "-1") := by decide
  exact ⟨hform, (read_iff_plused _ 7).2.1.mpr ⟨_, hform, by decide⟩, hrefused,
    (read_iff_plused _ 0).2.2.1 _ hrefused⟩

/-- Two plus signs are read, though a number has one at most. -/
theorem read_twicePlused :
    SimpleType.integer.read "++5" = .ok (.integer 5) ∧
    ∀ run, ¬ IsPlused 1 (Text.trimChars "++5".toList) run := by
  have htrim : Text.trimChars "++5".toList = '+' :: '+' :: "5".toList := by decide
  exact ⟨by decide, fun run => htrim ▸ not_isPlused_one⟩

end TableJoin.Numeral
