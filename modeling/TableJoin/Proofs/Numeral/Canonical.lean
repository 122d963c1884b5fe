import Mathlib.Algebra.Group.Nat.Defs
import TableJoin.Numeral.Decimal
import TableJoin.Numeral.Unsigned

/-!
Canonical forms of numbers are read back: of all 64-bit integers, and of exactly
those decimals that reading can give.
-/

namespace TableJoin.Text

/-- Characters among which no blank stands are trimmed already. -/
theorem trimChars_of_forall {cs : List Char} (h : ∀ c ∈ cs, isBlank c = false) :
    trimChars cs = cs := by
  have hdrop : ∀ ds : List Char, (∀ c ∈ ds, isBlank c = false) → ds.dropWhile isBlank = ds := by
    intro ds hds
    cases ds with
    | nil => rfl
    | cons c ds => rw [List.dropWhile_cons_of_neg (by simp [hds c List.mem_cons_self])]
  have hreverse : ∀ c ∈ cs.reverse, isBlank c = false := fun c hc =>
    h c (List.mem_reverse.mp hc)
  rw [trimChars, hdrop cs h, hdrop cs.reverse hreverse, List.reverse_reverse]

theorem isBlank_of_isDigit {c : Char} (h : c.isDigit = true) : isBlank c = false := by
  simp only [Char.isDigit, Bool.and_eq_true, decide_eq_true_eq] at h
  have hlow : 48 ≤ c.toNat := h.1
  have hhigh : c.toNat ≤ 57 := h.2
  simp only [isBlank, blankRanges, List.any_cons, List.any_nil, Bool.or_false,
    Bool.or_eq_false_iff, Bool.and_eq_false_iff, decide_eq_false_iff_not]
  omega

end TableJoin.Text

namespace TableJoin.Numeral

theorem isDigit_of_mem_digits {n : Nat} {c : Char} (hc : c ∈ digits n) : c.isDigit = true :=
  Nat.isDigit_of_mem_toDigits (by decide) (by decide) hc

theorem isDigit_of_mem_padZeros {width n : Nat} {c : Char} (hc : c ∈ padZeros width (digits n)) :
    c.isDigit = true := by
  rcases List.mem_append.mp hc with hzero | hdigit
  · rw [List.eq_of_mem_replicate hzero]
    rfl
  · exact isDigit_of_mem_digits hdigit

theorem digits_ne_nil (n : Nat) : digits n ≠ [] := Nat.toDigits_ne_nil

theorem natOfDigits?_padZeros (width n : Nat) :
    natOfDigits? (padZeros width (digits n)) = some n := by
  have hall : (padZeros width (digits n)).all Char.isDigit = true :=
    List.all_eq_true.mpr fun c hc => isDigit_of_mem_padZeros hc
  have hne : (padZeros width (digits n)).isEmpty = false := by
    simp [padZeros, digits_ne_nil]
  have hvalue : Nat.ofDigitChars 10 (padZeros width (digits n)) 0 = n := by
    simp [padZeros, digits, Nat.ofDigitChars_append]
  simp only [natOfDigits?, hall, hne, Bool.not_false, Bool.and_self, ↓reduceIte, hvalue]

theorem natOfDigits?_digits (n : Nat) : natOfDigits? (digits n) = some n := by
  have h := natOfDigits?_padZeros 0 n
  rwa [padZeros, Nat.zero_sub] at h

theorem isDigit_of_mem_digits_append_zeros {n k : Nat} {c : Char}
    (hc : c ∈ digits n ++ List.replicate k '0') : c.isDigit = true := by
  rcases List.mem_append.mp hc with hdigit | hzero
  · exact isDigit_of_mem_digits hdigit
  · rw [List.eq_of_mem_replicate hzero]
    rfl

/-- Each zero behind a number makes it ten times as great. -/
theorem natOfDigits?_digits_append_zeros (n k : Nat) :
    natOfDigits? (digits n ++ List.replicate k '0') = some (n * 10 ^ k) := by
  have hall : (digits n ++ List.replicate k '0').all Char.isDigit = true :=
    List.all_eq_true.mpr fun c hc => isDigit_of_mem_digits_append_zeros hc
  have hne : (digits n ++ List.replicate k '0').isEmpty = false := by
    simp [digits_ne_nil]
  have hvalue : Nat.ofDigitChars 10 (digits n ++ List.replicate k '0') 0 = n * 10 ^ k := by
    simp [digits, Nat.ofDigitChars_append, Nat.ofDigitChars_replicate_zero, Nat.mul_comm]
  simp only [natOfDigits?, hall, hne, Bool.not_false, Bool.and_self, ↓reduceIte, hvalue]

theorem dropPlus_of_isDigit {cs : List Char} (h : ∀ c ∈ cs, c.isDigit = true) :
    dropPlus cs = cs := by
  unfold dropPlus
  split
  · next cs =>
    have hplus := h '+' List.mem_cons_self
    cases hplus
  · rfl

theorem unsigned?_unsignedText (n : UInt64) : unsigned? (unsignedText n) = some n := by
  have hdigits : ∀ c ∈ digits n.toNat, c.isDigit = true := fun c hc => isDigit_of_mem_digits hc
  have htrim : Text.trimChars (digits n.toNat) = digits n.toNat :=
    Text.trimChars_of_forall fun c hc => Text.isBlank_of_isDigit (hdigits c hc)
  have hlt : n.toNat < UInt64.size := n.toNat_lt_size
  simp only [unsigned?, unsignedText, String.toList_ofList, htrim, dropPlus_of_isDigit hdigits,
    natOfDigits?_digits, hlt, ↓reduceIte, UInt64.ofNat_toNat]

end TableJoin.Numeral

namespace TableJoin.Decimal

open Numeral

/-- The decimals that reading gives: their exponent is one of 0 to -127, and their
mantissa is not the least one. -/
structure IsReadable (d : Decimal) : Prop where
  exponent_ge : -127 ≤ d.exponent.toInt
  exponent_le : d.exponent.toInt ≤ 0
  mantissa_ne : d.mantissa ≠ Int64.minValue

instance (d : Decimal) : Decidable d.IsReadable :=
  decidable_of_iff
    (-127 ≤ d.exponent.toInt ∧ d.exponent.toInt ≤ 0 ∧ d.mantissa ≠ Int64.minValue)
    ⟨fun ⟨h, h', h''⟩ => ⟨h, h', h''⟩, fun ⟨h, h', h''⟩ => ⟨h, h', h''⟩⟩

theorem toInt_ofInt_exponent {n : Nat} (h : n ≤ 127) :
    (Int8.ofInt (-(n : Int))).toInt = -(n : Int) := by
  apply Int8.toInt_ofInt_of_le <;> simp <;> omega

theorem toNatClampNeg_maxValue : Int64.maxValue.toNatClampNeg = 9223372036854775807 := by
  decide

theorem toInt_ofInt_mantissa {n : Int} (h : n.natAbs ≤ Int64.maxValue.toNatClampNeg) :
    (Int64.ofInt n).toInt = n := by
  rw [toNatClampNeg_maxValue] at h
  apply Int64.toInt_ofInt_of_le <;> simp <;> omega

theorem ofInt_ne_minValue {n : Int} (h : n.natAbs ≤ Int64.maxValue.toNatClampNeg) :
    Int64.ofInt n ≠ Int64.minValue := by
  intro heq
  have hvalue := toInt_ofInt_mantissa h
  rw [heq] at hvalue
  have hmin : Int64.minValue.toInt = -9223372036854775808 := by decide
  rw [toNatClampNeg_maxValue] at h
  omega

theorem isReadable_of_ofChars? {cs : List Char} {d : Decimal} (h : ofChars? cs = some d) :
    d.IsReadable := by
  unfold ofChars? at h
  simp only at h
  split at h
  · cases h
  · next n _ =>
    split at h
    · next hbounds =>
      obtain ⟨hn, hlength⟩ := hbounds
      simp only [Option.some.injEq] at h
      subst h
      have hexponent := toInt_ofInt_exponent hlength
      refine ⟨?_, ?_, ?_⟩
      · rw [hexponent]
        omega
      · rw [hexponent]
        omega
      · simp only
        split
        · exact ofInt_ne_minValue (by omega)
        · exact ofInt_ne_minValue (by omega)
    · cases h

/-- The sign in front of the digits is cut off. -/
theorem splitSign_append {cs : List Char} (h : ∃ c rest, cs = c :: rest ∧ c.isDigit = true)
    (negative : Bool) : splitSign ((if negative then ['-'] else []) ++ cs) = (negative, cs) := by
  cases negative with
  | true => rfl
  | false =>
    obtain ⟨c, rest, rfl, hc⟩ := h
    simp only [Bool.false_eq_true, ↓reduceIte, List.nil_append]
    unfold splitSign
    split
    · next heq =>
      cases heq
      cases hc
    · next heq =>
      cases heq
      cases hc
    · rfl

theorem ne_point_of_isDigit {cs : List Char} (h : ∀ c ∈ cs, c.isDigit = true) :
    ∀ c ∈ cs, (c != '.') = true := by
  intro c hc
  have hdigit := h c hc
  rw [bne_iff_ne]
  rintro rfl
  cases hdigit

theorem splitPoint_of_isDigit {cs : List Char} (h : ∀ c ∈ cs, c.isDigit = true) :
    splitPoint cs = (cs, []) := by
  have htake : (cs ++ []).takeWhile (· != '.') = cs ++ [] :=
    List.takeWhile_append_of_pos (ne_point_of_isDigit h)
  have hdrop : (cs ++ []).dropWhile (· != '.') = [] :=
    List.dropWhile_append_of_pos (ne_point_of_isDigit h)
  rw [List.append_nil] at htake hdrop
  simp only [splitPoint, htake, hdrop, List.drop_nil]

theorem splitPoint_append {whole : List Char} (h : ∀ c ∈ whole, c.isDigit = true)
    (fraction : List Char) : splitPoint (whole ++ '.' :: fraction) = (whole, fraction) := by
  have htake : (whole ++ '.' :: fraction).takeWhile (· != '.') = whole ++ [] :=
    List.takeWhile_append_of_pos (ne_point_of_isDigit h)
  have hdrop : (whole ++ '.' :: fraction).dropWhile (· != '.') = '.' :: fraction :=
    List.dropWhile_append_of_pos (ne_point_of_isDigit h)
  rw [List.append_nil] at htake
  simp only [splitPoint, htake, hdrop, List.drop_succ_cons, List.drop_zero]

/-- The digits of a decimal in its canonical form, those before the point and those behind it:
together they spell the mantissa with the zeros that a positive exponent puts behind it, and
there is no point where the exponent is not negative. -/
theorem exists_split (d : Decimal) :
    ∃ whole fraction : List Char, (∀ c ∈ whole ++ fraction, c.isDigit = true) ∧ whole ≠ [] ∧
      natOfDigits? (whole ++ fraction) =
        some (d.mantissa.toInt.natAbs * 10 ^ d.exponent.toInt.toNat) ∧
      fraction.length = (-d.exponent.toInt).toNat ∧
      ∃ body, d.toChars = (if d.mantissa < 0 then ['-'] else []) ++ body ∧
        (body = whole ∧ fraction = [] ∨ body = whole ++ '.' :: fraction) := by
  by_cases hexponent : 0 ≤ d.exponent
  · have hge : 0 ≤ d.exponent.toInt := by
      have hle := Int8.le_iff_toInt_le.mp hexponent
      rwa [Int8.toInt_zero] at hle
    refine ⟨digits d.mantissa.toInt.natAbs ++ List.replicate d.exponent.toInt.toNat '0', [], ?_, ?_,
      ?_, ?_, _, ?_, .inl ⟨rfl, rfl⟩⟩
    · rw [List.append_nil]
      exact fun c hc => isDigit_of_mem_digits_append_zeros hc
    · exact List.append_ne_nil_of_left_ne_nil (digits_ne_nil _) _
    · rw [List.append_nil]
      exact natOfDigits?_digits_append_zeros _ _
    · rw [List.length_nil]
      omega
    · rw [toChars, if_pos hexponent, List.append_assoc]
  · have hlt : d.exponent.toInt < 0 := by
      have hnot := mt Int8.le_iff_toInt_le.mpr hexponent
      rw [Int8.toInt_zero] at hnot
      omega
    have hlength : d.exponent.toInt.natAbs + 1 ≤
        (padZeros (d.exponent.toInt.natAbs + 1) (digits d.mantissa.toInt.natAbs)).length := by
      simp only [padZeros, List.length_append, List.length_replicate]
      omega
    generalize hrun : padZeros (d.exponent.toInt.natAbs + 1) (digits d.mantissa.toInt.natAbs) =
      run at hlength
    refine ⟨run.take (run.length - d.exponent.toInt.natAbs),
      run.drop (run.length - d.exponent.toInt.natAbs), ?_, ?_, ?_, ?_, _, ?_, .inr rfl⟩
    · rw [List.take_append_drop, ← hrun]
      exact fun c hc => isDigit_of_mem_padZeros hc
    · intro hnil
      have hzero := congrArg List.length hnil
      rw [List.length_take, List.length_nil] at hzero
      omega
    · have hpower : d.exponent.toInt.toNat = 0 := by omega
      rw [List.take_append_drop, ← hrun, hpower, Nat.pow_zero, Nat.mul_one]
      exact natOfDigits?_padZeros _ _
    · rw [List.length_drop]
      omega
    · simp [toChars, hexponent, scaledChars, hrun]

theorem trimChars_toChars (d : Decimal) : Text.trimChars d.toChars = d.toChars := by
  obtain ⟨whole, fraction, hdigits, -, -, -, body, hchars, hbody⟩ := exists_split d
  obtain ⟨hwhole, hfraction⟩ := List.forall_mem_append.mp hdigits
  apply Text.trimChars_of_forall
  intro c hc
  rw [hchars, List.mem_append] at hc
  rcases hc with hsign | hc
  · split at hsign
    · rw [List.mem_singleton.mp hsign]
      decide
    · cases hsign
  · rcases hbody with ⟨rfl, -⟩ | rfl
    · exact Text.isBlank_of_isDigit (hwhole c hc)
    · rw [List.mem_append, List.mem_cons] at hc
      rcases hc with hc | rfl | hc
      · exact Text.isBlank_of_isDigit (hwhole c hc)
      · decide
      · exact Text.isBlank_of_isDigit (hfraction c hc)

/-- Only the least mantissa has an absolute value that is too large to be read. -/
theorem natAbs_mantissa_le {d : Decimal} (h : d.IsReadable) :
    d.mantissa.toInt.natAbs ≤ Int64.maxValue.toNatClampNeg := by
  have hge := d.mantissa.le_toInt
  have hlt := d.mantissa.toInt_lt
  have hne : d.mantissa.toInt ≠ -9223372036854775808 := by
    intro heq
    apply h.mantissa_ne
    rw [← Int64.toInt_inj, heq]
    decide
  rw [toNatClampNeg_maxValue]
  omega

/-- The canonical form of a readable decimal is read back, scale and all. -/
theorem ofChars?_toChars {d : Decimal} (h : d.IsReadable) : ofChars? d.toChars = some d := by
  obtain ⟨whole, fraction, hdigits, hwhole, hnumber, hlength, body, hchars, hbody⟩ := exists_split d
  have hge := h.exponent_ge
  have hle := h.exponent_le
  have hscale : (fraction.length : Int) = -d.exponent.toInt := by omega
  have hvalue : natOfDigits? (whole ++ fraction) = some d.mantissa.toInt.natAbs := by
    have hpower : d.exponent.toInt.toNat = 0 := by omega
    rw [hnumber, hpower, Nat.pow_zero, Nat.mul_one]
  have hbegins : ∃ c rest, body = c :: rest ∧ c.isDigit = true := by
    obtain ⟨c, rest, rfl⟩ := List.exists_cons_of_ne_nil hwhole
    have hc := hdigits c List.mem_cons_self
    rcases hbody with ⟨rfl, -⟩ | rfl
    · exact ⟨c, rest, rfl, hc⟩
    · exact ⟨c, rest ++ '.' :: fraction, rfl, hc⟩
  have hpoint : splitPoint body = (whole, fraction) := by
    have hleft : ∀ c ∈ whole, c.isDigit = true := fun c hc =>
      hdigits c (List.mem_append_left _ hc)
    rcases hbody with ⟨rfl, rfl⟩ | rfl
    · exact splitPoint_of_isDigit hleft
    · exact splitPoint_append hleft fraction
  have hsign := splitSign_append hbegins (decide (d.mantissa < 0))
  simp only [decide_eq_true_eq] at hsign
  have hshort : fraction.length ≤ 127 := by omega
  have hmantissa := natAbs_mantissa_le h
  have hvalue' : (if decide (d.mantissa < 0) = true then Int64.ofInt (-d.mantissa.toInt.natAbs)
      else Int64.ofInt d.mantissa.toInt.natAbs) = d.mantissa := by
    have hneg := Int64.lt_iff_toInt_lt (x := d.mantissa) (y := 0)
    rw [Int64.toInt_zero] at hneg
    by_cases hlt : d.mantissa < 0
    · have habs : -(d.mantissa.toInt.natAbs : Int) = d.mantissa.toInt := by
        have := hneg.mp hlt
        omega
      simp only [hlt, decide_true, ↓reduceIte, habs, Int64.ofInt_toInt]
    · have habs : (d.mantissa.toInt.natAbs : Int) = d.mantissa.toInt := by
        have := mt hneg.mpr hlt
        omega
      simp only [hlt, decide_false, Bool.false_eq_true, ↓reduceIte, habs, Int64.ofInt_toInt]
  simp only [ofChars?, hchars, hsign, hpoint, hvalue, hmantissa, hshort, and_self, ↓reduceIte,
    hscale, Int.neg_neg, Int8.ofInt_toInt, hvalue']

/-- The canonical text of a readable decimal is read back. -/
theorem ofText?_toText {d : Decimal} (h : d.IsReadable) : ofText? d.toText = some d := by
  rw [ofText?, toText, String.toList_ofList, trimChars_toChars]
  exact ofChars?_toChars h

end TableJoin.Decimal
