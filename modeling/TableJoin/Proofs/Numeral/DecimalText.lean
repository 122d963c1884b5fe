import Mathlib.Algebra.Order.Ring.Rat
import TableJoin.Proofs.Numeral.DecimalForm

/-!
Printed decimals: the text of a decimal has the digits it was read from, up to zeros in front,
and every decimal is printed as a text that denotes its value, with as many digits behind the
point as its scale.
-/

namespace TableJoin.Numeral

variable {cs whole fraction : List Char}

/-- Digits without the zeros in front of them; of zeros alone one is kept. -/
def withoutLeadingZeros : List Char → List Char
  | [] => ['0']
  | c :: cs => if c = '0' then withoutLeadingZeros cs else c :: cs

theorem spelledBy_nil : spelledBy [] = 0 := rfl

/-- A digit in front counts as much as its place says. -/
theorem spelledBy_cons (c : Char) (cs : List Char) :
    spelledBy (c :: cs) = 10 ^ cs.length * (c.toNat - 48) + spelledBy cs := by
  have hcons : Nat.ofDigitChars 10 (c :: cs) 0 = Nat.ofDigitChars 10 cs (c.toNat - 48) := by
    rw [Nat.ofDigitChars_cons, Nat.mul_zero, Nat.zero_add]
    rfl
  rw [ofDigitChars_eq, ofDigitChars_eq, Nat.mul_zero, Nat.zero_add] at hcons
  exact hcons

theorem spelledBy_zero_cons (cs : List Char) : spelledBy ('0' :: cs) = spelledBy cs := by
  simp [spelledBy_cons]

theorem digits_digit {c : Char} (hc : c.isDigit = true) : digits (c.toNat - 48) = [c] := by
  obtain ⟨hlow, hhigh⟩ := Text.isDigit_iff.mp hc
  have hlt : c.toNat - 48 < 10 := by omega
  rw [digits, Nat.toDigits_of_lt_base hlt, List.singleton_inj, ← Char.toNat_inj,
    Nat.toNat_digitChar_of_lt_ten hlt]
  omega

/-- Digits behind those of a positive number are the last digits of the number they spell
together. -/
theorem digits_append (hcs : ∀ c ∈ cs, c.isDigit = true) : ∀ n, 0 < n →
    digits n ++ cs = digits (10 ^ cs.length * n + spelledBy cs) := by
  induction cs with
  | nil => simp [spelledBy_nil]
  | cons c cs ih =>
    intro n hn
    obtain ⟨hc, hcs⟩ := List.forall_mem_cons.mp hcs
    have hlt : c.toNat - 48 < 10 := by
      have := Text.isDigit_iff.mp hc
      omega
    have hnext : digits n ++ [c] = digits (10 * n + (c.toNat - 48)) := by
      rw [← digits_digit hc]
      exact Nat.toDigits_append_toDigits (by decide) hn hlt
    calc
      digits n ++ c :: cs = (digits n ++ [c]) ++ cs := by
        rw [List.append_assoc, List.singleton_append]
      _ = digits (10 ^ cs.length * (10 * n + (c.toNat - 48)) + spelledBy cs) := by
        rw [hnext, ih hcs _ (by omega)]
      _ = digits (10 ^ (c :: cs).length * n + spelledBy (c :: cs)) := by
        rw [spelledBy_cons, List.length_cons]
        congr 1
        ring

/-- Digits of which the first is not zero are those of the number they spell. -/
theorem digits_spelledBy {c : Char} (h : ∀ d ∈ c :: cs, d.isDigit = true) (hc : c ≠ '0') :
    digits (spelledBy (c :: cs)) = c :: cs := by
  obtain ⟨hdigit, hcs⟩ := List.forall_mem_cons.mp h
  have hpos : 0 < c.toNat - 48 := by
    have hrange := Text.isDigit_iff.mp hdigit
    have hne : c.toNat ≠ 48 := fun heq => hc (Char.toNat_inj.mp heq)
    omega
  rw [spelledBy_cons, ← digits_append hcs _ hpos, digits_digit hdigit, List.singleton_append]

theorem padZeros_of_le {n : Nat} (h : n ≤ cs.length) : padZeros n cs = cs := by
  rw [padZeros, Nat.sub_eq_zero_of_le h, List.replicate_zero, List.nil_append]

theorem padZeros_succ {n : Nat} (h : cs.length ≤ n) :
    padZeros (n + 1) cs = '0' :: padZeros n cs := by
  rw [padZeros, padZeros, Nat.succ_sub h, List.replicate_succ, List.cons_append]

theorem le_length_padZeros (n : Nat) (cs : List Char) : cs.length ≤ (padZeros n cs).length := by
  rw [padZeros, List.length_append]
  omega

/-- Zeros in front of a number make it as long again as the digits that spell it. -/
theorem padZeros_digits_length : ∀ {cs : List Char}, cs ≠ [] → (∀ c ∈ cs, c.isDigit = true) →
    padZeros cs.length (digits (spelledBy cs)) = cs := by
  intro cs
  induction cs with
  | nil => exact fun hne _ => absurd rfl hne
  | cons c cs ih =>
    intro _ h
    by_cases hc : c = '0'
    · subst hc
      rw [spelledBy_zero_cons]
      by_cases hcs : cs = []
      · subst hcs
        rfl
      · have hrest := ih hcs (List.forall_mem_cons.mp h).2
        have hshort : (digits (spelledBy cs)).length ≤ cs.length := by
          have hle := le_length_padZeros cs.length (digits (spelledBy cs))
          rwa [hrest] at hle
        rw [List.length_cons, padZeros_succ hshort, hrest]
    · rw [digits_spelledBy h hc, padZeros_of_le (Nat.le_refl _)]

/-- A number that digits at both sides of a point spell, with zeros in front until one digit
stands before the point, has those digits again but for the zeros in front. -/
theorem padZeros_digits_spelledBy (h : ∀ c ∈ whole ++ fraction, c.isDigit = true) :
    padZeros (fraction.length + 1) (digits (spelledBy (whole ++ fraction))) =
      withoutLeadingZeros whole ++ fraction := by
  induction whole with
  | nil =>
    have hzero : ∀ c ∈ '0' :: fraction, c.isDigit = true := List.forall_mem_cons.mpr ⟨rfl, h⟩
    have hpadded := padZeros_digits_length (List.cons_ne_nil _ _) hzero
    rwa [spelledBy_zero_cons, List.length_cons] at hpadded
  | cons c whole ih =>
    rw [List.cons_append] at h ⊢
    by_cases hc : c = '0'
    · subst hc
      rw [spelledBy_zero_cons, ih (List.forall_mem_cons.mp h).2, withoutLeadingZeros, if_pos rfl]
    · rw [digits_spelledBy h hc, withoutLeadingZeros, if_neg hc, List.cons_append]
      apply padZeros_of_le
      rw [List.length_cons, List.length_append]
      omega

end TableJoin.Numeral

namespace TableJoin.Decimal

open Numeral Schema

variable {cs whole fraction : List Char} {negative : Bool} {d : Decimal}

def value (d : Decimal) : ℚ :=
  d.mantissa.toInt * (10 : ℚ) ^ d.exponent.toInt

/-- The number that the digits of the decimal spell when it is printed, its sign and its point
aside: a positive exponent puts zeros behind the mantissa. -/
def expanded (d : Decimal) : Nat :=
  d.mantissa.toInt.natAbs * 10 ^ d.exponent.toInt.toNat

/-- The number that digits at both sides of a point denote, with the sign in front of them. -/
def denoted (negative : Bool) (whole fraction : List Char) : ℚ :=
  (if negative then -(spelledBy (whole ++ fraction) : Int)
    else spelledBy (whole ++ fraction) : Int) / 10 ^ fraction.length

theorem mantissa_lt_zero_iff : d.mantissa < 0 ↔ d.mantissa.toInt < 0 := by
  rw [Int64.lt_iff_toInt_lt, Int64.toInt_zero]

theorem mantissa_ne_zero_iff : d.mantissa ≠ 0 ↔ d.mantissa.toInt ≠ 0 := by
  rw [← Int64.toInt_zero, ne_eq, ne_eq, Int64.toInt_inj]

/-- What stands for a decimal with the number and the scale of a form is the form again, with
its minus sign unless the number is zero, and without zeros in front of the first digit. -/
theorem toChars_of_form (hdigits : ∀ c ∈ whole ++ fraction, c.isDigit = true)
    (hmantissa : d.mantissa.toInt = if negative then -(spelledBy (whole ++ fraction) : Int)
      else spelledBy (whole ++ fraction))
    (hexponent : d.exponent.toInt = -(fraction.length : Int)) :
    d.toChars = (if negative ∧ d.mantissa ≠ 0 then ['-'] else []) ++ withoutLeadingZeros whole ++
      (if fraction = [] then [] else '.' :: fraction) := by
  have hnumber : d.mantissa.toInt.natAbs = spelledBy (whole ++ fraction) := by
    cases negative <;> simp [hmantissa]
  have hsign : d.mantissa < 0 ↔ negative ∧ d.mantissa ≠ 0 := by
    rw [mantissa_lt_zero_iff, mantissa_ne_zero_iff, hmantissa]
    cases negative with
    | false => simp
    | true =>
      simp only [↓reduceIte, true_and]
      omega
  have hrun := padZeros_digits_spelledBy hdigits
  by_cases hempty : fraction = []
  · subst hempty
    have hzero : d.exponent.toInt = 0 := hexponent
    have hge : 0 ≤ d.exponent := by
      rw [Int8.le_iff_toInt_le, hzero]
      decide
    rw [List.length_nil, padZeros_of_le (List.length_pos_iff.mpr (digits_ne_nil _)),
      List.append_nil] at hrun
    simp [toChars, hge, hnumber, hzero, hrun, hsign]
  · have hpos : 0 < fraction.length := List.length_pos_iff.mpr hempty
    have hlt : ¬ 0 ≤ d.exponent := by
      rw [Int8.le_iff_toInt_le, Int8.toInt_zero, hexponent]
      omega
    have hscale : d.exponent.toInt.natAbs = fraction.length := by omega
    simp [toChars, hlt, hnumber, hscale, scaledChars, hrun, hsign, hempty]

/-- Every decimal is printed as a form: its mantissa, with the zeros that a positive exponent
puts behind it, and as many digits behind the point as a negative exponent says. -/
theorem exists_isForm_toChars (d : Decimal) : ∃ whole fraction,
    IsForm d.toChars (d.mantissa < 0) whole fraction ∧
      spelledBy (whole ++ fraction) = d.expanded ∧ fraction.length = (-d.exponent.toInt).toNat := by
  obtain ⟨whole, fraction, hdigits, hwhole, hnumber, hscale, body, hchars, hbody⟩ := exists_split d
  obtain ⟨hrun, hspelled⟩ := natOfDigits?_eq_some_iff.mp hnumber
  have hleft : IsRun whole := (isRun_append_iff.mp hrun).1.resolve_right hwhole
  have hunsigned : IsUnsigned body whole fraction := by
    rcases hbody with ⟨rfl, rfl⟩ | rfl
    · exact .whole hleft
    · rcases (isRun_append_iff.mp hrun).2.1 with hright | rfl
      · exact .parts hleft hright
      · exact .pointed hleft
  refine ⟨whole, fraction, ?_, hspelled, hscale⟩
  rw [hchars]
  by_cases hneg : d.mantissa < 0
  · rw [if_pos hneg, decide_eq_true hneg]
    exact .minus hunsigned
  · rw [if_neg hneg, decide_eq_false hneg]
    exact .unsigned hunsigned

/-- A mantissa with its zeros, moved as many places as the scale says, is the value. -/
theorem denoted_eq_value (hnumber : spelledBy (whole ++ fraction) = d.expanded)
    (hscale : fraction.length = (-d.exponent.toInt).toNat) :
    denoted (d.mantissa < 0) whole fraction = d.value := by
  have hsigned : (if decide (d.mantissa < 0) = true then -(spelledBy (whole ++ fraction) : Int)
      else spelledBy (whole ++ fraction)) = d.mantissa.toInt * 10 ^ d.exponent.toInt.toNat := by
    simp only [hnumber, expanded, decide_eq_true_eq, mantissa_lt_zero_iff]
    push_cast
    split
    · next hlt => rw [abs_of_neg hlt, neg_mul, neg_neg]
    · next hge => rw [abs_of_nonneg (not_lt.mp hge)]
  rw [denoted, hsigned, hscale, value]
  push_cast
  rcases le_total 0 d.exponent.toInt with hge | hle
  · -- an exponent that is not negative leaves no scale
    obtain ⟨n, hn⟩ := Int.eq_ofNat_of_zero_le hge
    simp [hn]
  · obtain ⟨n, hn⟩ := Int.exists_eq_neg_ofNat hle
    simp [hn, div_eq_mul_inv]

theorem toInt_of_isForm (h : ofChars? cs = some d) (hform : IsForm cs negative whole fraction) :
    d.mantissa.toInt = (if negative then -(spelledBy (whole ++ fraction) : Int)
      else spelledBy (whole ++ fraction)) ∧
    d.exponent.toInt = -(fraction.length : Int) := by
  have hspells : Spells cs negative whole fraction := by
    rw [ofChars?_of_isForm hform, Option.ite_none_right_eq_some] at h
    exact ⟨hform, h.1.1, h.1.2⟩
  obtain ⟨d', hd', hvalue⟩ := hspells.exists_ofChars?
  obtain rfl : d = d' := Option.some.inj (h.symm.trans hd')
  exact hvalue

/-- What is read from a form is the number that the form denotes. -/
theorem value_of_isForm (h : ofChars? cs = some d) (hform : IsForm cs negative whole fraction) :
    d.value = denoted negative whole fraction := by
  obtain ⟨hmantissa, hexponent⟩ := toInt_of_isForm h hform
  rw [value, denoted, hmantissa, hexponent, zpow_neg, zpow_natCast, div_eq_mul_inv]

theorem toText_of_isForm {s : String} (h : ofText? s = some d)
    (hform : IsForm (Text.trimChars s.toList) negative whole fraction) :
    d.toText.toList = (if negative ∧ d.mantissa ≠ 0 then ['-'] else []) ++
      withoutLeadingZeros whole ++ (if fraction = [] then [] else '.' :: fraction) := by
  obtain ⟨hmantissa, hexponent⟩ := toInt_of_isForm h hform
  have hdigits := (isUnsigned_iff.mp (isForm_iff.mp hform).2).2.isDigit
  rw [toText, String.toList_ofList]
  exact toChars_of_form hdigits hmantissa hexponent

theorem ofText?_toText_eq (d : Decimal) : ofText? d.toText = ofChars? d.toChars := by
  rw [ofText?, toText, String.toList_ofList, trimChars_toChars]

/-- The text of a decimal is read again if its digits spell a number of 63 bits and no more
than 127 of them stand behind the point. -/
theorem isSome_ofText?_toText (d : Decimal) : (ofText? d.toText).isSome ↔
    d.expanded ≤ 9223372036854775807 ∧ -127 ≤ d.exponent.toInt := by
  obtain ⟨whole, fraction, hform, hnumber, hscale⟩ := exists_isForm_toChars d
  have hshort : fraction.length ≤ 127 ↔ -127 ≤ d.exponent.toInt := by omega
  rw [ofText?_toText_eq, ofChars?_of_isForm hform, hnumber, ← hshort]
  split
  · next h => exact iff_of_true rfl h
  · next h => exact iff_of_false Bool.false_ne_true h

/-- The decimal that the text of a decimal is read as is the same number. -/
theorem value_of_ofText?_toText {d' : Decimal} (h : ofText? d.toText = some d') :
    d'.value = d.value := by
  obtain ⟨whole, fraction, hform, hnumber, hscale⟩ := exists_isForm_toChars d
  rw [ofText?_toText_eq] at h
  rw [value_of_isForm h hform, denoted_eq_value hnumber hscale]

/-- Printing keeps digits.  What was read from a form is printed as the form again: with its
minus sign unless the number is zero, without the zeros in front of the first digit before the
point, and with every digit behind the point; and that text is read as the same decimal.  Any
decimal at all is printed as a form that denotes its value and has as many digits behind the
point as a negative exponent says. -/
theorem toText_keeps_digits :
    (∀ s d, ofText? s = some d →
      (∃ negative whole fraction, IsForm (Text.trimChars s.toList) negative whole fraction) ∧
      (∀ negative whole fraction, IsForm (Text.trimChars s.toList) negative whole fraction →
        d.toText.toList = (if negative ∧ d.mantissa ≠ 0 then ['-'] else []) ++
          withoutLeadingZeros whole ++ (if fraction = [] then [] else '.' :: fraction)) ∧
      ofText? d.toText = some d) ∧
    (∀ d : Decimal, ∃ negative whole fraction, IsForm d.toText.toList negative whole fraction ∧
      denoted negative whole fraction = d.value ∧
      fraction.length = (-d.exponent.toInt).toNat) := by
  constructor
  · intro s d h
    exact ⟨exists_isForm h, fun _ _ _ hform => toText_of_isForm h hform,
      ofText?_toText (isReadable_of_ofChars? h)⟩
  · intro d
    obtain ⟨whole, fraction, hform, hnumber, hscale⟩ := exists_isForm_toChars d
    rw [toText, String.toList_ofList]
    exact ⟨_, whole, fraction, hform, denoted_eq_value hnumber hscale, hscale⟩

/-- The zeros in front are lost and the one behind stays. -/
theorem toText_keeps_digits_padded :
    IsForm (Text.trimChars " -007.50 ".toList) true "007".toList "50".toList ∧
    ofText? " -007.50 " = some ⟨-750, -2⟩ ∧
    (⟨-750, -2⟩ : Decimal).toText.toList = "-7.50".toList := by
  have hwhole : IsRun "007".toList := by decide
  have hfraction : IsRun "50".toList := by decide
  have hform : IsForm (Text.trimChars " -007.50 ".toList) true "007".toList "50".toList :=
    .minus (.parts hwhole hfraction)
  have hread : ofText? " -007.50 " = some ⟨-750, -2⟩ := by decide
  exact ⟨hform, hread, (toText_keeps_digits.1 _ _ hread).2.1 _ _ _ hform⟩

/-- A zero that is read with a sign is printed without one. -/
example : (ofText? "-.00").map toText = some "0.00" := by decide

end TableJoin.Decimal
