import Mathlib.Data.Nat.Digits.Defs
import Mathlib.Tactic.Ring
import TableJoin.Proofs.Numeral.MachineSteps
import TableJoin.Schema.Simple

/-!
The forms of decimals: which texts are read as one, which number and scale each of them has,
and that every other text is refused as it stands.
-/

namespace TableJoin.Numeral

def IsRun (cs : List Char) : Prop :=
  cs ≠ [] ∧ ∀ c ∈ cs, '0' ≤ c ∧ c ≤ '9'

theorem isRun_iff {cs : List Char} : (cs.all Char.isDigit && !cs.isEmpty) = true ↔ IsRun cs := by
  rw [Bool.and_eq_true, List.all_eq_true, Bool.not_eq_true', List.isEmpty_eq_false_iff, and_comm]
  exact and_congr_right fun _ => forall₂_congr fun _ _ => Text.isDigit_iff

instance (cs : List Char) : Decidable (IsRun cs) :=
  decidable_of_iff _ isRun_iff

/-- The number that digits spell: the last one counts once, and each of the others ten times
as much as the one behind it. -/
def spelledBy (cs : List Char) : Nat :=
  Nat.ofDigits 10 (cs.reverse.map fun c => c.toNat - '0'.toNat)

theorem IsRun.isDigit {cs : List Char} (h : IsRun cs) : ∀ c ∈ cs, c.isDigit = true :=
  fun c hc => Text.isDigit_iff.mpr (h.2 c hc)

theorem isRun_append_iff {cs ds : List Char} :
    IsRun (cs ++ ds) ↔ (IsRun cs ∨ cs = []) ∧ (IsRun ds ∨ ds = []) ∧ (cs ≠ [] ∨ ds ≠ []) := by
  simp only [IsRun, List.forall_mem_append]
  by_cases hcs : cs = []
  · by_cases hds : ds = [] <;> simp [hcs, hds]
  · by_cases hds : ds = [] <;> simp [hcs, hds]

/-- More digits behind a number move it up and fill the places below. -/
theorem ofDigitChars_eq (cs : List Char) : ∀ n,
    Nat.ofDigitChars 10 cs n = 10 ^ cs.length * n + spelledBy cs := by
  induction cs with
  | nil =>
    intro n
    simp [spelledBy]
  | cons c cs ih =>
    intro n
    rw [Nat.ofDigitChars_cons, ih, spelledBy, spelledBy, List.reverse_cons, List.map_append,
      Nat.ofDigits_append, List.length_map, List.length_reverse, List.length_cons]
    simp only [List.map_cons, List.map_nil, Nat.ofDigits_singleton]
    ring

/-- A run of digits is read as the number that it spells, and nothing else is read. -/
theorem natOfDigits?_eq_some_iff {cs : List Char} {n : Nat} :
    natOfDigits? cs = some n ↔ IsRun cs ∧ spelledBy cs = n := by
  rw [natOfDigits?, Option.ite_none_right_eq_some, isRun_iff, Option.some.injEq, ofDigitChars_eq,
    Nat.mul_zero, Nat.zero_add]

end TableJoin.Numeral

namespace TableJoin.Decimal

open Numeral Schema

/-- A number without a sign: digits, with a point among them, in front of them or behind
them, or without one. -/
inductive IsUnsigned : List Char → List Char → List Char → Prop
  | whole {whole : List Char} (h : IsRun whole) : IsUnsigned whole whole []
  | pointed {whole : List Char} (h : IsRun whole) : IsUnsigned (whole ++ ['.']) whole []
  | fraction {fraction : List Char} (h : IsRun fraction) :
    IsUnsigned ('.' :: fraction) [] fraction
  | parts {whole fraction : List Char} (h : IsRun whole) (h' : IsRun fraction) :
    IsUnsigned (whole ++ '.' :: fraction) whole fraction

/-- A number with at most one sign in front of it: whether it is negative, and its digits
before the point and behind it. -/
inductive IsForm : List Char → Bool → List Char → List Char → Prop
  | unsigned {body whole fraction : List Char} (h : IsUnsigned body whole fraction) :
    IsForm body false whole fraction
  | plus {body whole fraction : List Char} (h : IsUnsigned body whole fraction) :
    IsForm ('+' :: body) false whole fraction
  | minus {body whole fraction : List Char} (h : IsUnsigned body whole fraction) :
    IsForm ('-' :: body) true whole fraction

/-- A form whose number and scale a decimal can hold. -/
structure Spells (cs : List Char) (negative : Bool) (whole fraction : List Char) : Prop where
  isForm : IsForm cs negative whole fraction
  number_le : spelledBy (whole ++ fraction) ≤ 9223372036854775807
  scale_le : fraction.length ≤ 127

variable {cs body whole fraction : List Char} {negative : Bool} {d : Decimal}

/-- A number without a sign is cut at its point, and all the rest of it is digits. -/
theorem isUnsigned_iff : IsUnsigned body whole fraction ↔
    splitPoint body = (whole, fraction) ∧ IsRun (whole ++ fraction) := by
  constructor
  · intro h
    cases h with
    | whole h => exact ⟨splitPoint_of_isDigit h.isDigit, by rwa [List.append_nil]⟩
    | pointed h => exact ⟨splitPoint_append h.isDigit [], by rwa [List.append_nil]⟩
    | fraction h => exact ⟨splitPoint_append (List.forall_mem_nil _) _, h⟩
    | parts h h' =>
      exact ⟨splitPoint_append h.isDigit _, isRun_append_iff.mpr ⟨.inl h, .inl h', .inl h.1⟩⟩
  · rintro ⟨hsplit, hrun⟩
    obtain ⟨hwhole, hfraction⟩ := Prod.mk.inj hsplit
    have hbody : body = whole ++ body.dropWhile (· != '.') := by
      rw [← hwhole, List.takeWhile_append_dropWhile]
    cases hrest : body.dropWhile (· != '.') with
    | nil =>
      rw [hrest, List.append_nil] at hbody
      obtain rfl : fraction = [] := by rw [← hfraction, hrest]; rfl
      rw [List.append_nil] at hrun
      rw [hbody]
      exact .whole hrun
    | cons c rest =>
      have hc : c = '.' := by
        have hhead := List.head?_dropWhile_not (· != '.') body
        rw [hrest] at hhead
        simpa using hhead
      obtain rfl : fraction = rest := by rw [← hfraction, hrest]; rfl
      rw [hrest, hc] at hbody
      obtain ⟨hleft, hright, hsome⟩ := isRun_append_iff.mp hrun
      subst hbody
      rcases hleft with hleft | rfl
      · rcases hright with hright | rfl
        · exact .parts hleft hright
        · exact .pointed hleft
      · exact .fraction (hright.resolve_right (hsome.resolve_left (· rfl)))

theorem IsUnsigned.mem (h : IsUnsigned body whole fraction) :
    ∀ c ∈ body, ('0' ≤ c ∧ c ≤ '9') ∨ c = '.' := by
  intro c hc
  cases h with
  | whole h => exact .inl (h.2 c hc)
  | pointed h => exact (List.mem_append.mp hc).imp (h.2 c) List.mem_singleton.mp
  | fraction h => exact (List.mem_cons.mp hc).symm.imp_left (h.2 c)
  | parts h h' =>
    rcases List.mem_append.mp hc with hc | hc
    · exact .inl (h.2 c hc)
    · exact (List.mem_cons.mp hc).symm.imp_left (h'.2 c)

/-- A sign is cut off, and what is left is a number without one. -/
theorem isForm_iff : IsForm cs negative whole fraction ↔
    (splitSign cs).1 = negative ∧ IsUnsigned (splitSign cs).2 whole fraction := by
  constructor
  · intro h
    cases h with
    | unsigned h =>
      have hsplit : splitSign cs = (false, cs) := by
        apply splitSign_of_ne
        intro c hc
        have hmem := h.mem c (List.mem_of_head? hc)
        constructor <;> rintro rfl <;> revert hmem <;> decide
      rw [hsplit]
      exact ⟨rfl, h⟩
    | plus h => exact ⟨rfl, h⟩
    | minus h => exact ⟨rfl, h⟩
  · rintro ⟨rfl, h⟩
    unfold splitSign at h ⊢
    split at h
    · exact .minus h
    · exact .plus h
    · exact .unsigned h

/-- Of a form, the decimal is read that has its number and its scale, if one can hold them. -/
theorem ofChars?_of_isForm (h : IsForm cs negative whole fraction) : ofChars? cs =
    if spelledBy (whole ++ fraction) ≤ 9223372036854775807 ∧ fraction.length ≤ 127 then
      some ⟨if negative then Int64.ofInt (-spelledBy (whole ++ fraction))
        else Int64.ofInt (spelledBy (whole ++ fraction)), Int8.ofInt (-fraction.length)⟩
    else none := by
  obtain ⟨hsign, hbody⟩ := isForm_iff.mp h
  obtain ⟨hpoint, hrun⟩ := isUnsigned_iff.mp hbody
  have hnumber := natOfDigits?_eq_some_iff.mpr ⟨hrun, rfl⟩
  simp only [ofChars?, hsign, hpoint, hnumber, toNatClampNeg_maxValue]

theorem exists_isForm (h : ofChars? cs = some d) :
    ∃ negative whole fraction, IsForm cs negative whole fraction := by
  unfold ofChars? at h
  simp only at h
  split at h
  · cases h
  · next n hn =>
    exact ⟨_, _, _, isForm_iff.mpr
      ⟨rfl, isUnsigned_iff.mpr ⟨rfl, (natOfDigits?_eq_some_iff.mp hn).1⟩⟩⟩

theorem exists_spells (h : ofChars? cs = some d) :
    ∃ negative whole fraction, Spells cs negative whole fraction := by
  obtain ⟨negative, whole, fraction, hform⟩ := exists_isForm h
  rw [ofChars?_of_isForm hform, Option.ite_none_right_eq_some] at h
  exact ⟨negative, whole, fraction, hform, h.1.1, h.1.2⟩

/-- What a form spells is read, with its number as mantissa and its scale as exponent. -/
theorem Spells.exists_ofChars? (h : Spells cs negative whole fraction) :
    ∃ d, ofChars? cs = some d ∧
      d.mantissa.toInt = (if negative then -(spelledBy (whole ++ fraction) : Int)
        else spelledBy (whole ++ fraction)) ∧
      d.exponent.toInt = -(fraction.length : Int) := by
  refine ⟨_, (ofChars?_of_isForm h.isForm).trans (if_pos ⟨h.number_le, h.scale_le⟩), ?_,
    toInt_ofInt_exponent h.scale_le⟩
  have hbound := h.number_le
  rw [← toNatClampNeg_maxValue] at hbound
  cases negative with
  | false => exact toInt_ofInt_mantissa (by omega)
  | true => exact toInt_ofInt_mantissa (by omega)

/-- A text is read as a decimal exactly if it spells one, blanks at its ends aside: digits with
at most one sign before them and at most one point among them, whose number fits into 63 bits,
no more than 127 of them behind the point.  The mantissa is that number with the sign, the
exponent counts the digits behind the point down from zero, and any other text is refused as
it stands.  Read byte by byte, with machine numbers, no text leads to an offset outside it or
inside a character, nor to a number that is out of range. -/
theorem read_iff_spells (s : String) :
    ((∃ v, SimpleType.decimal.read s = .ok v) ↔
      ∃ negative whole fraction, Spells (Text.trimChars s.toList) negative whole fraction) ∧
    (∀ v negative whole fraction, SimpleType.decimal.read s = .ok v →
      Spells (Text.trimChars s.toList) negative whole fraction → ∃ d, v = .decimal d ∧
        d.mantissa.toInt = (if negative then -(spelledBy (whole ++ fraction) : Int)
          else spelledBy (whole ++ fraction)) ∧
        d.exponent.toInt = -(fraction.length : Int)) ∧
    (∀ e, SimpleType.decimal.read s = .error e → e = .decimal s) ∧
    readSteps (Text.trimChars s.toList) = .ok (ofText? s) := by
  have hread : SimpleType.decimal.read s =
      (ofText? s).elim (.error (.decimal s)) fun d => .ok (.decimal d) := by
    rw [SimpleType.read]
    cases ofText? s <;> rfl
  rw [hread]
  refine ⟨⟨?_, ?_⟩, ?_, ?_, readSteps_eq _⟩
  · rintro ⟨v, hv⟩
    cases hd : ofText? s with
    | none => simp [hd] at hv
    | some d => exact exists_spells hd
  · rintro ⟨negative, whole, fraction, h⟩
    obtain ⟨d, hd, -⟩ := h.exists_ofChars?
    exact ⟨.decimal d, by rw [ofText?, hd]; rfl⟩
  · intro v negative whole fraction hv h
    obtain ⟨d, hd, hvalue⟩ := h.exists_ofChars?
    rw [ofText?, hd] at hv
    cases hv
    exact ⟨d, rfl, hvalue⟩
  · intro e he
    cases hd : ofText? s with
    | none => simpa [hd, eq_comm] using he
    | some d => simp [hd] at he

/-- Blanks around a number with a sign, zeros in front of it and behind the point. -/
theorem read_iff_spells_padded :
    Spells (Text.trimChars " -007.50 ".toList) true "007".toList "50".toList ∧
    ∃ d, SimpleType.decimal.read " -007.50 " = .ok (.decimal d) ∧ d.mantissa.toInt = -750 ∧
      d.exponent.toInt = -2 := by
  have hwhole : IsRun "007".toList := by decide
  have hfraction : IsRun "50".toList := by decide
  have hspells : Spells (Text.trimChars " -007.50 ".toList) true "007".toList "50".toList :=
    ⟨.minus (.parts hwhole hfraction), by decide, by decide⟩
  obtain ⟨hread, hvalue, -⟩ := read_iff_spells " -007.50 "
  obtain ⟨v, hv⟩ := hread.mpr ⟨_, _, _, hspells⟩
  obtain ⟨d, rfl, hmantissa, hexponent⟩ := hvalue v _ _ _ hv hspells
  exact ⟨hspells, d, hv, hmantissa, hexponent⟩

end TableJoin.Decimal
