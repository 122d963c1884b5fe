import TableJoin.Proofs.Numeral.Canonical

/-!
Reading decimals with the means of a machine: offsets in bytes, the bytes of characters, and
numbers of 64 and of 8 bits.  No step comes to an offset or a number that it cannot have, and
the steps together give what reading characters gives.
-/

namespace TableJoin.Numeral

/-- What a step on a machine must not come to. -/
inductive Fault where
  /-- An offset outside a text or inside a character. -/
  | badOffset
  /-- A number that its type does not hold. -/
  | overflow
deriving DecidableEq, Repr

def subtractByte (a b : UInt8) : Except Fault UInt8 :=
  if b ≤ a then .ok (a - b) else .error .overflow

/-- The negative of a number of eight bits. -/
def negateByte (n : Int8) : Except Fault Int8 :=
  if n = Int8.minValue then .error .overflow else .ok (-n)

/-- The negative of a number of 64 bits. -/
def negateWord (n : Int64) : Except Fault Int64 :=
  if n = Int64.minValue then .error .overflow else .ok (-n)

/-- The number as one of 64 bits, if it is in their range. -/
def word? (n : Int) : Option Int64 :=
  if Int64.minValue.toInt ≤ n ∧ n ≤ Int64.maxValue.toInt then some (Int64.ofInt n) else none

/-- A number with one more digit; none if the product or the sum is out of range. -/
def appendDigit? (m : Int64) (digit : UInt8) : Option Int64 :=
  (word? (m.toInt * 10)).bind fun n => word? (n.toInt + digit.toNat)

/-- A number with more digits, each of them one byte; none if a byte is no digit, or if the
number comes out of range. -/
def appendDigits (m : Int64) : List UInt8 → Except Fault (Option Int64)
  | [] => .ok (some m)
  | b :: rest =>
    if 48 ≤ b ∧ b ≤ 57 then do
      match appendDigit? m (← subtractByte b 48) with
      | none => return none
      | some n => appendDigits n rest
    else .ok none

theorem toInt_word? {n : Int} {m : Int64} (h : word? n = some m) : m.toInt = n := by
  rw [word?, Int64.toInt_minValue, Int64.toInt_maxValue, Option.ite_none_right_eq_some] at h
  obtain ⟨hrange, hm⟩ := h
  cases hm
  apply Int64.toInt_ofInt_of_le <;> omega

theorem word?_toInt (m : Int64) : word? m.toInt = some m := by
  have hge := m.le_toInt
  have hlt := m.toInt_lt
  rw [word?, Int64.toInt_minValue, Int64.toInt_maxValue, if_pos (by omega), Int64.ofInt_toInt]

/-- A natural number is in range exactly up to the greatest number of 64 bits. -/
theorem word?_natCast (n : Nat) :
    word? n = if n ≤ Int64.maxValue.toNatClampNeg then some (Int64.ofInt n) else none := by
  rw [word?, Decimal.toNatClampNeg_maxValue, Int64.toInt_minValue, Int64.toInt_maxValue]
  by_cases hn : n ≤ 9223372036854775807
  · rw [if_pos hn, if_pos (by omega)]
  · rw [if_neg hn, if_neg (by omega)]

theorem le_ofDigitChars (cs : List Char) : ∀ n, n ≤ Nat.ofDigitChars 10 cs n := by
  induction cs with
  | nil => exact fun n => Nat.le_refl n
  | cons c cs ih =>
    intro n
    rw [Nat.ofDigitChars_cons]
    exact Nat.le_trans (by omega) (ih _)

end TableJoin.Numeral

namespace TableJoin.Text

def bytes (cs : List Char) : List UInt8 :=
  cs.flatMap String.utf8EncodeChar

/-- The characters behind an offset in bytes. -/
def dropBytes : Nat → List Char → Except Numeral.Fault (List Char)
  | 0, cs => .ok cs
  | _ + 1, [] => .error .badOffset
  | n + 1, c :: cs =>
    if c.utf8Size ≤ n + 1 then dropBytes (n + 1 - c.utf8Size) cs else .error .badOffset

theorem dropBytes_utf8Size (c : Char) (cs : List Char) :
    dropBytes c.utf8Size (c :: cs) = .ok cs := by
  obtain ⟨n, hn⟩ := Nat.exists_eq_succ_of_ne_zero (Nat.ne_of_gt c.utf8Size_pos)
  rw [hn, dropBytes, hn, if_pos (Nat.le_refl _), Nat.sub_self, dropBytes]

theorem bytes_cons (c : Char) (cs : List Char) :
    bytes (c :: cs) = String.utf8EncodeChar c ++ bytes cs := rfl

theorem bytes_append (cs ds : List Char) : bytes (cs ++ ds) = bytes cs ++ bytes ds :=
  List.flatMap_append

/-- A character is the byte of its number alone, or begins with a byte that no character is
alone. -/
theorem exists_byte (c : Char) : ∃ b rest, String.utf8EncodeChar c = b :: rest ∧
    (b.toNat = c.toNat ∧ rest = [] ∨ 128 ≤ b.toNat ∧ 128 ≤ c.toNat) := by
  have hnat : c.val.toNat = c.toNat := rfl
  simp only [String.utf8EncodeChar, hnat]
  split
  · exact ⟨_, _, rfl, .inl ⟨by rw [UInt8.toNat_ofNat']; omega, rfl⟩⟩
  · split
    · exact ⟨_, _, rfl, .inr ⟨by rw [UInt8.toNat_ofNat']; omega, by omega⟩⟩
    · split
      · exact ⟨_, _, rfl, .inr ⟨by rw [UInt8.toNat_ofNat']; omega, by omega⟩⟩
      · exact ⟨_, _, rfl, .inr ⟨by rw [UInt8.toNat_ofNat']; omega, by omega⟩⟩

theorem isDigit_iff {c : Char} : c.isDigit = true ↔ 48 ≤ c.toNat ∧ c.toNat ≤ 57 := by
  simp only [Char.isDigit, Bool.and_eq_true, decide_eq_true_eq]
  exact Iff.rfl

theorem toNat_lt_of_isDigit {c : Char} (h : c.isDigit = true) : c.toNat < 128 := by
  have := isDigit_iff.mp h
  omega

theorem length_bytes {cs : List Char} (h : ∀ c ∈ cs, c.toNat < 128) :
    (bytes cs).length = cs.length := by
  induction cs with
  | nil => rfl
  | cons c cs ih =>
    obtain ⟨hc, hcs⟩ := List.forall_mem_cons.mp h
    obtain ⟨b, rest, henc, ⟨-, rfl⟩ | ⟨-, hhigh⟩⟩ := exists_byte c
    · rw [bytes_cons, henc, List.length_append, ih hcs, List.length_singleton, List.length_cons,
        Nat.add_comm]
    · omega

end TableJoin.Text

namespace TableJoin.Numeral

open Text

/-- One more digit makes ten times the number and the digit, if that is in range. -/
theorem appendDigit?_eq {m : Int64} {n : Nat} (hm : m.toInt = n) (digit : UInt8) :
    appendDigit? m digit = word? (10 * n + digit.toNat : Nat) := by
  have hproduct : m.toInt * 10 = (n * 10 : Nat) := by omega
  rw [appendDigit?, hproduct]
  by_cases hn : n * 10 ≤ Int64.maxValue.toNatClampNeg
  · have hvalue : (Int64.ofInt (n * 10 : Nat)).toInt = (n * 10 : Nat) :=
      Decimal.toInt_ofInt_mantissa (by omega)
    rw [word?_natCast, if_pos hn, Option.bind_some, hvalue]
    congr 1
    omega
  · -- where the product is out of range, the sum is too
    rw [word?_natCast, if_neg hn, word?_natCast, if_neg (by omega)]
    rfl

/-- The first byte of a character that is no digit is none either. -/
theorem appendDigits_of_not_isDigit {c : Char} (hc : c.isDigit = false) (m : Int64)
    (rest : List UInt8) : appendDigits m (String.utf8EncodeChar c ++ rest) = .ok none := by
  have hrange : ¬ (48 ≤ c.toNat ∧ c.toNat ≤ 57) := by
    rw [← isDigit_iff, hc]
    exact Bool.false_ne_true
  obtain ⟨b, more, henc, hb⟩ := exists_byte c
  rw [henc, List.cons_append, appendDigits, if_neg]
  simp only [UInt8.le_iff_toNat_le, UInt8.reduceToNat]
  omega

theorem appendDigits_of_isDigit {c : Char} (hc : c.isDigit = true) {m : Int64} {n : Nat}
    (hm : m.toInt = n) (rest : List UInt8) :
    appendDigits m (String.utf8EncodeChar c ++ rest) =
      match word? (10 * n + (c.toNat - 48) : Nat) with
      | none => .ok none
      | some m' => appendDigits m' rest := by
  obtain ⟨hlow, hhigh⟩ := isDigit_iff.mp hc
  obtain ⟨b, more, henc, ⟨hb, rfl⟩ | ⟨-, hout⟩⟩ := exists_byte c
  · have hge : 48 ≤ b := by
      rw [UInt8.le_iff_toNat_le, hb]
      exact hlow
    have hle : b ≤ 57 := by
      rw [UInt8.le_iff_toNat_le, hb]
      exact hhigh
    have hdigit : (b - 48).toNat = c.toNat - 48 := by
      rw [UInt8.toNat_sub_of_le _ _ hge, hb]
      rfl
    rw [henc, List.singleton_append, appendDigits, if_pos ⟨hge, hle⟩, subtractByte, if_pos hge]
    simp only [bind, Except.bind, appendDigit?_eq hm, hdigit]
    rfl
  · omega

/-- Where characters are digits and their number is in range, it is what the steps come to,
and else they come to no number.  None of them fails. -/
theorem appendDigits_bytes (cs : List Char) : ∀ (m : Int64) (n : Nat), m.toInt = n →
    appendDigits m (bytes cs) =
      .ok (if cs.all Char.isDigit = true then word? (Nat.ofDigitChars 10 cs n : Nat)
        else none) := by
  induction cs with
  | nil =>
    intro m n hm
    have hword : word? (n : Nat) = some m := by
      rw [← hm]
      exact word?_toInt m
    rw [List.all_nil, if_pos rfl, Nat.ofDigitChars_nil, hword]
    rfl
  | cons c cs ih =>
    intro m n hm
    rw [bytes_cons, List.all_cons, Nat.ofDigitChars_cons]
    cases hc : c.isDigit with
    | false => rw [appendDigits_of_not_isDigit hc, Bool.false_and, if_neg Bool.false_ne_true]
    | true =>
      rw [appendDigits_of_isDigit hc hm, Bool.true_and]
      have hzero : '0'.toNat = 48 := rfl
      rw [hzero]
      cases hword : word? (10 * n + (c.toNat - 48) : Nat) with
      | some m' => exact ih m' _ (toInt_word? hword)
      | none =>
        -- a number that is out of range stays so with the rest of the digits
        have hrest : word? (Nat.ofDigitChars 10 cs (10 * n + (c.toNat - 48)) : Nat) = none := by
          have hle := le_ofDigitChars cs (10 * n + (c.toNat - 48))
          rw [word?_natCast, ite_eq_right_iff] at hword ⊢
          intro hsmall
          cases hword (by omega)
        rw [hrest, ite_self]

end TableJoin.Numeral

namespace TableJoin.Decimal

open Numeral Text

/-- A sign is found by its byte and cut off at the offset behind it. -/
def cutSign (cs : List Char) : Except Fault (Bool × List Char) :=
  match (bytes cs).head? with
  | some 45 => (dropBytes 1 cs).map (true, ·)
  | some 43 => (dropBytes 1 cs).map (false, ·)
  | _ => .ok (false, cs)

/-- Puts a decimal together, step by step, from what stands before the point and behind it. -/
def joinParts (negative : Bool) (whole fraction : List Char) : Except Fault (Option Decimal) := do
  if whole.isEmpty && fraction.isEmpty then return none
  match ← appendDigits 0 (bytes whole ++ bytes fraction) with
  | none => return none
  | some m =>
    if (bytes fraction).length ≤ 127 then
      let exponent ← negateByte (Int8.ofNat (bytes fraction).length)
      let mantissa ← if negative then negateWord m else pure m
      return some ⟨mantissa, exponent⟩
    else return none

def readSteps (cs : List Char) : Except Fault (Option Decimal) := do
  let (negative, body) ← cutSign cs
  joinParts negative (splitPoint body).1 (splitPoint body).2

/-- Where no sign stands in front, none is cut off. -/
theorem splitSign_of_ne {cs : List Char} (h : ∀ c ∈ cs.head?, c ≠ '-' ∧ c ≠ '+') :
    splitSign cs = (false, cs) := by
  unfold splitSign
  split
  · exact absurd rfl (h '-' rfl).1
  · exact absurd rfl (h '+' rfl).2
  · rfl

/-- A sign is cut off where there is one, at the end of a character. -/
theorem cutSign_eq (cs : List Char) : cutSign cs = .ok (splitSign cs) := by
  cases cs with
  | nil => rfl
  | cons c cs =>
    by_cases hminus : c = '-'
    · subst hminus
      exact congrArg (Except.map (true, ·)) (dropBytes_utf8Size '-' cs)
    by_cases hplus : c = '+'
    · subst hplus
      exact congrArg (Except.map (false, ·)) (dropBytes_utf8Size '+' cs)
    have hsplit : splitSign (c :: cs) = (false, c :: cs) := by
      apply splitSign_of_ne
      rintro d ⟨⟩
      exact ⟨hminus, hplus⟩
    -- no other character begins with the byte of a sign
    obtain ⟨b, rest, henc, hb⟩ := exists_byte c
    have hne : ∀ d : Char, d.toNat < 128 → c ≠ d → b.toNat ≠ d.toNat := by
      intro d hd hcd heq
      exact hcd (Char.toNat_inj.mp (by omega))
    rw [hsplit, cutSign, bytes_cons, henc, List.cons_append, List.head?_cons]
    split
    · next heq =>
      exact absurd (congrArg UInt8.toNat (Option.some.inj heq)) (hne '-' (by decide) hminus)
    · next heq =>
      exact absurd (congrArg UInt8.toNat (Option.some.inj heq)) (hne '+' (by decide) hplus)
    · rfl

theorem negateWord_ofInt {n : Nat} (h : n ≤ Int64.maxValue.toNatClampNeg) :
    negateWord (Int64.ofInt n) = .ok (Int64.ofInt (-n)) := by
  rw [negateWord, if_neg (ofInt_ne_minValue (by omega)), Int64.ofInt_neg]

theorem negateByte_ofNat {n : Nat} (h : n ≤ 127) :
    negateByte (Int8.ofNat n) = .ok (Int8.ofInt (-n)) := by
  rw [negateByte, if_neg, Int8.ofInt_neg, Int8.ofInt_eq_ofNat]
  intro hmin
  have hvalue := Int8.toInt_ofNat_of_lt (n := n) (by omega)
  rw [hmin, Int8.toInt_minValue] at hvalue
  omega

/-- The digits at both sides of the point make a decimal if together they make a number in
range and there are not too many behind the point.  No step fails. -/
theorem joinParts_eq (negative : Bool) (whole fraction : List Char) :
    joinParts negative whole fraction = .ok
      (match natOfDigits? (whole ++ fraction) with
      | none => none
      | some n =>
        if n ≤ Int64.maxValue.toNatClampNeg ∧ fraction.length ≤ 127 then
          some ⟨if negative then Int64.ofInt (-n) else Int64.ofInt n, Int8.ofInt (-fraction.length)⟩
        else none) := by
  rw [joinParts, ← bytes_append, appendDigits_bytes _ 0 0 rfl, natOfDigits?]
  have hempty : (whole.isEmpty && fraction.isEmpty) = (whole ++ fraction).isEmpty := by
    cases whole <;> rfl
  rw [hempty]
  cases (whole ++ fraction).isEmpty with
  | true => simp [pure, Except.pure]
  | false =>
    cases hall : (whole ++ fraction).all Char.isDigit with
    | false => simp [bind, Except.bind, pure, Except.pure]
    | true =>
      have hlength : (bytes fraction).length = fraction.length :=
        length_bytes fun c hc =>
          toNat_lt_of_isDigit (List.all_eq_true.mp hall c (List.mem_append_right _ hc))
      generalize Nat.ofDigitChars 10 (whole ++ fraction) 0 = n
      rw [word?_natCast, hlength]
      by_cases hn : n ≤ Int64.maxValue.toNatClampNeg
      · by_cases hscale : fraction.length ≤ 127
        · cases negative <;>
            simp [hn, hscale, negateByte_ofNat hscale, negateWord_ofInt hn, bind, Except.bind, pure,
              Except.pure]
        · simp [hn, hscale, bind, Except.bind, pure, Except.pure]
      · simp [hn, bind, Except.bind, pure, Except.pure]

/-- Reading step by step comes to no fault, and to what reading characters comes to. -/
theorem readSteps_eq (cs : List Char) : readSteps cs = .ok (ofChars? cs) := by
  rw [readSteps, cutSign_eq]
  exact joinParts_eq _ _ _

end TableJoin.Decimal
