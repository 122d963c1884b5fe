import TableJoin.Proofs.Numeral.MachineSteps

/-!
Texts as bytes: offsets that stand between characters, letters made small byte by byte, and the
first place where bytes stand.  An offset stands between characters exactly where a byte begins
one, so whatever begins with a byte below 128, and has only such bytes, is whole characters
wherever it is found.
-/

namespace TableJoin.Text

open Numeral (Fault)

section Definitions

def utf8 (s : String) : List UInt8 :=
  bytes s.toList

def lowerByte (b : UInt8) : UInt8 :=
  if 65 ≤ b ∧ b ≤ 90 then b + 32 else b

def beginsCharacter (b : UInt8) : Bool :=
  b < 128 || 192 ≤ b

/-- The offset is at an end of the bytes, or in front of a byte that begins a character. -/
def isBoundary (i : Nat) (bs : List UInt8) : Bool :=
  i = 0 || i = bs.length || bs[i]?.any beginsCharacter

/-- The bytes in front of an offset and those behind it. -/
def splitBytes (i : Nat) (bs : List UInt8) : Except Fault (List UInt8 × List UInt8) :=
  if isBoundary i bs then .ok (bs.splitAt i) else .error .badOffset

/-- The offset at which the mark stands first. -/
def findBytes (mark : List UInt8) : List UInt8 → Option Nat
  | [] => if mark.isEmpty then some 0 else none
  | b :: bs => if mark.isPrefixOf (b :: bs) then some 0 else (findBytes mark bs).map (· + 1)

/-- The bytes differ at most in the case of their letters. -/
def SameLetters (bs bs' : List UInt8) : Prop :=
  bs.map lowerByte = bs'.map lowerByte

instance (bs bs' : List UInt8) : Decidable (SameLetters bs bs') :=
  inferInstanceAs (Decidable (_ = _))

end Definitions

section Characters

/-- A character below 128 is the byte of its number.  Any other begins with a byte that begins a
character, and none of its other bytes begins one. -/
theorem bytes_of_char (c : Char) : ∃ b rest, String.utf8EncodeChar c = b :: rest ∧
    (∀ x ∈ rest, 128 ≤ x.toNat ∧ x.toNat < 192) ∧
      (c.toNat < 128 ∧ b.toNat = c.toNat ∧ rest = [] ∨ 128 ≤ c.toNat ∧ 192 ≤ b.toNat) := by
  have hnat : c.val.toNat = c.toNat := rfl
  simp only [String.utf8EncodeChar, hnat]
  split
  · refine ⟨_, _, rfl, by simp, .inl ⟨by omega, ?_, rfl⟩⟩
    rw [UInt8.toNat_ofNat']
    omega
  · repeat' split
    all_goals
      refine ⟨_, _, rfl, ?_, .inr ⟨by omega, ?_⟩⟩
      all_goals
        simp
        omega

theorem beginsCharacter_iff {b : UInt8} :
    beginsCharacter b = true ↔ b.toNat < 128 ∨ 192 ≤ b.toNat := by
  simp only [beginsCharacter, Bool.or_eq_true, decide_eq_true_eq, UInt8.lt_iff_toNat_lt,
    UInt8.le_iff_toNat_le, UInt8.reduceToNat]

theorem utf8_append (s t : String) : utf8 (s ++ t) = utf8 s ++ utf8 t := by
  rw [utf8, String.toList_append, bytes_append]
  rfl

theorem utf8_ofList (cs : List Char) : utf8 (String.ofList cs) = bytes cs := by
  rw [utf8, String.toList_ofList]

theorem bytes_injective : Function.Injective bytes := by
  intro cs ds h
  have hutf8 : cs.utf8Encode = ds.utf8Encode := by
    rw [List.utf8Encode, List.utf8Encode]
    exact congrArg List.toByteArray h
  exact String.ofList_injective (String.toByteArray_inj.mp hutf8)

/-- Bytes that are at an end, or in front of a byte that begins a character, are those of whole
characters. -/
theorem exists_characters {cs : List Char} {p q : List UInt8} (h : bytes cs = p ++ q)
    (hq : ∀ b ∈ q.head?, beginsCharacter b = true) :
    ∃ before after, cs = before ++ after ∧ bytes before = p ∧ bytes after = q := by
  induction cs generalizing p with
  | nil =>
    obtain ⟨rfl, rfl⟩ := List.append_eq_nil_iff.mp h.symm
    exact ⟨[], [], rfl, rfl, rfl⟩
  | cons c cs ih =>
    cases p with
    | nil => exact ⟨[], c :: cs, rfl, rfl, h⟩
    | cons x p =>
      obtain ⟨b, rest, hc, hrest, -⟩ := bytes_of_char c
      rw [bytes_cons, hc, List.cons_append, List.cons_append, List.cons.injEq] at h
      obtain ⟨rfl, h⟩ := h
      obtain ⟨p', rfl, htail⟩ | ⟨r, rfl, rfl⟩ := List.append_eq_append_iff.mp h
      · obtain ⟨before, after, rfl, hbefore, hafter⟩ := ih htail
        exact ⟨c :: before, after, rfl, by rw [bytes_cons, hc, hbefore]; rfl, hafter⟩
      · cases r with
        | nil => exact ⟨[c], cs, rfl, by simp [bytes, hc], rfl⟩
        | cons y r =>
          -- a byte inside a character begins none
          have hy := hrest y (by simp)
          have hbegins := beginsCharacter_iff.mp (hq y rfl)
          omega

/-- Bytes that begin with characters below 128 are those of a text that begins with them. -/
theorem exists_append_of_bytes {ds : List Char} (hds : ∀ d ∈ ds, d.toNat < 128) {cs : List Char}
    {q : List UInt8} (h : bytes cs = bytes ds ++ q) :
    ∃ after, cs = ds ++ after ∧ bytes after = q := by
  induction ds generalizing cs with
  | nil => exact ⟨cs, rfl, h⟩
  | cons d ds ih =>
    obtain ⟨hd, hrest⟩ := List.forall_mem_cons.mp hds
    obtain ⟨b, _, henc, -, ⟨-, hb, rfl⟩ | ⟨hhigh, -⟩⟩ := bytes_of_char d
    · rw [bytes_cons, henc] at h
      cases cs with
      | nil => cases h
      | cons c cs =>
        obtain ⟨b', rest, henc', -, hc⟩ := bytes_of_char c
        rw [bytes_cons, henc'] at h
        obtain ⟨rfl, htail⟩ := List.cons.inj h
        obtain ⟨-, hb', rfl⟩ | ⟨-, hb'⟩ := hc
        · have hsame : c = d := Char.toNat_inj.mp (by omega)
          obtain ⟨after, rfl, hafter⟩ := ih hrest htail
          exact ⟨after, by rw [hsame]; rfl, hafter⟩
        · omega
    · omega

theorem splitBytes_characters (cs ds : List Char) :
    splitBytes (bytes cs).length (bytes (cs ++ ds)) = .ok (bytes cs, bytes ds) := by
  have hboundary : isBoundary (bytes cs).length (bytes (cs ++ ds)) = true := by
    cases ds with
    | nil => simp [isBoundary]
    | cons d ds =>
      obtain ⟨b, rest, hd, -, hb⟩ := bytes_of_char d
      have hbegins : beginsCharacter b = true := beginsCharacter_iff.mpr (by omega)
      simp [isBoundary, bytes_append, bytes_cons, hd, hbegins]
  rw [splitBytes, if_pos hboundary, bytes_append, List.splitAt_eq, List.take_left, List.drop_left]

end Characters

section Letters

theorem toNat_lowerByte (b : UInt8) : (lowerByte b).toNat =
    if 65 ≤ b.toNat ∧ b.toNat ≤ 90 then b.toNat + 32 else b.toNat := by
  simp only [lowerByte, UInt8.le_iff_toNat_le, UInt8.reduceToNat]
  split
  · simp only [UInt8.toNat_add, UInt8.reduceToNat]
    omega
  · rfl

theorem toNat_toLower (c : Char) : c.toLower.toNat =
    if 65 ≤ c.toNat ∧ c.toNat ≤ 90 then c.toNat + 32 else c.toNat := by
  have hnat : c.toNat = c.val.toNat := rfl
  rw [hnat]
  unfold Char.toLower
  simp only [ge_iff_le, UInt32.le_iff_toNat_le, Char.reduceVal, UInt32.reduceToNat]
  split
  · change (c.val + (97 - 65)).toNat = c.val.toNat + 32
    simp only [UInt32.toNat_add, UInt32.reduceSub, UInt32.reduceToNat]
    omega
  · rfl

theorem length_map_lowerByte (bs : List UInt8) : (bs.map lowerByte).length = bs.length :=
  List.length_map _

theorem map_lowerByte_bytes (cs : List Char) :
    (bytes cs).map lowerByte = bytes (cs.map Char.toLower) := by
  induction cs with
  | nil => rfl
  | cons c cs ih =>
    rw [bytes_cons, List.map_append, ih, List.map_cons, bytes_cons]
    congr 1
    have hlower := toNat_toLower c
    obtain ⟨b, rest, hc, hrest, ⟨hlow, hb, rfl⟩ | ⟨hhigh, hb⟩⟩ := bytes_of_char c
    · obtain ⟨b', rest', hc', -, ⟨-, hb', rfl⟩ | ⟨hhigh', -⟩⟩ := bytes_of_char c.toLower
      · rw [hc, hc', List.map_singleton, List.cons.injEq, ← UInt8.toNat_inj, toNat_lowerByte, hb,
          hb', hlower]
        exact ⟨rfl, rfl⟩
      · split at hlower <;> omega
    · -- neither the character nor any byte of it is a letter
      have hsame : c.toLower = c := by
        rw [if_neg (by omega)] at hlower
        exact Char.toNat_inj.mp hlower
      rw [hsame]
      have hother : ∀ x ∈ String.utf8EncodeChar c, lowerByte x = id x := by
        intro x hx
        rw [hc, List.mem_cons] at hx
        have hbig : 128 ≤ x.toNat := by
          obtain rfl | hx := hx
          · omega
          · exact (hrest x hx).1
        rw [id, ← UInt8.toNat_inj, toNat_lowerByte, if_neg (by omega)]
      rw [List.map_congr_left hother, List.map_id]

end Letters

section Search

/-- A mark that is found stands at the offset, and nowhere before it. -/
theorem findBytes_spec {mark bs : List UInt8} {i : Nat} (h : findBytes mark bs = some i) :
    ∃ p q, bs = p ++ (mark ++ q) ∧ p.length = i ∧
      ∀ p' q', bs = p' ++ (mark ++ q') → p.length ≤ p'.length := by
  induction bs generalizing i with
  | nil =>
    unfold findBytes at h
    split at h
    · next hmark =>
      cases h
      rw [List.isEmpty_iff.mp hmark]
      exact ⟨[], [], rfl, rfl, fun p' _ _ => Nat.zero_le _⟩
    · cases h
  | cons b bs ih =>
    unfold findBytes at h
    split at h
    · next hprefix =>
      cases h
      obtain ⟨q, hq⟩ := List.isPrefixOf_iff_prefix.mp hprefix
      exact ⟨[], q, hq.symm, rfl, fun p' _ _ => Nat.zero_le _⟩
    · next hprefix =>
      obtain ⟨j, hj, rfl⟩ := Option.map_eq_some_iff.mp h
      obtain ⟨p, q, rfl, rfl, hfirst⟩ := ih hj
      refine ⟨b :: p, q, rfl, rfl, fun p' q' hsplit => ?_⟩
      cases p' with
      | nil => exact absurd (List.isPrefixOf_iff_prefix.mpr ⟨q', hsplit.symm⟩) hprefix
      | cons b' p' =>
        obtain ⟨-, htail⟩ := List.cons.inj hsplit
        exact Nat.succ_le_succ (hfirst p' q' htail)

theorem exists_findBytes (mark p q : List UInt8) :
    ∃ i, findBytes mark (p ++ (mark ++ q)) = some i := by
  induction p with
  | nil =>
    cases hmark : mark ++ q with
    | nil =>
      obtain ⟨rfl, rfl⟩ := List.append_eq_nil_iff.mp hmark
      exact ⟨0, rfl⟩
    | cons b bs =>
      have hprefix : mark.isPrefixOf (b :: bs) = true :=
        List.isPrefixOf_iff_prefix.mpr ⟨q, hmark⟩
      exact ⟨0, by rw [List.nil_append, findBytes, if_pos hprefix]⟩
  | cons b p ih =>
    obtain ⟨i, hi⟩ := ih
    rw [List.cons_append, findBytes, hi]
    split
    · exact ⟨0, rfl⟩
    · exact ⟨i + 1, rfl⟩

end Search

end TableJoin.Text
