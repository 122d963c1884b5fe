import Mathlib.Data.List.Basic
import Mathlib.Data.String.Basic
import TableJoin.Proofs.Numeral.Canonical
import TableJoin.Proofs.Text.Buffer
import TableJoin.Sample

/-!
The text of the sample, row by row, and how many bytes its rows have.
-/

namespace TableJoin.Sample

open Numeral Text

section Rows

def households (row : Nat) : Nat := 1000 + row * 37

/-- The second cell of a row: an income with two places, or the null value. -/
def incomeCell (row : Nat) : String :=
  if row % 10 = 9 then "<tjs:V null=\"true\">-1</tjs:V>"
  else s!"<tjs:V>{40000 + row * 11}." ++ paddedDigits 2 (row % 100) ++ "</tjs:V>"

/-- A row: its key with at least five digits, the households and the income. -/
def rowText (row : Nat) : String :=
  "        <tjs:Row><tjs:K>" ++ paddedDigits 5 row ++ "</tjs:K>" ++
    s!"<tjs:V>{households row}</tjs:V>" ++ incomeCell row ++ "</tjs:Row>\n"

def rowsText (rows : Nat) : String :=
  String.join ((List.range rows).map rowText)

/-- The text of the sample with the given number of rows. -/
def text (rows : Nat) : String :=
  head ++ rowsText rows ++ tail

theorem rowsText_succ (n : Nat) : rowsText (n + 1) = rowsText n ++ rowText n := by
  rw [rowsText, List.range_succ, List.map_append, String.join_append, ← rowsText,
    List.map_singleton, String.join_cons, String.join_nil, String.append_empty]

theorem toNat_ofNat {n : Nat} (h : n < 2 ^ 64) : (UInt64.ofNat n).toNat = n :=
  UInt64.toNat_ofNat_of_lt' h

theorem unsignedText_eq {n : Nat} {w : UInt64} (h : w.toNat = n) : unsignedText w = toString n := by
  rw [unsignedText, h]
  rfl

/-- The characters of a literal can be told without decoding them from its bytes. -/
theorem toList_eq {s : String} {cs : List Char} (h : String.ofList cs = s) : s.toList = cs := by
  rw [← h, String.toList_ofList]

/-- What stands between the cells of a row, with the tags taken apart. -/
theorem tags_eq : "</tjs:K><tjs:V>" = "</tjs:K>" ++ "<tjs:V>" ∧
    "</tjs:V><tjs:V null=\"true\">-1</tjs:V></tjs:Row>\n" =
      "</tjs:V>" ++ ("<tjs:V null=\"true\">-1</tjs:V>" ++ "</tjs:Row>\n") ∧
    "</tjs:V><tjs:V>" = "</tjs:V>" ++ "<tjs:V>" ∧
    "</tjs:V></tjs:Row>\n" = "</tjs:V>" ++ "</tjs:Row>\n" := by
  decide +kernel

/-- The numbers of a row fit if there is room for a text of so many rows. -/
theorem exists_rowPieces {row : Nat} (h : row * 96 < 2 ^ 64) :
    ∃ pieces, rowPieces (.ofNat row) = .ok pieces ∧ String.join pieces = rowText row := by
  have hrow : (UInt64.ofNat row).toNat = row := toNat_ofNat (by omega)
  have hnine : UInt64.ofNat row % 10 = 9 ↔ row % 10 = 9 := by
    rw [← UInt64.toNat_inj, UInt64.toNat_mod, hrow]
    rfl
  obtain ⟨product, hproduct, hvalue⟩ := exists_mulWord (a := .ofNat row) (b := 37)
    (by rw [hrow, wordSize_eq]; simp; omega)
  obtain ⟨count, hcount, hhouseholds⟩ := exists_addWord (a := 1000) (b := product)
    (by rw [hvalue, hrow, wordSize_eq]; simp; omega)
  obtain ⟨product', hproduct', hvalue'⟩ := exists_mulWord (a := .ofNat row) (b := 11)
    (by rw [hrow, wordSize_eq]; simp; omega)
  obtain ⟨whole, hwhole, hincome⟩ := exists_addWord (a := 40000) (b := product')
    (by rw [hvalue', hrow, wordSize_eq]; simp; omega)
  have hplaces : (UInt64.ofNat row % 100).toNat = row % 100 := by
    rw [UInt64.toNat_mod, hrow]
    rfl
  have hcountText : unsignedText count = toString (households row) :=
    unsignedText_eq (by rw [hhouseholds, hvalue, hrow]; rfl)
  have hwholeText : unsignedText whole = toString (40000 + row * 11) :=
    unsignedText_eq (by rw [hincome, hvalue', hrow]; rfl)
  refine ⟨["        <tjs:Row><tjs:K>", paddedDigits 5 row, "</tjs:K><tjs:V>",
    toString (households row)] ++ if row % 10 = 9 then
      ["</tjs:V><tjs:V null=\"true\">-1</tjs:V></tjs:Row>\n"]
    else ["</tjs:V><tjs:V>", toString (40000 + row * 11), ".", paddedDigits 2 (row % 100),
      "</tjs:V></tjs:Row>\n"], ?_, ?_⟩
  · rw [rowPieces, hproduct]
    simp only [bind, Except.bind, hcount, hproduct', hwhole, pure, Except.pure, hrow, hplaces,
      hcountText, hwholeText, hnine]
    split <;> rfl
  · obtain ⟨hkey, hnull, hcells, hback⟩ := tags_eq
    have hstring : ∀ s : String, toString s = s := fun _ => rfl
    unfold rowText incomeCell
    generalize paddedDigits 5 row = key
    generalize toString (households row) = count
    generalize toString (40000 + row * 11) = income
    generalize paddedDigits 2 (row % 100) = places
    rewrite [hkey, hnull, hcells, hback]
    split <;> simp only [hstring, List.cons_append, List.nil_append, String.join_cons,
      String.join_nil, String.append_empty, String.append_assoc]

end Rows

section Sizes

theorem utf8ByteSize_digits {cs : List Char} (h : ∀ c ∈ cs, c.isDigit = true) :
    (String.ofList cs).utf8ByteSize = cs.length := by
  rw [String.utf8ByteSize_ofList]
  induction cs with
  | nil => rfl
  | cons c cs ih =>
    obtain ⟨hc, hcs⟩ := List.forall_mem_cons.mp h
    have hsmall : c.val ≤ 127 := by
      rw [Char.isDigit, Bool.and_eq_true, decide_eq_true_eq, decide_eq_true_eq] at hc
      exact UInt32.le_trans hc.2 (by decide)
    rw [String.utf8Len_cons, ih hcs, Char.utf8Size_eq_one_iff.mpr hsmall, List.length_cons]

theorem utf8ByteSize_toString (n : Nat) : (toString n).utf8ByteSize = (digits n).length :=
  utf8ByteSize_digits fun _ => isDigit_of_mem_digits

theorem utf8ByteSize_paddedDigits (width n : Nat) :
    (paddedDigits width n).utf8ByteSize = max width (digits n).length := by
  rw [paddedDigits, utf8ByteSize_digits fun _ => isDigit_of_mem_padZeros, padZeros,
    List.length_append, List.length_replicate]
  omega

theorem length_digits_le {n k : Nat} (hk : 0 < k) (h : n < 10 ^ k) : (digits n).length ≤ k :=
  (Nat.length_toDigits_le_iff (by decide) hk).mpr h

theorem lt_length_digits {n k : Nat} (hk : 0 < k) (h : 10 ^ k ≤ n) : k < (digits n).length :=
  Nat.lt_of_not_le fun hle => by
    have hless := (Nat.length_toDigits_le_iff (by decide) hk).mp hle
    omega

theorem utf8ByteSize_tags : "        <tjs:Row><tjs:K>".utf8ByteSize = 24 ∧
    "</tjs:K>".utf8ByteSize = 8 ∧ "<tjs:V>".utf8ByteSize = 7 ∧ "</tjs:V>".utf8ByteSize = 8 ∧
    "</tjs:Row>\n".utf8ByteSize = 11 ∧ "<tjs:V null=\"true\">-1</tjs:V>".utf8ByteSize = 29 ∧
    ".".utf8ByteSize = 1 := by
  decide +kernel

theorem utf8ByteSize_rowText (row : Nat) : (rowText row).utf8ByteSize =
    58 + max 5 (digits row).length + (digits (households row)).length +
      if row % 10 = 9 then 29
      else 16 + (digits (40000 + row * 11)).length + max 2 (digits (row % 100)).length := by
  obtain ⟨hrow, hkey, hcell, hend, hback, hnull, hpoint⟩ := utf8ByteSize_tags
  have hstring : ∀ s : String, toString s = s := fun _ => rfl
  unfold rowText incomeCell
  simp only [hstring, String.utf8ByteSize_append, hrow, hkey, hcell, hend, hback,
    utf8ByteSize_paddedDigits, utf8ByteSize_toString]
  split
  · rw [hnull]
    omega
  · simp only [String.utf8ByteSize_append, hcell, hend, hpoint, utf8ByteSize_paddedDigits,
      utf8ByteSize_toString]
    omega

/-- Rows are less than twice as long as the room that is reserved for each. -/
theorem utf8ByteSize_rowText_le {row : Nat} (h : row * 96 < 2 ^ 64) :
    (rowText row).utf8ByteSize ≤ 192 := by
  have hkey := length_digits_le (n := row) (k := 20) (by decide) (by omega)
  have hcount := length_digits_le (n := households row) (k := 20) (by decide)
    (by unfold households; omega)
  have hincome := length_digits_le (n := 40000 + row * 11) (k := 20) (by decide) (by omega)
  have hplaces := length_digits_le (n := row % 100) (k := 2) (by decide) (by omega)
  rw [utf8ByteSize_rowText]
  split <;> omega

/-- Rows with great numbers are longer than the room that is reserved for each. -/
theorem lt_utf8ByteSize_rowText {row : Nat} (h : 10 ^ 8 ≤ row) :
    105 ≤ (rowText row).utf8ByteSize := by
  have hkey := lt_length_digits (n := row) (k := 8) (by decide) h
  have hcount := lt_length_digits (n := households row) (k := 9) (by decide)
    (by unfold households; omega)
  have hincome := lt_length_digits (n := 40000 + row * 11) (k := 9) (by decide) (by omega)
  rw [utf8ByteSize_rowText]
  split <;> omega

theorem utf8ByteSize_rowsText_le {n : Nat} (h : n * 96 < 2 ^ 64) :
    (rowsText n).utf8ByteSize ≤ 192 * n := by
  induction n with
  | zero => exact Nat.le_refl 0
  | succ n ih =>
    have hlast := utf8ByteSize_rowText_le (by omega : n * 96 < 2 ^ 64)
    have hfirst := ih (by omega)
    rw [rowsText_succ, String.utf8ByteSize_append]
    omega

theorem le_utf8ByteSize_rowsText (n : Nat) :
    105 * n ≤ (rowsText n).utf8ByteSize + 105 * 10 ^ 8 := by
  induction n with
  | zero => omega
  | succ n ih =>
    rw [rowsText_succ, String.utf8ByteSize_append]
    by_cases hn : 10 ^ 8 ≤ n
    · have hlast := lt_utf8ByteSize_rowText hn
      omega
    · omega

end Sizes

end TableJoin.Sample
