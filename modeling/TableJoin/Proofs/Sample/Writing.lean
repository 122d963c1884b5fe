import TableJoin.Proofs.Failure
import TableJoin.Proofs.Sample.Tree

/-!
Writing the sample: if there can be twice the room that is reserved for it, it is written, and
what is written is its rows one after another.  Else it is not, since the rows of so great a
sample need more than was reserved.
-/

namespace TableJoin

open Text

namespace Sample

section Rows

variable {room : Nat} {b b' : Buffer}

theorem exists_writeRow (hb : b.GrownOnce room) (hmost : 2 * room ≤ greatestRoom) {row : Nat}
    (hrow : row * 96 < 2 ^ 64)
    (hsize : b.text.utf8ByteSize + (rowText row).utf8ByteSize ≤ 2 * room) :
    ∃ b', writeRow b row = .ok b' ∧ b'.text = b.text ++ rowText row ∧ b'.GrownOnce room := by
  obtain ⟨pieces, hpieces, hjoin⟩ := exists_rowPieces hrow
  rw [← hjoin] at hsize ⊢
  rw [writeRow, hpieces]
  exact Buffer.GrownOnce.pushAll hmost pieces b hb hsize

theorem text_of_writeRow (hb : b.Holds room) {row : Nat} (hrow : row * 96 < 2 ^ 64)
    (h : writeRow b row = .ok b') : b'.text = b.text ++ rowText row ∧ b'.Holds room := by
  obtain ⟨pieces, hpieces, hjoin⟩ := exists_rowPieces hrow
  rw [writeRow, hpieces] at h
  rw [← hjoin]
  exact Buffer.Holds.pushAll pieces hb h

/-- Rows for which there is room are written one after another. -/
theorem exists_writeRows (hb : b.GrownOnce room) (hmost : 2 * room ≤ greatestRoom) {n : Nat}
    (hrows : n * 96 < 2 ^ 64)
    (hsize : b.text.utf8ByteSize + (rowsText n).utf8ByteSize ≤ 2 * room) :
    ∃ b', (List.range n).foldlM writeRow b = .ok b' ∧ b'.text = b.text ++ rowsText n ∧
      b'.GrownOnce room := by
  induction n with
  | zero => exact ⟨b, rfl, String.append_empty.symm, hb⟩
  | succ n ih =>
    rw [rowsText_succ, String.utf8ByteSize_append] at hsize
    obtain ⟨c, hwritten, htext, hc⟩ := ih (by omega) (by omega)
    obtain ⟨b', hrow, htext', hb'⟩ := exists_writeRow hc hmost (by omega : n * 96 < 2 ^ 64) (by
      rw [htext, String.utf8ByteSize_append]
      omega)
    refine ⟨b', ?_, ?_, hb'⟩
    · rw [List.range_succ, List.foldlM_append]
      exact Except.bind_eq_ok_iff.mpr ⟨c, hwritten, Except.bind_eq_ok_iff.mpr ⟨b', hrow, rfl⟩⟩
    · rw [htext', htext, rowsText_succ, String.append_assoc]

theorem text_of_writeRows (hb : b.Holds room) {n : Nat} (hrows : n * 96 < 2 ^ 64) :
    ∀ {b'}, (List.range n).foldlM writeRow b = .ok b' →
      b'.text = b.text ++ rowsText n ∧ b'.Holds room := by
  induction n with
  | zero =>
    intro b' h
    cases h
    exact ⟨String.append_empty.symm, hb⟩
  | succ n ih =>
    intro b' h
    rw [List.range_succ, List.foldlM_append] at h
    obtain ⟨c, hwritten, h⟩ := Except.bind_eq_ok_iff.mp h
    obtain ⟨d, hrow, h⟩ := Except.bind_eq_ok_iff.mp h
    cases h
    obtain ⟨htext, hc⟩ := ih (by omega) hwritten
    obtain ⟨htext', hd⟩ := text_of_writeRow hc (by omega) hrow
    rw [htext', htext, rowsText_succ, String.append_assoc]
    exact ⟨rfl, hd⟩

end Rows

section Between

/-- The room that is reserved for rows between two texts. -/
def reservedBetween (front back : String) (rows : Nat) : Nat :=
  front.utf8ByteSize + back.utf8ByteSize + rows * 96

variable {front back : String} {n : Nat}

/-- Rows are written if there can be twice the room that is reserved for them. -/
theorem writeBetween_of_room (h : 2 * reservedBetween front back n ≤ greatestRoom) :
    writeBetween front back (.ofNat n) = .ok (front ++ rowsText n ++ back) := by
  have hreserved : reservedBetween front back n =
      front.utf8ByteSize + back.utf8ByteSize + n * 96 := rfl
  have hgreatest : greatestRoom < 2 ^ 63 := by decide
  have hwords := wordSize_eq
  have hn : (UInt64.ofNat n).toNat = n := toNat_ofNat (by omega)
  have hfront : (UInt64.ofNat front.utf8ByteSize).toNat = front.utf8ByteSize :=
    toNat_ofNat (by omega)
  have hback : (UInt64.ofNat back.utf8ByteSize).toNat = back.utf8ByteSize :=
    toNat_ofNat (by omega)
  have hrate : (96 : UInt64).toNat = 96 := rfl
  obtain ⟨frame, hframe, hframeSize⟩ := exists_addWord (a := .ofNat front.utf8ByteSize)
    (b := .ofNat back.utf8ByteSize) (by omega)
  obtain ⟨product, hproduct, hproductSize⟩ := exists_mulWord (a := .ofNat n) (b := 96)
    (by rw [hn, hrate]; omega)
  rw [hn, hrate] at hproductSize
  obtain ⟨room, hroom, hroomSize⟩ := exists_addWord (a := frame) (b := product) (by omega)
  have hsize := utf8ByteSize_rowsText_le (n := n) (by omega)
  have hreserve : Buffer.reserve room.toNat = .ok ⟨"", reservedBetween front back n⟩ := by
    rw [Buffer.reserve, if_pos (by omega), hreserved]
    congr 2
    omega
  obtain ⟨b₁, hpush₁, htext₁, hb₁⟩ :=
    (Buffer.grownOnce_start (reservedBetween front back n)).push h (s := front) (by
      rw [String.utf8ByteSize_empty]
      omega)
  rw [String.empty_append] at htext₁
  obtain ⟨b₂, hrows, htext₂, hb₂⟩ := exists_writeRows hb₁ h (n := n) (by omega) (by
    rw [htext₁]
    omega)
  obtain ⟨b₃, hpush₃, htext₃, -⟩ := hb₂.push h (s := back) (by
    rw [htext₂, htext₁, String.utf8ByteSize_append]
    omega)
  rw [writeBetween, hframe]
  simp only [bind, Except.bind, hproduct, hroom, hreserve, hpush₁, hn, hrows, hpush₃, pure,
    Except.pure]
  rw [htext₃, htext₂, htext₁]

/-- Rows between short texts are not written unless there can be twice the room that is reserved
for them. -/
theorem room_of_writeBetween (hframe : front.utf8ByteSize + back.utf8ByteSize < 2 ^ 32)
    (hn : n < 2 ^ 64) {xml : String} (h : writeBetween front back (.ofNat n) = .ok xml) :
    2 * reservedBetween front back n ≤ greatestRoom := by
  have hreserved : reservedBetween front back n =
      front.utf8ByteSize + back.utf8ByteSize + n * 96 := rfl
  have hgreatest : greatestRoom = 2 ^ 63 - 1 := rfl
  have hnumber : (UInt64.ofNat n).toNat = n := toNat_ofNat hn
  have hfront : (UInt64.ofNat front.utf8ByteSize).toNat = front.utf8ByteSize :=
    toNat_ofNat (by omega)
  have hback : (UInt64.ofNat back.utf8ByteSize).toNat = back.utf8ByteSize :=
    toNat_ofNat (by omega)
  have hrate : (96 : UInt64).toNat = 96 := rfl
  obtain ⟨frame, hsum, h⟩ := Except.bind_eq_ok_iff.mp h
  obtain ⟨product, hproduct, h⟩ := Except.bind_eq_ok_iff.mp h
  obtain ⟨room, hroom, h⟩ := Except.bind_eq_ok_iff.mp h
  obtain ⟨b₀, hreserve, h⟩ := Except.bind_eq_ok_iff.mp h
  obtain ⟨b₁, hpush₁, h⟩ := Except.bind_eq_ok_iff.mp h
  obtain ⟨b₂, hrows, h⟩ := Except.bind_eq_ok_iff.mp h
  obtain ⟨b₃, hpush₃, -⟩ := Except.bind_eq_ok_iff.mp h
  rw [hnumber] at hrows
  replace hsum := toNat_of_addWord hsum
  replace hproduct := toNat_of_mulWord hproduct
  replace hroom := toNat_of_addWord hroom
  rw [hnumber, hrate] at hproduct
  have hroomSize := room.toNat_lt
  have hproductSize := product.toNat_lt
  unfold Buffer.reserve at hreserve
  split at hreserve
  · next hmost =>
    cases hreserve
    obtain ⟨htext₁, hb₁⟩ := (Buffer.holds_start hmost).push hpush₁
    obtain ⟨htext₂, hb₂⟩ := text_of_writeRows hb₁ (by omega) hrows
    obtain ⟨htext₃, hb₃⟩ := hb₂.push hpush₃
    refine Nat.le_of_not_lt fun hgreat => ?_
    -- the text has not outgrown the room, but its rows alone are longer than what is reserved
    have hsize := hb₃.size_le (by omega)
    have hlong := le_utf8ByteSize_rowsText n
    rw [htext₃, htext₂, htext₁, String.empty_append, String.utf8ByteSize_append,
      String.utf8ByteSize_append] at hsize
    omega
  · cases hreserve

end Between

section Frame

def reserved (rows : Nat) : Nat :=
  reservedBetween head tail rows

theorem utf8Len_le (cs : List Char) : String.utf8Len cs ≤ 4 * cs.length := by
  induction cs with
  | nil => exact Nat.le_refl 0
  | cons c cs ih =>
    have hc := c.utf8Size_le_four
    rw [String.utf8Len_cons, List.length_cons]
    omega

theorem utf8ByteSize_le {s : String} {cs : List Char} {n : Nat} (hs : String.ofList cs = s)
    (hn : cs.length = n) : s.utf8ByteSize ≤ 4 * n := by
  rw [← hs, String.utf8ByteSize_ofList, ← hn]
  exact utf8Len_le cs

set_option maxRecDepth 40000 in
/-- The characters of the two texts are counted, and not decoded from them. -/
theorem utf8ByteSize_frame_lt : head.utf8ByteSize + tail.utf8ByteSize < 2 ^ 32 := by
  have hhead : head.utf8ByteSize ≤ 4 * 3150 := by
    unfold head
    refine utf8ByteSize_le rfl ?_
    decide +kernel
  have htail : tail.utf8ByteSize ≤ 4 * 70 := by
    unfold tail
    refine utf8ByteSize_le rfl ?_
    decide +kernel
  exact Nat.lt_of_le_of_lt (Nat.add_le_add hhead htail) (by decide)

theorem reserved_le {n : Nat} (h : 2 * (2 ^ 32 + n * 96) ≤ greatestRoom) :
    2 * reserved n ≤ greatestRoom := by
  have hframe := utf8ByteSize_frame_lt
  rw [reserved, reservedBetween]
  omega

theorem lt_reserved {n : Nat} (h : greatestRoom < 2 * (n * 96)) :
    greatestRoom < 2 * reserved n := by
  rw [reserved, reservedBetween]
  omega

/-- The sample is written exactly if there can be twice the room that is reserved for it. -/
theorem write_spec (rows : UInt64) :
    (2 * reserved rows.toNat ≤ greatestRoom → write rows = .ok (text rows.toNat)) ∧
      (greatestRoom < 2 * reserved rows.toNat → ∃ o, write rows = .error o) := by
  have hrows : UInt64.ofNat rows.toNat = rows := UInt64.ofNat_toNat
  constructor
  · intro h
    have hwritten := writeBetween_of_room h
    rw [hrows] at hwritten
    exact hwritten
  · intro h
    cases hwritten : write rows with
    | error o => exact ⟨o, rfl⟩
    | ok xml =>
      rw [← hrows] at hwritten
      exact absurd (room_of_writeBetween utf8ByteSize_frame_lt rows.toNat_lt hwritten)
        (Nat.not_le_of_lt h)

end Frame

end Sample

end TableJoin
