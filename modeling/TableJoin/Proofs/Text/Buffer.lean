import TableJoin.Text.Buffer

/-!
What becomes of a text that is written into room that was reserved for it: nothing stops it as
long as it needs no more than twice that room, and it can need no more than that unless there can
be twice that room.
-/

namespace TableJoin.Text

section Words

variable {a b : UInt64}

theorem wordSize_eq : UInt64.size = 18446744073709551616 :=
  rfl

theorem toNat_of_addWord {c : UInt64} (h : addWord a b = .ok c) :
    c.toNat = a.toNat + b.toNat := by
  unfold addWord at h
  split at h
  · next hfits =>
    cases h
    rw [UInt64.toNat_add, Nat.mod_eq_of_lt hfits]
  · cases h

theorem toNat_of_mulWord {c : UInt64} (h : mulWord a b = .ok c) :
    c.toNat = a.toNat * b.toNat := by
  unfold mulWord at h
  split at h
  · next hfits =>
    cases h
    rw [UInt64.toNat_mul, Nat.mod_eq_of_lt hfits]
  · cases h

theorem exists_addWord (h : a.toNat + b.toNat < UInt64.size) :
    ∃ c, addWord a b = .ok c ∧ c.toNat = a.toNat + b.toNat :=
  ⟨a + b, if_pos h, toNat_of_addWord (if_pos h)⟩

theorem exists_mulWord (h : a.toNat * b.toNat < UInt64.size) :
    ∃ c, mulWord a b = .ok c ∧ c.toNat = a.toNat * b.toNat :=
  ⟨a * b, if_pos h, toNat_of_mulWord (if_pos h)⟩

end Words

namespace Buffer

variable {b b' : Buffer} {room : Nat}

/-- The room that was reserved has grown once at most. -/
structure GrownOnce (room : Nat) (b : Buffer) : Prop where
  room : b.room = room ∨ b.room = 2 * room
  text : b.text.utf8ByteSize ≤ b.room

theorem grownOnce_start (room : Nat) : GrownOnce room ⟨"", room⟩ :=
  ⟨.inl rfl, Nat.zero_le room⟩

theorem GrownOnce.push (h : b.GrownOnce room) (hmost : 2 * room ≤ greatestRoom) {s : String}
    (hs : b.text.utf8ByteSize + s.utf8ByteSize ≤ 2 * room) :
    ∃ b', b.push s = .ok b' ∧ b'.text = b.text ++ s ∧ b'.GrownOnce room := by
  have hgrown : (grown b.room (b.text.utf8ByteSize + s.utf8ByteSize) = room ∨
      grown b.room (b.text.utf8ByteSize + s.utf8ByteSize) = 2 * room) ∧
      b.text.utf8ByteSize + s.utf8ByteSize ≤
        grown b.room (b.text.utf8ByteSize + s.utf8ByteSize) := by
    have hroom := h.room
    unfold grown
    split <;> omega
  refine ⟨_, if_pos (by omega), rfl, hgrown.1, ?_⟩
  rw [String.utf8ByteSize_append]
  exact hgrown.2

theorem GrownOnce.pushAll (hmost : 2 * room ≤ greatestRoom) (pieces : List String) :
    ∀ b : Buffer, b.GrownOnce room →
      b.text.utf8ByteSize + (String.join pieces).utf8ByteSize ≤ 2 * room →
      ∃ b', b.pushAll pieces = .ok b' ∧ b'.text = b.text ++ String.join pieces ∧
        b'.GrownOnce room := by
  induction pieces with
  | nil =>
    intro b h _
    exact ⟨b, rfl, (String.append_empty).symm, h⟩
  | cons s pieces ih =>
    intro b h hs
    rw [String.join_cons, String.utf8ByteSize_append] at hs
    obtain ⟨c, hpush, htext, hc⟩ := h.push hmost (s := s) (by omega)
    obtain ⟨b', hrest, htext', hb'⟩ := ih c hc (by
      rw [htext, String.utf8ByteSize_append]
      omega)
    refine ⟨b', ?_, ?_, hb'⟩
    · rw [Buffer.pushAll, List.foldlM_cons, hpush]
      exact hrest
    · rw [htext', htext, String.join_cons, String.append_assoc]

/-- The room has grown as often as needed, if it ever did. -/
structure Holds (room : Nat) (b : Buffer) : Prop where
  room : b.room = room ∨ 2 * room ≤ b.room
  text : b.text.utf8ByteSize ≤ b.room
  most : b.room ≤ greatestRoom

theorem holds_start (h : room ≤ greatestRoom) : Holds room ⟨"", room⟩ :=
  ⟨.inl rfl, Nat.zero_le room, h⟩

theorem Holds.push (h : b.Holds room) {s : String} (hpush : b.push s = .ok b') :
    b'.text = b.text ++ s ∧ b'.Holds room := by
  unfold Buffer.push at hpush
  simp only at hpush
  split at hpush
  · next hmost =>
    cases hpush
    refine ⟨rfl, ?_, ?_, hmost⟩
    · have hroom := h.room
      simp only [grown]
      split <;> omega
    · rw [String.utf8ByteSize_append]
      simp only [grown]
      split <;> omega
  · cases hpush

theorem Holds.pushAll (pieces : List String) : ∀ {b b' : Buffer}, b.Holds room →
    b.pushAll pieces = .ok b' → b'.text = b.text ++ String.join pieces ∧ b'.Holds room := by
  induction pieces with
  | nil =>
    intro b b' h hb
    cases hb
    exact ⟨String.append_empty.symm, h⟩
  | cons s pieces ih =>
    intro b b' h hb
    rw [Buffer.pushAll, List.foldlM_cons] at hb
    cases hpush : b.push s with
    | error o =>
      rw [hpush] at hb
      cases hb
    | ok c =>
      rw [hpush] at hb
      obtain ⟨htext, hc⟩ := h.push hpush
      obtain ⟨htext', hb'⟩ := ih hc hb
      rw [htext', htext, String.join_cons, String.append_assoc]
      exact ⟨rfl, hb'⟩

/-- A text that needs more than what was reserved is not written if there cannot be twice that
room. -/
theorem Holds.size_le (h : b.Holds room) (hmost : greatestRoom < 2 * room) :
    b.text.utf8ByteSize ≤ room := by
  have hroom := h.room
  have htext := h.text
  have hleast := h.most
  omega

end Buffer

end TableJoin.Text
