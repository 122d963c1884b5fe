import TableJoin.Declaration.Quoted

/-!
String literals: what is written for a text is read as the text again.
-/

namespace TableJoin.Declaration.StringLiteral

/-- A character that is written in a literal is read back, whatever follows it. -/
theorem unescape_escape (fuel : Nat) (c : Char) (rest : List Char) :
    unescape (fuel + 1) (escape c ++ rest) = c :: unescape fuel rest := by
  unfold escape
  split
  · rfl
  · rfl
  · rfl
  · rfl
  · rfl
  · rfl
  · next hquote hslash _ hreturn _ _ =>
    rw [List.singleton_append, unescape]
    · exact hquote
    · exact fun _ _ _ h _ => hslash h
    · exact fun _ h _ => hslash h
    · exact fun _ h _ => hslash h
    · exact fun _ h _ => hslash h
    · exact fun _ _ h _ => hslash h
    · exact fun _ h _ => hreturn h

theorem unescape_flatMap (cs : List Char) :
    ∀ fuel, cs.length < fuel → unescape fuel (cs.flatMap escape ++ ['"']) = cs := by
  induction cs with
  | nil =>
    intro fuel hfuel
    obtain ⟨fuel, rfl⟩ := Nat.exists_eq_add_one_of_ne_zero (Nat.ne_zero_of_lt hfuel)
    rfl
  | cons c cs ih =>
    intro fuel hfuel
    obtain ⟨fuel, rfl⟩ := Nat.exists_eq_add_one_of_ne_zero (Nat.ne_zero_of_lt hfuel)
    rw [List.flatMap_cons, List.append_assoc, unescape_escape, ih fuel (by simpa using hfuel)]

theorem length_le_flatMap_escape (cs : List Char) : cs.length ≤ (cs.flatMap escape).length := by
  induction cs with
  | nil => exact Nat.le_refl 0
  | cons c cs ih =>
    have hc : 0 < (escape c).length := by
      unfold escape
      split <;> exact Nat.zero_lt_succ _
    rw [List.flatMap_cons, List.length_append, List.length_cons]
    omega

theorem value_written_ofText (s : String) : value ⟨(ofText s).written⟩ = s := by
  have hlength := length_le_flatMap_escape s.toList
  have hbody : unescape (s.toList.flatMap escape ++ ['"']).length
      (s.toList.flatMap escape ++ ['"']) = s.toList :=
    unescape_flatMap _ _ (by simp only [List.length_append, List.length_singleton]; omega)
  simp only [value, ofText, String.toList_ofList]
  rw [hbody, String.ofList_toList]

end TableJoin.Declaration.StringLiteral
