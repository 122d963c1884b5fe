import TableJoin.Proofs.Markup.Token

/-!
Escaping loses nothing: written characters are read back as they were, as an
attribute value in one piece and as character data in several runs.
-/

namespace TableJoin.Markup

/-- The characters between `&` and `;` that stand for a character. -/
structure Names (name : List Char) (c : Char) : Prop where
  letters : ∀ x ∈ name, x.isLower = true
  resolve_eq : ∀ start, resolve start name = .ok c

/-- A character is written as itself, unless it delimits markup; then it is written
as a reference to it. -/
theorem escapeChar_cases (c : Char) :
    (escapeChar c = [c] ∧ isPlain c = true ∧ c ≠ '>' ∧ isQuote c = false) ∨
      ∃ name, escapeChar c = '&' :: (name ++ [';']) ∧ Names name c := by
  by_cases hlt : c = '<'
  · subst hlt
    exact .inr ⟨['l', 't'], rfl, List.all_eq_true.mp rfl, fun _ => rfl⟩
  by_cases hgt : c = '>'
  · subst hgt
    exact .inr ⟨['g', 't'], rfl, List.all_eq_true.mp rfl, fun _ => rfl⟩
  by_cases hamp : c = '&'
  · subst hamp
    exact .inr ⟨['a', 'm', 'p'], rfl, List.all_eq_true.mp rfl, fun _ => rfl⟩
  by_cases hapos : c = '\''
  · subst hapos
    exact .inr ⟨['a', 'p', 'o', 's'], rfl, List.all_eq_true.mp rfl, fun _ => rfl⟩
  by_cases hquot : c = '"'
  · subst hquot
    exact .inr ⟨['q', 'u', 'o', 't'], rfl, List.all_eq_true.mp rfl, fun _ => rfl⟩
  · refine .inl ⟨?_, ?_, hgt, ?_⟩
    · unfold escapeChar
      split
      · exact absurd rfl hlt
      · exact absurd rfl hgt
      · exact absurd rfl hamp
      · exact absurd rfl hapos
      · exact absurd rfl hquot
      · rfl
    · simp [isPlain, hlt, hamp]
    · simp [isQuote, hapos, hquot]

theorem escape_cons (c : Char) (cs : List Char) : escape (c :: cs) = escapeChar c ++ escape cs :=
  rfl

/-- Written characters delimit neither tags nor attribute values. -/
theorem not_delimiter_of_mem_escape {cs : List Char} {x : Char} (hx : x ∈ escape cs) :
    x ≠ '<' ∧ x ≠ '>' ∧ isQuote x = false := by
  obtain ⟨c, -, hmem⟩ := List.mem_flatMap.mp hx
  rcases escapeChar_cases c with ⟨hself, hplain, hgt, hquote⟩ | ⟨name, heq, hname⟩
  · rw [hself, List.mem_singleton] at hmem
    subst hmem
    refine ⟨?_, hgt, hquote⟩
    intro heq
    subst heq
    cases hplain
  · rw [heq] at hmem
    simp only [List.mem_cons, List.mem_append, List.not_mem_nil, or_false] at hmem
    rcases hmem with rfl | hletter | rfl
    · decide
    · have hlower := hname.letters x hletter
      refine ⟨?_, ?_, ?_⟩
      · rintro rfl
        cases hlower
      · rintro rfl
        cases hlower
      · cases hq : isQuote x with
        | false => rfl
        | true =>
          simp only [isQuote, Bool.or_eq_true, decide_eq_true_eq] at hq
          rcases hq with rfl | rfl <;> cases hlower
    · decide

theorem unescapeFrom_name (size start : Nat) {name : List Char} (rest : List Char)
    (hname : ∀ x ∈ name, x.isLower = true) : ∀ (offset : Nat) (read : List Char),
    ∃ offset', unescapeFrom size offset (some (start, read)) (name ++ rest) =
      unescapeFrom size offset' (some (start, name.reverse ++ read)) rest := by
  induction name with
  | nil => exact fun offset read => ⟨offset, rfl⟩
  | cons x name ih =>
    intro offset read
    have hx := hname x List.mem_cons_self
    have hsemicolon : x ≠ ';' := by
      rintro rfl
      cases hx
    have hamp : x ≠ '&' := by
      rintro rfl
      cases hx
    obtain ⟨offset', hrest⟩ :=
      ih (fun y hy => hname y (List.mem_cons_of_mem x hy)) (offset + x.utf8Size) (x :: read)
    refine ⟨offset', ?_⟩
    simp only [List.cons_append, unescapeFrom, hsemicolon, hamp, ↓reduceIte, hrest,
      List.reverse_cons, List.append_assoc, List.nil_append]

theorem unescapeFrom_escape (size : Nat) (cs : List Char) :
    ∀ offset, unescapeFrom size offset none (escape cs) = .ok cs := by
  induction cs with
  | nil => exact fun _ => rfl
  | cons c cs ih =>
    intro offset
    rw [escape_cons]
    rcases escapeChar_cases c with ⟨hself, hplain, -, -⟩ | ⟨name, heq, hname⟩
    · have hamp : c ≠ '&' := by
        rintro rfl
        cases hplain
      simp only [hself, List.singleton_append, unescapeFrom, hamp, ↓reduceIte, ih]
      rfl
    · rw [heq, List.cons_append, List.append_assoc]
      simp only [unescapeFrom, ↓reduceIte, List.singleton_append]
      obtain ⟨offset', hread⟩ := unescapeFrom_name size (offset + '&'.utf8Size)
        (';' :: escape cs) hname.letters (offset + '&'.utf8Size) []
      rw [hread]
      simp only [unescapeFrom, ↓reduceIte, List.append_nil, List.reverse_reverse,
        hname.resolve_eq, ih]
      rfl

/-- An attribute value is read back as it was written. -/
theorem unescape_escape (cs : List Char) : unescape (escape cs) = .ok cs :=
  unescapeFrom_escape _ cs 0

theorem nextToken_reference {name : List Char} (hname : ∀ x ∈ name, x.isLower = true)
    (rest : List Char) :
    nextToken ('&' :: (name ++ ';' :: rest)) = .ok (some (.reference name, rest)) := by
  have htake : ((name ++ ';' :: rest).takeWhile fun c => c != ';' && c != '&' && c != '<') =
      name := by
    rw [List.takeWhile_append_of_pos]
    · simp
    · intro x hx
      have hlower := hname x hx
      simp only [Bool.and_eq_true, bne_iff_ne, ne_eq]
      refine ⟨⟨?_, ?_⟩, ?_⟩ <;> rintro rfl <;> cases hlower
  simp only [nextToken, htake, List.drop_left]

/-- Written characters begin with those that are written as themselves, whatever
markup follows them. -/
theorem exists_plainRun (cs : List Char) :
    ∃ run tail, cs = run ++ tail ∧ ∀ rest : List Char, (∀ c ∈ rest.head?, isPlain c = false) →
      (escape cs ++ rest).takeWhile isPlain = run ∧
        (escape cs ++ rest).dropWhile isPlain = escape tail ++ rest := by
  induction cs with
  | nil =>
    refine ⟨[], [], rfl, fun rest hrest => ?_⟩
    cases rest with
    | nil => exact ⟨rfl, rfl⟩
    | cons c rest =>
      have hc := hrest c rfl
      simp [escape, hc]
  | cons c cs ih =>
    rcases escapeChar_cases c with ⟨hself, hplain, -, -⟩ | ⟨name, heq, hname⟩
    · obtain ⟨run, tail, hcs, hcut⟩ := ih
      refine ⟨c :: run, tail, by rw [hcs, List.cons_append], fun rest hrest => ?_⟩
      obtain ⟨htake, hdrop⟩ := hcut rest hrest
      rw [escape_cons, hself, List.singleton_append, List.cons_append,
        List.takeWhile_cons_of_pos hplain, List.dropWhile_cons_of_pos hplain, htake, hdrop]
      exact ⟨rfl, rfl⟩
    · refine ⟨[], c :: cs, rfl, fun rest _ => ?_⟩
      rw [escape_cons, heq]
      exact ⟨rfl, rfl⟩

/-- Character data that was written as the characters is read back in runs that
amount to them. -/
theorem exists_runs (cs : List Char) :
    ∃ runs : List (List Char), runs.flatten = cs ∧
      ∀ (opened : List (List Char)) (rest : List Char),
        (∀ c ∈ rest.head?, isPlain c = false) →
          NodeStream.ofChars opened (escape cs ++ rest) =
            (NodeStream.ofChars opened rest).behind
              (runs.map fun run => .text (String.ofList run)) := by
  match cs with
  | [] => exact ⟨[], rfl, fun _ _ _ => rfl⟩
  | c :: tail =>
    rcases escapeChar_cases c with ⟨hself, hplain, -, -⟩ | ⟨name, heq, hname⟩
    · obtain ⟨run, further, htail, hcut⟩ := exists_plainRun tail
      have hlength : further.length < (c :: tail).length := by
        rw [htail, List.length_cons, List.length_append]
        omega
      obtain ⟨runs, hruns, hnodes⟩ := exists_runs further
      refine ⟨(c :: run) :: runs, by simp [hruns, htail], fun opened rest hrest => ?_⟩
      have htoken := nextToken_of_isPlain hplain (escape tail ++ rest)
      rw [(hcut rest hrest).1, (hcut rest hrest).2] at htoken
      rw [escape_cons, hself, List.singleton_append, List.cons_append,
        NodeStream.ofChars_text htoken, hnodes opened rest hrest, NodeStream.cons_behind]
      rfl
    · obtain ⟨runs, hruns, hnodes⟩ := exists_runs tail
      refine ⟨[c] :: runs, by simp [hruns], fun opened rest hrest => ?_⟩
      have htoken := nextToken_reference hname.letters (escape tail ++ rest)
      rw [escape_cons, heq]
      simp only [List.cons_append, List.append_assoc, List.nil_append]
      rw [NodeStream.ofChars_reference htoken (hname.resolve_eq 1), hnodes opened rest hrest,
        NodeStream.cons_behind]
      rfl
termination_by cs.length

end TableJoin.Markup
