import TableJoin.Proofs.Markup.SourceNodes

/-!
A text whose nodes are those of a tree is written as a tree: token by token, the
characters of each token are those of a part.
-/

namespace TableJoin.Markup

open Text

namespace NodeStream

variable {opened : List (List Char)} {cs : List Char}

/-- What a token amounts to, given the nodes of what follows it. -/
inductive Begins (opened : List (List Char)) (stream : NodeStream) (rest : List Char) :
    Node → Token → Prop
  | text (t : List Char) : ofChars opened rest = stream →
      Begins opened stream rest (.text (String.ofList t)) (.text t)
  | reference {name : List Char} {c : Char} : resolve 1 name = .ok c →
      ofChars opened rest = stream →
      Begins opened stream rest (.text (String.ofList [c])) (.reference name)
  | startTag {content : List Char} {tag : StartTag} :
      StartTag.ofContent content false = .ok tag →
      ofChars (rawName content :: opened) rest = stream →
      Begins opened stream rest (.start tag) (.startTag content)
  | emptyTag {content : List Char} {tag : StartTag} :
      StartTag.ofContent content true = .ok tag → ofChars opened rest = stream →
      Begins opened stream rest (.start tag) (.emptyTag content)
  | endTag {name : List Char} {outer : List (List Char)} : opened = name :: outer →
      ofChars outer rest = stream → Begins opened stream rest .close (.endTag name)
  | aside {node : Node} : ofChars opened rest = stream.cons node →
      Begins opened stream rest node .aside

theorem cons_inj {node node' : Node} {stream stream' : NodeStream}
    (h : stream'.cons node' = stream.cons node) : node' = node ∧ stream' = stream := by
  obtain ⟨nodes', fault'⟩ := stream'
  cases h
  exact ⟨rfl, rfl⟩

/-- The first node of a text is that of its first token. -/
theorem begins_of_ofChars {node : Node} {stream : NodeStream}
    (h : ofChars opened cs = stream.cons node) :
    ∃ token rest, nextToken cs = .ok (some (token, rest)) ∧
      Begins opened stream rest node token := by
  cases hnext : nextToken cs with
  | error fault =>
    cases cs with
    | nil => cases hnext
    | cons c body =>
      simp only [ofChars, List.length_cons, tokensFrom, hnext] at h
      cases h
  | ok found =>
    cases found with
    | none =>
      cases cs with
      | nil => cases h
      | cons c body =>
        simp only [ofChars, List.length_cons, tokensFrom, hnext] at h
        cases h
    | some pair =>
      obtain ⟨token, rest⟩ := pair
      refine ⟨token, rest, rfl, ?_⟩
      rw [ofChars_of_nextToken hnext] at h
      cases token with
      | aside => exact .aside h
      | text t =>
        obtain ⟨rfl, hrest⟩ := cons_inj h
        exact .text t hrest
      | reference name =>
        simp only [ofTokens] at h
        split at h
        · cases h
        · next c hc =>
          obtain ⟨rfl, hrest⟩ := cons_inj h
          exact .reference hc hrest
      | startTag content =>
        simp only [ofTokens] at h
        split at h
        · cases h
        · next tag htag =>
          obtain ⟨rfl, hrest⟩ := cons_inj h
          exact .startTag htag hrest
      | emptyTag content =>
        simp only [ofTokens] at h
        split at h
        · cases h
        · next tag htag =>
          obtain ⟨rfl, hrest⟩ := cons_inj h
          exact .emptyTag htag hrest
      | endTag name =>
        cases opened with
        | nil => cases h
        | cons expected outer =>
          simp only [ofTokens] at h
          split at h
          · next heq =>
            obtain ⟨rfl, hrest⟩ := cons_inj h
            exact .endTag (by rw [heq]) hrest
          · cases h

end NodeStream

/-- A token is a run of characters that stand for themselves, or markup that is this
token as it stands. -/
theorem exists_of_nextToken {cs rest : List Char} {token : Token}
    (h : nextToken cs = .ok (some (token, rest))) :
    (∃ run, cs = run ++ rest ∧ token = .text run ∧ run ≠ [] ∧ run.all isPlain = true ∧
      rest.head?.all (!isPlain ·) = true) ∨
    ∃ own, cs = own ++ rest ∧ own ≠ [] ∧ isToken own token = true ∧ token.IsWritten own := by
  cases cs with
  | nil => cases h
  | cons c body =>
    cases hc : isPlain c with
    | true =>
      rw [nextToken_of_isPlain hc] at h
      cases h
      refine .inl ⟨c :: body.takeWhile isPlain, ?_, rfl, List.cons_ne_nil _ _, ?_, ?_⟩
      · rw [List.cons_append, List.takeWhile_append_dropWhile]
      · rw [List.all_cons, hc, List.all_takeWhile]
        rfl
      · have hhead := List.head?_dropWhile_not isPlain body
        cases heq : (body.dropWhile isPlain).head? with
        | none => rfl
        | some d =>
          rw [heq] at hhead
          simpa using hhead
    | false =>
      obtain ⟨own, hown, hwritten, hmore⟩ := nextToken_spec hc h
      refine .inr ⟨own, hown, ?_, isToken_iff.mpr ?_, hwritten⟩
      · rintro rfl
        cases hmore []
      · have hstep := hmore []
        rwa [List.append_nil] at hstep

theorem exists_own_of_nextToken {cs rest : List Char} {token : Token}
    (h : nextToken cs = .ok (some (token, rest))) (htext : ∀ run, token ≠ .text run) :
    ∃ own, cs = own ++ rest ∧ own ≠ [] ∧ isToken own token = true ∧ token.IsWritten own := by
  rcases exists_of_nextToken h with ⟨run, -, heq, -⟩ | hown
  · exact absurd heq (htext run)
  · exact hown

namespace NodeStream

/-- What is known of a text that begins with content: parts with this view, up to the
first token that belongs to something else. -/
structure Splits (opened : List (List Char)) (cs : List Char) (qs : List Part)
    (stream : NodeStream) (ps : List SourcePart) (rest : List Char) : Prop where
  chars : cs = SourcePart.chars ps ++ rest
  wellFormed : SourcePart.areWellFormed ps = true
  views : SourcePart.views ps [] = qs
  stream : ofChars opened rest = stream
  noAside : ∀ after, nextToken rest ≠ .ok (some (.aside, after))

section Splits

variable {opened : List (List Char)} {cs after rest : List Char} {qs : List Part}
  {stream : NodeStream} {ps : List SourcePart}

/-- One more part in front, that is no character of a run. -/
theorem Splits.cons (h : Splits opened after qs stream ps rest) {p : SourcePart}
    {own : List Char} (hcs : cs = own ++ after) (hown : p.own = own)
    (hp : p.isWellFormed = true) {q : List Part}
    (hviews : ∀ ps, SourcePart.views (p :: ps) [] = q ++ SourcePart.views ps []) :
    Splits opened cs (q ++ qs) stream (p :: ps) rest where
  chars := by rw [hcs, h.chars, SourcePart.chars_cons, hown, List.append_assoc]
  wellFormed := SourcePart.areWellFormed_cons.mpr ⟨hp, h.wellFormed⟩
  views := by rw [hviews, h.views]
  stream := h.stream
  noAside := h.noAside

theorem Splits.run (h : Splits opened after qs stream ps rest) {run : List Char}
    (hcs : cs = run ++ after) (hrun : run.all isPlain = true)
    (hafter : after.head?.all (!isPlain ·) = true) (hne : run ≠ []) :
    Splits opened cs (.text (String.ofList run) :: qs) stream (run.map .plain ++ ps) rest where
  chars := by
    have hchars : ∀ (run : List Char) ps,
        SourcePart.chars (run.map .plain ++ ps) = run ++ SourcePart.chars ps := by
      intro run ps
      induction run with
      | nil => rfl
      | cons c run ih => simp [ih]
    rw [hcs, h.chars, hchars, List.append_assoc]
  wellFormed := by
    clear hcs hne
    induction run with
    | nil => exact h.wellFormed
    | cons c run ih =>
      rw [List.all_cons, Bool.and_eq_true] at hrun
      exact SourcePart.areWellFormed_cons.mpr ⟨hrun.1, ih hrun.2⟩
  views := by
    have hdivides : SourcePart.views ps run = Part.ofRun run ++ SourcePart.views ps [] := by
      cases ps with
      | nil => simp [SourcePart.views, Part.ofRun_nil]
      | cons p ps =>
        cases hp : p.divides with
        | true => exact SourcePart.views_of_divides hp ps run
        | false =>
          cases p with
          | plain c =>
            have hc : isPlain c = true := (SourcePart.areWellFormed_cons.mp h.wellFormed).1
            rw [h.chars] at hafter
            simp [hc] at hafter
          | _ => cases hp
    rw [SourcePart.views_map_plain, List.nil_append, hdivides, h.views, Part.ofRun, if_neg hne]
    rfl
  stream := h.stream
  noAside := h.noAside

end Splits

theorem exists_sourceTag {content : List Char} {tag : StartTag} {selfClosing : Bool}
    (htag : StartTag.ofContent content selfClosing = .ok tag) :
    ∃ t : SourceTag, t.isWellFormed = true ∧ t.chars = content ∧ t.view selfClosing = tag ∧
      t.name = rawName content := by
  obtain ⟨t, ht, hchars, hview⟩ := SourceTag.exists_of_ofContent htag
  exact ⟨t, ht, hchars, hview, by rw [← SourceTag.rawName_chars ht, hchars]⟩

/-- Every text of fewer characters whose first nodes are those of content begins with
that content. -/
def SplitsBelow (n : Nat) : Prop :=
  ∀ {opened : List (List Char)} {cs : List Char} {qs : List Part} {stream : NodeStream},
    cs.length < n → ofChars opened cs = stream.behind (Part.nodes qs) →
      ∃ ps rest, Splits opened cs qs stream ps rest

section Steps

variable {n : Nat} {opened : List (List Char)} {cs after : List Char} {qs : List Part}
  {stream : NodeStream}

theorem length_lt_of_append {own : List Char} (hlength : cs.length < n + 1)
    (hcs : cs = own ++ after) (hne : own ≠ []) : after.length < n := by
  have := List.length_pos_iff.mpr hne
  rw [hcs, List.length_append] at hlength
  omega

/-- A piece of text is a run, a reference or a section of unparsed data. -/
theorem exists_splits_text (ih : SplitsBelow n) (hlength : cs.length < n + 1) {s : String}
    (haside : ¬ ∃ after, nextToken cs = .ok (some (.aside, after)))
    (h : ofChars opened cs = (stream.behind (Part.nodes qs)).cons (.text s)) :
    ∃ ps rest, Splits opened cs (.text s :: qs) stream ps rest := by
  obtain ⟨token, after, hnext, hbegins⟩ := begins_of_ofChars h
  cases hbegins with
  | aside _ => exact absurd ⟨after, hnext⟩ haside
  | text t hstream =>
    rcases exists_of_nextToken hnext with
      ⟨run, hcs, heq, hne, hrun, hafter⟩ | ⟨own, hcs, hne, htoken, hwritten⟩
    · cases heq
      obtain ⟨ps, rest, hsplits⟩ := ih (length_lt_of_append hlength hcs hne) hstream
      exact ⟨_, rest, hsplits.run hcs hrun hafter hne⟩
    · obtain ⟨ps, rest, hsplits⟩ := ih (length_lt_of_append hlength hcs hne) hstream
      have hown : own = "<![CDATA[".toList ++ (t ++ "]]>".toList) := hwritten
      refine ⟨_, rest, hsplits.cons (p := .data t) (q := [.text (String.ofList t)]) hcs
        hown.symm ?_ fun ps => rfl⟩
      rw [hown] at htoken
      exact htoken
  | @reference name c hc hstream =>
    obtain ⟨own, hcs, hne, htoken, hwritten⟩ := exists_own_of_nextToken hnext nofun
    obtain ⟨ps, rest, hsplits⟩ := ih (length_lt_of_append hlength hcs hne) hstream
    have hown : own = '&' :: (name ++ [';']) := hwritten
    rw [hown] at htoken
    refine ⟨_, rest, hsplits.cons (p := .reference name) (q := [.text (String.ofList [c])])
      hcs hown.symm ?_ fun ps => ?_⟩
    · exact SourcePart.isWellFormed_reference.mpr ⟨htoken, by rw [hc]; rfl⟩
    · simp [SourcePart.views, Part.ofRun_nil, referred, hc, Except.toOption]

/-- Where an element is closed, an end tag with its name stands. -/
theorem exists_endTag {name : List Char}
    (haside : ∀ after, nextToken cs ≠ .ok (some (.aside, after)))
    (h : ofChars (name :: opened) cs = stream.cons .close) :
    ∃ close after, cs = '<' :: '/' :: (close ++ ['>']) ++ after ∧
      isToken ('<' :: '/' :: (close ++ ['>'])) (.endTag name) = true ∧
      ofChars opened after = stream := by
  obtain ⟨token, after, hnext, hbegins⟩ := begins_of_ofChars h
  cases hbegins with
  | aside _ => exact absurd hnext (haside after)
  | endTag heq hstream =>
    obtain ⟨rfl, rfl⟩ := List.cons.inj heq
    obtain ⟨own, hcs, hne, htoken, hwritten⟩ := exists_own_of_nextToken hnext nofun
    obtain ⟨close, rfl, -⟩ := hwritten
    exact ⟨close, after, hcs, htoken, hstream⟩

/-- An element is a self-closing tag, or a start tag, content and an end tag. -/
theorem exists_splits_element (ih : SplitsBelow n) (hlength : cs.length < n + 1) {e : Element}
    (haside : ¬ ∃ after, nextToken cs = .ok (some (.aside, after)))
    (h : ofChars opened cs =
      ((stream.behind (Part.nodes qs)).behind e.inside).cons (.start e.tag)) :
    ∃ ps rest, Splits opened cs (.element e :: qs) stream ps rest := by
  obtain ⟨token, after, hnext, hbegins⟩ := begins_of_ofChars h
  cases e with
  | empty nsPrefix name attributes =>
    cases hbegins with
    | aside _ => exact absurd ⟨after, hnext⟩ haside
    | startTag htag _ =>
      obtain ⟨t, -, -, hview, -⟩ := exists_sourceTag htag
      cases hview
    | emptyTag htag hstream =>
      obtain ⟨t, ht, rfl, hview, -⟩ := exists_sourceTag htag
      cases hview
      obtain ⟨own, hcs, hne, htoken, hwritten⟩ := exists_own_of_nextToken hnext nofun
      obtain ⟨ps, rest, hsplits⟩ := ih (length_lt_of_append hlength hcs hne) hstream
      have hown : own = '<' :: (t.chars ++ "/>".toList) := hwritten
      rw [hown] at htoken
      exact ⟨_, rest, hsplits.cons (p := .element (.empty t)) (q := [.element _]) hcs
        hown.symm (SourceElement.isWellFormed_empty.mpr ⟨ht, htoken⟩) fun ps => rfl⟩
  | around nsPrefix name attributes parts =>
    cases hbegins with
    | aside _ => exact absurd ⟨after, hnext⟩ haside
    | emptyTag htag _ =>
      obtain ⟨t, -, -, hview, -⟩ := exists_sourceTag htag
      cases hview
    | startTag htag hstream =>
      obtain ⟨t, ht, rfl, hview, hname⟩ := exists_sourceTag htag
      cases hview
      obtain ⟨own, hcs, hne, htoken, hwritten⟩ := exists_own_of_nextToken hnext nofun
      have hown : own = '<' :: (t.chars ++ ['>']) := hwritten
      rw [hown] at htoken
      have hshorter := length_lt_of_append hlength hcs hne
      have hinner : ofChars (t.name :: opened) after =
          ((stream.behind (Part.nodes qs)).cons .close).behind (Part.nodes parts) := by
        rw [hname, hstream, Element.inside, ← behind_behind]
        rfl
      obtain ⟨ps, rest, hsplits⟩ := ih hshorter hinner
      obtain ⟨close, further, hrest, hend, hfurther⟩ :=
        exists_endTag hsplits.noAside hsplits.stream
      have hless : further.length < n := by
        have hlength' := congrArg List.length hsplits.chars
        rw [hrest] at hlength'
        simp only [List.length_append] at hlength'
        omega
      obtain ⟨ps', rest', hsplits'⟩ := ih hless hfurther
      refine ⟨_, rest', hsplits'.cons (p := .element (.around t ps close)) (q := [.element _])
        ?_ rfl (SourceElement.isWellFormed_around.mpr ⟨ht, htoken, hend, hsplits.wellFormed⟩)
        fun ps => ?_⟩
      · rw [hcs, hown, hsplits.chars, hrest]
        simp [SourceElement.chars]
      · simp only [SourcePart.views, Part.ofRun_nil, List.nil_append, SourceElement.view,
          hsplits.views]
        rfl

end Steps

/-- A text whose first nodes are those of content begins with that content.  The
induction is on the length of the text. -/
theorem splitsBelow (n : Nat) : SplitsBelow n := by
  induction n with
  | zero => exact fun h => absurd h (Nat.not_lt_zero _)
  | succ n ih =>
    intro opened cs qs stream hlength h
    by_cases haside : ∃ after, nextToken cs = .ok (some (.aside, after))
    · obtain ⟨after, hnext⟩ := haside
      rw [ofChars_aside hnext] at h
      obtain ⟨own, hcs, hne, htoken, -⟩ := exists_own_of_nextToken hnext nofun
      obtain ⟨ps, rest, hsplits⟩ := ih (length_lt_of_append hlength hcs hne) h
      exact ⟨_, rest, hsplits.cons (p := .aside own) (q := []) hcs rfl htoken fun ps => rfl⟩
    · cases qs with
      | nil => exact ⟨[], cs, rfl, rfl, rfl, h, fun after hnext => haside ⟨after, hnext⟩⟩
      | cons q qs =>
        cases q with
        | text s => exact exists_splits_text ih hlength haside h
        | element e =>
          apply exists_splits_element ih hlength haside
          rw [h, behind_behind]
          rfl

end NodeStream

end TableJoin.Markup
