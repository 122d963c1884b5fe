import TableJoin.Markup.Node

/-!
Every token takes a character at least and leaves an end of the text, so there
is always fuel enough: the nodes of a text follow from its first token and the
nodes of what comes behind it.
-/

namespace TableJoin.Text

theorem suffix_of_cutAt {mark cs before after : List Char}
    (h : cutAt mark cs = some (before, after)) : after <:+ cs := by
  induction cs generalizing before after with
  | nil => cases h
  | cons c cs ih =>
    unfold cutAt at h
    split at h
    · cases h
      exact List.drop_suffix ..
    · obtain ⟨⟨b, a⟩, hcut, heq⟩ := Option.map_eq_some_iff.mp h
      cases heq
      exact (ih hcut).trans (List.suffix_cons c cs)

theorem suffix_of_cutAt_map {mark cs after : List Char}
    (h : (cutAt mark cs).map (·.2) = some after) : after <:+ cs := by
  obtain ⟨⟨before, a⟩, hcut, rfl⟩ := Option.map_eq_some_iff.mp h
  exact suffix_of_cutAt hcut

theorem drop_takeWhile (p : Char → Bool) (cs : List Char) :
    cs.drop (cs.takeWhile p).length = cs.dropWhile p := by
  induction cs with
  | nil => rfl
  | cons c cs ih =>
    by_cases hc : p c
    · simpa [hc] using ih
    · simp [hc]

end TableJoin.Text

namespace TableJoin.Markup

open Text

variable {ε α β : Type}

/-- What is answered after a further step was answered before it. -/
theorem exists_of_map_eq_ok {x : Except ε α} {f : α → β} {b : β} (h : x.map f = .ok b) :
    ∃ a, x = .ok a ∧ f a = b := by
  cases x with
  | error e => cases h
  | ok a =>
    cases h
    exact ⟨a, rfl, rfl⟩

theorem suffix_of_cutTag {quote : Option Char} {cs before after : List Char}
    (h : cutTag quote cs = .ok (before, after)) : after <:+ cs := by
  induction cs generalizing quote before after with
  | nil => cases h
  | cons c cs ih =>
    have further : ∀ q, ((cutTag q cs).map fun p => (c :: p.1, p.2)) = .ok (before, after) →
        after <:+ c :: cs := by
      intro q hq
      obtain ⟨⟨b, a⟩, hcut, heq⟩ := exists_of_map_eq_ok hq
      cases heq
      exact (ih hcut).trans (List.suffix_cons c cs)
    cases quote with
    | some q => exact further _ h
    | none =>
      unfold cutTag at h
      simp only at h
      split at h
      · cases h
        exact List.suffix_cons c cs
      · exact further _ h

theorem suffix_of_tagContent {cs content after : List Char}
    (h : tagContent cs = .ok (content, after)) : after <:+ cs := by
  unfold tagContent at h
  cases hcut : cutTag none cs with
  | error quote => rw [hcut] at h; cases h
  | ok found =>
    rw [hcut] at h
    cases h
    exact suffix_of_cutTag hcut

theorem suffix_of_afterSubset {fuel : Nat} : ∀ {cs after : List Char},
    afterSubset fuel cs = some after → after <:+ cs := by
  induction fuel with
  | zero => intro cs after h; cases h
  | succ fuel ih =>
    intro cs after h
    have hdrop := cs.dropWhile_suffix fun c => c != ']' && c != '<'
    unfold afterSubset at h
    split at h
    · next rest heq =>
      cases h
      rw [heq] at hdrop
      exact (List.suffix_cons _ _).trans hdrop
    · next rest heq =>
      rw [heq] at hdrop
      obtain ⟨next, hnext, hafter⟩ := Option.bind_eq_some_iff.mp h
      have hrest : next <:+ rest := by
        split at hnext
        · exact (suffix_of_cutAt_map hnext).trans (List.drop_suffix ..)
        · split at hnext
          · exact suffix_of_cutAt_map hnext
          · split at hnext
            · obtain ⟨⟨before, a⟩, hcut, rfl⟩ := Option.map_eq_some_iff.mp hnext
              cases htag : cutTag none rest with
              | error e => rw [htag] at hcut; cases hcut
              | ok found =>
                rw [htag] at hcut
                cases hcut
                exact suffix_of_cutTag htag
            · exact suffix_of_cutAt_map hnext
      exact ((ih hafter).trans hrest).trans ((List.suffix_cons _ _).trans hdrop)
    · cases h

theorem suffix_of_afterDoctype {quote : Option Char} {cs after : List Char}
    (h : afterDoctype quote cs = some after) : after <:+ cs := by
  induction cs generalizing quote with
  | nil => cases h
  | cons c cs ih =>
    have htail := List.suffix_cons c cs
    cases quote with
    | some q => exact (ih h).trans htail
    | none =>
      unfold afterDoctype at h
      simp only at h
      split at h
      · cases h
        exact htail
      · split at h
        · obtain ⟨rest, hsubset, hcut⟩ := Option.bind_eq_some_iff.mp h
          exact ((suffix_of_cutAt_map hcut).trans (suffix_of_afterSubset hsubset)).trans htail
        · exact (ih h).trans htail

theorem suffix_of_doctype {cs after : List Char} (h : doctype cs = .ok after) : after <:+ cs := by
  unfold doctype at h
  simp only at h
  split at h
  · split at h
    · cases h
    · next rest hdoctype =>
      split at h
      · cases h
      · cases h
        exact (suffix_of_afterDoctype hdoctype).trans (List.drop_suffix ..)
  · cases h

theorem suffix_of_instruction {cs after : List Char} (h : instruction cs = .ok after) :
    after <:+ cs := by
  unfold instruction at h
  split at h
  · cases h
  · next before rest hcut =>
    cases h
    exact suffix_of_cutAt hcut
  · simp only at h
    split at h <;> cases h

theorem suffix_of_bang {cs after : List Char} {token : Token} (h : bang cs = .ok (token, after)) :
    after <:+ cs := by
  unfold bang at h
  split at h
  · next rest =>
    split at h
    · next body =>
      split at h
      · next before rest' hcut =>
        cases h
        have := suffix_of_cutAt hcut
        exact (this.trans (List.suffix_cons ..)).trans (List.suffix_cons ..)
      · cases h
    · cases h
  · next rest =>
    split at h
    · split at h
      · next data rest' hcut =>
        cases h
        have := suffix_of_cutAt hcut
        exact (this.trans (List.drop_suffix ..)).trans (List.suffix_cons ..)
      · cases h
    · cases h
  · split at h
    · obtain ⟨a, hdoctype, heq⟩ := exists_of_map_eq_ok h
      cases heq
      exact suffix_of_doctype hdoctype
    · cases h
  · cases h

/-- Neither a tag nor a reference begins with the character. -/
def isPlain (c : Char) : Bool := c != '<' && c != '&'

/-- Where no markup begins, the next token is the character data in front of the
next markup. -/
theorem nextToken_of_isPlain {c : Char} (h : isPlain c = true) (cs : List Char) :
    nextToken (c :: cs) =
      .ok (some (.text (c :: cs.takeWhile isPlain), cs.dropWhile isPlain)) := by
  have htake := List.takeWhile_cons_of_pos (l := cs) h
  have hdrop := drop_takeWhile isPlain (c :: cs)
  rw [htake, List.dropWhile_cons_of_pos h] at hdrop
  rw [← hdrop, ← htake]
  unfold nextToken
  split
  · next heq => cases heq
  · next heq => cases heq; cases h
  · next heq => cases heq; cases h
  · rfl

/-- A token takes a character at least, and what it leaves is an end of the text. -/
theorem suffix_of_nextToken {c : Char} {body rest : List Char} {token : Token}
    (h : nextToken (c :: body) = .ok (some (token, rest))) : rest <:+ body := by
  by_cases hplain : isPlain c = true
  · rw [nextToken_of_isPlain hplain] at h
    cases h
    exact List.dropWhile_suffix _
  · unfold nextToken at h
    split at h
    · next heq => cases heq
    · next heq =>
      cases heq
      split at h
      · obtain ⟨⟨t, after⟩, hbang, heq⟩ := exists_of_map_eq_ok h
        cases heq
        exact (suffix_of_bang hbang).trans (List.suffix_cons ..)
      · obtain ⟨after, hinstruction, heq⟩ := exists_of_map_eq_ok h
        cases heq
        exact suffix_of_instruction hinstruction
      · obtain ⟨⟨content, after⟩, htag, heq⟩ := exists_of_map_eq_ok h
        cases heq
        exact (suffix_of_tagContent htag).trans (List.suffix_cons ..)
      · obtain ⟨⟨content, after⟩, htag, heq⟩ := exists_of_map_eq_ok h
        have hafter : after = rest := by
          simp only at heq
          split at heq <;> cases heq <;> rfl
        rw [← hafter]
        exact suffix_of_tagContent htag
    · next heq =>
      cases heq
      have hdrop := List.drop_suffix
        (body.takeWhile fun c => c != ';' && c != '&' && c != '<').length body
      simp only at h
      split at h
      · next after heq =>
        cases h
        rw [heq] at hdrop
        exact (List.suffix_cons ..).trans hdrop
      · cases h
    · next hnil hopen hamp =>
      have hlt : c ≠ '<' := fun heq => hopen body (by rw [heq])
      have hand : c ≠ '&' := fun heq => hamp body (by rw [heq])
      simp [isPlain, hlt, hand] at hplain

/-- Any two amounts of fuel that cover the text give the same tokens. -/
theorem tokensFrom_congr {fuel : Nat} : ∀ {fuel' : Nat} {cs : List Char}, cs.length ≤ fuel →
    cs.length ≤ fuel' → tokensFrom fuel cs = tokensFrom fuel' cs := by
  induction fuel with
  | zero =>
    intro fuel' cs h _
    obtain rfl := List.eq_nil_of_length_eq_zero (Nat.le_zero.mp h)
    cases fuel' <;> rfl
  | succ fuel ih =>
    intro fuel' cs h h'
    cases cs with
    | nil => cases fuel' <;> rfl
    | cons c body =>
      obtain ⟨fuel', rfl⟩ := Nat.exists_eq_add_one_of_ne_zero (Nat.ne_zero_of_lt h')
      rw [List.length_cons] at h h'
      unfold tokensFrom
      cases hnext : nextToken (c :: body) with
      | error fault => rfl
      | ok found =>
        cases found with
        | none => rfl
        | some pair =>
          obtain ⟨token, rest⟩ := pair
          have hlength := (suffix_of_nextToken hnext).length_le
          simp only
          rw [ih (by omega) (by omega : rest.length ≤ fuel')]

namespace NodeStream

def behind (nodes : List Node) (stream : NodeStream) : NodeStream :=
  ⟨nodes ++ stream.nodes, stream.fault⟩

@[simp] theorem behind_nil (stream : NodeStream) : stream.behind [] = stream := rfl

@[simp] theorem behind_behind (ns ms : List Node) (stream : NodeStream) :
    (stream.behind ms).behind ns = stream.behind (ns ++ ms) := by
  simp only [behind, List.append_assoc]

theorem cons_behind (node : Node) (nodes : List Node) (stream : NodeStream) :
    (stream.behind nodes).cons node = stream.behind (node :: nodes) := rfl

/-- The nodes of characters inside elements with the raw names `opened`. -/
def ofChars (opened : List (List Char)) (cs : List Char) : NodeStream :=
  ofTokens (tokensFrom cs.length cs).2 opened (tokensFrom cs.length cs).1

/-- A text that begins without a byte order mark is read from its first character. -/
theorem ofText_eq_ofChars {xml : String} (h : xml.toList.head? ≠ some '\ufeff') :
    ofText xml = ofChars [] xml.toList := by
  simp only [ofText, ofChars, tokens, h, ↓reduceIte]

theorem ofChars_nil (opened : List (List Char)) : ofChars opened [] = ⟨[], none⟩ := rfl

/-- The first token decides how the nodes of a text begin. -/
theorem ofChars_of_nextToken {opened : List (List Char)} {cs rest : List Char} {token : Token}
    (h : nextToken cs = .ok (some (token, rest))) :
    ofChars opened cs =
      ofTokens (tokensFrom rest.length rest).2 opened
        (token :: (tokensFrom rest.length rest).1) := by
  cases cs with
  | nil => cases h
  | cons c body =>
    have hlength := (suffix_of_nextToken h).length_le
    have hfuel : tokensFrom body.length rest = tokensFrom rest.length rest :=
      tokensFrom_congr hlength (Nat.le_refl _)
    simp only [ofChars, List.length_cons, tokensFrom, h, hfuel]

theorem ofChars_text {opened : List (List Char)} {cs text rest : List Char}
    (h : nextToken cs = .ok (some (.text text, rest))) :
    ofChars opened cs = (ofChars opened rest).cons (.text (String.ofList text)) := by
  rw [ofChars_of_nextToken h]
  rfl

theorem ofChars_aside {opened : List (List Char)} {cs rest : List Char}
    (h : nextToken cs = .ok (some (.aside, rest))) : ofChars opened cs = ofChars opened rest := by
  rw [ofChars_of_nextToken h]
  rfl

theorem ofChars_reference {opened : List (List Char)} {cs name rest : List Char} {c : Char}
    (h : nextToken cs = .ok (some (.reference name, rest))) (hc : resolve 1 name = .ok c) :
    ofChars opened cs = (ofChars opened rest).cons (.text (String.ofList [c])) := by
  rw [ofChars_of_nextToken h]
  simp only [ofTokens, hc]
  rfl

theorem ofChars_startTag {opened : List (List Char)} {cs content rest : List Char}
    {tag : StartTag} (h : nextToken cs = .ok (some (.startTag content, rest)))
    (htag : StartTag.ofContent content false = .ok tag) :
    ofChars opened cs = (ofChars (rawName content :: opened) rest).cons (.start tag) := by
  rw [ofChars_of_nextToken h]
  simp only [ofTokens, htag]
  rfl

theorem ofChars_emptyTag {opened : List (List Char)} {cs content rest : List Char}
    {tag : StartTag} (h : nextToken cs = .ok (some (.emptyTag content, rest)))
    (htag : StartTag.ofContent content true = .ok tag) :
    ofChars opened cs = (ofChars opened rest).cons (.start tag) := by
  rw [ofChars_of_nextToken h]
  simp only [ofTokens, htag]
  rfl

theorem ofChars_endTag {opened : List (List Char)} {cs name rest : List Char}
    (h : nextToken cs = .ok (some (.endTag name, rest))) :
    ofChars (name :: opened) cs = (ofChars opened rest).cons .close := by
  rw [ofChars_of_nextToken h]
  simp only [ofTokens, ↓reduceIte]
  rfl

end NodeStream

end TableJoin.Markup
