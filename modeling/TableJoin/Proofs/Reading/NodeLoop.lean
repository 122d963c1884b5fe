import TableJoin.Proofs.Markup.SourceNodes
import TableJoin.Proofs.Reading.MatchingEnd

/-!
Reading text and skipping as loops over the nodes, one node a round, with a counter of the
elements that are open.  The counter never falls below zero, and both loops are over at the
matching end.
-/

namespace TableJoin.Reading

open Markup

section Rounds

/-- What a counter must not come to. -/
inductive CounterFault where
  /-- A number below zero. -/
  | underflow
  /-- A number above the greatest one that the counter holds. -/
  | overflow
deriving DecidableEq, Repr

/-- One more, on a counter that holds numbers up to `limit`. -/
def countUp (limit n : Nat) : Except CounterFault Nat :=
  if n < limit then .ok (n + 1) else .error .overflow

def countDown (n : Nat) : Except CounterFault Nat :=
  if 0 < n then .ok (n - 1) else .error .underflow

/-- Rounds over the nodes, up to a round that is the last one or to the end of the input: where
they came to, and the nodes behind the last round. -/
def runRounds {σ : Type} (round : σ → Node → Except CounterFault (Option σ)) :
    σ → List Node → Except CounterFault (σ × Option (List Node))
  | s, [] => .ok (s, none)
  | s, node :: rest => do
    match ← round s node with
    | some s' => runRounds round s' rest
    | none => return (s, some rest)

/-- What reading text has come to. -/
structure Gathered where
  depth : Nat
  text : String
  events : List Event

/-- A round of reading the text of an element with the tag. -/
def textRound (limit : Nat) (tag : StartTag) (g : Gathered) :
    Node → Except CounterFault (Option Gathered)
  | .text chunk => return some (if g.depth = 0 then { g with text := g.text ++ chunk } else g)
  | .start nested => do
    let told := { g with events := g.events ++ [.markupInText tag.name nested.name] }
    if nested.selfClosing then return some told
    else return some { told with depth := ← countUp limit g.depth }
  | .close => do
    if g.depth = 0 then return none
    else return some { g with depth := ← countDown g.depth }

def skipRound (limit depth : Nat) : Node → Except CounterFault (Option Nat)
  | .start nested => do
    if nested.selfClosing then return some depth else return some (← countUp limit depth)
  | .close => do
    if depth = 0 then return none else return some (← countDown depth)
  | .text _ => return some depth

/-- The loop that reads the text of an element whose start tag has been consumed. -/
def textSteps (limit : Nat) (tag : StartTag) (c : Cursor) :
    Except CounterFault (Except ReadError String × Cursor) := do
  if tag.selfClosing then return (.ok "", c)
  match ← runRounds (textRound limit tag) ⟨0, "", c.events⟩ c.ahead with
  | (g, some after) => return (.ok g.text, { c with ahead := after, events := g.events })
  | (g, none) => return (.error (c.ending tag.name), { c with ahead := [], events := g.events })

/-- The loop that skips an element whose start tag has been consumed. -/
def skipSteps (limit : Nat) (tag : StartTag) (c : Cursor) :
    Except CounterFault (Except ReadError Unit × Cursor) := do
  if tag.selfClosing then return (.ok (), c)
  match ← runRounds (skipRound limit) 0 c.ahead with
  | (_, some after) => return (.ok (), { c with ahead := after })
  | (_, none) => return (.error (c.ending tag.name), { c with ahead := [] })

end Rounds

section Faults

variable {limit n : Nat}

theorem pure_ne_error {ε α : Type} (a : α) (e : ε) : (pure a : Except ε α) ≠ .error e := by
  intro h
  cases h

theorem bind_ne_error {ε α β : Type} {x : Except ε α} {f : α → Except ε β} {e : ε}
    (hx : x ≠ .error e) (hf : ∀ a, f a ≠ .error e) : (x >>= f) ≠ .error e := by
  cases x with
  | ok a => exact hf a
  | error e' => exact fun h => hx (congrArg Except.error (Except.error.inj h))

theorem countUp_of_lt (h : n < limit) : countUp limit n = .ok (n + 1) := if_pos h

theorem countDown_of_ne_zero (h : n ≠ 0) : countDown n = .ok (n - 1) :=
  if_pos (Nat.pos_of_ne_zero h)

theorem countUp_ne_underflow (limit n : Nat) : countUp limit n ≠ .error .underflow := by
  unfold countUp
  split
  · exact pure_ne_error _ _
  · intro h
    cases h

end Faults

section Counting

variable {σ : Type} {limit : Nat} {depth : σ → Nat} {take : σ → Node → σ}
  {round : σ → Node → Except CounterFault (Option σ)}

/-- Rounds that count the open elements: an end node where nothing is open is the last one, and
any other node is taken. -/
structure CountsOpen (limit : Nat) (depth : σ → Nat) (take : σ → Node → σ)
    (round : σ → Node → Except CounterFault (Option σ)) : Prop where
  stops : ∀ s, depth s = 0 → round s .close = .ok none
  takes : ∀ s node, (node = .close → depth s ≠ 0) → depth s + starts [node] ≤ limit →
    round s node = .ok (some (take s node))
  depth_take : ∀ s node, depth (take s node) = depthBehind (depth s) node
  ne_underflow : ∀ s node, round s node ≠ .error .underflow

/-- Rounds that count the open elements take the content and leave what follows it. -/
theorem CountsOpen.runRounds_eq (h : CountsOpen limit depth take round) (ns : List Node) :
    ∀ s, depth s + starts ns ≤ limit →
      runRounds round s ns = .ok ((splitContent (depth s) ns).1.foldl take s,
        (splitContent (depth s) ns).2) := by
  induction ns with
  | nil =>
    intro s _
    rw [runRounds]
    cases depth s <;> rfl
  | cons node rest ih =>
    intro s hlimit
    rw [starts_cons] at hlimit
    rcases close_or_inside (depth s) node with ⟨rfl, hzero⟩ | hnode
    · rw [runRounds, h.stops s hzero, hzero]
      rfl
    · have hround := h.takes s node hnode (by omega)
      -- the counter has room for the rest: it grew by no more than the starts did
      have hle := depthBehind_le (depth s) node
      have hrest := ih (take s node) (by rw [h.depth_take]; omega)
      rw [h.depth_take] at hrest
      rw [splitContent_cons hnode, List.foldl_cons, ← hrest, runRounds, hround]
      rfl

/-- The counter does not fall below zero, whatever it holds. -/
theorem CountsOpen.runRounds_ne_underflow (h : CountsOpen limit depth take round)
    (ns : List Node) : ∀ s, runRounds round s ns ≠ .error .underflow := by
  induction ns with
  | nil => exact fun s => pure_ne_error _ _
  | cons node rest ih =>
    intro s
    refine bind_ne_error (h.ne_underflow s node) fun next => ?_
    cases next with
    | none => exact pure_ne_error _ _
    | some s' => exact ih s'

end Counting

section Skipping

variable {limit depth : Nat} {node : Node}

/-- A node inside moves the counter to the depth behind it, as far as the counter goes. -/
theorem skipRound_of_inside (hnode : node = .close → depth ≠ 0)
    (hlimit : depth + starts [node] ≤ limit) :
    skipRound limit depth node = .ok (some (depthBehind depth node)) := by
  cases node with
  | text s => rfl
  | close =>
    have hne : depth ≠ 0 := hnode rfl
    rw [skipRound, if_neg hne, countDown_of_ne_zero hne]
    rfl
  | start nested =>
    cases hself : nested.selfClosing with
    | true =>
      rw [skipRound, depthBehind, if_pos hself, if_pos hself]
      rfl
    | false =>
      have hopen : ¬ nested.selfClosing = true := by simp [hself]
      have hstarts : starts [Node.start nested] = 1 := by simp [starts, opens, hself]
      have hlt : depth < limit := by
        rw [hstarts] at hlimit
        exact hlimit
      rw [skipRound, depthBehind, if_neg hopen, if_neg hopen, countUp_of_lt hlt]
      rfl

theorem skipRound_ne_underflow (limit depth : Nat) (node : Node) :
    skipRound limit depth node ≠ .error .underflow := by
  cases node with
  | text s => exact pure_ne_error _ _
  | start nested =>
    rw [skipRound]
    split
    · exact pure_ne_error _ _
    · exact bind_ne_error (countUp_ne_underflow limit depth) fun _ => pure_ne_error _ _
  | close =>
    rw [skipRound]
    split
    · exact pure_ne_error _ _
    · next hne =>
      -- the test for zero comes first, so that the counter goes down only from more
      rw [countDown_of_ne_zero hne]
      exact pure_ne_error _ _

theorem countsOpen_skipRound (limit : Nat) :
    CountsOpen limit id depthBehind (skipRound limit) where
  stops := by
    rintro _ rfl
    rfl
  takes _ _ hnode hlimit := skipRound_of_inside hnode hlimit
  depth_take _ _ := rfl
  ne_underflow := skipRound_ne_underflow limit

end Skipping

section Gathering

variable (tag : StartTag)

/-- What reading text has come to behind a node, at the given depth. -/
def Gathered.put (g : Gathered) (node : Node) (depth : Nat) : Gathered where
  depth := depth
  text := g.text ++ (outerText? g.depth [] node).getD ""
  events := g.events ++ markupEvents tag [node]

/-- What reading text has come to behind a node that is not the last one. -/
def Gathered.take (g : Gathered) (node : Node) : Gathered :=
  g.put tag node (depthBehind g.depth node)

theorem textRound_eq (limit : Nat) (g : Gathered) (node : Node) :
    textRound limit tag g node =
      (do return (← skipRound limit g.depth node).map (g.put tag node)) := by
  cases node with
  | text s =>
    by_cases hzero : g.depth = 0 <;>
      simp [textRound, skipRound, Gathered.put, outerText?, markupEvents, startNames, hzero]
  | close =>
    by_cases hzero : g.depth = 0 <;>
      simp [textRound, skipRound, Gathered.put, outerText?, markupEvents, startNames, hzero]
  | start nested =>
    cases hself : nested.selfClosing <;>
      simp [textRound, skipRound, Gathered.put, outerText?, markupEvents, startNames, hself]

theorem countsOpen_textRound (limit : Nat) :
    CountsOpen limit Gathered.depth (Gathered.take tag) (textRound limit tag) where
  stops g h := by
    rw [textRound_eq, (countsOpen_skipRound limit).stops g.depth h]
    rfl
  takes g node hnode hlimit := by
    rw [textRound_eq, skipRound_of_inside hnode hlimit]
    rfl
  depth_take _ _ := rfl
  ne_underflow g node := by
    rw [textRound_eq]
    exact bind_ne_error (skipRound_ne_underflow limit g.depth node) fun _ => pure_ne_error _ _

theorem markupEvents_cons (node : Node) (ns : List Node) :
    markupEvents tag (node :: ns) = markupEvents tag [node] ++ markupEvents tag ns := by
  cases node <;> rfl

/-- Of nodes that are taken, the own text is gathered, and an event for each start. -/
theorem foldl_take (ns : List Node) : ∀ g : Gathered,
    (ns.foldl (Gathered.take tag) g).text = g.text ++ ownText g.depth ns ∧
      (ns.foldl (Gathered.take tag) g).events = g.events ++ markupEvents tag ns := by
  induction ns with
  | nil =>
    intro g
    cases hdepth : g.depth <;> simp [ownText, markupEvents, startNames]
  | cons node rest ih =>
    intro g
    obtain ⟨htext, hevents⟩ := ih (g.take tag node)
    rw [List.foldl_cons, htext, hevents, ownText_cons, markupEvents_cons]
    simp [Gathered.take, Gathered.put, String.append_assoc]

end Gathering

section Steps

variable {tag : StartTag} {c : Cursor} {limit : Nat}

/-- Where the counter holds the number of elements that start, the loop that skips does what
skipping does. -/
theorem skipSteps_eq (hopen : tag.selfClosing = false) (hlimit : starts c.ahead ≤ limit) :
    skipSteps limit tag c = .ok ((skip tag).run c) := by
  have hclosing : ¬ tag.selfClosing = true := by simp [hopen]
  have hrounds := (countsOpen_skipRound limit).runRounds_eq c.ahead 0 (by simpa using hlimit)
  rw [skipSteps, if_neg hclosing, hrounds, run_skip hopen, id_eq]
  cases splitContent 0 c.ahead with
  | mk inside after => cases after <;> rfl

/-- Where the counter holds the number of elements that start, the loop that reads text does what
reading text does. -/
theorem textSteps_eq (hopen : tag.selfClosing = false) (hlimit : starts c.ahead ≤ limit) :
    textSteps limit tag c = .ok ((readText tag).run c) := by
  have hclosing : ¬ tag.selfClosing = true := by simp [hopen]
  have hrounds := (countsOpen_textRound tag limit).runRounds_eq c.ahead ⟨0, "", c.events⟩
    (by simpa using hlimit)
  rw [textSteps, if_neg hclosing, hrounds, run_readText hopen]
  cases splitContent 0 c.ahead with
  | mk inside after =>
    obtain ⟨htext, hevents⟩ := foldl_take tag inside ⟨0, "", c.events⟩
    rw [String.empty_append] at htext
    cases after with
    | some after => simp [bind, Except.bind, pure, Except.pure, htext, hevents]
    | none => simp [bind, Except.bind, pure, Except.pure, hevents]

theorem skipSteps_ne_underflow (limit : Nat) (tag : StartTag) (c : Cursor) :
    skipSteps limit tag c ≠ .error .underflow := by
  rw [skipSteps]
  split
  · exact pure_ne_error _ _
  · refine bind_ne_error ((countsOpen_skipRound limit).runRounds_ne_underflow c.ahead 0) ?_
    rintro ⟨s, _ | after⟩ <;> exact pure_ne_error _ _

theorem textSteps_ne_underflow (limit : Nat) (tag : StartTag) (c : Cursor) :
    textSteps limit tag c ≠ .error .underflow := by
  rw [textSteps]
  split
  · exact pure_ne_error _ _
  · refine bind_ne_error ((countsOpen_textRound tag limit).runRounds_ne_underflow c.ahead _) ?_
    rintro ⟨g, _ | after⟩ <;> exact pure_ne_error _ _

end Steps

section CharacterData

open Text

/-- Character data as it is written in front of `rest`, and the characters that it stands for. -/
inductive CharacterData (rest : List Char) : List Char → List Char → Prop
  /-- Characters that stand for themselves, up to the next markup or the end. -/
  | plain {run : List Char} : run ≠ [] → run.all isPlain = true →
      rest.head?.all (!isPlain ·) = true → CharacterData rest run run
  /-- A section of unparsed character data, up to the first mark that closes it. -/
  | unparsed {cs : List Char} : ¬ "]]>".toList <:+: cs ++ "]]".toList →
      CharacterData rest ("<![CDATA[".toList ++ (cs ++ "]]>".toList)) cs
  /-- A reference that stands for a character. -/
  | reference {name : List Char} {c : Char} :
      (∀ d ∈ name, (d != ';' && d != '&' && d != '<') = true) → resolve 1 name = .ok c →
      CharacterData rest ('&' :: (name ++ [';'])) [c]

theorem nextToken_unparsed {cs : List Char} (h : ¬ "]]>".toList <:+: cs ++ "]]".toList)
    (rest : List Char) :
    nextToken ("<![CDATA[".toList ++ (cs ++ "]]>".toList) ++ rest) =
      .ok (some (.text cs, rest)) := by
  have hcut := cutAt_of_not_infix (by decide : "]]>".toList ≠ []) h rest
  have hkeyword : "CDATA[".toList.isPrefixOf
      ("CDATA[".toList ++ (cs ++ ("]]>".toList ++ rest))) = true := by simp
  have hdata := (bang_data hkeyword hcut).2 rest
  have hnext : nextToken ("<![CDATA[".toList ++ (cs ++ "]]>".toList) ++ rest) =
      (bang ("[CDATA[".toList ++ (cs ++ "]]>".toList) ++ rest)).map some := rfl
  rw [hnext, hdata]
  rfl

/-- All character data is met alike, as a text node with the characters that it stands for. -/
theorem ofChars_characterData {rest own stands : List Char} (h : CharacterData rest own stands)
    (opened : List (List Char)) :
    NodeStream.ofChars opened (own ++ rest) =
      (NodeStream.ofChars opened rest).cons (.text (String.ofList stands)) := by
  cases h with
  | plain hne hrun hrest =>
    rw [NodeStream.ofChars_run hrun hrest, Part.ofRun, if_neg hne]
    rfl
  | unparsed hmark => exact NodeStream.ofChars_text (nextToken_unparsed hmark rest)
  | @reference name c hname hc =>
    have hnext := nextToken_closedReference hname rest
    rw [List.cons_append, List.append_assoc, List.singleton_append]
    exact NodeStream.ofChars_reference hnext hc

end CharacterData

/-- Reading the text of an element and skipping it both take the nodes through the first end node
at which more elements have ended than have started, and none behind it.  The text is that of the
text nodes at depth zero, whichever way they are written.  Without such an end node both fail with
the name of the element, unless the text is malformed there.  The counters of the loops do
not fall below zero. -/
theorem readText_skip_stop_at_matchingEnd {tag : StartTag} (hopen : tag.selfClosing = false)
    (c : Cursor) :
    (∀ limit, starts c.ahead ≤ limit →
      textSteps limit tag c = .ok ((readText tag).run c) ∧
        skipSteps limit tag c = .ok ((skip tag).run c)) ∧
    (∀ limit, textSteps limit tag c ≠ .error .underflow ∧
      skipSteps limit tag c ≠ .error .underflow) ∧
    (∀ inside after, MatchingEnd 0 c.ahead inside after →
      (readText tag).run c = (.ok (String.join (outerTexts 0 inside)),
          { c with ahead := after, events := c.events ++ markupEvents tag inside }) ∧
        (skip tag).run c = (.ok (), { c with ahead := after })) ∧
    ((∀ inside after, ¬ MatchingEnd 0 c.ahead inside after) →
      (readText tag).run c = (.error (c.fault.elim (.unexpectedEnd tag.name) .malformed),
          { c with ahead := [], events := c.events ++ markupEvents tag c.ahead }) ∧
        (skip tag).run c = (.error (c.fault.elim (.unexpectedEnd tag.name) .malformed),
          { c with ahead := [] })) ∧
    ∀ opened rest own stands, CharacterData rest own stands →
      NodeStream.ofChars opened (own ++ rest) =
        (NodeStream.ofChars opened rest).cons (.text (String.ofList stands)) := by
  have hending : c.ending tag.name = c.fault.elim (.unexpectedEnd tag.name) .malformed := by
    rw [Cursor.ending]
    cases c.fault <;> rfl
  refine ⟨fun limit hlimit => ⟨textSteps_eq hopen hlimit, skipSteps_eq hopen hlimit⟩,
    fun limit => ⟨textSteps_ne_underflow limit tag c, skipSteps_ne_underflow limit tag c⟩,
    fun inside after hend => run_of_matchingEnd hopen hend, fun hnone => ?_,
    fun opened rest own stands h => ofChars_characterData h opened⟩
  rw [← hending]
  exact run_of_not_matchingEnd hopen hnone

/-- Of nodes with an end too many, the content is taken up to the first end that closes it; of
nodes with an end too few, everything. -/
theorem readText_skip_stop_at_matchingEnd_unbalanced :
    let tag : StartTag := ⟨none, "K", [], false⟩
    let bold : StartTag := ⟨none, "b", [], false⟩
    let inside : List Node := [.text " 01", .start bold, .text "x", .close,
      .start ⟨none, "br", [], true⟩, .text "&"]
    let many : Cursor := ⟨inside ++ [.close, .close, .text "z"], none, false, []⟩
    let few : Cursor := ⟨[.start bold, .text "x", .close], none, false, []⟩
    (textSteps 1 tag many = .ok ((readText tag).run many) ∧
      skipSteps 1 tag many = .ok ((skip tag).run many)) ∧
    ((readText tag).run many = (.ok " 01&",
        ⟨[.close, .text "z"], none, false, [.markupInText "K" "b", .markupInText "K" "br"]⟩) ∧
      (skip tag).run many = (.ok (), ⟨[.close, .text "z"], none, false, []⟩)) ∧
    ((readText tag).run few = (.error (.unexpectedEnd "K"),
        ⟨[], none, false, [.markupInText "K" "b"]⟩) ∧
      (skip tag).run few = (.error (.unexpectedEnd "K"), ⟨[], none, false, []⟩)) ∧
    NodeStream.ofChars [] "<![CDATA[<b>]]>".toList = ⟨[.text "<b>"], none⟩ := by
  intro tag bold inside many few
  have hopen : tag.selfClosing = false := rfl
  obtain ⟨hsteps, -, hmany, -, hdata⟩ := readText_skip_stop_at_matchingEnd hopen many
  obtain ⟨-, -, -, hfew, -⟩ := readText_skip_stop_at_matchingEnd hopen few
  have hnone : ∀ inside after, ¬ MatchingEnd 0 few.ahead inside after := by
    intro inside after h
    cases matchingEnd_iff_splitContent.mp h
  exact ⟨hsteps 1 (by decide), hmany inside [.close, .text "z"] (by decide), hfew hnone,
    hdata [] [] _ "<b>".toList (.unparsed (by decide))⟩

end TableJoin.Reading
