import Mathlib.Data.List.Basic
import TableJoin.Proofs.Reading.Run

/-!
Where the content of an element ends: at the first end node at which more elements have ended
than have started.  The nodes are any nodes, also such as no tree has.
-/

namespace TableJoin.Reading

open Markup

section Counts

/-- The node starts an element that an end node has to close. -/
def opens : Node → Bool
  | .start tag => !tag.selfClosing
  | _ => false

/-- The elements that start among the nodes, self-closing ones left out. -/
def starts (ns : List Node) : Nat := ns.countP opens

/-- The elements that end among the nodes. -/
def ends (ns : List Node) : Nat := ns.count .close

@[simp] theorem starts_nil : starts [] = 0 := rfl

@[simp] theorem ends_nil : ends [] = 0 := rfl

theorem starts_append (ns ms : List Node) : starts (ns ++ ms) = starts ns + starts ms :=
  List.countP_append

theorem ends_append (ns ms : List Node) : ends (ns ++ ms) = ends ns + ends ms :=
  List.count_append

theorem starts_cons (node : Node) (ns : List Node) :
    starts (node :: ns) = starts [node] + starts ns := starts_append [node] ns

theorem ends_cons (node : Node) (ns : List Node) :
    ends (node :: ns) = ends [node] + ends ns := ends_append [node] ns

def depthBehind (depth : Nat) : Node → Nat
  | .close => depth - 1
  | .text _ => depth
  | .start tag => if tag.selfClosing then depth else depth + 1

variable {depth : Nat} {node : Node}

/-- The depth follows the elements that start and end, as long as no end is one too many. -/
theorem depthBehind_add_ends (h : node = .close → depth ≠ 0) :
    depthBehind depth node + ends [node] = depth + starts [node] := by
  cases node with
  | text s => rfl
  | close =>
    have hpos := h rfl
    have hends : ends [Node.close] = 1 := rfl
    have hstarts : starts [Node.close] = 0 := rfl
    rw [depthBehind, hends, hstarts]
    omega
  | start tag =>
    have hends : ends [Node.start tag] = 0 := rfl
    cases hself : tag.selfClosing <;> simp [depthBehind, starts, opens, hself, hends]

/-- A node is the end of what is open, or it stands inside. -/
theorem close_or_inside (depth : Nat) (node : Node) :
    (node = .close ∧ depth = 0) ∨ (node = .close → depth ≠ 0) := by
  by_cases h : node = .close ∧ depth = 0
  · exact .inl h
  · exact .inr fun hclose hzero => h ⟨hclose, hzero⟩

theorem depthBehind_le (depth : Nat) (node : Node) :
    depthBehind depth node ≤ depth + starts [node] := by
  rcases close_or_inside depth node with ⟨rfl, rfl⟩ | hnode
  · exact Nat.zero_le _
  · have hcount := depthBehind_add_ends hnode
    omega

end Counts

section Ends

/-- At no end node have more elements ended than started.  `depth` elements have started in front
of the nodes. -/
def Stays (depth : Nat) (ns : List Node) : Prop :=
  ∀ front, front ++ [.close] <+: ns → ends (front ++ [.close]) ≤ depth + starts (front ++ [.close])

/-- The nodes are `inside`, the first end node at which more elements have ended than have started,
and `after`.  `depth` elements have started in front of the nodes. -/
structure MatchingEnd (depth : Nat) (ns inside after : List Node) : Prop where
  parts : ns = inside ++ .close :: after
  outnumbers : depth + starts (inside ++ [.close]) < ends (inside ++ [.close])
  first : Stays depth inside

variable {depth : Nat} {node : Node} {ns inside after : List Node}

theorem stays_nil (depth : Nat) : Stays depth [] := by
  intro front h
  exact absurd (List.prefix_nil.mp h) (by simp)

/-- An end node among more nodes is the first of them or one of the others. -/
theorem stays_cons (hnode : node = .close → depth ≠ 0) (h : Stays (depthBehind depth node) ns) :
    Stays depth (node :: ns) := by
  intro front hfront
  have hcount := depthBehind_add_ends hnode
  cases front with
  | nil =>
    obtain ⟨rfl, -⟩ := List.cons_prefix_cons.mp hfront
    rw [List.nil_append]
    omega
  | cons first front =>
    obtain ⟨rfl, hrest⟩ := List.cons_prefix_cons.mp hfront
    have hle := h front hrest
    rw [List.cons_append, starts_cons, ends_cons]
    omega

theorem Stays.tail (h : Stays depth (node :: ns)) :
    (node = .close → depth ≠ 0) ∧ Stays (depthBehind depth node) ns := by
  have hnode : node = .close → depth ≠ 0 := by
    rintro rfl rfl
    have hle := h [] (by simp)
    exact absurd hle (by decide)
  refine ⟨hnode, fun front hfront => ?_⟩
  have hcount := depthBehind_add_ends hnode
  have hle := h (node :: front) (List.cons_prefix_cons.mpr ⟨rfl, hfront⟩)
  rw [List.cons_append, starts_cons, ends_cons] at hle
  omega

/-- The matching end lies behind one more node, unless the node is it. -/
theorem MatchingEnd.cons (h : MatchingEnd (depthBehind depth node) ns inside after)
    (hnode : node = .close → depth ≠ 0) :
    MatchingEnd depth (node :: ns) (node :: inside) after where
  parts := by rw [h.parts, List.cons_append]
  outnumbers := by
    have hcount := depthBehind_add_ends hnode
    have hlt := h.outnumbers
    rw [List.cons_append, starts_cons, ends_cons]
    omega
  first := stays_cons hnode h.first

/-- An end node where nothing is open. -/
theorem matchingEnd_close (after : List Node) : MatchingEnd 0 (.close :: after) [] after where
  parts := rfl
  outnumbers := by decide
  first := stays_nil 0

theorem MatchingEnd.unique {inside' after' : List Node} (h : MatchingEnd depth ns inside after)
    (h' : MatchingEnd depth ns inside' after') : inside' = inside ∧ after' = after := by
  -- The shorter of both would be an end too many inside the other.
  have hshort : ∀ {i i' a a' : List Node}, MatchingEnd depth ns i a → MatchingEnd depth ns i' a' →
      ¬ i.length < i'.length := by
    intro i i' a a' hi hi' hlt
    have hfront : i ++ [.close] <+: ns :=
      ⟨a, by rw [hi.parts, List.append_assoc, List.singleton_append]⟩
    have hfront' : i' <+: ns := ⟨.close :: a', hi'.parts.symm⟩
    have hprefix : i ++ [.close] <+: i' := by
      refine List.prefix_of_prefix_length_le hfront hfront' ?_
      rw [List.length_append, List.length_singleton]
      omega
    have hle := hi'.first i hprefix
    have hmore := hi.outnumbers
    omega
  have hlength : inside'.length = inside.length := by
    have hle := hshort h h'
    have hge := hshort h' h
    omega
  obtain ⟨hinside, hafter⟩ := List.append_inj (h'.parts.symm.trans h.parts) hlength
  exact ⟨hinside, (List.cons.inj hafter).2⟩

end Ends

section Split

variable {depth : Nat} {node : Node} {ns inside after : List Node}

theorem splitContent_cons (hnode : node = .close → depth ≠ 0) (rest : List Node) :
    splitContent depth (node :: rest) =
      (node :: (splitContent (depthBehind depth node) rest).1,
        (splitContent (depthBehind depth node) rest).2) := by
  cases node with
  | text s => simp only [splitContent, depthBehind]
  | start tag => simp only [splitContent, depthBehind]
  | close =>
    obtain ⟨depth, rfl⟩ := Nat.exists_eq_add_one_of_ne_zero (hnode rfl)
    simp only [splitContent, depthBehind, Nat.add_sub_cancel]

theorem splitContent_spec (ns : List Node) : ∀ depth,
    (∃ inside after, splitContent depth ns = (inside, some after) ∧
      MatchingEnd depth ns inside after) ∨
    splitContent depth ns = (ns, none) ∧ Stays depth ns := by
  induction ns with
  | nil =>
    intro depth
    exact .inr ⟨by cases depth <;> rfl, stays_nil depth⟩
  | cons node rest ih =>
    intro depth
    rcases close_or_inside depth node with ⟨rfl, rfl⟩ | hnode
    · exact .inl ⟨[], rest, rfl, matchingEnd_close rest⟩
    · -- what is found behind a node inside, at the depth behind it, is found in front of it
      rw [splitContent_cons hnode]
      rcases ih (depthBehind depth node) with ⟨inside, after, hsplit, hend⟩ | ⟨hsplit, hstays⟩
      · exact .inl ⟨node :: inside, after, by rw [hsplit], hend.cons hnode⟩
      · exact .inr ⟨by rw [hsplit], stays_cons hnode hstays⟩

theorem matchingEnd_iff_splitContent :
    MatchingEnd depth ns inside after ↔ splitContent depth ns = (inside, some after) := by
  constructor
  · intro h
    rcases splitContent_spec ns depth with ⟨i, a, hsplit, hend⟩ | ⟨-, hstays⟩
    · obtain ⟨rfl, rfl⟩ := h.unique hend
      exact hsplit
    · have hle := hstays inside ⟨after, by rw [h.parts, List.append_assoc, List.singleton_append]⟩
      have hmore := h.outnumbers
      omega
  · intro h
    rcases splitContent_spec ns depth with ⟨i, a, hsplit, hend⟩ | ⟨hsplit, -⟩
    · rw [hsplit] at h
      cases h
      exact hend
    · rw [hsplit] at h
      cases h

instance : Decidable (MatchingEnd depth ns inside after) :=
  decidable_of_iff _ matchingEnd_iff_splitContent.symm

theorem splitContent_of_not_matchingEnd (h : ∀ inside after, ¬ MatchingEnd depth ns inside after) :
    splitContent depth ns = (ns, none) := by
  rcases splitContent_spec ns depth with ⟨inside, after, -, hend⟩ | ⟨hsplit, -⟩
  · exact absurd hend (h inside after)
  · exact hsplit

end Split

section Texts

/-- The text of a node, if as many elements have ended in front of it as have started.  `depth`
elements have started in front of all nodes. -/
def outerText? (depth : Nat) (front : List Node) : Node → Option String
  | .text s => if depth + starts front = ends front then some s else none
  | _ => none

/-- The texts among the nodes that stand at depth zero, in order. -/
def outerTexts (depth : Nat) (ns : List Node) : List String :=
  (ns.inits.zip ns).filterMap fun (front, node) => outerText? depth front node

variable {depth : Nat} {node : Node}

theorem outerText?_cons (hnode : node = .close → depth ≠ 0) (front : List Node) (last : Node) :
    outerText? depth (node :: front) last = outerText? (depthBehind depth node) front last := by
  have hcount := depthBehind_add_ends hnode
  have hsame : depth + starts (node :: front) = ends (node :: front) ↔
      depthBehind depth node + starts front = ends front := by
    rw [starts_cons, ends_cons]
    omega
  cases last with
  | text s => simp only [outerText?, hsame]
  | start tag => rfl
  | close => rfl

theorem outerTexts_cons (hnode : node = .close → depth ≠ 0) (ns : List Node) :
    outerTexts depth (node :: ns) =
      (outerText? depth [] node).toList ++ outerTexts (depthBehind depth node) ns := by
  -- behind the first node, every front is one node longer
  have hinits : (node :: ns).inits = [] :: ns.inits.map (node :: ·) := by simp
  simp only [outerTexts, hinits, List.zip_cons_cons, List.zip_map_left, List.filterMap_cons,
    List.filterMap_map, Function.comp_def, Prod.map, outerText?_cons hnode, id_eq]
  cases outerText? depth [] node <;> rfl

theorem ownText_cons (depth : Nat) (node : Node) (rest : List Node) :
    ownText depth (node :: rest) =
      (outerText? depth [] node).getD "" ++ ownText (depthBehind depth node) rest := by
  cases node with
  | text s =>
    cases depth with
    | zero => rfl
    | succ depth => simp [ownText, outerText?, depthBehind]
  | start tag => simp [ownText, outerText?, depthBehind]
  | close => simp [ownText, outerText?, depthBehind]

/-- The text of content is that of its text nodes at depth zero. -/
theorem ownText_eq_join (ns : List Node) : ∀ {depth}, Stays depth ns →
    ownText depth ns = String.join (outerTexts depth ns) := by
  induction ns with
  | nil =>
    intro depth _
    cases depth <;> rfl
  | cons node rest ih =>
    intro depth h
    obtain ⟨hnode, hrest⟩ := h.tail
    rw [ownText_cons, outerTexts_cons hnode, String.join_append, ← ih hrest]
    cases outerText? depth [] node <;> simp [String.join_cons]

end Texts

section Reading

variable {tag : StartTag} {c : Cursor} {inside after : List Node}

/-- Both ways of going through an element stop behind the matching end, and reading text gives
the texts at depth zero. -/
theorem run_of_matchingEnd (hopen : tag.selfClosing = false)
    (h : MatchingEnd 0 c.ahead inside after) :
    (readText tag).run c = (.ok (String.join (outerTexts 0 inside)),
        { c with ahead := after, events := c.events ++ markupEvents tag inside }) ∧
      (skip tag).run c = (.ok (), { c with ahead := after }) := by
  have hsplit := matchingEnd_iff_splitContent.mp h
  rw [run_readText hopen, run_skip hopen, hsplit, ← ownText_eq_join inside h.first]
  exact ⟨rfl, rfl⟩

/-- Without a matching end, both take all nodes there are and fail. -/
theorem run_of_not_matchingEnd (hopen : tag.selfClosing = false)
    (h : ∀ inside after, ¬ MatchingEnd 0 c.ahead inside after) :
    (readText tag).run c = (.error (c.ending tag.name),
        { c with ahead := [], events := c.events ++ markupEvents tag c.ahead }) ∧
      (skip tag).run c = (.error (c.ending tag.name), { c with ahead := [] }) := by
  rw [run_readText hopen, run_skip hopen, splitContent_of_not_matchingEnd h]
  exact ⟨rfl, rfl⟩

end Reading

end TableJoin.Reading
