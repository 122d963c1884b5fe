import TableJoin.Reading.Cursor

/-!
Elements as trees, and the nodes that a reader meets when it goes through one.
A tree is well-formed by construction: what a start tag opens is closed behind
its content, and a self-closing tag has none.
-/

namespace TableJoin.Markup

mutual

/-- An element: a self-closing tag, or a start tag, content and an end tag. -/
inductive Element where
  | empty (nsPrefix : Option String) (name : String) (attributes : List Attribute)
  | around (nsPrefix : Option String) (name : String) (attributes : List Attribute)
      (parts : List Part)

/-- A part of an element's content.  One run of character data may be cut into
several parts. -/
inductive Part where
  | text (s : String)
  | element (e : Element)

end

namespace Element

def tag : Element → StartTag
  | .empty nsPrefix name attributes => ⟨nsPrefix, name, attributes, true⟩
  | .around nsPrefix name attributes _ => ⟨nsPrefix, name, attributes, false⟩

/-- The content; a self-closing tag has none. -/
def parts : Element → List Part
  | .empty .. => []
  | .around _ _ _ parts => parts

def name (e : Element) : String := e.tag.name

/-- The attributes, in the order in which they stand. -/
def attributes (e : Element) : List Attribute := e.tag.attributes

end Element

mutual

/-- The nodes behind the start tag, through the end tag. -/
def Element.inside : Element → List Node
  | .empty .. => []
  | .around _ _ _ parts => Part.nodes parts ++ [.close]
termination_by structural e => e

def Part.own : Part → List Node
  | .text s => [.text s]
  | .element e => .start e.tag :: e.inside
termination_by structural p => p

def Part.nodes : List Part → List Node
  | [] => []
  | p :: rest => p.own ++ Part.nodes rest
termination_by structural ps => ps

end

def Element.nodes (e : Element) : List Node := .start e.tag :: e.inside

/-- The character data that stands directly in content, nested elements left out. -/
def Part.ownText : List Part → String
  | [] => ""
  | .text s :: rest => s ++ Part.ownText rest
  | .element _ :: rest => Part.ownText rest

/-- The character data that stands directly in an element. -/
def Element.ownText (e : Element) : String := Part.ownText e.parts

@[simp] theorem Part.nodes_nil : Part.nodes [] = [] := rfl

@[simp] theorem Part.nodes_text (s : String) (rest : List Part) :
    Part.nodes (.text s :: rest) = .text s :: Part.nodes rest := rfl

@[simp] theorem Part.nodes_element (e : Element) (rest : List Part) :
    Part.nodes (.element e :: rest) = .start e.tag :: (e.inside ++ Part.nodes rest) := rfl

@[simp] theorem Part.nodes_append (ps qs : List Part) :
    Part.nodes (ps ++ qs) = Part.nodes ps ++ Part.nodes qs := by
  induction ps with
  | nil => rfl
  | cons p ps ih => simp only [List.cons_append, Part.nodes, ih, List.append_assoc]

theorem Element.inside_of_selfClosing {e : Element} (h : e.tag.selfClosing = true) :
    e.inside = [] ∧ e.parts = [] := by
  cases e with
  | empty => exact ⟨rfl, rfl⟩
  | around => cases h

theorem Element.inside_of_open {e : Element} (h : e.tag.selfClosing = false) :
    e.inside = Part.nodes e.parts ++ [.close] := by
  cases e with
  | empty => cases h
  | around => rfl

end TableJoin.Markup

namespace TableJoin.Reading

open Markup

mutual

/-- Going through an element at any depth leaves the depth as it was. -/
theorem splitContent_inside : (e : Element) → e.tag.selfClosing = false →
    ∀ (depth : Nat) (rest : List Node),
      splitContent (depth + 1) (e.inside ++ rest) =
        (e.inside ++ (splitContent depth rest).1, (splitContent depth rest).2)
  | .around _ _ _ parts, _, depth, rest => by
    simp only [Element.inside, List.append_assoc, List.singleton_append]
    rw [splitContent_nodes parts (depth + 1)]
    simp only [splitContent]
  | .empty .., h, _, _ => by cases h

theorem splitContent_nodes : (ps : List Part) → ∀ (depth : Nat) (rest : List Node),
    splitContent depth (Part.nodes ps ++ rest) =
      (Part.nodes ps ++ (splitContent depth rest).1, (splitContent depth rest).2)
  | [], depth, rest => by simp
  | .text s :: ps, depth, rest => by
    simp only [Part.nodes_text, List.cons_append, splitContent]
    rw [splitContent_nodes ps depth rest]
  | .element e :: ps, depth, rest => by
    simp only [Part.nodes_element, List.cons_append, List.append_assoc, splitContent]
    cases hself : e.tag.selfClosing with
    | true =>
      have hinside := (Element.inside_of_selfClosing hself).1
      simp only [↓reduceIte, hinside, List.nil_append]
      rw [splitContent_nodes ps depth rest]
    | false =>
      simp only [Bool.false_eq_true, ↓reduceIte]
      rw [splitContent_inside e hself depth, splitContent_nodes ps depth rest]

end

/-- An element's content ends with its own end tag, and what follows is left. -/
theorem splitContent_content (ps : List Part) (rest : List Node) :
    splitContent 0 (Part.nodes ps ++ .close :: rest) = (Part.nodes ps, some rest) := by
  rw [splitContent_nodes ps 0]
  simp [splitContent]

mutual

theorem ownText_inside : (e : Element) → e.tag.selfClosing = false →
    ∀ (depth : Nat) (rest : List Node),
      ownText (depth + 1) (e.inside ++ rest) = ownText depth rest
  | .around _ _ _ parts, _, depth, rest => by
    simp only [Element.inside, List.append_assoc, List.singleton_append]
    rw [ownText_nodes_nested parts depth]
    simp only [ownText, Nat.add_sub_cancel]
  | .empty .., h, _, _ => by cases h

theorem ownText_nodes_nested : (ps : List Part) → ∀ (depth : Nat) (rest : List Node),
    ownText (depth + 1) (Part.nodes ps ++ rest) = ownText (depth + 1) rest
  | [], depth, rest => by simp
  | .text s :: ps, depth, rest => by
    simp only [Part.nodes_text, List.cons_append, ownText]
    exact ownText_nodes_nested ps depth rest
  | .element e :: ps, depth, rest => by
    simp only [Part.nodes_element, List.cons_append, List.append_assoc, ownText]
    cases hself : e.tag.selfClosing with
    | true =>
      have hinside := (Element.inside_of_selfClosing hself).1
      simp only [↓reduceIte, hinside, List.nil_append]
      exact ownText_nodes_nested ps depth rest
    | false =>
      simp only [Bool.false_eq_true, ↓reduceIte]
      rw [ownText_inside e hself (depth + 1), ownText_nodes_nested ps depth rest]

end

/-- Reading as text gives the character data outside nested elements. -/
theorem ownText_nodes (ps : List Part) : ownText 0 (Part.nodes ps) = Part.ownText ps := by
  induction ps with
  | nil => rfl
  | cons p ps ih =>
    cases p with
    | text s => simp only [Part.nodes_text, ownText, Part.ownText, ih]
    | element e =>
      simp only [Part.nodes_element, ownText, Part.ownText]
      cases hself : e.tag.selfClosing with
      | true =>
        have hinside := (Element.inside_of_selfClosing hself).1
        simp only [↓reduceIte, hinside, List.nil_append, ih]
      | false =>
        simp only [Bool.false_eq_true, ↓reduceIte]
        rw [ownText_inside e hself 0, ih]

end TableJoin.Reading
