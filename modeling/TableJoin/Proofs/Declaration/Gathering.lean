import TableJoin.Proofs.Declaration.Marshalling
import TableJoin.Proofs.Reading.Consumption
import TableJoin.Proofs.Writing.Printed

/-!
Gathering: what a method that reads makes of attributes, text and child elements that stand for
items of the fields, one after the other.
-/

namespace TableJoin

open Markup Reading Schema Writing

namespace Declaration

namespace TypeModel

variable {m : TypeModel} {T : ItemTypes}

section Overlay

variable {u w : m.Value T}

/-- The value with what another one holds in some fields. -/
def overlay (l : List m.Place) (u w : m.Value T) : m.Value T := fun i => if i ∈ l then u i else w i

theorem overlay_nil : overlay [] u w = w := by
  funext i
  simp [overlay]

theorem overlay_cons (i : m.Place) (l : List m.Place) :
    overlay (i :: l) u w = overlay l u (Function.update w i (u i)) := by
  funext j
  by_cases hji : j = i
  · subst hji
    simp [overlay]
  · simp [overlay, hji]

end Overlay

/-- Reading the parts of content, each an element that is sent to a field that takes it or layout,
leads from one value to another. -/
inductive Gathers (T : ItemTypes) (arms : List (String × m.Place)) :
    m.Value T → List Part → m.Value T → Prop
  | nil {v : m.Value T} : Gathers T arms v [] v
  | layout {v w : m.Value T} {s : String} {ps : List Part} :
      Text.isBlankText s = true → Gathers T arms v ps w → Gathers T arms v (.text s :: ps) w
  | element {v w : m.Value T} {i : m.Place} {e : Element} {x : T.Value (m.field i).type}
      {ps : List Part} (htakes : (v i).takes = true) :
      fieldFor? arms e.name = some i →
      (∀ strict, Reads strict e.inside [] (fun y => y = x) (T.read (m.field i).type e.tag)) →
      Gathers T arms (Function.update v i ((v i).add x htakes)) ps w →
      Gathers T arms v (.element e :: ps) w

namespace Gathers

variable {arms : List (String × m.Place)} {v w u : m.Value T} {ps qs : List Part}

theorem append (h : Gathers T arms v ps w) (h' : Gathers T arms w qs u) :
    Gathers T arms v (ps ++ qs) u := by
  induction h with
  | nil => exact h'
  | layout hs _ ih => exact .layout hs (ih h')
  | element htakes hat hread _ ih => exact .element htakes hat hread (ih h')

theorem of_layout (o : EncodeOptions) (p : Position) : Gathers T arms v (Writing.layout o p) v := by
  have hblank := fun part (hpart : part ∈ Writing.layout o p) => blank_of_mem_layout hpart
  generalize Writing.layout o p = parts at hblank
  induction parts with
  | nil => exact .nil
  | cons part parts ih =>
    obtain ⟨s, rfl, hs⟩ := hblank part List.mem_cons_self
    exact .layout hs (ih fun q hq => hblank q (List.mem_cons_of_mem _ hq))

theorem reads_readElement {strict : Bool} {i : m.Place} {e : Element} {x : T.Value (m.field i).type}
    (hread : Reads strict e.inside [] (fun y => y = x) (T.read (m.field i).type e.tag))
    (htakes : (v i).takes = true) :
    Reads strict e.inside [] (fun w => w = Function.update v i ((v i).add x htakes))
      (m.readElement T i e.tag v) := by
  unfold readElement
  rw [dif_pos htakes]
  apply reads_bind_answer hread
  rintro _ rfl
  exact reads_pure rfl

/-- The loop over child elements goes through the content, and through the end tag behind it. -/
theorem reads {tag : StartTag} (hopen : tag.selfClosing = false) {strict : Bool}
    (h : Gathers T arms v ps w) : ∀ fuel, (Part.nodes ps).length < fuel →
      Reads strict (Part.nodes ps ++ [.close]) [] (fun x => x = w)
        (m.readChildren T arms fuel tag v) := by
  induction h with
  | nil =>
    intro fuel hfuel
    obtain ⟨fuel, rfl⟩ := Nat.exists_eq_add_one_of_ne_zero (Nat.ne_zero_of_lt hfuel)
    unfold readChildren
    apply reads_bind_answer (reads_nextChild_close hopen)
    rintro _ rfl
    exact reads_pure rfl
  | @layout v w s ps hs _ ih =>
    intro fuel hfuel rest fault events
    obtain ⟨fuel, rfl⟩ := Nat.exists_eq_add_one_of_ne_zero (Nat.ne_zero_of_lt hfuel)
    have hrest := ih (fuel + 1) (Nat.lt_of_succ_lt hfuel) rest fault events
    rw [Part.nodes_text, List.cons_append, List.cons_append]
    unfold readChildren at hrest ⊢
    rw [Step.run_bind] at hrest ⊢
    rw [run_nextChild_layout hopen hs]
    exact hrest
  | @element v w i e x ps htakes hat hread _ ih =>
    intro fuel hfuel
    obtain ⟨fuel, rfl⟩ := Nat.exists_eq_add_one_of_ne_zero (Nat.ne_zero_of_lt hfuel)
    have hshorter : (Part.nodes ps).length < fuel := by
      simp only [Part.nodes_element, List.length_cons, List.length_append] at hfuel
      omega
    rw [Part.nodes_element, List.cons_append, List.append_assoc, ← List.singleton_append]
    unfold readChildren
    apply reads_bind_sound (reads_nextChild_start hopen)
    rintro _ rfl
    have hdispatch : fieldFor? arms e.tag.name = some i := hat
    simp only [hdispatch]
    apply reads_bind_sound (reads_readElement (hread strict) htakes)
    rintro _ rfl
    exact ih fuel hshorter

/-- The loop goes through an element whose content it has read the start tag of. -/
theorem reads_inside {e : Element} {strict : Bool} (h : Gathers T arms v e.parts w) (fuel : Nat)
    (hfuel : e.inside.length < fuel) :
    Reads strict e.inside [] (fun x => x = w) (m.readChildren T arms fuel e.tag v) := by
  cases e with
  | empty =>
    cases h
    obtain ⟨fuel, rfl⟩ := Nat.exists_eq_add_one_of_ne_zero (Nat.ne_zero_of_lt hfuel)
    unfold readChildren
    apply reads_bind_answer (reads_nextChild_of_selfClosing rfl)
    rintro _ rfl
    exact reads_pure rfl
  | around nsPrefix name attributes parts =>
    simp only [Element.inside, List.length_append, List.length_singleton] at hfuel
    have hparts : Gathers T arms v parts w := h
    exact hparts.reads rfl fuel (by omega)

end Gathers

section Attributes

variable {o : EncodeOptions} {strict : Bool} {arms : List (String × m.Place)}

/-- An attribute whose text is parsed sets its field. -/
theorem reads_readAttribute {i : m.Place} {a : Markup.Attribute} {x : T.Value (m.field i).type}
    (hat : fieldFor? arms a.localName = some i) (hx : T.parse (m.field i).type a.value = .ok x)
    (w : m.Value T) :
    Reads strict [] [] (fun y => y = Function.update w i (.one x))
      (m.readAttribute T arms w a) := by
  unfold readAttribute
  simp only [hat, hx]
  exact reads_pure rfl

/-- Under the name an attribute is written that gives back, for what `v` holds in the field, what
`u` does. -/
structure ReturnsInAttribute (arms : List (String × m.Place))
    (back : (type : List Token) → T.Value type → T.Value type) (v u : m.Value T) (name : QName)
    (i : m.Place) : Prop where
  sent : fieldFor? arms name.localName = some i
  single : (m.field i).cardinality = .single
  items_eq : (u i).items = (v i).items.map (back _)
  parsed : ∀ x ∈ (v i).items, T.parse (m.field i).type (T.toText x) = .ok (back _ x)

/-- The attributes of fields are read into these fields; a field without one stays unset. -/
theorem reads_attributes {back : (type : List Token) → T.Value type → T.Value type}
    {v u : m.Value T} (l : List (QName × m.Place))
    (h : ∀ a ∈ l, ReturnsInAttribute arms back v u a.1 a.2) :
    ∀ w : m.Value T, (∀ i ∈ l.map Prod.snd, u i = .unset → w i = .unset) →
      Reads strict [] [] (fun y => y = overlay (l.map Prod.snd) u w)
        ((readAttributes o (l.filterMap fun (name, i) => (v i).attribute? name)).foldlM
          (m.readAttribute T arms) w) := by
  induction l with
  | nil =>
    intro w _
    rw [List.map_nil, overlay_nil]
    exact reads_pure rfl
  | cons a l ih =>
    obtain ⟨name, i⟩ := a
    intro w hw
    obtain ⟨hi, hl⟩ := List.forall_mem_cons.mp h
    obtain ⟨hwi, hwl⟩ := List.forall_mem_cons.mp hw
    have hrest := ih hl (Function.update w i (u i)) fun j hj hunset => by
      by_cases hji : j = i
      · subst hji
        rw [Function.update_self, hunset]
      · rw [Function.update_of_ne hji, hwl j hj hunset]
    rw [List.map_cons, overlay_cons]
    rcases hitems : (v i).items with _ | ⟨x, xs⟩
    · have hunset : u i = .unset := by
        ext1
        rw [hi.items_eq, hitems]
        rfl
      have hnone : (v i).attribute? name = none := by simp [Held.attribute?, hitems]
      rw [hunset, ← hwi hunset, Function.update_eq_self] at hrest ⊢
      simp only [List.filterMap_cons, hnone]
      exact hrest
    · have hlength := (v i).single hi.single
      rw [hitems, List.length_cons] at hlength
      obtain rfl : xs = [] := List.eq_nil_of_length_eq_zero (by omega)
      have hone : u i = .one (back _ x) := by
        ext1
        rw [hi.items_eq, hitems]
        rfl
      have hsome : (v i).attribute? name = some (name, T.toText x) := by
        simp [Held.attribute?, hitems]
      have hparsed := hi.parsed x (by simp [hitems])
      simp only [List.filterMap_cons, hsome, readAttributes, List.map_cons, List.foldlM_cons]
      apply reads_bind_check (reads_readAttribute hi.sent hparsed w)
      rintro _ rfl
      rw [← hone]
      exact hrest

end Attributes

section Body

variable {strict : Bool} {i : m.Place} {e : Element}

theorem reads_readBody_of_blank (hblank : Text.isBlankText e.ownText = true) (w : m.Value T) :
    Reads strict e.inside [] (fun y => y = w) (m.readBody T i e.tag w) := by
  unfold readBody
  apply reads_bind_answer (reads_readText e)
  rintro _ rfl
  rw [if_pos hblank]
  exact reads_pure rfl

/-- Other text sets the field if it is parsed. -/
theorem reads_readBody {x : T.Value (m.field i).type}
    (hblank : Text.isBlankText e.ownText = false)
    (hx : T.parse (m.field i).type e.ownText = .ok x) (w : m.Value T) :
    Reads strict e.inside [] (fun y => y = Function.update w i (.one x))
      (m.readBody T i e.tag w) := by
  unfold readBody
  apply reads_bind_answer (reads_readText e)
  rintro _ rfl
  rw [if_neg (by simp [hblank])]
  simp only [hx]
  exact reads_pure rfl

end Body

/-- An element is read as its attributes say, and then as its content says. -/
theorem reads_run_of_gathers {code : ReadCode m.Place} {arms : List (String × m.Place)}
    {v w : m.Value T} {e : Element} {strict : Bool} (hchildren : code.content = .children arms)
    (hattributes : Reads strict [] [] (fun x => x = v)
      (e.attributes.foldlM (m.readAttribute T code.attributes) fun _ => .unset))
    (hparts : Gathers T arms v e.parts w) :
    Reads strict e.inside [] (fun x => x = w) (code.run T e.tag) := by
  unfold ReadCode.run
  apply reads_bind_check hattributes
  rintro _ rfl
  rw [hchildren]
  intro rest fault events
  rw [Step.run_here_bind]
  have hfuel : e.inside.length < (e.inside ++ rest).length + 1 := by
    rw [List.length_append]
    omega
  exact hparts.reads_inside _ hfuel rest fault events

end TypeModel

end Declaration

end TableJoin
