import TableJoin.Proofs.Markup.Element
import TableJoin.Proofs.Writing.Options
import TableJoin.Proofs.Writing.Tag

/-!
What written marks are read as: an element for each element that was written,
with layout where the options break lines.
-/

namespace TableJoin.Writing

open Markup EncodeOptions NodeStream

/-- The line break in front of a tag, as a part of what stands around it. -/
def layout (o : EncodeOptions) (p : Position) : List Part :=
  match lineBreak o p with
  | [] => []
  | c :: cs => [.text (String.ofList (c :: cs))]

theorem isBlank_of_mem_lineBreak {o : EncodeOptions} {p : Position} {c : Char}
    (hc : c ∈ lineBreak o p) : Text.isBlank c = true ∧ isPlain c = true := by
  unfold lineBreak at hc
  split at hc
  · split at hc
    · rcases List.mem_cons.mp hc with rfl | hspace
      · decide
      · rw [List.eq_of_mem_replicate hspace]
        decide
    · cases hc
  · cases hc

theorem blank_of_mem_layout {o : EncodeOptions} {p : Position} {part : Part}
    (hpart : part ∈ layout o p) : ∃ s, part = .text s ∧ Text.isBlankText s = true := by
  unfold layout at hpart
  split at hpart
  · cases hpart
  · next c cs heq =>
    rw [List.mem_singleton] at hpart
    refine ⟨_, hpart, ?_⟩
    rw [Text.isBlankText, String.toList_ofList, List.all_eq_true]
    intro d hd
    rw [← heq] at hd
    exact (isBlank_of_mem_lineBreak hd).1

/-- A line break in front of a tag is read as layout. -/
theorem ofChars_lineBreak (o : EncodeOptions) (p : Position) (opened : List (List Char))
    (rest : List Char) :
    ofChars opened (lineBreak o p ++ '<' :: rest) =
      (ofChars opened ('<' :: rest)).behind (Part.nodes (layout o p)) := by
  unfold layout
  cases hbreak : lineBreak o p with
  | nil => rfl
  | cons c cs =>
    have hplain : ∀ d ∈ c :: cs, isPlain d = true := by
      intro d hd
      rw [← hbreak] at hd
      exact (isBlank_of_mem_lineBreak hd).2
    have hcs := fun d hd => hplain d (List.mem_cons_of_mem c hd)
    have hopen : ¬ isPlain '<' = true := by decide
    have htoken := nextToken_of_isPlain (hplain c List.mem_cons_self) (cs ++ '<' :: rest)
    rw [List.takeWhile_append_of_pos hcs, List.takeWhile_cons_of_neg hopen, List.append_nil,
      List.dropWhile_append_of_pos hcs, List.dropWhile_cons_of_neg hopen] at htoken
    rw [List.cons_append, ofChars_text htoken]
    rfl

section Tags

variable {o : EncodeOptions} {p : Position} {name : QName} {attributes : List (QName × String)}

/-- The attributes of a written tag, those of the first tag in front. -/
def tagAttributes (o : EncodeOptions) (p : Position) (attributes : List (QName × String)) :
    List (String × String) :=
  (if p.rootWritten then [] else o.rootAttributes) ++
    attributes.map fun (key, value) => (o.qualify key, value)

theorem tagChars_eq (o : EncodeOptions) (p : Position) (name : QName)
    (attributes : List (QName × String)) :
    tagChars o p name attributes = contentChars (o.qualify name) (tagAttributes o p attributes) :=
  rfl

/-- Attributes of a record: their local names are names, none is taken for a
declaration, and no two of them are the same. -/
structure Writable (attributes : List (QName × String)) : Prop where
  named : ∀ a ∈ attributes, isLocalName a.1.localName = true ∧ a.1.localName ≠ "xmlns"
  distinct : (attributes.map (·.1.localName)).Nodup

def readAttributes (o : EncodeOptions) (attributes : List (QName × String)) : List Attribute :=
  attributes.map fun a => ⟨(splitRawName (o.qualify a.1).toList).1, a.1.localName, a.2⟩

def readTag (o : EncodeOptions) (name : QName) (attributes : List (QName × String))
    (selfClosing : Bool) : StartTag :=
  ⟨(splitRawName (o.qualify name).toList).1, name.localName, readAttributes o attributes,
    selfClosing⟩

theorem isRawName_of_mem_tagAttributes (hsafe : o.PrefixSafe) (hattributes : Writable attributes)
    {a : String × String} (ha : a ∈ tagAttributes o p attributes) : IsRawName a.1.toList := by
  rcases List.mem_append.mp ha with hroot | hown
  · split at hroot
    · cases hroot
    · exact (rootAttributes_declare hsafe hroot).1
  · obtain ⟨b, hb, rfl⟩ := List.mem_map.mp hown
    exact isRawName_qualify hsafe (hattributes.named b hb).1

/-- No two attributes of a written tag share a key. -/
theorem nodup_tagAttributes (hsafe : o.PrefixSafe) (hattributes : Writable attributes) :
    ((tagAttributes o p attributes).map (·.1)).Nodup := by
  have hown : ((attributes.map fun (key, value) => (o.qualify key, value)).map (·.1)).Nodup := by
    rw [List.map_map]
    have hpairwise := List.pairwise_map.mp hattributes.distinct
    refine List.pairwise_map.mpr (hpairwise.imp_of_mem ?_)
    intro a b ha hb hne
    exact qualify_ne hsafe (hattributes.named a ha).1 (hattributes.named b hb).1 hne
  unfold tagAttributes
  split
  · exact hown
  · rw [List.map_append, List.nodup_append]
    refine ⟨nodup_rootAttributes hsafe, hown, ?_⟩
    intro key hroot key' hkey' heq
    subst heq
    obtain ⟨a, ha, rfl⟩ := List.mem_map.mp hroot
    obtain ⟨b, hb, heq⟩ := List.mem_map.mp hkey'
    obtain ⟨c, hc, rfl⟩ := List.mem_map.mp hb
    have hreserved := (rootAttributes_declare hsafe ha).2
    obtain ⟨hnamed, hxmlns⟩ := hattributes.named c hc
    rw [← heq, isReservedKey_qualify hsafe hnamed hxmlns] at hreserved
    cases hreserved

/-- Of the attributes of a written tag a reader sees those of the record. -/
theorem seenAttributes_tagAttributes (hsafe : o.PrefixSafe) (hattributes : Writable attributes) :
    seenAttributes (tagAttributes o p attributes) = readAttributes o attributes := by
  have hroot : ((if p.rootWritten then [] else o.rootAttributes).filter
      fun a => !isReservedKey a.1.toList) = [] := by
    rw [List.filter_eq_nil_iff]
    intro a ha
    split at ha
    · cases ha
    · simp [(rootAttributes_declare hsafe ha).2]
  have hown : ((attributes.map fun (key, value) => (o.qualify key, value)).filter
      fun a => !isReservedKey a.1.toList) =
        attributes.map fun (key, value) => (o.qualify key, value) := by
    rw [List.filter_eq_self]
    intro a ha
    obtain ⟨b, hb, rfl⟩ := List.mem_map.mp ha
    obtain ⟨hnamed, hxmlns⟩ := hattributes.named b hb
    simp [isReservedKey_qualify hsafe hnamed hxmlns]
  rw [seenAttributes, tagAttributes, List.filter_append, hroot, hown, List.nil_append,
    List.map_map, readAttributes]
  apply List.map_congr_left
  intro a ha
  simp [splitRawName_qualify hsafe (hattributes.named a ha).1]

/-- A written tag is read back as the tag of the record's name and attributes. -/
theorem ofContent_tagChars (hsafe : o.PrefixSafe) (hname : isLocalName name.localName = true)
    (hattributes : Writable attributes) (selfClosing : Bool) :
    StartTag.ofContent (tagChars o p name attributes) selfClosing =
      .ok (readTag o name attributes selfClosing) := by
  rw [tagChars_eq, ofContent_contentChars (isRawName_qualify hsafe hname)
    (fun a ha => isRawName_of_mem_tagAttributes hsafe hattributes ha)
    (nodup_tagAttributes hsafe hattributes), seenAttributes_tagAttributes hsafe hattributes,
    splitRawName_qualify hsafe hname]
  rfl

end Tags

/-- Writing the marks leads from one place to another, and what was written is read
as the parts, whatever follows. -/
def Prints (o : EncodeOptions) (p : Position) (marks : List Mark) (parts : List Part)
    (p' : Position) : Prop :=
  ∀ (opened : List (List Char)) (rest : List Mark),
    ofChars opened (writeFrom o p (marks ++ rest)) =
      (ofChars opened (writeFrom o p' rest)).behind (Part.nodes parts)

/-- Writing the marks as the content of an element is read as the parts, if the end
tag follows. -/
def Fills (o : EncodeOptions) (p : Position) (marks : List Mark) (parts : List Part)
    (p' : Position) : Prop :=
  ∀ (opened : List (List Char)) (name : QName) (rest : List Mark),
    ofChars opened (writeFrom o p (marks ++ .close name :: rest)) =
      (ofChars opened (writeFrom o p' (.close name :: rest))).behind (Part.nodes parts)

section Marks

variable {o : EncodeOptions} {p p' p'' : Position} {ms ms' : List Mark} {ps ps' : List Part}

theorem prints_nil : Prints o p [] [] p := fun _ _ => rfl

theorem Prints.append (h : Prints o p ms ps p') (h' : Prints o p' ms' ps' p'') :
    Prints o p (ms ++ ms') (ps ++ ps') p'' := by
  intro opened rest
  rw [List.append_assoc, h, h', behind_behind, Part.nodes_append]

theorem Prints.fills (h : Prints o p ms ps p') : Fills o p ms ps p' :=
  fun opened name rest => h opened (.close name :: rest)

theorem ownText_runs (runs : List (List Char)) :
    Part.ownText (runs.map fun run => .text (String.ofList run)) =
      String.ofList runs.flatten := by
  induction runs with
  | nil => rfl
  | cons run runs ih =>
    rw [List.map_cons, Part.ownText, ih, List.flatten_cons, String.ofList_append]

theorem nodes_runs (runs : List (List Char)) :
    Part.nodes (runs.map fun run => .text (String.ofList run)) =
      runs.map fun run => .text (String.ofList run) := by
  induction runs with
  | nil => rfl
  | cons run runs ih => rw [List.map_cons, Part.nodes_text, ih, List.map_cons]

/-- Text in front of an end tag is read in runs that amount to it. -/
theorem fills_text (o : EncodeOptions) (p : Position) (s : String) :
    ∃ parts, Part.ownText parts = s ∧
      Fills o p [.text s] parts { p with breakLine := false } := by
  obtain ⟨runs, hruns, hnodes⟩ := exists_runs s.toList
  refine ⟨runs.map fun run => .text (String.ofList run), ?_, fun opened name rest => ?_⟩
  · rw [ownText_runs, hruns, String.ofList_toList]
  · have hclose : ∀ c ∈ (writeFrom o { p with breakLine := false } (.close name :: rest)).head?,
        isPlain c = false := by
      intro c hc
      have hlt : c = '<' := by
        cases hindent : o.indent <;> simpa [writeFrom, Mark.write, lineBreak, hindent] using hc.symm
      rw [hlt]
      rfl
    rw [nodes_runs]
    exact hnodes opened _ hclose

variable {name : QName} {attributes : List (QName × String)}

/-- An element without content is read as a self-closing one. -/
theorem prints_empty (hsafe : o.PrefixSafe) (hname : isLocalName name.localName = true)
    (hattributes : Writable attributes) (p : Position) :
    Prints o p (enclose name attributes [])
      (layout o p ++ [.element (.empty (readTag o name attributes true).nsPrefix name.localName
        (readAttributes o attributes))]) ⟨p.depth, true, true⟩ := by
  intro opened rest
  have hkeys : ∀ a ∈ tagAttributes o p attributes, IsRawName a.1.toList := fun a ha =>
    isRawName_of_mem_tagAttributes hsafe hattributes ha
  have htoken := nextToken_emptyTag (isRawName_qualify hsafe hname) hkeys
    (nodup_tagAttributes hsafe hattributes) (writeFrom o ⟨p.depth, true, true⟩ rest)
  have htag := ofContent_tagChars hsafe hname hattributes true (p := p)
  have hwritten : writeFrom o p (enclose name attributes [] ++ rest) =
      lineBreak o p ++ '<' :: (tagChars o p name attributes ++ '/' :: '>' ::
        writeFrom o ⟨p.depth, true, true⟩ rest) := by
    simp [enclose, writeFrom, Mark.write]
  rw [hwritten, ofChars_lineBreak, Part.nodes_append, ← behind_behind, tagChars_eq,
    ofChars_emptyTag htoken htag]
  rfl

theorem ofChars_close (hsafe : o.PrefixSafe) (hname : isLocalName name.localName = true)
    (p : Position) (opened : List (List Char)) (rest : List Mark) :
    ofChars ((o.qualify name).toList :: opened) (writeFrom o p (.close name :: rest)) =
      ((ofChars opened (writeFrom o { p with depth := p.depth - 1, breakLine := true } rest)).cons
        .close).behind (Part.nodes (layout o { p with depth := p.depth - 1 })) := by
  have htoken := nextToken_endTag (isRawName_qualify hsafe hname)
    (writeFrom o { p with depth := p.depth - 1, breakLine := true } rest)
  have hwritten : writeFrom o p (.close name :: rest) =
      lineBreak o { p with depth := p.depth - 1 } ++ '<' :: '/' :: ((o.qualify name).toList ++
        '>' :: writeFrom o { p with depth := p.depth - 1, breakLine := true } rest) := by
    simp [writeFrom, Mark.write]
  rw [hwritten, ofChars_lineBreak, ofChars_endTag htoken]

/-- An element with content is read as one around what its content is read as. -/
theorem prints_around (hsafe : o.PrefixSafe) (hname : isLocalName name.localName = true)
    (hattributes : Writable attributes) {p : Position} {content : List Mark} {parts : List Part}
    {breakLine : Bool} (hcontent : content ≠ [])
    (hfill : Fills o ⟨p.depth + 1, true, true⟩ content parts ⟨p.depth + 1, breakLine, true⟩) :
    Prints o p (enclose name attributes content)
      (layout o p ++ [.element (.around (readTag o name attributes false).nsPrefix
        name.localName (readAttributes o attributes)
        (parts ++ layout o ⟨p.depth, breakLine, true⟩))]) ⟨p.depth, true, true⟩ := by
  intro opened rest
  have hkeys : ∀ a ∈ tagAttributes o p attributes, IsRawName a.1.toList := fun a ha =>
    isRawName_of_mem_tagAttributes hsafe hattributes ha
  have hrawName := isRawName_qualify hsafe hname
  have hnodup := nodup_tagAttributes hsafe hattributes (p := p)
  have htoken := nextToken_startTag hrawName hkeys hnodup
    (writeFrom o ⟨p.depth + 1, true, true⟩ (content ++ .close name :: rest))
  have htag := ofContent_tagChars hsafe hname hattributes false (p := p)
  have hopened := rawName_contentChars hrawName hkeys hnodup
  have hempty : content.isEmpty = false := by simpa using hcontent
  have hwritten : writeFrom o p (enclose name attributes content ++ rest) =
      lineBreak o p ++ '<' :: (tagChars o p name attributes ++ '>' ::
        writeFrom o ⟨p.depth + 1, true, true⟩ (content ++ .close name :: rest)) := by
    simp [enclose, hempty, writeFrom, Mark.write]
  rw [hwritten, ofChars_lineBreak, Part.nodes_append, ← behind_behind, tagChars_eq,
    ofChars_startTag htoken htag, hopened, hfill, ofChars_close hsafe hname]
  simp [behind, cons, Part.nodes_append, Element.inside, Element.tag, readTag]

/-- An element that stands where no line is broken begins with its tag. -/
theorem head?_writeFrom_enclose (o : EncodeOptions) {p : Position} (hbreak : p.breakLine = false)
    (name : QName) (attributes : List (QName × String)) (content : List Mark) :
    (writeFrom o p (enclose name attributes content)).head? = some '<' := by
  have hline : lineBreak o p = [] := by
    unfold lineBreak
    split <;> simp [hbreak]
  unfold enclose
  split <;> simp [writeFrom, Mark.write, hline]

theorem nextToken_declaration (rest : List Char) :
    nextToken ("<?xml version=\"1.0\" encoding=\"UTF-8\"?>".toList ++ rest) =
      .ok (some (.aside, rest)) := rfl

/-- A written element is read from its first character on. -/
theorem ofText_write_enclose (o : EncodeOptions) (name : QName)
    (attributes : List (QName × String)) (content : List Mark) :
    ofText (write o (enclose name attributes content)) =
      ofChars [] (writeFrom o {} (enclose name attributes content)) := by
  have hwritten : (write o (enclose name attributes content)).toList =
      writeFrom o {} (enclose name attributes content) := String.toList_ofList
  have hhead : (write o (enclose name attributes content)).toList.head? ≠ some '\ufeff' := by
    rw [hwritten, head?_writeFrom_enclose o rfl]
    decide
  rw [ofText_eq_ofChars hhead, hwritten]

/-- What is written behind the declaration is read as if nothing stood before it. -/
theorem ofText_write (o : EncodeOptions) (name : QName) (attributes : List (QName × String))
    (content : List Mark) :
    ∃ p, ofText (write o (.declaration :: enclose name attributes content)) =
      ofChars [] (writeFrom o p (enclose name attributes content)) := by
  have hline : lineBreak o {} = [] := by
    cases hindent : o.indent <;> simp [lineBreak, hindent]
  by_cases hdeclaration : o.declaration = true
  · have hwritten : (write o (.declaration :: enclose name attributes content)).toList =
        "<?xml version=\"1.0\" encoding=\"UTF-8\"?>".toList ++
          writeFrom o { breakLine := true } (enclose name attributes content) := by
      simp [write, writeFrom, Mark.write, hdeclaration, hline]
    have hhead : (write o (.declaration :: enclose name attributes content)).toList.head? ≠
        some '\ufeff' := by
      rw [hwritten]
      change some '<' ≠ some '\ufeff'
      decide
    refine ⟨{ breakLine := true }, ?_⟩
    rw [ofText_eq_ofChars hhead, hwritten, ofChars_aside (nextToken_declaration _)]
  · have hwritten : write o (.declaration :: enclose name attributes content) =
        write o (enclose name attributes content) := by
      simp [write, writeFrom, Mark.write, hdeclaration]
    exact ⟨{}, by rw [hwritten, ofText_write_enclose]⟩

end Marks

end TableJoin.Writing
