import TableJoin.Proofs.Document.RoundTrip
import TableJoin.Proofs.Document.Source
import TableJoin.Proofs.Writing.Resolution

/-!
What a document is written as: one well-formed element behind the declaration, in which
every name means what the features say, and which holds what the document holds.
-/

namespace TableJoin

open Markup Writing Schema

/-- What is written in front of the root element. -/
def Writing.EncodeOptions.prolog (o : EncodeOptions) : List SourcePart :=
  if o.declaration then
    .aside "<?xml version=\"1.0\" encoding=\"UTF-8\"?>".toList ::
      if o.indent.isSome then [.plain '\n'] else []
  else []

namespace Document

/-- The element that a document amounts to.  It alone binds short names. -/
def rendered (o : EncodeOptions) (d : Document) : ResolvedElement :=
  (d.content.rendered (.tjs d.root.name)).asRoot o

/-- The place where the root element is written. -/
def rootPosition (o : EncodeOptions) : Position := { breakLine := o.declaration }

theorem lineBreak_rootPosition (o : EncodeOptions) : lineBreak o (rootPosition o) =
    if o.declaration && o.indent.isSome then ['\n'] else [] := by
  cases hdeclaration : o.declaration <;> cases hindent : o.indent <;>
    simp [lineBreak, rootPosition, hdeclaration, hindent]

/-- What the marks of a document are written as begins with the prolog. -/
theorem writeFrom_declaration (o : EncodeOptions) (ms : List Mark) {cs : List Char}
    (h : writeFrom o (rootPosition o) ms = lineBreak o (rootPosition o) ++ cs) :
    writeFrom o {} (.declaration :: ms) = SourcePart.chars o.prolog ++ cs := by
  have hline : lineBreak o {} = [] := by
    cases hindent : o.indent <;> simp [lineBreak, hindent]
  rw [lineBreak_rootPosition] at h
  unfold EncodeOptions.prolog
  cases hdeclaration : o.declaration with
  | false =>
    rw [rootPosition, hdeclaration] at h
    simpa [writeFrom, Mark.write, hdeclaration] using h
  | true =>
    rw [rootPosition, hdeclaration] at h
    have hfirst : writeFrom o {} (.declaration :: ms) =
        "<?xml version=\"1.0\" encoding=\"UTF-8\"?>".toList ++
          writeFrom o { breakLine := true } ms := by
      simp only [writeFrom, Mark.write, hdeclaration, ↓reduceIte, hline]
      rfl
    rw [hfirst, h]
    cases o.indent <;> rfl

theorem spelled_prolog (o : EncodeOptions) : Spelled o.prolog (lineBreak o (rootPosition o)) := by
  have hdeclaration : isToken "<?xml version=\"1.0\" encoding=\"UTF-8\"?>".toList .aside = true := by
    decide +kernel
  rw [lineBreak_rootPosition, EncodeOptions.prolog]
  cases o.declaration with
  | false => exact ⟨rfl, rfl, rfl⟩
  | true =>
    cases o.indent with
    | none => exact Spelled.aside ⟨rfl, rfl, rfl⟩ hdeclaration
    | some width =>
      have hbreak : Spelled [.plain '\n'] ['\n'] := ⟨rfl, rfl, rfl⟩
      exact hbreak.aside hdeclaration

/-- A document is written as one well-formed element, behind a declaration if there is
to be one, and with nothing behind it.  Every name in it resolves to the one that the
features give, so that it is the element that the document amounts to. -/
theorem encode_rendered {o : EncodeOptions} (hsafe : o.NamespaceSafe) {d : Document}
    (hfits : d.FitsSchema) :
    ∃ root : SourceElement, (⟨false, o.prolog, root, []⟩ : SourceDocument).Spells (d.encode o) ∧
      root.resolve? o.indent.isSome [] = some (d.rendered o) := by
  obtain ⟨root, hwell, hresolve, hlays⟩ := writesElement_record hsafe d.content hfits
    (.tjs d.root.name) (root_name d.root).1 (by simp [QName.tjs]) (rootPosition o)
  have hspelled := spelled_prolog o
  refine ⟨root, ⟨?_, ?_⟩, hresolve⟩
  · refine SourceDocument.isWellFormed_iff.mpr ⟨hspelled.wellFormed, hspelled.elements, ?_, hwell⟩
    rw [hspelled.stands, List.all_eq_true]
    exact fun c hc => (isBlank_of_mem_lineBreak hc).1
  · have hwritten := hlays []
    rw [List.append_nil, SourcePart.chars_append, sourceLayout, chars_plain, writeFrom,
      List.append_nil, SourcePart.chars_cons, SourcePart.chars_nil, List.append_nil] at hwritten
    rw [encode, marks, write, writeFrom_declaration o _ hwritten, SourceDocument.text,
      SourceDocument.chars]
    simp only [Bool.false_eq_true, ↓reduceIte, List.nil_append, SourcePart.own_element,
      List.append_nil]

/-- With the default namespace for the names that are not Table Joining ones. -/
theorem encode_rendered_capabilities :
    let o : EncodeOptions := { owsShort := "", schemaLocation := some "s" }
    let d : Document := ⟨.capabilities, ⟨.capabilities, [[], [], [],
      [.record ⟨.languages, [[.scalar (.text "en")]]⟩], [.record ⟨.wsdl, [[.scalar (.text "u")]]⟩],
      [.scalar (.text "en")], [], [], []]⟩, rfl⟩
    let tjs := some "http://www.opengis.net/tjs/1.0"
    let ows := some "http://www.opengis.net/ows/1.1"
    let xlink := some "http://www.w3.org/1999/xlink"
    o.NamespaceSafe ∧ d.FitsSchema ∧ ∃ root : SourceElement,
      (⟨false, o.prolog, root, []⟩ : SourceDocument).Spells (d.encode o) ∧
        root.resolve? true [] = some (.around ⟨⟨tjs, "Capabilities"⟩, o.declared,
            [(⟨some Namespace.schemaInstanceUri, "schemaLocation"⟩, "s"), (⟨none, "lang"⟩, "en")]⟩ ""
          [.around ⟨⟨tjs, "Languages"⟩, [], []⟩ "" [.around ⟨⟨ows, "Language"⟩, [], []⟩ "en" []],
            .empty ⟨⟨tjs, "WSDL"⟩, [], [(⟨xlink, "href"⟩, "u")]⟩]) := by
  intro o d tjs ows xlink
  have hsafe : o.NamespaceSafe := by decide
  have hfits : d.FitsSchema := by decide +kernel
  exact ⟨hsafe, hfits, encode_rendered hsafe hfits⟩

end Document

end TableJoin
