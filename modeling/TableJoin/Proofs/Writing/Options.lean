import TableJoin.Proofs.Markup.Name
import TableJoin.Writing.Options

/-!
Options under which names can be told apart: what the short names have to be,
and what follows for the names and attributes that are written.
-/

namespace TableJoin.Markup

/-- A reserved key is the default declaration or has a reserved short name. -/
theorem split_of_isReservedKey {key : List Char} (h : isReservedKey key = true) :
    key = "xmlns".toList ∨ (splitRawName key).1 = some "xmlns" ∨
      (splitRawName key).1 = some "xsi" := by
  simp only [isReservedKey, Bool.or_eq_true, decide_eq_true_eq, List.isPrefixOf_iff_prefix] at h
  rcases h with (hkey | ⟨rest, hkey⟩) | ⟨rest, hkey⟩
  · exact .inl hkey
  · have hsplit : splitRawName ("xmlns".toList ++ ':' :: (String.ofList rest).toList) = _ :=
      splitRawName_join (by decide)
    rw [String.toList_ofList] at hsplit
    refine .inr (.inl ?_)
    rw [← hkey]
    exact congrArg Prod.fst hsplit
  · have hsplit : splitRawName ("xsi".toList ++ ':' :: (String.ofList rest).toList) = _ :=
      splitRawName_join (by decide)
    rw [String.toList_ofList] at hsplit
    refine .inr (.inr ?_)
    rw [← hkey]
    exact congrArg Prod.fst hsplit

end TableJoin.Markup

namespace TableJoin.Writing.EncodeOptions

open Markup

def shorts (o : EncodeOptions) : List String := [o.tjsShort, o.owsShort, o.xlinkShort]

/-- The short names are distinct, each is empty or a name without a colon, and none
is reserved. -/
structure PrefixSafe (o : EncodeOptions) : Prop where
  distinct : o.shorts.Nodup
  named : ∀ short ∈ o.shorts, short = "" ∨ isLocalName short = true
  unreserved : ∀ short ∈ o.shorts, short ≠ "xmlns" ∧ short ≠ "xsi"

instance (o : EncodeOptions) : Decidable o.PrefixSafe :=
  decidable_of_iff
    (o.shorts.Nodup ∧ (∀ short ∈ o.shorts, short = "" ∨ isLocalName short = true) ∧
      ∀ short ∈ o.shorts, short ≠ "xmlns" ∧ short ≠ "xsi")
    ⟨fun ⟨h, h', h''⟩ => ⟨h, h', h''⟩, fun ⟨h, h', h''⟩ => ⟨h, h', h''⟩⟩

theorem mem_shorts_of_shortName? {o : EncodeOptions} {space : Namespace} {short : String}
    (h : o.shortName? space = some short) : short ∈ o.shorts := by
  cases space with
  | unqualified => cases h
  | tjs => cases h; simp [shorts]
  | ows => cases h; simp [shorts]
  | xlink => cases h; simp [shorts]

/-- A name is written alone, or behind a short name and a colon. -/
theorem qualify_cases {o : EncodeOptions} (h : o.PrefixSafe) (name : QName) :
    o.qualify name = name.localName ∨
      ∃ short ∈ o.shorts, isLocalName short = true ∧
        (o.qualify name).toList = short.toList ++ ':' :: name.localName.toList := by
  unfold qualify QName.join
  cases hshort : o.shortName? name.space with
  | none => exact .inl rfl
  | some short =>
    have hmem := mem_shorts_of_shortName? hshort
    rcases h.named short hmem with rfl | hlocal
    · exact .inl rfl
    · refine .inr ⟨short, hmem, hlocal, ?_⟩
      have hne := isEmpty_of_isLocalName hlocal
      simp only [hne, Bool.false_eq_true, ↓reduceIte, String.toList_append, List.append_assoc]
      rfl

section Qualified

variable {o : EncodeOptions} {name : QName}

theorem isRawName_qualify (h : o.PrefixSafe) (hname : isLocalName name.localName = true) :
    IsRawName (o.qualify name).toList := by
  rcases qualify_cases h name with heq | ⟨short, -, hshort, heq⟩
  · rw [heq]
    exact isRawName_of_isLocalName hname
  · rw [heq]
    exact isRawName_join hshort hname

/-- Whatever the short names, a reader finds the local name. -/
theorem splitRawName_qualify (h : o.PrefixSafe) (hname : isLocalName name.localName = true) :
    (splitRawName (o.qualify name).toList).2 = name.localName := by
  rcases qualify_cases h name with heq | ⟨short, -, hshort, heq⟩
  · rw [heq, splitRawName_of_isLocalName hname]
  · rw [heq, splitRawName_join hshort]

/-- The key of a record's own attribute is not taken for a declaration. -/
theorem isReservedKey_qualify (h : o.PrefixSafe) (hname : isLocalName name.localName = true)
    (hxmlns : name.localName ≠ "xmlns") : isReservedKey (o.qualify name).toList = false := by
  rw [← Bool.not_eq_true]
  intro hreserved
  have hcases := split_of_isReservedKey hreserved
  rcases qualify_cases h name with heq | ⟨short, hmem, hshort, heq⟩
  · rw [heq, splitRawName_of_isLocalName hname] at hcases
    rcases hcases with hkey | hkey | hkey
    · exact hxmlns (String.toList_inj.mp hkey)
    · cases hkey
    · cases hkey
  · obtain ⟨hx, hsi⟩ := h.unreserved short hmem
    rw [heq, splitRawName_join hshort] at hcases
    rcases hcases with hkey | hkey | hkey
    · have hcolon : ':' ∈ "xmlns".toList := by
        rw [← hkey]
        simp
      revert hcolon
      decide
    · injection hkey with hkey
      exact hx hkey
    · injection hkey with hkey
      exact hsi hkey

/-- Names with different local names are written differently. -/
theorem qualify_ne (h : o.PrefixSafe) {other : QName}
    (hname : isLocalName name.localName = true) (hother : isLocalName other.localName = true)
    (hne : name.localName ≠ other.localName) : o.qualify name ≠ o.qualify other := by
  intro heq
  have hsplit := splitRawName_qualify h hname
  rw [heq, splitRawName_qualify h hother] at hsplit
  exact hne hsplit.symm

end Qualified

/-- The key under which a short name is bound. -/
def bindingKey (short : String) : String :=
  if short.isEmpty then "xmlns" else s!"xmlns:{short}"

theorem bindingKey_cases {short : String} (h : short = "" ∨ isLocalName short = true) :
    (short = "" ∧ bindingKey short = "xmlns") ∨
      (isLocalName short = true ∧
        (bindingKey short).toList = "xmlns".toList ++ ':' :: short.toList) := by
  rcases h with rfl | hlocal
  · exact .inl ⟨rfl, rfl⟩
  · refine .inr ⟨hlocal, ?_⟩
    have hne := isEmpty_of_isLocalName hlocal
    simp only [bindingKey, hne, Bool.false_eq_true, ↓reduceIte, String.toList_append]
    rfl

theorem isRawName_bindingKey {short : String} (h : short = "" ∨ isLocalName short = true) :
    IsRawName (bindingKey short).toList := by
  rcases bindingKey_cases h with ⟨-, heq⟩ | ⟨hlocal, heq⟩
  · rw [heq]
    exact isRawName_of_isLocalName (by decide)
  · rw [heq]
    exact isRawName_join (by decide) hlocal

theorem isReservedKey_bindingKey {short : String} (h : short = "" ∨ isLocalName short = true) :
    isReservedKey (bindingKey short).toList = true := by
  rcases bindingKey_cases h with ⟨-, heq⟩ | ⟨hlocal, heq⟩
  · rw [heq]
    decide
  · rw [heq]
    simp [isReservedKey, List.isPrefixOf_cons_cons]

/-- Different short names are bound by different keys. -/
theorem bindingKey_ne {short other : String} (h : short = "" ∨ isLocalName short = true)
    (hother : other = "" ∨ isLocalName other = true) (hne : short ≠ other) :
    bindingKey short ≠ bindingKey other := by
  intro heq
  rw [← String.toList_inj] at heq
  rcases bindingKey_cases h with ⟨rfl, hkey⟩ | ⟨-, hkey⟩ <;>
    rcases bindingKey_cases hother with ⟨rfl, hkey'⟩ | ⟨-, hkey'⟩
  · exact hne rfl
  · rw [hkey, hkey'] at heq
    simp at heq
  · rw [hkey, hkey'] at heq
    simp at heq
  · rw [hkey, hkey'] at heq
    simp only [List.append_cancel_left_eq, List.cons.injEq, true_and] at heq
    exact hne (String.toList_inj.mp heq)

/-- No namespace is bound by the attribute that gives the schema's location. -/
theorem bindingKey_ne_location {short : String} (h : short = "" ∨ isLocalName short = true) :
    bindingKey short ≠ "xsi:schemaLocation" := by
  intro heq
  rw [← String.toList_inj] at heq
  rcases bindingKey_cases h with ⟨rfl, hkey⟩ | ⟨-, hkey⟩
  · rw [hkey] at heq
    revert heq
    decide
  · rw [hkey] at heq
    simp at heq

/-- The attributes that the first tag has: three bindings, and what tells where the
schema is. -/
theorem rootAttributes_eq (o : EncodeOptions) :
    o.rootAttributes =
      [(bindingKey o.tjsShort, "http://www.opengis.net/tjs/1.0"),
        (bindingKey o.owsShort, "http://www.opengis.net/ows/1.1"),
        (bindingKey o.xlinkShort, "http://www.w3.org/1999/xlink")] ++
      match o.schemaLocation with
      | none => []
      | some location =>
        [(bindingKey "xsi", Namespace.schemaInstanceUri), ("xsi:schemaLocation", location)] :=
  rfl

section RootAttributes

variable {o : EncodeOptions}

/-- The first tag's own attributes are declarations, by well-formed keys. -/
theorem rootAttributes_declare (h : o.PrefixSafe) {a : String × String}
    (ha : a ∈ o.rootAttributes) : IsRawName a.1.toList ∧ isReservedKey a.1.toList = true := by
  have hbinding : ∀ short ∈ o.shorts, IsRawName (bindingKey short).toList ∧
      isReservedKey (bindingKey short).toList = true := fun short hshort =>
    ⟨isRawName_bindingKey (h.named short hshort), isReservedKey_bindingKey (h.named short hshort)⟩
  have hxsi : ("xsi" : String) = "" ∨ isLocalName "xsi" = true := .inr (by decide)
  have hsplit : "xsi:schemaLocation".toList = "xsi".toList ++ ':' :: "schemaLocation".toList := by
    decide
  have hlocation : IsRawName "xsi:schemaLocation".toList := by
    rw [hsplit]
    exact isRawName_join (by decide) (by decide)
  have hreserved : isReservedKey "xsi:schemaLocation".toList = true := by decide
  rw [rootAttributes_eq, List.mem_append] at ha
  rcases ha with ha | ha
  · simp only [List.mem_cons, List.not_mem_nil, or_false] at ha
    rcases ha with rfl | rfl | rfl <;> exact hbinding _ (by simp [shorts])
  · cases hloc : o.schemaLocation with
    | none =>
      rw [hloc] at ha
      cases ha
    | some location =>
      rw [hloc] at ha
      simp only [List.mem_cons, List.not_mem_nil, or_false] at ha
      rcases ha with rfl | rfl
      · exact ⟨isRawName_bindingKey hxsi, isReservedKey_bindingKey hxsi⟩
      · exact ⟨hlocation, hreserved⟩

/-- No two of the first tag's own attributes share a key. -/
theorem nodup_rootAttributes (h : o.PrefixSafe) : (o.rootAttributes.map (·.1)).Nodup := by
  obtain ⟨hdistinct, hnamed, hunreserved⟩ := h
  simp only [shorts, List.mem_cons, List.not_mem_nil, or_false, forall_eq_or_imp, forall_eq]
    at hnamed hunreserved
  simp only [shorts, List.nodup_cons, List.mem_cons, List.not_mem_nil, or_false, not_or,
    not_false_eq_true, List.nodup_nil, and_true] at hdistinct
  obtain ⟨htjs, hows, hxlink⟩ := hnamed
  have hxsi : ("xsi" : String) = "" ∨ isLocalName "xsi" = true := .inr (by decide)
  rw [rootAttributes_eq]
  cases o.schemaLocation with
  | none =>
    simp [bindingKey_ne htjs hows hdistinct.1.1, bindingKey_ne htjs hxlink hdistinct.1.2,
      bindingKey_ne hows hxlink hdistinct.2]
  | some location =>
    simp [bindingKey_ne htjs hows hdistinct.1.1, bindingKey_ne htjs hxlink hdistinct.1.2,
      bindingKey_ne hows hxlink hdistinct.2, bindingKey_ne htjs hxsi hunreserved.1.2,
      bindingKey_ne hows hxsi hunreserved.2.1.2, bindingKey_ne hxlink hxsi hunreserved.2.2.2,
      bindingKey_ne_location htjs, bindingKey_ne_location hows, bindingKey_ne_location hxlink,
      bindingKey_ne_location hxsi]

end RootAttributes

end TableJoin.Writing.EncodeOptions
