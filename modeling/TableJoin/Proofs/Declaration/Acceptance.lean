import TableJoin.Declaration.Model
import TableJoin.Proofs.Failure

/-!
Acceptance: what a declaration says of its fields, and what is known of the type that it
describes if it is accepted.
-/

namespace TableJoin.Declaration

namespace Setting

variable {α : Type} {accept : α → Setting → Except DeclarationError α} {a b : α}

def ofAnnotation (ts : List Token) : List Setting :=
  (pieces ts).flatMap fun (piece, isLast) => (ofTokens isLast piece).toOption.toList

/-- The settings that stand in the annotations among the attributes, in order. -/
def ofAttributes (attributes : List Attribute) : List Setting :=
  (attributes.filter (·.name? = some "tjs")).flatMap fun annotation =>
    match annotation.form with
    | .applied inside => ofAnnotation inside
    | _ => []

/-- The settings of annotations that are accepted are accepted one after the other. -/
theorem foldlM_of_applyAttributes {attributes : List Attribute}
    (h : applyAttributes accept a attributes = .ok b) :
    (ofAttributes attributes).foldlM accept a = .ok b := by
  refine foldlM_flatMap (fun a annotation b h => ?_) h
  cases hform : annotation.form with
  | bare => simp [hform] at h
  | assigned => simp [hform] at h
  | applied inside =>
    simp only [hform] at h ⊢
    refine foldlM_flatMap (fun a piece b h => ?_) h
    obtain ⟨s, hs, h⟩ := Except.bind_eq_ok_iff.mp h
    simp [hs, Except.toOption, h]

/-- Where the setting says that a field stands. -/
def placement? (s : Setting) : Option Placement :=
  match s.name? with
  | some "attribute" => s.string.toOption.map fun l =>
    let (short?, localName) := Markup.splitRawName l.value.toList
    .attribute short? localName
  | some "element" => s.string.toOption.map fun l =>
    let (short?, localName) := Markup.splitRawName l.value.toList
    .element short? localName
  | some "text" => some .text
  | _ => none

end Setting

/-- The attributes say the setting of this name. -/
def Says (attributes : List Attribute) (name : String) : Prop :=
  ∃ s ∈ Setting.ofAttributes attributes, s.name? = some name

namespace FieldModel.Settings

variable {s s' : Settings}

/-- What a setting changes: the last placement counts, and nothing that was said is taken
back. -/
theorem accept_spec {setting : Setting} (h : s.accept setting = .ok s') :
    s'.placement? = setting.placement?.or s.placement? ∧
    s'.isRequired = (s.isRequired || setting.name? = some "required") ∧
    s'.default?.isSome = (s.default?.isSome || setting.name? = some "default") := by
  unfold accept at h
  split at h
  · next hname =>
    obtain ⟨l, hl, h⟩ := Except.bind_eq_ok_iff.mp h
    cases hraw : Markup.splitRawName l.value.toList with
    | mk short? localName =>
      simp only [hraw] at h
      cases h
      simp [Setting.placement?, hname, hl, hraw, Except.toOption]
  · next hname =>
    obtain ⟨l, hl, h⟩ := Except.bind_eq_ok_iff.mp h
    cases hraw : Markup.splitRawName l.value.toList with
    | mk short? localName =>
      simp only [hraw] at h
      cases h
      simp [Setting.placement?, hname, hl, hraw, Except.toOption]
  · next hname =>
    obtain ⟨u, hu, h⟩ := Except.bind_eq_ok_iff.mp h
    cases h
    simp [Setting.placement?, hname]
  · next hname =>
    obtain ⟨u, hu, h⟩ := Except.bind_eq_ok_iff.mp h
    cases h
    simp [Setting.placement?, hname]
  · next hname =>
    obtain ⟨l, hl, h⟩ := Except.bind_eq_ok_iff.mp h
    cases h
    simp [Setting.placement?, hname]
  · cases h

theorem foldlM_spec : ∀ {settings : List Setting} {s s' : Settings},
    settings.foldlM accept s = .ok s' →
      s'.placement? = (settings.filterMap Setting.placement?).getLast?.or s.placement? ∧
      (s'.isRequired = true ↔ s.isRequired = true ∨ ∃ t ∈ settings, t.name? = some "required") ∧
      (s'.default?.isSome = true ↔
        s.default?.isSome = true ∨ ∃ t ∈ settings, t.name? = some "default")
  | [], s, s', h => by
    cases h
    simp
  | setting :: settings, s, s', h => by
    rw [List.foldlM_cons] at h
    obtain ⟨between, hfirst, h⟩ := Except.bind_eq_ok_iff.mp h
    obtain ⟨hplacement, hrequired, hdefault⟩ := accept_spec hfirst
    obtain ⟨hplacement', hrequired', hdefault'⟩ := foldlM_spec h
    refine ⟨?_, ?_, ?_⟩
    · rw [hplacement', hplacement]
      cases hp : setting.placement? with
      | none => rw [List.filterMap_cons_none hp, Option.none_or]
      | some p =>
        rw [List.filterMap_cons_some hp, List.getLast?_cons, Option.some_or]
        cases (settings.filterMap Setting.placement?).getLast? <;> rfl
    · simp [hrequired', hrequired, or_assoc]
    · simp [hdefault', hdefault, or_assoc]

end FieldModel.Settings

/-- What a field of a declaration says of the feature that it describes. -/
structure Field.Describes (field : Field) (f : FieldModel) : Prop where
  ident_eq : f.ident = field.ident
  name_eq : f.name = featureName field.ident
  /-- The type of the field is a container, which says how many values there are. -/
  container : ∃ type, FieldModel.container? field.type = some (f.cardinality, type) ∧
    f.type = Expression.writeType type
  /-- Of several placements the last one counts. -/
  placement_eq : ((Setting.ofAttributes field.attributes).filterMap Setting.placement?).getLast? =
    some f.placement
  isRequired_iff : f.isRequired = true ↔ Says field.attributes "required"
  default_iff : f.default?.isSome = true ↔ Says field.attributes "default"
  /-- Lists stand in child elements only and have no default. -/
  many : f.cardinality = .many → f.placement.isElement = true ∧ f.default? = none

namespace FieldModel

variable {field : Field} {f : FieldModel}

theorem exists_settings_of_ofField (h : ofField field = .ok f) : ∃ type settings,
    container? field.type = some (f.cardinality, type) ∧
    Setting.applyAttributes Settings.accept {} field.attributes = .ok settings ∧
    settings.placement? = some f.placement ∧
    (f.cardinality = .many → f.placement.isElement = true) ∧
    settings.default?.mapM (defaultOf f.cardinality type) = .ok f.default? ∧
    f = ⟨field.ident, featureName field.ident, Expression.writeType type, f.cardinality,
      f.placement, settings.isRequired, f.default?⟩ := by
  unfold ofField at h
  split at h
  · next cardinality type hcontainer =>
    obtain ⟨settings, hsettings, h⟩ := Except.bind_eq_ok_iff.mp h
    split at h
    · next placement hplacement =>
      dsimp only at h
      split at h
      · cases h
      · next hguard =>
        obtain ⟨default?, hdefault, h⟩ := Except.bind_eq_ok_iff.mp h
        cases h
        have helement : cardinality = .many → placement.isElement = true := by simpa using hguard
        exact ⟨type, settings, hcontainer, hsettings, hplacement, helement, hdefault, rfl⟩
    · cases h
  · cases h

/-- A default is made exactly if one is said, and never for a list. -/
theorem default_of_mapM {l? : Option StringLiteral} {cardinality : Cardinality}
    {type : List Token} {d? : Option DefaultValue}
    (h : l?.mapM (defaultOf cardinality type) = .ok d?) :
    d?.isSome = l?.isSome ∧ (cardinality = .many → d? = none) := by
  cases l? with
  | none =>
    cases h
    exact ⟨rfl, fun _ => rfl⟩
  | some l =>
    rw [Option.mapM_some] at h
    cases hd : defaultOf cardinality type l with
    | error e =>
      rw [hd] at h
      cases h
    | ok d =>
      rw [hd] at h
      cases h
      refine ⟨rfl, fun hmany => ?_⟩
      simp [hmany, defaultOf] at hd

theorem describes_of_ofField (h : ofField field = .ok f) : field.Describes f := by
  obtain ⟨type, settings, hcontainer, hsettings, hplacement, helement, hdefault, hf⟩ :=
    exists_settings_of_ofField h
  obtain ⟨hlast, hrequired, hsays⟩ :=
    Settings.foldlM_spec (Setting.foldlM_of_applyAttributes hsettings)
  obtain ⟨hsome, hnone⟩ := default_of_mapM hdefault
  refine ⟨by rw [hf], by rw [hf], ⟨type, hcontainer, by rw [hf]⟩, ?_, ?_, ?_, ?_⟩
  · rw [← hplacement, hlast, Option.or_none]
  · rw [hf]
    simpa [Says] using hrequired
  · rw [hsome]
    simpa [Says] using hsays
  · exact fun hmany => ⟨helement hmany, hnone hmany⟩

end FieldModel

/-- The fields of a declaration, in order; a struct without a body has none. -/
def Outline.fields (o : Outline) : List Field :=
  match o.body with
  | .named fields => fields
  | _ => []

/-- What is known of the type that an accepted declaration describes. -/
structure Outline.Describes (o : Outline) (m : TypeModel) : Prop where
  ident_eq : m.ident = o.ident
  fields : List.Forall₂ Field.Describes o.fields m.fields
  texts : (m.fields.filter fun f => f.placement = .text).length ≤ 1
  unmixed : (∃ f ∈ m.fields, f.placement = .text) → ∀ f ∈ m.fields, f.placement.isElement = false

theorem exists_of_forall₂_mem_right {α β : Type} {r : α → β → Prop} {as : List α} {bs : List β}
    (h : List.Forall₂ r as bs) {b : β} (hb : b ∈ bs) : ∃ a ∈ as, r a b := by
  induction h with
  | nil => cases hb
  | cons hr _ ih =>
    rcases List.mem_cons.mp hb with rfl | hb
    · exact ⟨_, List.mem_cons_self, hr⟩
    · obtain ⟨a, ha, hab⟩ := ih hb
      exact ⟨a, List.mem_cons_of_mem _ ha, hab⟩

/-- Lists stand in child elements and have no default. -/
theorem Outline.Describes.many {o : Outline} {m : TypeModel} (h : o.Describes m) {f : FieldModel}
    (hf : f ∈ m.fields) (hmany : f.cardinality = .many) :
    f.placement.isElement = true ∧ f.default? = none := by
  obtain ⟨field, -, hfield⟩ := exists_of_forall₂_mem_right h.fields hf
  exact hfield.many hmany

namespace TypeModel

variable {o : Outline} {m : TypeModel}

theorem eq_of_checks {ident typeName : String} {fields : List FieldModel}
    (h : (do
      let texts := fields.filter fun f => f.placement = .text
      if 1 < texts.length then throw .secondText
      if !texts.isEmpty && fields.any (·.placement.isElement) then throw .textWithElements
      return ⟨ident, typeName, fields⟩ : Except DeclarationError TypeModel) = .ok m) :
    m = ⟨ident, typeName, fields⟩ ∧ (fields.filter fun f => f.placement = .text).length ≤ 1 ∧
      ((∃ f ∈ fields, f.placement = .text) → ∀ f ∈ fields, f.placement.isElement = false) := by
  dsimp only at h
  split at h
  · cases h
  · next htexts =>
    split at h
    · cases h
    · next hmixed =>
      cases h
      refine ⟨rfl, Nat.not_lt.mp htexts, fun ⟨t, ht, htext⟩ f hf => ?_⟩
      by_contra helement
      refine hmixed ?_
      simp only [Bool.and_eq_true, Bool.not_eq_true', List.isEmpty_eq_false_iff_exists_mem,
        List.mem_filter, List.any_eq_true, decide_eq_true_eq]
      exact ⟨⟨t, ht, htext⟩, f, hf, by simpa using helement⟩

/-- An accepted declaration describes its type, field by field. -/
theorem describes_of_ofOutline (h : ofOutline o = .ok m) : o.Describes m := by
  unfold ofOutline at h
  obtain ⟨typeName, -, h⟩ := Except.bind_eq_ok_iff.mp h
  dsimp only at h
  split at h
  · next declared hbody =>
    obtain ⟨fields, hfields, h⟩ := Except.bind_eq_ok_iff.mp h
    obtain ⟨rfl, htexts, hunmixed⟩ := eq_of_checks h
    refine ⟨rfl, ?_, htexts, hunmixed⟩
    rw [Outline.fields, hbody]
    exact (forall₂_of_mapM hfields).imp fun _ _ => FieldModel.describes_of_ofField
  · next hbody =>
    obtain ⟨fields, hfields, h⟩ := Except.bind_eq_ok_iff.mp h
    obtain ⟨rfl, htexts, hunmixed⟩ := eq_of_checks h
    cases hfields
    refine ⟨rfl, ?_, htexts, hunmixed⟩
    rw [Outline.fields, hbody]
    exact .nil
  · cases h
  · cases h

end TypeModel

end TableJoin.Declaration
