import TableJoin.Proofs.Document.RoundTrip
import TableJoin.Proofs.Numeral.DecimalText

/-!
Extents: a decimal is read again where it was written if its mantissa, with the zeros that a
positive exponent puts behind it, is a number of 64 bits.  Decimals stand only at the edges of
extents, so these decide whether a document that was encoded is decoded.
-/

namespace TableJoin

open Schema Writing

namespace Decimal

variable {d : Decimal}

/-- The mantissa with the zeros that a positive exponent puts behind it. -/
def shifted (d : Decimal) : Int :=
  d.mantissa.toInt * 10 ^ d.exponent.toInt.toNat

/-- The digits that are printed make a number of 64 bits. -/
def Fits (d : Decimal) : Prop :=
  Int64.minValue.toInt ≤ d.shifted ∧ d.shifted ≤ Int64.maxValue.toInt

instance (d : Decimal) : Decidable d.Fits := by
  unfold Fits
  infer_instance

/-- The digits are the least number of 64 bits, or there are as many of them behind the point as
the least exponent says.  Machine numbers reach one further below zero than above. -/
def IsExtreme (d : Decimal) : Prop :=
  d.mantissa = Int64.minValue ∧ d.exponent ≤ 0 ∨ d.exponent = Int8.minValue

instance (d : Decimal) : Decidable d.IsExtreme := by
  unfold IsExtreme
  infer_instance

theorem natAbs_shifted (d : Decimal) : d.shifted.natAbs = d.expanded := by
  rw [shifted, expanded, Int.natAbs_mul, Int.natAbs_pow]
  rfl

theorem shifted_of_exponent_nonpos (h : d.exponent ≤ 0) : d.shifted = d.mantissa.toInt := by
  rw [Int8.le_iff_toInt_le, Int8.toInt_zero] at h
  rw [shifted, Int.toNat_of_nonpos h, pow_zero, mul_one]

/-- Without zeros behind it every mantissa fits. -/
theorem fits_of_exponent_nonpos (h : d.exponent ≤ 0) : d.Fits := by
  rw [Fits, shifted_of_exponent_nonpos h]
  exact ⟨d.mantissa.minValue_le_toInt, d.mantissa.toInt_le⟩

/-- The least number of 64 bits has no zero at its end. -/
theorem shifted_ne_minValue (h : ¬ d.IsExtreme) : d.shifted ≠ Int64.minValue.toInt := by
  intro heq
  by_cases hexponent : d.exponent ≤ 0
  · rw [shifted_of_exponent_nonpos hexponent, Int64.toInt_inj] at heq
    exact h (.inl ⟨heq, hexponent⟩)
  · rw [Int8.le_iff_toInt_le, Int8.toInt_zero, not_le] at hexponent
    obtain ⟨n, hn⟩ : ∃ n, d.exponent.toInt.toNat = n + 1 := ⟨_, (Nat.succ_pred (by omega)).symm⟩
    have hten : (10 : Int) ∣ Int64.minValue.toInt := by
      rw [← heq, shifted, hn, pow_succ, ← mul_assoc]
      exact dvd_mul_left 10 _
    exact absurd hten (by decide)

theorem fits_iff (h : ¬ d.IsExtreme) : d.Fits ↔ d.expanded ≤ 9223372036854775807 := by
  have hne := shifted_ne_minValue h
  rw [← natAbs_shifted, Fits]
  have hmin : Int64.minValue.toInt = -9223372036854775808 := by decide
  have hmax : Int64.maxValue.toInt = 9223372036854775807 := by decide
  omega

/-- The text of a decimal is read again exactly if the printed digits fit. -/
theorem isSome_ofText?_iff_fits (h : ¬ d.IsExtreme) : (ofText? d.toText).isSome ↔ d.Fits := by
  have hscale : -127 ≤ d.exponent.toInt := by
    have hne : d.exponent.toInt ≠ Int8.minValue.toInt :=
      fun heq => h (.inr (Int8.toInt_inj.mp heq))
    have hle := d.exponent.le_toInt
    have hmin : Int8.minValue.toInt = -128 := by decide
    omega
  rw [isSome_ofText?_toText, fits_iff h, and_iff_left hscale]

theorem read_eq_ok_iff {s : String} {v : Scalar} :
    SimpleType.decimal.read s = .ok v ↔ ∃ d, ofText? s = some d ∧ v = .decimal d := by
  rw [SimpleType.read]
  cases ofText? s with
  | none => simp
  | some d => simp [eq_comm]

theorem exists_read_iff {s : String} :
    (∃ v, SimpleType.decimal.read s = .ok v) ↔ (ofText? s).isSome := by
  simp [read_eq_ok_iff, Option.isSome_iff_exists]

end Decimal

namespace Schema.RecordType

theorem eq_boundingCoordinates_of_decimal (t : RecordType) : ∀ f ∈ t.features,
    f.itemType = .simple .decimal → t = .boundingCoordinates := by
  cases t <;> decide +kernel

end Schema.RecordType

/-- The number that an item is, if it is a decimal. -/
def Item.decimal? : Item → Option Decimal
  | .scalar (.decimal d) => some d
  | _ => none

def Record.decimals (r : Record) : List Decimal :=
  r.slots.flatMap fun xs => xs.filterMap Item.decimal?

namespace Item

variable {x : Item} {d : Decimal}

theorem decimal?_eq_some_iff : x.decimal? = some d ↔ x = .scalar (.decimal d) := by
  unfold decimal?
  split <;> simp_all

/-- Only of a decimal it may happen that nothing is read back. -/
theorem isLegible_iff : x.IsLegible ↔ ∀ d ∈ x.decimal?, (Decimal.ofText? d.toText).isSome := by
  cases x with
  | record r => simp [IsLegible, decimal?]
  | scalar v =>
    cases v with
    | decimal d =>
      cases h : Decimal.ofText? d.toText <;>
        simp [IsLegible, decimal?, Scalar.readBack?, Scalar.type, Scalar.toText, SimpleType.read,
          h, Except.toOption]
    | text s => exact iff_of_true rfl (by simp [decimal?])
    | boolean b => exact iff_of_true (isLegible_of_isReadable trivial) (by simp [decimal?])
    | integer n => exact iff_of_true (isLegible_of_isReadable trivial) (by simp [decimal?])
    | literal l => exact iff_of_true (isLegible_of_isReadable trivial) (by simp [decimal?])

end Item

namespace Record

variable {r : Record} {d : Decimal}

theorem mem_decimals : d ∈ r.decimals ↔ ∃ xs ∈ r.slots, Item.scalar (.decimal d) ∈ xs := by
  simp [decimals, Item.decimal?_eq_some_iff]

/-- A record is legible exactly if the texts of its decimals are read. -/
theorem isLegible_iff : r.IsLegible ↔ ∀ d ∈ r.decimals, (Decimal.ofText? d.toText).isSome := by
  simp only [IsLegible, Item.isLegible_iff, mem_decimals, Option.mem_def,
    Item.decimal?_eq_some_iff]
  constructor
  · rintro h d ⟨xs, hxs, hd⟩
    exact h xs hxs _ hd d rfl
  · rintro h xs hxs x hx d rfl
    exact h d ⟨xs, hxs, hx⟩

theorem FitsSchema.eq_boundingCoordinates (h : r.FitsSchema) (hd : d ∈ r.decimals) :
    r.type = .boundingCoordinates := by
  obtain ⟨xs, hxs, hd⟩ := mem_decimals.mp hd
  obtain ⟨i, f, hf, rfl⟩ := h.complete.exists_feature hxs
  exact r.type.eq_boundingCoordinates_of_decimal f (List.mem_of_getElem? hf)
    ((h.admits_items hf).type_eq _ hd).symm

end Record

namespace Document

variable {d : Document}

/-- The edges of all extents in the document, at any depth. -/
def edges (d : Document) : List Decimal :=
  (d.content.within.filter (·.type = .boundingCoordinates)).flatMap Record.decimals

/-- A document is legible exactly if the edges of its extents are read again. -/
theorem isLegible_iff_edges (h : d.FitsSchema) :
    d.IsLegible ↔ ∀ e ∈ d.edges, (Decimal.ofText? e.toText).isSome := by
  simp only [IsLegible, Record.Everywhere, Record.isLegible_iff, edges, List.mem_flatMap,
    List.mem_filter, decide_eq_true_eq]
  constructor
  · rintro hall e ⟨r, ⟨hr, -⟩, he⟩
    exact hall r hr e he
  · intro hall r hr e he
    exact hall e ⟨r, ⟨hr, (h r hr).eq_boundingCoordinates he⟩, he⟩

/-- What can be read again of what was written.  The text of a decimal is read exactly if the
printed digits fit, as they do without zeros behind the mantissa, and then as the same number.
A document is decoded where it was encoded, in either mode, exactly if the edges of all its
extents fit.  Nothing is said of decimals at the lower ends of the machine types. -/
theorem decoded_iff_edges_fit :
    (∀ e : Decimal, ¬ e.IsExtreme →
      ((∃ v, SimpleType.decimal.read e.toText = .ok v) ↔ e.Fits) ∧ (e.exponent ≤ 0 → e.Fits) ∧
      ∀ v, SimpleType.decimal.read e.toText = .ok v → ∃ e', v = .decimal e' ∧ e'.value = e.value) ∧
    (∀ (d : Document) (o : EncodeOptions) (strict : Bool), o.PrefixSafe → d.FitsSchema →
      (∀ e ∈ d.edges, ¬ e.IsExtreme) →
      ((∃ d', decode strict (d.encode o) = .ok d') ↔ ∀ e ∈ d.edges, e.Fits)) := by
  constructor
  · intro e he
    refine ⟨?_, Decimal.fits_of_exponent_nonpos, fun v hv => ?_⟩
    · rw [Decimal.exists_read_iff, Decimal.isSome_ofText?_iff_fits he]
    · obtain ⟨e', hread, rfl⟩ := Decimal.read_eq_ok_iff.mp hv
      exact ⟨e', rfl, Decimal.value_of_ofText?_toText hread⟩
  · intro d o strict hsafe hfits hedges
    have hlegible : d.IsLegible ↔ ∀ e ∈ d.edges, e.Fits := by
      rw [isLegible_iff_edges hfits]
      exact forall₂_congr fun e he => Decimal.isSome_ofText?_iff_fits (hedges e he)
    rw [← hlegible]
    constructor
    · rintro ⟨d', hd'⟩
      exact ((decode_encode_iff hsafe hfits strict).mp hd').1
    · intro h
      exact ⟨d.readBack, (decode_encode_iff hsafe hfits strict).mpr ⟨h, rfl⟩⟩

/-- Descriptions of a framework whose extent reaches as far to the north as given and is a
point otherwise; much else is missing. -/
def reachingNorth (north : Decimal) : Document :=
  ⟨.frameworkDescriptions,
    (Record.empty .frameworkDescriptions).having "framework" (Construction.record
      ((Record.empty .describedFramework).having "bounding_coordinates"
        (Construction.record (Construction.boundingCoordinates north ⟨0, 0⟩ ⟨0, 0⟩ ⟨0, 0⟩)))),
    rfl⟩

/-- One with eighteen zeros fits, and ten with as many does not. -/
theorem decoded_iff_edges_fit_powers :
    (∃ v, SimpleType.decimal.read (⟨1, 18⟩ : Decimal).toText = .ok v) ∧
    (∃ d', decode true ((reachingNorth ⟨1, 18⟩).encode {}) = .ok d') ∧
    ¬ ∃ d', decode true ((reachingNorth ⟨10, 18⟩).encode {}) = .ok d' := by
  obtain ⟨hread, hdecode⟩ := decoded_iff_edges_fit
  refine ⟨(hread _ (by decide)).1.mpr (by decide), ?_, ?_⟩
  · exact (hdecode _ {} true (by decide) (by decide +kernel) (by decide +kernel)).mpr
      (by decide +kernel)
  · rw [hdecode _ {} true (by decide) (by decide +kernel) (by decide +kernel)]
    decide +kernel

/-- Not every decimal that is written is read, and not every document that is encoded is
decoded. -/
theorem reachingNorth_refused :
    (¬ ∀ e : Decimal, ∃ e', SimpleType.decimal.read e.toText = .ok (.decimal e') ∧
      e'.value = e.value) ∧
    ¬ ∀ (d : Document) (strict : Bool), d.FitsSchema →
      ∃ d', decode strict (d.encode {}) = .ok d' := by
  constructor
  · intro h
    obtain ⟨e', hread, -⟩ := h ⟨1, 19⟩
    have hrefused : SimpleType.decimal.read (⟨1, 19⟩ : Decimal).toText =
        .error (.decimal "10000000000000000000") := by decide
    rw [hrefused] at hread
    cases hread
  · intro h
    obtain ⟨d', hdecode⟩ := h (reachingNorth ⟨1, 19⟩) true (by decide +kernel)
    have hlegible := ((decode_encode_iff (by decide) (by decide +kernel) true).mp hdecode).1
    exact absurd hlegible (by decide +kernel)

end Document

end TableJoin
