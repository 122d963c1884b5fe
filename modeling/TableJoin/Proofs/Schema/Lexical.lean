import TableJoin.Proofs.Numeral.Canonical
import TableJoin.Schema.Simple

/-!
Reading and writing of scalars: the canonical form is read back, and what is read
has the type it is read as and can be written so that it is read back.
-/

namespace TableJoin.Schema

/-- Some text is read as the scalar; only decimals have values without any. -/
def Scalar.IsReadable : Scalar → Prop
  | .decimal d => d.IsReadable
  | _ => True

instance (s : Scalar) : Decidable s.IsReadable := by
  unfold Scalar.IsReadable
  split <;> infer_instance

theorem trim_literal (e : Enumeration) : ∀ s ∈ e.literals, Text.trim s = s := by
  cases e <;> decide +kernel

theorem Scalar.read_toText {s : Scalar} (h : s.IsReadable) : s.type.read s.toText = .ok s := by
  cases s with
  | text s => rfl
  | boolean b => cases b <;> rfl
  | integer n =>
    simp only [type, toText, SimpleType.read, Numeral.unsigned?_unsignedText]
  | decimal d =>
    have hd : d.IsReadable := h
    simp only [type, toText, SimpleType.read, Decimal.ofText?_toText hd]
  | literal l =>
    simp only [type, toText, SimpleType.read, SimpleType.readLiteral,
      trim_literal l.type l.text l.declared, Literal.ofText?_text]
    rfl

/-- What is read as a type is a scalar of the type, and can be read again. -/
theorem SimpleType.read_sound {t : SimpleType} {text : String} {s : Scalar}
    (h : t.read text = .ok s) : s.type = t ∧ s.IsReadable := by
  cases t with
  | text =>
    cases h
    exact ⟨rfl, trivial⟩
  | boolean =>
    cases hread : readBoolean text with
    | error e =>
      rw [read, hread] at h
      cases h
    | ok b =>
      rw [read, hread] at h
      cases h
      exact ⟨rfl, trivial⟩
  | integer =>
    simp only [read] at h
    split at h
    · cases h
      exact ⟨rfl, trivial⟩
    · cases h
  | decimal =>
    simp only [read] at h
    split at h
    · next d hd =>
      cases h
      exact ⟨rfl, Decimal.isReadable_of_ofChars? hd⟩
    · cases h
  | enumeration e =>
    simp only [read, readLiteral] at h
    split at h
    · next l hl =>
      cases h
      exact ⟨congrArg SimpleType.enumeration (Literal.eq_of_ofText? hl).1, trivial⟩
    · cases h

/-- What the canonical form of a scalar is read as; none if it is refused. -/
def Scalar.readBack? (s : Scalar) : Option Scalar :=
  (s.type.read s.toText).toOption

theorem Scalar.readBack?_of_isReadable {s : Scalar} (h : s.IsReadable) : s.readBack? = some s := by
  rw [readBack?, read_toText h]
  rfl

theorem Scalar.type_of_readBack? {s v : Scalar} (h : s.readBack? = some v) : v.type = s.type := by
  cases hread : s.type.read s.toText with
  | error cause => simp [readBack?, hread, Except.toOption] at h
  | ok w =>
    simp only [readBack?, hread, Except.toOption, Option.some.injEq] at h
    exact h ▸ (SimpleType.read_sound hread).1

end TableJoin.Schema
