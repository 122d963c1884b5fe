import TableJoin.Reading.Cursor
import TableJoin.Record.Basic

/-!
Reading records: attributes first, then either the character content or the
child elements, as the type's feature table says.
-/

namespace TableJoin.Reading

open Markup Schema

/-- Reads one attribute into a record.  Of attributes with the same local name
the last one counts. -/
def readAttribute (r : Record) (a : Attribute) : Step ReadError Record := do
  match r.type.attribute? a.localName with
  | some (i, t) => return r.put i [.scalar (← parseAttribute t r.type.name a)]
  | none =>
    unknownAttribute r.type.name a
    return r

/-- Reads a record whose start tag has been consumed.  `children` reads the child
elements of a record that has no character content. -/
def readRecordWith (children : StartTag → Record → Step ReadError Record) (t : RecordType)
    (tag : StartTag) : Step ReadError Record := do
  let r ← tag.attributes.foldlM readAttribute (Record.empty t)
  match t.body? with
  | some (i, s) =>
    let text ← readText tag
    if Text.isBlankText text then return r
    return r.put i [.scalar (← parseContent s tag text)]
  | none => children tag r

/-- Reads an item whose start tag has been consumed. -/
def readItemWith (children : StartTag → Record → Step ReadError Record) (t : ItemType)
    (tag : StartTag) : Step ReadError Item :=
  match t with
  | .simple s => .scalar <$> readSimple s tag
  | .record t => .record <$> readRecordWith children t tag

/-- Reads child elements into a record up to the end of its element.  Every
child takes at least one node, so the number of nodes ahead is fuel enough. -/
def readChildren : Nat → StartTag → Record → Step ReadError Record
  | 0, tag, _ => do Step.fail ((← Step.here).ending tag.name)
  | fuel + 1, tag, r => do
    match ← nextChild tag with
    | none => return r
    | some (.text s) =>
      unexpectedText r.type.name s
      readChildren fuel tag r
    | some (.element child) =>
      match r.type.element? child.name with
      | none =>
        unknownElement r.type.name child
        readChildren fuel tag r
      | some (i, t, isList) =>
        if !isList && r.holds i then
          duplicateElement r.type.name child
          readChildren fuel tag r
        else
          let item ← readItemWith (readChildren fuel) t child
          readChildren fuel tag (r.put i (r.items i ++ [item]))

/-- Reads a record whose start tag has been consumed, through its end tag. -/
def readRecord (t : RecordType) (tag : StartTag) : Step ReadError Record := do
  let c ← Step.here
  readRecordWith (readChildren (c.ahead.length + 1)) t tag

theorem type_readAttribute {t : RecordType} (r : Record) (a : Attribute) (h : r.type = t) :
    (readAttribute r a).Ensures fun s => s.type = t := by
  unfold readAttribute
  split
  · exact Step.ensures_bind (Step.ensures_true _) fun s _ => Step.ensures_pure h
  · exact Step.ensures_bind (Step.ensures_true _) fun _ _ => Step.ensures_pure h

theorem type_readRecordWith {children : StartTag → Record → Step ReadError Record}
    (hc : ∀ tag r, (children tag r).Ensures fun s => s.type = r.type)
    (t : RecordType) (tag : StartTag) :
    (readRecordWith children t tag).Ensures fun s => s.type = t := by
  unfold readRecordWith
  refine Step.ensures_bind (Step.ensures_foldlM (P := fun s => s.type = t)
    type_readAttribute tag.attributes rfl) fun r hr => ?_
  split
  · refine Step.ensures_bind (Step.ensures_true _) fun text _ => ?_
    split
    · exact Step.ensures_pure hr
    · exact Step.ensures_bind (Step.ensures_true _) fun s _ => Step.ensures_pure hr
  · exact hr ▸ hc tag r

theorem type_readChildren (fuel : Nat) :
    ∀ (tag : StartTag) (r : Record),
      (readChildren fuel tag r).Ensures fun s => s.type = r.type := by
  induction fuel with
  | zero =>
    intro tag r
    exact Step.ensures_bind (Step.ensures_true _) fun _ _ => Step.ensures_fail _
  | succ fuel ih =>
    intro tag r
    unfold readChildren
    refine Step.ensures_bind (Step.ensures_true _) fun child _ => ?_
    split
    · exact Step.ensures_pure rfl
    · exact Step.ensures_bind (Step.ensures_true _) fun _ _ => ih tag r
    · split
      · exact Step.ensures_bind (Step.ensures_true _) fun _ _ => ih tag r
      · split
        · exact Step.ensures_bind (Step.ensures_true _) fun _ _ => ih tag r
        · exact Step.ensures_bind (Step.ensures_true _) fun item _ => ih tag (r.put _ _)

theorem type_readRecord (t : RecordType) (tag : StartTag) :
    (readRecord t tag).Ensures fun r => r.type = t :=
  Step.ensures_bind (Step.ensures_true _) fun _ _ =>
    type_readRecordWith (type_readChildren _) t tag

end TableJoin.Reading
