import TableJoin.Document.Text

/-!
Throughput: repeated decoding and encoding of a document, and the rate of rows
that a measured time amounts to.
-/

namespace TableJoin.Throughput

/-- A stretch of time in nanoseconds, in seconds. -/
def seconds (nanoseconds : UInt64) : Float :=
  (nanoseconds / 1000000000).toFloat + (nanoseconds % 1000000000).toFloat / 1000000000

/-- The rows per second of a run over a document; no time at all gives no rate. -/
def rowsPerSecond (rows iterations nanoseconds : UInt64) : Float :=
  let elapsed := seconds nanoseconds
  if elapsed == 0 then 0 else rows.toFloat * iterations.toFloat / elapsed

/-- Decodes a text once, then as often as asked, and encodes the document as often
if there is one: its root, and everything reported. -/
def exercise (iterations : Nat) (xml : String) : Option Root × List Event :=
  let (result, events) := Document.decodeReporting false xml
  let decoding := (List.replicate iterations events).flatten
  match result with
  | .error _ => (none, events ++ decoding)
  | .ok d =>
    let encoding := d.encodingEvents (d.encode .standard)
    (some d.root, events ++ decoding ++ (List.replicate iterations encoding).flatten)

end TableJoin.Throughput
