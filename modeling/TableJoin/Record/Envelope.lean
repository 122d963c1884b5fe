import TableJoin.Record.Named

/-!
The envelope of operation requests: language, service and version, which every
request but the one for service metadata carries.
-/

namespace TableJoin

open Schema

def Schema.RecordType.hasEnvelope (t : RecordType) : Bool :=
  t ∈ [.requestEnvelope, .describeFrameworks, .describeDatasets, .describeData, .describeKey,
    .getData, .joinData]

namespace Record

/-- The envelope alone, with the same features set. -/
def envelope (r : Record) : Record :=
  ["language", "service", "version"].foldl
    (fun base name => base.having name (r.itemsNamed name)) (empty .requestEnvelope)

def withLanguage (r : Record) (language : String) : Record :=
  r.having "language" [.scalar (.text language)]

/-- The request under another protocol version, which has to be a literal. -/
def withVersion (r : Record) (version : String) : Except ModelError Record :=
  match SimpleType.readLiteral .requestVersion version with
  | .ok l => .ok (r.having "version" [.scalar (.literal l)])
  | .error cause => .error (.lexical cause)

end Record

end TableJoin
