import TableJoin.Document.Text
import TableJoin.Endpoint
import TableJoin.Observation
import TableJoin.Record.Construction
import TableJoin.Record.Roles

/-!
A join exchange from request to response, and the report of it: a client asks a
service to join a table of households, and the service answers with a map layer.
-/

namespace TableJoin.Exchange

open Construction

structure LogLine where
  level : Level
  /-- The part of the program that reports. -/
  origin : String
  message : String
  details : List (String × String)

/-- A detail whose value stands between quotation marks. -/
def quoted (name value : String) : String × String := (name, "\"" ++ value ++ "\"")

def LogLine.render (l : LogLine) : String :=
  " ".intercalate (s!"{l.level.name} {l.origin}:" :: l.message ::
    l.details.map fun (name, value) => name ++ "=" ++ value)

/-- The line with its time; the names of the levels end in one column. -/
def LogLine.renderAt (time : String) (l : LogLine) : String :=
  time ++ String.ofList (List.replicate (6 - l.level.name.length) ' ') ++ l.render

inductive ReportLine where
  /-- A line of a document. -/
  | printed (text : String)
  | logged (line : LogLine)

def ReportLine.render : ReportLine → String
  | .printed text => text
  | .logged line => line.render

def documentLines (xml : String) : List ReportLine :=
  (xml.splitOn "\n").map .printed

def told (level : Level) (message : String) (details : List (String × String)) : ReportLine :=
  .logged ⟨level, "join_report", message, details⟩

/-- The log line for an event that is grave enough to be logged. -/
def logged? : Event → Option ReportLine
  | .invalidDocument root count first =>
    some (.logged ⟨.warn, "tjs_schema::document", (Event.invalidDocument root count first).message,
      [quoted "root" root, ("count", toString count), ("first", first)]⟩)
  | _ => none

def endpoint : String :=
  serviceEndpoint "http://localhost:8080/geoserver/ows" "census" "tjs"

/-- The request for a join with attribute data that the service has to fetch. -/
def request : Record :=
  ((Record.empty .joinData).having "language" (text "en")).having "attribute_data"
    (record ((Record.empty .attributeData).having "get_data_url"
      (text (endpoint ++ "?request=GetData&DatasetURI=households"))))

/-- The change of a status from accepted to completed. -/
def complete (status : Record) : Record :=
  (status.having "accepted" []).having "completed" (text "")

def layer : Record :=
  withParameter (resource (endpoint ++ "?service=WMS")) "layers" "census:households_joined"

/-- The answer to the request; it says nothing about what was joined. -/
def response (status : Record) : Record :=
  ((joinDataResponse (endpoint ++ "?request=GetCapabilities") "en").having "status"
    (record status)).having "joined_outputs"
    (record ((Record.empty .joinedOutputs).having "output"
      (record (deliveredOutput mapServiceMechanism layer))))

/-- The document of a record, which has to be of the type of a root. -/
def documentOf (r : Record) : Except DocumentError Document :=
  match Document.ofRecord? r with
  | some d => .ok d
  | none => .error (.unknownRoot r.type.name)

def changeLine (n : Notification) : ReportLine :=
  let kind :=
    match n.kind with
    | .set => "Set"
    | .unset => "Unset"
    | .add => "Add"
  told .info "status changed" [quoted "feature" n.feature, ("kind", kind)]

def outputLine (output : Record) : ReportLine :=
  let mechanism :=
    (((output.recordsNamed "mechanism").head?).bind (·.textNamed? "identifier")).getD "unknown"
  match (output.recordsNamed "resource").head? with
  | some resource =>
    told .info "joined output" [quoted "mechanism" mechanism,
      quoted "url" ((resource.textNamed? "url").getD ""),
      quoted "layers" ((resource.parameterValue? "layers").getD "")]
  | none => told .warn "output carries no resource" [quoted "mechanism" mechanism]

/-- The client asks: the request is checked and encoded. -/
def ask : Except DocumentError String := do
  let d ← documentOf request
  d.check
  return d.encode .standard

/-- The service takes the request from its text. -/
def accept (xml : String) : Except DocumentError ReportLine := do
  let d ← Document.decode true xml
  let operation := ((d.root.operation?.map fun l => s!"Some({l.text})")).getD "None"
  let update := (d.content.textNamed? "update").getD ""
  return told .info "request accepted" [("operation", operation), ("update", update)]

/-- The service reports the changes of a status that is completed; its time is
given. -/
def work (time : String) : List ReportLine × Record :=
  let status := Observed.observe ⟨acceptedStatus time (endpoint ++ "/status/1"), [], true, []⟩ true
  let (_, status) := status.edit fun r => ((), complete r)
  (status.fetch.1.flatten.map changeLine, status.target)

/-- The client reads the outputs of the response back from its text. -/
def receive (xml : String) : Except DocumentError (List ReportLine) := do
  let d ← Document.decode false xml
  let finished := (d.content.recordsNamed "status").head?.any (·.isFinished)
  let outputs := d.content.joinOutputs
  return told .info "response received"
    [("finished", if finished then "true" else "false"), ("outputs", toString outputs.length)] ::
    outputs.map outputLine

/-- The whole exchange, with the time at which the status was created. -/
def report (time : String) : Except DocumentError (List ReportLine) := do
  let requestText ← ask
  let accepted ← accept requestText
  let (changes, status) := work time
  let answer ← documentOf (response status)
  let answerText := answer.encode .standard
  let received ← receive answerText
  return [told .info "using TJS endpoint" [("endpoint", endpoint)]] ++
    documentLines requestText ++ [accepted] ++ changes ++
    answer.validationEvents.filterMap logged? ++
    answer.violations.map (fun v =>
      told .warn "response is incomplete" [("diagnostic", v.message)]) ++
    documentLines answerText ++ received

end TableJoin.Exchange
