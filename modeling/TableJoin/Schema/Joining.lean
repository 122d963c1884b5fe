import TableJoin.Schema.Shared

/-!
Joining: the features of what a service offers for joins and of what it answers
to them.
-/

namespace TableJoin.Schema.Joining

open Markup.QName Feature Shared

def joinAbilities : List Feature :=
  [ needed <| child "spatial_frameworks" (tjs "SpatialFrameworks") .spatialFrameworks,
    needed <| leaf "attribute_limit" (tjs "AttributeLimit") .integer,
    needed <| child "output_mechanisms" (tjs "OutputMechanisms") .outputMechanisms,
    child "output_stylings" (tjs "OutputStylings") .outputStylings,
    leaf "classification_schema_url" (tjs "ClassificationSchemaURL") .text,
    needed <| attr "capabilities" (plain "capabilities") .text,
    needed <| attr "lang" (plain "lang") .text,
    needed <| defaulting (.text "TJS") <| attr "service" (plain "service") .text,
    needed <| defaulting (.boolean false) <|
      attr "update_supported" (plain "updateSupported") .boolean,
    needed <| defaulting (.text "1.0") <| attr "version" (plain "version") .text ]

def outputMechanisms : List Feature :=
  [ needed <| listed <| child "mechanism" (tjs "Mechanism") .mechanism ]

def mechanism : List Feature :=
  [ needed <| leaf "identifier" (tjs "Identifier") .text,
    needed <| leaf "title" (tjs "Title") .text,
    needed <| leaf "abstract" (tjs "Abstract") .text,
    needed <| leaf "reference" (tjs "Reference") .text ]

def outputStylings : List Feature :=
  [ needed <| listed <| child "styling" (tjs "Styling") .styling ]

def styling : List Feature :=
  [ needed <| leaf "identifier" (tjs "Identifier") .text,
    needed <| leaf "title" (tjs "Title") .text,
    needed <| leaf "abstract" (tjs "Abstract") .text,
    needed <| leaf "reference" (tjs "Reference") .text,
    leaf "schema" (tjs "Schema") .text ]

def joinDataResponse : List Feature :=
  [ needed <| child "status" (tjs "Status") .joinStatus,
    needed <| child "data_inputs" (tjs "DataInputs") .joinInputs,
    needed <| child "joined_outputs" (tjs "JoinedOutputs") .joinedOutputs ] ++
  responseHeader

def joinStatus : List Feature :=
  [ leaf "accepted" (tjs "Accepted") .text,
    leaf "completed" (tjs "Completed") .text,
    child "failed" (tjs "Failed") .joinFailure,
    needed <| attr "creation_time" (plain "creationTime") .text,
    needed <| attr "href" (xlink "href") .text ]

/-- Mark of a failed join; it has no content of its own. -/
def joinFailure : List Feature :=
  []

def joinInputs : List Feature :=
  [ needed <| child "framework" (tjs "Framework") .joinedFramework,
    needed <| child "dataset" (tjs "Dataset") .joinedDataset ]

def joinedOutputs : List Feature :=
  [ needed <| listed <| child "output" (tjs "Output") .joinedOutput ]

def joinedOutput : List Feature :=
  [ needed <| child "mechanism" (tjs "Mechanism") .mechanism,
    child "resource" (tjs "Resource") .resource,
    child "exception_report" (tjs "ExceptionReport") .exceptionReport ]

/-- Location of a product and the parameters to access it. -/
def resource : List Feature :=
  [ needed <| leaf "url" (tjs "URL") .text,
    listed <| child "parameter" (tjs "Parameter") .resourceParameter ]

def resourceParameter : List Feature :=
  [ needed <| attr "name" (plain "name") .text,
    body "value" .text ]

def exceptionReport : List Feature :=
  [ needed <| child "exception" (ows "Exception") .serviceException ]

end TableJoin.Schema.Joining
