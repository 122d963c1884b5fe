import TableJoin.Schema.Feature

/-!
Runs of features that several record types share.
-/

namespace TableJoin.Schema.Shared

open Markup.QName Feature

/-- The attributes of every operation request. -/
def envelope : List Feature :=
  [ attr "language" (plain "language") .text,
    needed <| defaulting (.text "TJS") <| attr "service" (plain "service") .text,
    defaulting (.literal (.first .requestVersion)) <|
      attr "version" (plain "version") (.enumeration .requestVersion) ]

/-- The attributes of every response but the service metadata. -/
def responseHeader : List Feature :=
  [ needed <| attr "capabilities" (plain "capabilities") .text,
    needed <| attr "lang" (plain "lang") .text,
    needed <| defaulting (.text "TJS") <| attr "service" (plain "service") .text,
    needed <| defaulting (.text "1.0") <| attr "version" (plain "version") .text ]

/-- What is said of a framework as of a dataset. -/
def description : List Feature :=
  [ needed <| leaf "organization" (tjs "Organization") .text,
    needed <| leaf "title" (tjs "Title") .text,
    needed <| child "abstract" (tjs "Abstract") .abstract,
    needed <| child "reference_date" (tjs "ReferenceDate") .referenceDate,
    needed <| leaf "version" (tjs "Version") .text,
    leaf "documentation" (tjs "Documentation") .text ]

/-- What every kind of framework says of itself. -/
def frameworkSummary : List Feature :=
  [ needed <| leaf "framework_uri" (tjs "FrameworkURI") .text ] ++
  description ++
  [ needed <| child "framework_key" (tjs "FrameworkKey") .frameworkKey,
    needed <| child "bounding_coordinates" (tjs "BoundingCoordinates") .boundingCoordinates ]

/-- What every kind of dataset says of itself. -/
def datasetSummary : List Feature :=
  [ needed <| leaf "dataset_uri" (tjs "DatasetURI") .text ] ++
  description ++
  [ needed <| child "describe_data_request" (tjs "DescribeDataRequest") .describeDataLink ]

/-- How classes and null values are presented. -/
def presentation : List Feature :=
  [ needed <| leaf "title" (tjs "Title") .text,
    needed <| child "abstract" (tjs "Abstract") .abstract,
    leaf "documentation" (tjs "Documentation") .text ]

end TableJoin.Schema.Shared
