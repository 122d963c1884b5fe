import TableJoin.Schema.Shared

/-!
Spatial frameworks: the features of the framework types, their keys and the
rows that list key values.
-/

namespace TableJoin.Schema.SpatialFramework

open Markup.QName Feature Shared

def joinableFramework : List Feature :=
  frameworkSummary

def describedFramework : List Feature :=
  frameworkSummary ++
  [ needed <|
      child "describe_datasets_request" (tjs "DescribeDatasetsRequest") .describeDatasetsLink ]

def joinedFramework : List Feature :=
  frameworkSummary ++
  [ needed <|
      child "describe_datasets_request" (tjs "DescribeDatasetsRequest") .describeDatasetsLink ]

def tabulatedFramework : List Feature :=
  frameworkSummary ++
  [ needed <|
      child "describe_datasets_request" (tjs "DescribeDatasetsRequest") .describeDatasetsLink,
    needed <| child "dataset" (tjs "Dataset") .tabulatedDataset ]

def datasetFramework : List Feature :=
  frameworkSummary ++
  [ needed <|
      child "describe_datasets_request" (tjs "DescribeDatasetsRequest") .describeDatasetsLink,
    needed <| listed <| child "dataset" (tjs "Dataset") .listedDataset ]

/-- A framework with datasets whose columns are described. -/
def columnFramework : List Feature :=
  frameworkSummary ++
  [ needed <|
      child "describe_datasets_request" (tjs "DescribeDatasetsRequest") .describeDatasetsLink,
    needed <| listed <| child "dataset" (tjs "Dataset") .describedDataset ]

def keyFramework : List Feature :=
  frameworkSummary ++
  [ needed <| child "rowset" (tjs "Rowset") .keyRowset ]

def frameworkKey : List Feature :=
  [ needed <| listed <| child "column" (tjs "Column") .frameworkKeyColumn ]

def frameworkKeyColumn : List Feature :=
  [ attr "decimals" (plain "decimals") .integer,
    needed <| attr "length" (plain "length") .integer,
    needed <| attr "name" (plain "name") .text,
    needed <| attr "type" (plain "type") (.enumeration .dataType) ]

/-- Geographic extent in decimal degrees. -/
def boundingCoordinates : List Feature :=
  [ needed <| leaf "north" (tjs "North") .decimal,
    needed <| leaf "south" (tjs "South") .decimal,
    needed <| leaf "east" (tjs "East") .decimal,
    needed <| leaf "west" (tjs "West") .decimal ]

def spatialFrameworks : List Feature :=
  [ needed <| listed <| child "framework" (tjs "Framework") .joinableFramework ]

def frameworkDescriptions : List Feature :=
  [ needed <| listed <| child "framework" (tjs "Framework") .describedFramework ] ++
  responseHeader

def frameworkKeyDescription : List Feature :=
  [ needed <| child "framework" (tjs "Framework") .keyFramework ] ++
  responseHeader

def keyRowset : List Feature :=
  [ needed <| listed <| child "row" (tjs "Row") .keyRow ]

def keyRow : List Feature :=
  [ needed <| listed <| child "k" (tjs "K") .key,
    leaf "title" (tjs "Title") .text ]

def key : List Feature :=
  [ attr "aid" (plain "aid") .text,
    body "value" .text ]

end TableJoin.Schema.SpatialFramework
