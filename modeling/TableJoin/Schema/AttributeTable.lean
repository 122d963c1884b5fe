import TableJoin.Schema.Shared

/-!
Attribute tables: the features of the dataset types, their columns and rows, and
of the links and descriptions that frameworks share with them.
-/

namespace TableJoin.Schema.AttributeTable

open Markup.QName Feature Shared

def listedDataset : List Feature :=
  datasetSummary

def describedDataset : List Feature :=
  datasetSummary ++
  [ needed <| child "columnset" (tjs "Columnset") .columnset ]

def tabulatedDataset : List Feature :=
  datasetSummary ++
  [ needed <| child "columnset" (tjs "Columnset") .columnset,
    needed <| child "rowset" (tjs "Rowset") .dataRowset ]

def joinedDataset : List Feature :=
  datasetSummary ++
  [ needed <| child "columnset" (tjs "Columnset") .columnset ]

def datasetDescriptions : List Feature :=
  [ needed <| listed <| child "framework" (tjs "Framework") .datasetFramework ] ++
  responseHeader

/-- Response that describes the columns of datasets. -/
def dataDescriptions : List Feature :=
  [ needed <| listed <| child "framework" (tjs "Framework") .columnFramework ] ++
  responseHeader

def columnset : List Feature :=
  [ needed <| child "framework_key" (tjs "FrameworkKey") .datasetKey,
    needed <| child "attributes" (tjs "Attributes") .attributeColumns ]

/-- Key columns of a dataset and their relation to the framework. -/
def datasetKey : List Feature :=
  [ needed <| listed <| child "column" (tjs "Column") .datasetKeyColumn,
    needed <| attr "complete" (plain "complete") .text,
    needed <| attr "relationship" (plain "relationship") .text ]

def datasetKeyColumn : List Feature :=
  [ attr "decimals" (plain "decimals") .integer,
    needed <| attr "length" (plain "length") .integer,
    needed <| attr "name" (plain "name") .text,
    needed <| attr "type" (plain "type") (.enumeration .dataType) ]

def attributeColumns : List Feature :=
  [ needed <| listed <| child "column" (tjs "Column") .attributeColumn ]

def attributeColumn : List Feature :=
  presentation ++
  [ needed <| child "values" (tjs "Values") .values,
    child "get_data_request" (tjs "GetDataRequest") .getDataLink,
    attr "decimals" (plain "decimals") .integer,
    needed <| attr "length" (plain "length") .integer,
    needed <| attr "name" (plain "name") .text,
    needed <| defaulting (.literal (.first .purpose)) <|
      attr "purpose" (plain "purpose") (.enumeration .purpose),
    needed <| defaulting (.literal (.first .dataType)) <|
      attr "type" (plain "type") (.enumeration .dataType) ]

def describeDataLink : List Feature :=
  [ needed <| attr "href" (xlink "href") .text ]

def describeDatasetsLink : List Feature :=
  [ needed <| attr "href" (xlink "href") .text ]

def getDataLink : List Feature :=
  [ needed <| attr "href" (xlink "href") .text ]

/-- Reference date of a framework or dataset, or the end of a period. -/
def referenceDate : List Feature :=
  [ attr "start_date" (plain "startDate") .text,
    body "value" .text ]

/-- Free description; markup inside it counts for its own text only. -/
def abstract : List Feature :=
  [ body "value" .text ]

def dataRowset : List Feature :=
  [ needed <| listed <| child "row" (tjs "Row") .dataRow ]

def dataRow : List Feature :=
  [ needed <| listed <| child "k" (tjs "K") .key,
    needed <| listed <| child "v" (tjs "V") .cell ]

/-- Attribute value, which may be marked null. -/
def cell : List Feature :=
  [ attr "aid" (plain "aid") .text,
    defaulting (.boolean false) <| attr "null" (plain "null") .boolean,
    body "value" .text ]

def attributeSet : List Feature :=
  [ needed <| child "framework" (tjs "Framework") .tabulatedFramework ] ++
  responseHeader

end TableJoin.Schema.AttributeTable
