import TableJoin.Record.Named

/-!
Records made from their parts.
-/

namespace TableJoin.Construction

open Schema

def text (s : String) : List Item := [.scalar (.text s)]

def record (r : Record) : List Item := [.record r]

def truth (b : Bool) : List Item := [.scalar (.boolean b)]

def number (n : UInt64) : List Item := [.scalar (.integer n)]

def abstract (s : String) : Record :=
  (Record.empty .abstract).having "value" (text s)

def referenceDate (date : String) : Record :=
  (Record.empty .referenceDate).having "value" (text date)

def key (value : String) : Record :=
  (Record.empty .key).having "value" (text value)

def cell (value : String) : Record :=
  (Record.empty .cell).having "value" (text value)

/-- A null cell that holds the identifier of its null value. -/
def nullCell (identifier : String) : Record :=
  (cell identifier).having "null" (truth true)

def rankedClass (identifier : String) (rank : UInt64) : Record :=
  ((Record.empty .rankedClass).having "identifier" (text identifier)).having "rank" (number rank)

/-- A unit of measure by its short and long names. -/
def unitOfMeasure (shortForm longForm : String) : Record :=
  ((Record.empty .unitOfMeasure).having "short_form" (text shortForm)).having
    "long_form" (text longForm)

/-- A key column with the datatype and the greatest length of its values. -/
def keyColumn (name : String) (dataType : Literal) (length : UInt64) : Record :=
  (((Record.empty .frameworkKeyColumn).having "name" (text name)).having
    "type" [.scalar (.literal dataType)]).having "length" (number length)

def boundingCoordinates (north south east west : Decimal) : Record :=
  [("north", north), ("south", south), ("east", east), ("west", west)].foldl
    (fun r (name, d) => r.having name [.scalar (.decimal d)]) (Record.empty .boundingCoordinates)

/-- A request for the data of a dataset, joined to a framework. -/
def getData (framework dataset : String) : Record :=
  ((Record.empty .getData).having "framework_uri" (text framework)).having
    "dataset_uri" (text dataset)

def serviceException (code message : String) : Record :=
  ((Record.empty .serviceException).having "exception_code" (text code)).having
    "exception_text" (text message)

/-- An output mechanism by its four descriptive elements. -/
def mechanism (identifier title abstract reference : String) : Record :=
  [("identifier", identifier), ("title", title), ("abstract", abstract),
    ("reference", reference)].foldl
    (fun r (name, s) => r.having name (text s)) (Record.empty .mechanism)

def shapefileMechanism : Record :=
  mechanism "shapefile" "ESRI shapefile" "ESRI shapefile with spatial dataset"
    "ESRI shapefile with spatial dataset"

def mapServiceAbstract : String :=
  "The OpenGIS® Web Map Service Interface Standard (WMS) provides a simple HTTP interface " ++
  "for requesting geo-registered map images from one or more distributed geospatial " ++
  "databases. A WMS request defines the geographic layer(s) and area of interest to be " ++
  "processed. The response to the request is one or more geo-registered map images " ++
  "(returned as JPEG, PNG, etc) that can be displayed in a browser application. The " ++
  "interface also supports the ability to specify whether the returned images should be " ++
  "transparent so that layers from multiple servers can be combined or no"

def mapServiceMechanism : Record :=
  mechanism "WMS" "WMS Server v1.1.1" mapServiceAbstract "http://schemas.opengis.net/wms/1.1.1/"

def featureServiceAbstract : String :=
  "The Web Feature Service (WFS) represents a change in the way geographic information is " ++
  "created, modified and exchanged on the Internet. Rather than sharing geographic " ++
  "information at the file level using File Transfer Protocol (FTP), for example, the WFS " ++
  "offers direct fine-grained access to geographic information at the feature and feature " ++
  "property level. Web feature services allow clients to only retrieve or modify the data " ++
  "they are seeking, rather than retrieving a file that contains the data they are seeking " ++
  "and possibly much more. That data can then be used for a wide variety of purposes, " ++
  "including purposes other than their producers' intended ones."

def featureServiceMechanism : Record :=
  mechanism "WFS" "WFS Server v2.0" featureServiceAbstract "http://schemas.opengis.net/wfs/2.0/"

/-- A status of a join at the given time. -/
def stampedStatus (time href : String) : Record :=
  ((Record.empty .joinStatus).having "creation_time" (text time)).having "href" (text href)

def acceptedStatus (time href : String) : Record :=
  (stampedStatus time href).having "accepted" (text "")

def completedStatus (time href : String) : Record :=
  (stampedStatus time href).having "completed" (text "")

/-- The status of a request that could not be processed. -/
def failedStatus (time href : String) : Record :=
  (stampedStatus time href).having "failed" (record (Record.empty .joinFailure))

def joinDataResponse (capabilities language : String) : Record :=
  ((Record.empty .joinDataResponse).having "capabilities" (text capabilities)).having
    "lang" (text language)

def deliveredOutput (mechanism resource : Record) : Record :=
  ((Record.empty .joinedOutput).having "mechanism" (record mechanism)).having
    "resource" (record resource)

def failedOutput (mechanism exception : Record) : Record :=
  ((Record.empty .joinedOutput).having "mechanism" (record mechanism)).having
    "exception_report"
    (record ((Record.empty .exceptionReport).having "exception" (record exception)))

def resource (url : String) : Record :=
  (Record.empty .resource).having "url" (text url)

/-- The resource with one more access parameter. -/
def withParameter (r : Record) (name value : String) : Record :=
  let parameter :=
    ((Record.empty .resourceParameter).having "name" (text name)).having "value" (text value)
  r.having "parameter" (r.itemsNamed "parameter" ++ record parameter)

end TableJoin.Construction
