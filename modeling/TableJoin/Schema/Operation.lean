import TableJoin.Schema.Shared

/-!
Operation requests: the features of each request type and of what only requests
hold.
-/

namespace TableJoin.Schema.Operation

open Markup.QName Feature Shared

/-- Attributes shared by every operation request; alone, the request for join abilities. -/
def requestEnvelope : List Feature :=
  envelope

def getCapabilities : List Feature :=
  [ child "accept_versions" (tjs "AcceptVersions") .acceptVersions,
    leaf "sections" (tjs "Sections") .text,
    child "accept_formats" (tjs "AcceptFormats") .acceptFormats,
    attr "language" (plain "language") .text,
    needed <| defaulting (.literal (.first .requestService)) <|
      attr "service" (plain "service") (.enumeration .requestService),
    attr "update_sequence" (plain "updateSequence") .text ]

def acceptVersions : List Feature :=
  [ needed <| listed <| leaf "version" (tjs "Version") (.enumeration .acceptedVersion) ]

def acceptFormats : List Feature :=
  [ listed <| leaf "output_format" (ows "OutputFormat") .text ]

def describeFrameworks : List Feature :=
  envelope ++
  [ leaf "framework_uri" (tjs "FrameworkURI") .text ]

def describeDatasets : List Feature :=
  envelope ++
  [ leaf "framework_uri" (tjs "FrameworkURI") .text,
    leaf "dataset_uri" (tjs "DatasetURI") .text ]

def describeData : List Feature :=
  envelope ++
  [ leaf "framework_uri" (tjs "FrameworkURI") .text,
    leaf "dataset_uri" (tjs "DatasetURI") .text,
    leaf "attributes" (tjs "Attributes") .text ]

def describeKey : List Feature :=
  envelope ++
  [ needed <| leaf "framework_uri" (tjs "FrameworkURI") .text ]

def getData : List Feature :=
  envelope ++
  [ needed <| leaf "framework_uri" (tjs "FrameworkURI") .text,
    needed <| leaf "dataset_uri" (tjs "DatasetURI") .text,
    leaf "attributes" (tjs "Attributes") .text,
    leaf "linkage_keys" (tjs "LinkageKeys") .text,
    leaf "filter_column" (tjs "FilterColumn") .text,
    leaf "filter_value" (tjs "FilterValue") .text,
    leaf "xsl" (tjs "XSL") .text,
    defaulting (.boolean false) <| attr "aid" (plain "aid") .boolean ]

def joinData : List Feature :=
  envelope ++
  [ needed <| child "attribute_data" (tjs "AttributeData") .attributeData,
    child "map_styling" (tjs "MapStyling") .mapStyling,
    leaf "classification_url" (tjs "ClassificationURL") .text,
    defaulting (.literal (.first .update)) <|
      attr "update" (plain "update") (.enumeration .update) ]

/-- Attribute data to join, by URL or as an inline request. -/
def attributeData : List Feature :=
  [ leaf "get_data_url" (tjs "GetDataURL") .text,
    child "get_data_xml" (tjs "GetDataXML") .inlineGetData ]

/-- A request for attribute data inside a join request. -/
def inlineGetData : List Feature :=
  [ needed <| leaf "framework_uri" (tjs "FrameworkURI") .text,
    needed <| leaf "dataset_uri" (tjs "DatasetURI") .text,
    leaf "attributes" (tjs "Attributes") .text,
    leaf "linkage_keys" (tjs "LinkageKeys") .text,
    attr "get_data_host" (plain "getDataHost") .text,
    attr "language" (plain "language") .text ]

def mapStyling : List Feature :=
  [ needed <| leaf "styling_identifier" (tjs "StylingIdentifier") .text,
    needed <| leaf "styling_url" (tjs "StylingURL") .text ]

end TableJoin.Schema.Operation
