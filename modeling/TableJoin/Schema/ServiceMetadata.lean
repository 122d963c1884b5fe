import TableJoin.Schema.Shared

/-!
Service metadata: the features of the capabilities document and of the exceptions
that a server reports.
-/

namespace TableJoin.Schema.ServiceMetadata

open Markup.QName Feature Shared

def capabilities : List Feature :=
  [ child "service_identification" (ows "ServiceIdentification") .serviceIdentification,
    child "service_provider" (ows "ServiceProvider") .serviceProvider,
    child "operations_metadata" (ows "OperationsMetadata") .operationsMetadata,
    needed <| child "languages" (tjs "Languages") .languages,
    child "wsdl" (tjs "WSDL") .wsdl,
    needed <| attr "lang" (plain "lang") .text,
    needed <| defaulting (.text "TJS") <| attr "service" (plain "service") .text,
    attr "update_sequence" (plain "updateSequence") .text,
    needed <| defaulting (.text "1.0") <| attr "version" (plain "version") .text ]

def languages : List Feature :=
  [ needed <| listed <| leaf "language" (ows "Language") .text ]

/-- Reference to a machine-readable description of the service. -/
def wsdl : List Feature :=
  [ needed <| attr "href" (xlink "href") .text ]

def serviceIdentification : List Feature :=
  [ listed <| leaf "title" (ows "Title") .text,
    listed <| leaf "abstract" (ows "Abstract") .text,
    listed <| child "keywords" (ows "Keywords") .keywords,
    needed <| leaf "service_type" (ows "ServiceType") .text,
    needed <| listed <| leaf "service_type_version" (ows "ServiceTypeVersion") .text,
    leaf "fees" (ows "Fees") .text,
    listed <| leaf "access_constraints" (ows "AccessConstraints") .text ]

def keywords : List Feature :=
  [ needed <| listed <| leaf "keyword" (ows "Keyword") .text,
    leaf "type" (ows "Type") .text ]

def serviceProvider : List Feature :=
  [ needed <| leaf "provider_name" (ows "ProviderName") .text,
    child "provider_site" (ows "ProviderSite") .onlineResource,
    needed <| child "service_contact" (ows "ServiceContact") .responsibleParty ]

def onlineResource : List Feature :=
  [ attr "href" (xlink "href") .text ]

def responsibleParty : List Feature :=
  [ leaf "individual_name" (ows "IndividualName") .text,
    leaf "position_name" (ows "PositionName") .text,
    leaf "role" (ows "Role") .text ]

def operationsMetadata : List Feature :=
  [ needed <| listed <| child "operation" (ows "Operation") .operation,
    listed <| child "parameter" (ows "Parameter") .parameterDomain,
    listed <| child "constraint" (ows "Constraint") .parameterDomain ]

def operation : List Feature :=
  [ needed <| listed <| child "dcp" (ows "DCP") .distributedPlatform,
    listed <| child "parameter" (ows "Parameter") .parameterDomain,
    listed <| child "constraint" (ows "Constraint") .parameterDomain,
    needed <| attr "name" (plain "name") .text ]

def distributedPlatform : List Feature :=
  [ needed <| child "http" (ows "HTTP") .httpEndpoints ]

def httpEndpoints : List Feature :=
  [ listed <| child "get" (ows "Get") .requestMethod,
    listed <| child "post" (ows "Post") .requestMethod ]

def requestMethod : List Feature :=
  [ listed <| child "constraint" (ows "Constraint") .parameterDomain,
    attr "href" (xlink "href") .text ]

def parameterDomain : List Feature :=
  [ child "allowed_values" (ows "AllowedValues") .allowedValues,
    leaf "default_value" (ows "DefaultValue") .text,
    needed <| attr "name" (plain "name") .text ]

def allowedValues : List Feature :=
  [ needed <| listed <| leaf "value" (ows "Value") .text ]

def serviceException : List Feature :=
  [ listed <| leaf "exception_text" (ows "ExceptionText") .text,
    needed <| attr "exception_code" (plain "exceptionCode") .text,
    attr "locator" (plain "locator") .text ]

end TableJoin.Schema.ServiceMetadata
