/-!
Record types: the complex types of the schema, told apart by their role.
-/

namespace TableJoin.Schema

/-- The complex types whose values are records. -/
inductive RecordType where
  /-- Attributes shared by every operation request; alone, the request for join abilities. -/
  | requestEnvelope
  /-- Request for the service metadata. -/
  | getCapabilities
  /-- Versions that a client accepts, the preferred one first. -/
  | acceptVersions
  /-- Request for frameworks. -/
  | describeFrameworks
  /-- Request for the datasets of a framework. -/
  | describeDatasets
  /-- Request for the columns of a dataset. -/
  | describeData
  /-- Request for the key values of a framework. -/
  | describeKey
  /-- Request for attribute data. -/
  | getData
  /-- Request to join attribute data to a framework. -/
  | joinData
  /-- Attribute data to join, by URL or as an inline request. -/
  | attributeData
  /-- A request for attribute data inside a join request. -/
  | inlineGetData
  /-- Styling to apply to joined map output. -/
  | mapStyling
  /-- Service metadata document. -/
  | capabilities
  /-- Languages that the service supports. -/
  | languages
  /-- Reference to a machine-readable description of the service. -/
  | wsdl
  /-- A framework that data can be joined to. -/
  | joinableFramework
  /-- A framework in a list of frameworks. -/
  | describedFramework
  /-- The framework that was joined to. -/
  | joinedFramework
  /-- The framework of an attribute data set. -/
  | tabulatedFramework
  /-- A framework with the datasets that fit it. -/
  | datasetFramework
  /-- A framework with datasets whose columns are described. -/
  | columnFramework
  /-- A framework with its key values. -/
  | keyFramework
  /-- Key columns that identify the features of a framework. -/
  | frameworkKey
  /-- Key columns of a dataset and their relation to the framework. -/
  | datasetKey
  /-- Key column of a framework. -/
  | frameworkKeyColumn
  /-- Key column of a dataset. -/
  | datasetKeyColumn
  /-- Geographic extent in decimal degrees. -/
  | boundingCoordinates
  /-- The frameworks that data can be joined to. -/
  | spatialFrameworks
  /-- Response that lists frameworks. -/
  | frameworkDescriptions
  /-- Response that lists the key values of a framework. -/
  | frameworkKeyDescription
  /-- A dataset in a list of datasets. -/
  | listedDataset
  /-- A dataset with its columns. -/
  | describedDataset
  /-- A dataset with its columns and rows. -/
  | tabulatedDataset
  /-- The dataset that was joined. -/
  | joinedDataset
  /-- Response that lists datasets. -/
  | datasetDescriptions
  /-- Response that describes the columns of datasets. -/
  | dataDescriptions
  /-- Key and attribute columns of a dataset. -/
  | columnset
  /-- Attribute columns of a dataset. -/
  | attributeColumns
  /-- Attribute column with its value domain. -/
  | attributeColumn
  /-- Link to a request for columns. -/
  | describeDataLink
  /-- Link to a request for datasets. -/
  | describeDatasetsLink
  /-- Link to a request for data. -/
  | getDataLink
  /-- Reference date of a framework or dataset, or the end of a period. -/
  | referenceDate
  /-- Free description; markup inside it counts for its own text only. -/
  | abstract
  /-- Value domain of a column: one of four classes. -/
  | values
  /-- Unordered categories. -/
  | nominal
  /-- Ordered categories. -/
  | ordinal
  /-- Counts. -/
  | count
  /-- Measured quantities. -/
  | measure
  /-- Ranked classes of an ordinal domain. -/
  | rankedClasses
  /-- Classes of a nominal domain. -/
  | namedClasses
  /-- A class with its rank. -/
  | rankedClass
  /-- A class without rank. -/
  | namedClass
  /-- Null value of a numeric domain. -/
  | numericNull
  /-- Null value of a categorical domain. -/
  | categoricalNull
  /-- Null values of a nominal or ordinal domain. -/
  | categoricalExceptions
  /-- Null values of a count or measure domain. -/
  | numericExceptions
  /-- Unit of measure. -/
  | unitOfMeasure
  /-- Uncertainty of the values and its distribution. -/
  | uncertainty
  /-- Key values of a framework. -/
  | keyRowset
  /-- Attribute rows of a dataset. -/
  | dataRowset
  /-- One framework feature: its key and a title. -/
  | keyRow
  /-- One attribute row: its keys, then its cells. -/
  | dataRow
  /-- Key value. -/
  | key
  /-- Attribute value, which may be marked null. -/
  | cell
  /-- Response that carries attribute data. -/
  | attributeSet
  /-- Response that says what can be joined. -/
  | joinAbilities
  /-- Mechanisms offered for joined output. -/
  | outputMechanisms
  /-- One way of delivering joined output. -/
  | mechanism
  /-- Styling languages for joined output. -/
  | outputStylings
  /-- One styling language. -/
  | styling
  /-- Response to a join request. -/
  | joinDataResponse
  /-- Status of a join: one of three states. -/
  | joinStatus
  /-- Mark of a failed join; it has no content of its own. -/
  | joinFailure
  /-- The framework and the dataset that were joined. -/
  | joinInputs
  /-- Products of a join. -/
  | joinedOutputs
  /-- One product: delivered, or an exception. -/
  | joinedOutput
  /-- Location of a product and the parameters to access it. -/
  | resource
  /-- Named access parameter. -/
  | resourceParameter
  /-- Exception raised for one product. -/
  | exceptionReport
  /-- Metadata about the service itself. -/
  | serviceIdentification
  /-- Keywords, with their thesaurus. -/
  | keywords
  /-- Organization that provides the service. -/
  | serviceProvider
  /-- Reference to an online resource. -/
  | onlineResource
  /-- Contact person of the provider. -/
  | responsibleParty
  /-- Operations that the server implements. -/
  | operationsMetadata
  /-- One operation and where it is available. -/
  | operation
  /-- Computing platform of an operation. -/
  | distributedPlatform
  /-- Endpoints of an operation by request method. -/
  | httpEndpoints
  /-- Address for one request method. -/
  | requestMethod
  /-- Valid domain of a parameter or constraint. -/
  | parameterDomain
  /-- Allowed values, one by one. -/
  | allowedValues
  /-- Output formats that a client accepts. -/
  | acceptFormats
  /-- Exception reported by the server. -/
  | serviceException
deriving DecidableEq, Repr, Inhabited

namespace RecordType

/-- The record types in the order in which they are published. -/
def all : List RecordType :=
  [.requestEnvelope, .getCapabilities, .acceptVersions, .describeFrameworks, .describeDatasets,
   .describeData, .describeKey, .getData, .joinData, .attributeData, .inlineGetData, .mapStyling,
   .capabilities, .languages, .wsdl, .joinableFramework, .describedFramework, .joinedFramework,
   .tabulatedFramework, .datasetFramework, .columnFramework, .keyFramework, .frameworkKey,
   .datasetKey, .frameworkKeyColumn, .datasetKeyColumn, .boundingCoordinates, .spatialFrameworks,
   .frameworkDescriptions, .frameworkKeyDescription, .listedDataset, .describedDataset,
   .tabulatedDataset, .joinedDataset, .datasetDescriptions, .dataDescriptions, .columnset,
   .attributeColumns, .attributeColumn, .describeDataLink, .describeDatasetsLink, .getDataLink,
   .referenceDate, .abstract, .values, .nominal, .ordinal, .count, .measure, .rankedClasses,
   .namedClasses, .rankedClass, .namedClass, .numericNull, .categoricalNull,
   .categoricalExceptions, .numericExceptions, .unitOfMeasure, .uncertainty, .keyRowset,
   .dataRowset, .keyRow, .dataRow, .key, .cell, .attributeSet, .joinAbilities, .outputMechanisms,
   .mechanism, .outputStylings, .styling, .joinDataResponse, .joinStatus, .joinFailure,
   .joinInputs, .joinedOutputs, .joinedOutput, .resource, .resourceParameter, .exceptionReport,
   .serviceIdentification, .keywords, .serviceProvider, .onlineResource, .responsibleParty,
   .operationsMetadata, .operation, .distributedPlatform, .httpEndpoints, .requestMethod,
   .parameterDomain, .allowedValues, .acceptFormats, .serviceException]

theorem mem_all (t : RecordType) : t ∈ all := by cases t <;> decide

def name : RecordType → String
  | .requestEnvelope => "RequestBaseType"
  | .getCapabilities => "GetCapabilitiesType"
  | .acceptVersions => "AcceptVersionsType"
  | .describeFrameworks => "DescribeFrameworksType"
  | .describeDatasets => "DescribeDatasetsType"
  | .describeData => "DescribeDataType"
  | .describeKey => "DescribeKeyType"
  | .getData => "GetDataType"
  | .joinData => "JoinDataType"
  | .attributeData => "AttributeDataType"
  | .inlineGetData => "GetDataXMLType"
  | .mapStyling => "MapStylingType"
  | .capabilities => "tjsCapabilitiesType"
  | .languages => "LanguagesType"
  | .wsdl => "WSDLType"
  | .joinableFramework => "FrameworkType"
  | .describedFramework => "FrameworkType1"
  | .joinedFramework => "FrameworkType2"
  | .tabulatedFramework => "FrameworkType3"
  | .datasetFramework => "FrameworkType4"
  | .columnFramework => "FrameworkDatasetDescribeDataType"
  | .keyFramework => "DescribeFrameworkKeyType"
  | .frameworkKey => "FrameworkKeyType"
  | .datasetKey => "FrameworkKeyType1"
  | .frameworkKeyColumn => "ColumnType"
  | .datasetKeyColumn => "ColumnType2"
  | .boundingCoordinates => "BoundingCoordinatesType"
  | .spatialFrameworks => "SpatialFrameworksType"
  | .frameworkDescriptions => "FrameworkDescriptionsType"
  | .frameworkKeyDescription => "FrameworkKeyDescriptionType"
  | .listedDataset => "DatasetType"
  | .describedDataset => "DatasetType1"
  | .tabulatedDataset => "DatasetType2"
  | .joinedDataset => "DatasetType3"
  | .datasetDescriptions => "DatasetDescriptionsType"
  | .dataDescriptions => "DataDescriptionsType"
  | .columnset => "ColumnsetType"
  | .attributeColumns => "AttributesType"
  | .attributeColumn => "ColumnType1"
  | .describeDataLink => "DescribeDataRequestType"
  | .describeDatasetsLink => "DescribeDatasetsRequestType"
  | .getDataLink => "GetDataRequestType"
  | .referenceDate => "ReferenceDateType"
  | .abstract => "AbstractType"
  | .values => "ValuesType"
  | .nominal => "NominalType"
  | .ordinal => "OrdinalType"
  | .count => "CountType"
  | .measure => "MeasureType"
  | .rankedClasses => "ClassesType"
  | .namedClasses => "ClassesType1"
  | .rankedClass => "ValueType"
  | .namedClass => "ValueType1"
  | .numericNull => "NullType"
  | .categoricalNull => "NullType1"
  | .categoricalExceptions => "NominalOrdinalExceptions"
  | .numericExceptions => "MeasureCountExceptions"
  | .unitOfMeasure => "UOMType"
  | .uncertainty => "UncertaintyType"
  | .keyRowset => "RowsetType"
  | .dataRowset => "RowsetType1"
  | .keyRow => "RowType"
  | .dataRow => "RowType1"
  | .key => "KType"
  | .cell => "VType"
  | .attributeSet => "GDASType"
  | .joinAbilities => "JoinAbilitiesType"
  | .outputMechanisms => "OutputMechanismsType"
  | .mechanism => "MechanismType"
  | .outputStylings => "OutputStylingsType1"
  | .styling => "StylingType"
  | .joinDataResponse => "JoinDataResponseType"
  | .joinStatus => "StatusType"
  | .joinFailure => "FailedType"
  | .joinInputs => "DataInputsType"
  | .joinedOutputs => "JoinedOutputsType"
  | .joinedOutput => "OutputType"
  | .resource => "ResourceType"
  | .resourceParameter => "ParameterType"
  | .exceptionReport => "ExceptionReportType"
  | .serviceIdentification => "ServiceIdentificationType"
  | .keywords => "KeywordsType"
  | .serviceProvider => "ServiceProviderType"
  | .onlineResource => "OnlineResourceType"
  | .responsibleParty => "ResponsiblePartySubsetType"
  | .operationsMetadata => "OperationsMetadataType"
  | .operation => "OperationType"
  | .distributedPlatform => "DCPType"
  | .httpEndpoints => "HTTPType"
  | .requestMethod => "RequestMethodType"
  | .parameterDomain => "DomainType"
  | .allowedValues => "AllowedValuesType"
  | .acceptFormats => "AcceptFormatsType"
  | .serviceException => "ExceptionType"

def ofName? (s : String) : Option RecordType :=
  all.find? (·.name = s)

end RecordType

end TableJoin.Schema
