import TableJoin.Schema.AttributeTable
import TableJoin.Schema.Joining
import TableJoin.Schema.Operation
import TableJoin.Schema.ServiceMetadata
import TableJoin.Schema.SpatialFramework
import TableJoin.Schema.ValueDomain

/-!
The feature table of every record type.
-/

namespace TableJoin.Schema.RecordType

/-- The features of a record type.  A feature's position is its identifier. -/
def features : RecordType → List Feature
  | .requestEnvelope => Operation.requestEnvelope
  | .getCapabilities => Operation.getCapabilities
  | .acceptVersions => Operation.acceptVersions
  | .describeFrameworks => Operation.describeFrameworks
  | .describeDatasets => Operation.describeDatasets
  | .describeData => Operation.describeData
  | .describeKey => Operation.describeKey
  | .getData => Operation.getData
  | .joinData => Operation.joinData
  | .attributeData => Operation.attributeData
  | .inlineGetData => Operation.inlineGetData
  | .mapStyling => Operation.mapStyling
  | .capabilities => ServiceMetadata.capabilities
  | .languages => ServiceMetadata.languages
  | .wsdl => ServiceMetadata.wsdl
  | .joinableFramework => SpatialFramework.joinableFramework
  | .describedFramework => SpatialFramework.describedFramework
  | .joinedFramework => SpatialFramework.joinedFramework
  | .tabulatedFramework => SpatialFramework.tabulatedFramework
  | .datasetFramework => SpatialFramework.datasetFramework
  | .columnFramework => SpatialFramework.columnFramework
  | .keyFramework => SpatialFramework.keyFramework
  | .frameworkKey => SpatialFramework.frameworkKey
  | .datasetKey => AttributeTable.datasetKey
  | .frameworkKeyColumn => SpatialFramework.frameworkKeyColumn
  | .datasetKeyColumn => AttributeTable.datasetKeyColumn
  | .boundingCoordinates => SpatialFramework.boundingCoordinates
  | .spatialFrameworks => SpatialFramework.spatialFrameworks
  | .frameworkDescriptions => SpatialFramework.frameworkDescriptions
  | .frameworkKeyDescription => SpatialFramework.frameworkKeyDescription
  | .listedDataset => AttributeTable.listedDataset
  | .describedDataset => AttributeTable.describedDataset
  | .tabulatedDataset => AttributeTable.tabulatedDataset
  | .joinedDataset => AttributeTable.joinedDataset
  | .datasetDescriptions => AttributeTable.datasetDescriptions
  | .dataDescriptions => AttributeTable.dataDescriptions
  | .columnset => AttributeTable.columnset
  | .attributeColumns => AttributeTable.attributeColumns
  | .attributeColumn => AttributeTable.attributeColumn
  | .describeDataLink => AttributeTable.describeDataLink
  | .describeDatasetsLink => AttributeTable.describeDatasetsLink
  | .getDataLink => AttributeTable.getDataLink
  | .referenceDate => AttributeTable.referenceDate
  | .abstract => AttributeTable.abstract
  | .values => ValueDomain.values
  | .nominal => ValueDomain.nominal
  | .ordinal => ValueDomain.ordinal
  | .count => ValueDomain.count
  | .measure => ValueDomain.measure
  | .rankedClasses => ValueDomain.rankedClasses
  | .namedClasses => ValueDomain.namedClasses
  | .rankedClass => ValueDomain.rankedClass
  | .namedClass => ValueDomain.namedClass
  | .numericNull => ValueDomain.numericNull
  | .categoricalNull => ValueDomain.categoricalNull
  | .categoricalExceptions => ValueDomain.categoricalExceptions
  | .numericExceptions => ValueDomain.numericExceptions
  | .unitOfMeasure => ValueDomain.unitOfMeasure
  | .uncertainty => ValueDomain.uncertainty
  | .keyRowset => SpatialFramework.keyRowset
  | .dataRowset => AttributeTable.dataRowset
  | .keyRow => SpatialFramework.keyRow
  | .dataRow => AttributeTable.dataRow
  | .key => SpatialFramework.key
  | .cell => AttributeTable.cell
  | .attributeSet => AttributeTable.attributeSet
  | .joinAbilities => Joining.joinAbilities
  | .outputMechanisms => Joining.outputMechanisms
  | .mechanism => Joining.mechanism
  | .outputStylings => Joining.outputStylings
  | .styling => Joining.styling
  | .joinDataResponse => Joining.joinDataResponse
  | .joinStatus => Joining.joinStatus
  | .joinFailure => Joining.joinFailure
  | .joinInputs => Joining.joinInputs
  | .joinedOutputs => Joining.joinedOutputs
  | .joinedOutput => Joining.joinedOutput
  | .resource => Joining.resource
  | .resourceParameter => Joining.resourceParameter
  | .exceptionReport => Joining.exceptionReport
  | .serviceIdentification => ServiceMetadata.serviceIdentification
  | .keywords => ServiceMetadata.keywords
  | .serviceProvider => ServiceMetadata.serviceProvider
  | .onlineResource => ServiceMetadata.onlineResource
  | .responsibleParty => ServiceMetadata.responsibleParty
  | .operationsMetadata => ServiceMetadata.operationsMetadata
  | .operation => ServiceMetadata.operation
  | .distributedPlatform => ServiceMetadata.distributedPlatform
  | .httpEndpoints => ServiceMetadata.httpEndpoints
  | .requestMethod => ServiceMetadata.requestMethod
  | .parameterDomain => ServiceMetadata.parameterDomain
  | .allowedValues => ServiceMetadata.allowedValues
  | .acceptFormats => Operation.acceptFormats
  | .serviceException => ServiceMetadata.serviceException

def feature? (t : RecordType) (i : Nat) : Option Feature :=
  t.features[i]?

/-- The position of the feature with the given name. -/
def indexOf? (t : RecordType) (name : String) : Option Nat :=
  t.features.findIdx? (·.name = name)

/-- The position and type of the character content, if records have any. -/
def body? (t : RecordType) : Option (Nat × SimpleType) :=
  t.features.zipIdx.findSome? fun (f, i) =>
    match f.shape with
    | .body s => some (i, s)
    | _ => none

/-- The position and type of the attribute with the given local name. -/
def attribute? (t : RecordType) (localName : String) : Option (Nat × SimpleType) :=
  t.features.zipIdx.findSome? fun (f, i) =>
    match f.shape with
    | .attribute s => if f.xmlName.localName = localName then some (i, s) else none
    | _ => none

/-- The position and type of the child element with the given local name, and
whether it is a list. -/
def element? (t : RecordType) (localName : String) : Option (Nat × ItemType × Bool) :=
  t.features.zipIdx.findSome? fun (f, i) =>
    match f.shape with
    | .element s isList => if f.xmlName.localName = localName then some (i, s, isList) else none
    | _ => none

end TableJoin.Schema.RecordType
