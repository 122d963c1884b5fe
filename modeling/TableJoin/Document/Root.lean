import TableJoin.Schema.Table

/-!
Roots: the elements that a document may consist of, each of its own record type.
-/

namespace TableJoin

open Schema

/-- The root elements, each request before its response. -/
inductive Root where
  | getCapabilities
  | capabilities
  | describeFrameworks
  | frameworkDescriptions
  | describeDatasets
  | datasetDescriptions
  | describeData
  | dataDescriptions
  | describeJoinAbilities
  | joinAbilities
  | describeKey
  | frameworkKeyDescription
  | getData
  | attributeSet
  | joinData
  | joinDataResponse
deriving DecidableEq, Repr, Inhabited

namespace Root

/-- All roots, in the order in which they are published. -/
def all : List Root :=
  [.getCapabilities, .capabilities, .describeFrameworks, .frameworkDescriptions,
   .describeDatasets, .datasetDescriptions, .describeData, .dataDescriptions,
   .describeJoinAbilities, .joinAbilities, .describeKey, .frameworkKeyDescription, .getData,
   .attributeSet, .joinData, .joinDataResponse]

def name : Root → String
  | .getCapabilities => "GetCapabilities"
  | .capabilities => "Capabilities"
  | .describeFrameworks => "DescribeFrameworks"
  | .frameworkDescriptions => "FrameworkDescriptions"
  | .describeDatasets => "DescribeDatasets"
  | .datasetDescriptions => "DatasetDescriptions"
  | .describeData => "DescribeData"
  | .dataDescriptions => "DataDescriptions"
  | .describeJoinAbilities => "DescribeJoinAbilities"
  | .joinAbilities => "JoinAbilities"
  | .describeKey => "DescribeKey"
  | .frameworkKeyDescription => "FrameworkKeyDescription"
  | .getData => "GetData"
  | .attributeSet => "GDAS"
  | .joinData => "JoinData"
  | .joinDataResponse => "JoinDataResponse"

def ofName? (s : String) : Option Root :=
  all.find? (·.name = s)

/-- The type of the record that the root element holds. -/
def type : Root → RecordType
  | .getCapabilities => .getCapabilities
  | .capabilities => .capabilities
  | .describeFrameworks => .describeFrameworks
  | .frameworkDescriptions => .frameworkDescriptions
  | .describeDatasets => .describeDatasets
  | .datasetDescriptions => .datasetDescriptions
  | .describeData => .describeData
  | .dataDescriptions => .dataDescriptions
  | .describeJoinAbilities => .requestEnvelope
  | .joinAbilities => .joinAbilities
  | .describeKey => .describeKey
  | .frameworkKeyDescription => .frameworkKeyDescription
  | .getData => .getData
  | .attributeSet => .attributeSet
  | .joinData => .joinData
  | .joinDataResponse => .joinDataResponse

/-- The root that holds records of the type, if there is one. -/
def ofType? (t : RecordType) : Option Root :=
  all.find? (·.type = t)

theorem type_of_ofType? {t : RecordType} {root : Root} (h : ofType? t = some root) :
    root.type = t := by
  simpa using List.find?_some h

/-- The operation that a request asks for; responses ask for none. -/
def operation? (root : Root) : Option Literal :=
  Literal.ofText? .operationName root.name

end Root

end TableJoin
