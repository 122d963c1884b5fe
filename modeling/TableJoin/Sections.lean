/-!
The sections of a service metadata document that a client may ask for.
-/

namespace TableJoin

def sectionNames : List String :=
  ["ServiceIdentification", "ServiceProvider", "OperationsMetadata", "Contents", "Themes"]

/-- A list of section names with commas between them and nothing else. -/
def isSectionList (s : String) : Bool :=
  (s.toList.splitOn ',').all fun name => String.ofList name ∈ sectionNames

end TableJoin
