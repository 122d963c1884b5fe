import TableJoin.Text.Cut

/-!
Endpoints of joined-output services.
-/

namespace TableJoin

/-- The service names that a base address may end in. -/
def serviceNames : List (List Char) := ["ows".toList, "tjs".toList]

/-- The endpoint of a service in a workspace.  When the base ends in a service
name, in any case, the first occurrence of that name gives way to the workspace
and the service; any other base has them appended. -/
def serviceEndpoint (base workspace service : String) : String :=
  let target := s!"{workspace}/{service}"
  let chars := base.toList
  let lower := chars.map Char.toLower
  let name := lower.drop (lower.length - 3)
  match if name ∈ serviceNames then Text.cutAt name lower else none with
  | some (before, _) =>
    String.ofList (chars.take before.length) ++ target ++
      String.ofList (chars.drop (before.length + 3))
  | none => s!"{base}/{target}"

end TableJoin
