/-!
Cutting characters at a mark.
-/

namespace TableJoin.Text

/-- What stands before the first occurrence of the mark, and what after it. -/
def cutAt (mark : List Char) : List Char → Option (List Char × List Char)
  | [] => none
  | c :: cs =>
    if mark.isPrefixOf (c :: cs) then some ([], (c :: cs).drop mark.length)
    else (cutAt mark cs).map fun (before, after) => (c :: before, after)

end TableJoin.Text
