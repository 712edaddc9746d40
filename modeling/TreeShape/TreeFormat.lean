import TreeShape.Files
import TreeShape.Text.Case
/- The notations in which trees are written. -/
namespace TreeShape

inductive TreeFormat where
  | json
  | yaml
  deriving DecidableEq

namespace TreeFormat

def name : TreeFormat → String
  | json => "json"
  | yaml => "yaml"

def ofName? (name : String) : Option TreeFormat :=
  let name := Text.lower name
  if name = "json" then some json
  else if name = "yaml" ∨ name = "yml" then some yaml
  else none

/-- The format that a path's extension tells; JSON if it tells none. -/
def ofPath (path : String) : TreeFormat :=
  match (Files.extension? path).map Text.lower with
  | some extension => if extension = "yaml" ∨ extension = "yml" then yaml else json
  | none => json

end TreeFormat

end TreeShape
