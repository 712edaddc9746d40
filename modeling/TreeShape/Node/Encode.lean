import TreeShape.Node.Basic
/- Points, positions and nodes as JSON, in the order in which fields are written and as a value
whose keys are sorted. -/
namespace TreeShape

namespace Point

def written (p : Point) : Json :=
  .object [("line", .nat p.line), ("column", .nat p.column), ("offset", .nat p.offset)]

def toJson (p : Point) : Json :=
  .object [("column", .nat p.column), ("line", .nat p.line), ("offset", .nat p.offset)]

end Point

namespace Position

def indentJson (p : Position) : Json := .array (p.indent.map Json.nat)

def written (p : Position) : Json :=
  .object [("start", p.start.written), ("end", p.stop.written), ("indent", p.indentJson)]

def toJson (p : Position) : Json :=
  .object [("end", p.stop.toJson), ("indent", p.indentJson), ("start", p.start.toJson)]

end Position

namespace Node

def entry (key : String) : Option Json → List (String × Json)
  | none => []
  | some value => [(key, value)]

/-- The parts of a node that are there, in the order in which they are written. -/
def entries (type : String) (data position children value : Option Json)
    (fields : List (String × Json)) : List (String × Json) :=
  [("type", .string type)] ++ entry "data" data ++ entry "position" position ++
    entry "children" children ++ entry "value" value ++ fields

mutual

/-- The fields in the order in which they are written; a field named like a part stands there
beside it. -/
def written : Node → Json
  | ⟨type, data, position, children, value, fields⟩ =>
    .object (entries type (data.map Data.toJson) (position.map Position.written)
      (writtenChildren children) value fields)
termination_by structural n => n

def writtenChildren : Option (List Node) → Option Json
  | none => none
  | some nodes => some (.array (writtenNodes nodes))
termination_by structural nodes => nodes

def writtenNodes : List Node → List Json
  | [] => []
  | n :: rest => written n :: writtenNodes rest
termination_by structural nodes => nodes

end

mutual

/-- The node as a JSON value; a field named like a part takes the part's place. -/
def toJson : Node → Json
  | ⟨type, data, position, children, value, fields⟩ =>
    .object (Entries.ofList (entries type (data.map Data.toJson) (position.map Position.toJson)
      (childrenToJson children) value fields))
termination_by structural n => n

def childrenToJson : Option (List Node) → Option Json
  | none => none
  | some nodes => some (.array (nodesToJson nodes))
termination_by structural nodes => nodes

def nodesToJson : List Node → List Json
  | [] => []
  | n :: rest => toJson n :: nodesToJson rest
termination_by structural nodes => nodes

end

end Node

end TreeShape
