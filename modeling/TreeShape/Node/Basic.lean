import TreeShape.Data
import TreeShape.Position
/- Nodes of a syntax tree: what every node offers, and the node of any variant. -/
namespace TreeShape

/-- What a type of nodes tells about its members. Data and position may be left out; a node
without a position was generated and not read from a document. -/
class SyntaxNode (α : Type) where
  type : α → String
  data : α → Option Data := fun _ => none
  position : α → Option Position := fun _ => none

namespace SyntaxNode

variable {α : Type} [SyntaxNode α]

def isGenerated (n : α) : Bool := (position n).isNone

def start? (n : α) : Option Point := (position n).map (·.start)

def stop? (n : α) : Option Point := (position n).map (·.stop)

/-- The type is not empty, the data leaves the reserved key out and the position is valid. -/
def validate (n : α) : Except ShapeError Unit :=
  if (type n).isEmpty then .error .emptyType
  else do
    if let some d := data n then d.validate
    if let some p := position n then p.validate

end SyntaxNode

/-- A node of any variant. What only some variants have stands in `fields`. -/
structure Node where
  type : String
  data : Option Data
  position : Option Position
  children : Option (List Node)
  value : Option Json
  fields : List (String × Json)

namespace Node

instance : SyntaxNode Node where
  type := Node.type
  data := Node.data
  position := Node.position

def new (type : String) : Node := ⟨type, none, none, none, none, []⟩

def parent (type : String) (children : List Node) : Node :=
  { new type with children := some children }

def literal (type : String) (value : Json) : Node := { new type with value := some value }

def placedAt (n : Node) (position : Position) : Node := { n with position := some position }

def withData (n : Node) (data : Data) : Node := { n with data := some data }

def withField (n : Node) (key : String) (value : Json) : Node :=
  { n with fields := Entries.insert key value n.fields }

def isParent (n : Node) : Bool := n.children.isSome

def isLiteral (n : Node) : Bool := n.value.isSome

def childList (n : Node) : List Node := n.children.getD []

def childCount (n : Node) : Nat := n.childList.length

/-- The node with a list of children, empty if it had none. -/
def withChildList (n : Node) : Node := { n with children := some n.childList }

def push (n child : Node) : Node := { n with children := some (n.childList ++ [child]) }

mutual

/-- The node and all below it are valid; the first fault in document order is reported. -/
def validateTree : Node → Except ShapeError Unit
  | ⟨type, data, position, children, value, fields⟩ => do
    SyntaxNode.validate (⟨type, data, position, children, value, fields⟩ : Node)
    validateChildren children
termination_by structural n => n

def validateChildren : Option (List Node) → Except ShapeError Unit
  | none => .ok ()
  | some nodes => validateNodes nodes
termination_by structural nodes => nodes

def validateNodes : List Node → Except ShapeError Unit
  | [] => .ok ()
  | n :: rest => do
    validateTree n
    validateNodes rest
termination_by structural nodes => nodes

end

end Node

end TreeShape
