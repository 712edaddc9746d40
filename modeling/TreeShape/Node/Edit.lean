import TreeShape.Node.Basic
/- Reaching and changing a node by the indices of the children that lead to it. -/
namespace TreeShape

namespace Node

/-- The node that child indices lead to. -/
def descendant? (n : Node) : List Nat → Option Node
  | [] => some n
  | index :: rest => n.childList[index]?.bind fun child => child.descendant? rest

/-- Changes the node that child indices lead to, and gives what the change answers. -/
def editAt? {α : Type} (n : Node) (edit : Node → α × Node) : List Nat → Option (α × Node)
  | [] => some (edit n)
  | index :: rest => do
    let child ← n.childList[index]?
    let (answer, changed) ← child.editAt? edit rest
    return (answer, { n with children := some (n.childList.set index changed) })

inductive Part where
  | data
  | position
  | children
  | value
  deriving DecidableEq

def clear (n : Node) : Part → Node
  | .data => { n with data := none }
  | .position => { n with position := none }
  | .children => { n with children := none }
  | .value => { n with value := none }

def removeChild? (n : Node) (index : Nat) : Option (Node × Node) :=
  n.childList[index]?.map fun child =>
    (child, { n with children := some (n.childList.eraseIdx index) })

def reverseChildren (n : Node) : Node := { n with children := some n.childList.reverse }

/-- Sets a value in the node's data, which is there afterwards even if the key is refused. -/
def insertData (n : Node) (key : String) (value : Json) : Except ShapeError (Option Json) × Node :=
  let (answer, data) := (n.data.getD .empty).insert key value
  (answer, { n with data := some data })

end Node

end TreeShape
