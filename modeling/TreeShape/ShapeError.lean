import TreeShape.Point
/- The ways in which a typed node, its data or its position can break the contract. -/
namespace TreeShape

/-- A broken invariant of a point, a position, a node's data or a node. -/
inductive ShapeError where
  | emptyType
  | reservedDataKey (key : String)
  | invalidLine (line : Nat)
  | invalidColumn (column : Nat)
  | startAfterEnd (start stop : Point)
  | invalidIndent (index column : Nat)
  | indentLength (expected found : Nat)
  | offsetOutOfBounds (offset length : Nat)
  deriving DecidableEq

namespace ShapeError

def message : ShapeError → String
  | emptyType => "node type must be a non-empty label"
  | reservedDataKey key => s!"data key `{key}` is reserved and must stay unused"
  | invalidLine line => s!"line must be 1 or greater, found {line}"
  | invalidColumn column => s!"column must be 1 or greater, found {column}"
  | startAfterEnd start stop =>
    "position starts at " ++ start.text ++ " (offset " ++ toString start.offset ++
      ") after its end " ++ stop.text ++ " (offset " ++ toString stop.offset ++ ")"
  | invalidIndent index column =>
    s!"indent column at index {index} must be 1 or greater, found {column}"
  | indentLength expected found =>
    s!"indent lists {found} columns but the position spans {expected} lines after its first"
  | offsetOutOfBounds offset length =>
    s!"offset {offset} is past the end of the source ({length} characters)"

end ShapeError

end TreeShape
