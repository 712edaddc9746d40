import TreeShape.Json.Path
import TreeShape.Position
import TreeShape.Report
/- The faults that a tree can have, each at a place in the tree. -/
namespace TreeShape

/-- A fault, with what its message tells. -/
inductive Fault where
  | notANode (found : Json.Kind)
  | missingType
  | emptyType
  | invalidType (found : Json.Kind)
  | invalidData (found : Json.Kind)
  | reservedDataKey
  | invalidPosition (found : Json.Kind)
  | missingPoint (name : String)
  | pointNotObject (name : String) (found : Json.Kind)
  | missingCoordinate (name : String)
  | notACoordinate (name : String) (found : Json.Kind)
  | negativeCoordinate (name : String) (found : Int)
  | coordinateTooSmall (name : String) (least found : Nat)
  | pointMismatch (found expected : Point)
  | pointOutside (found : Point) (length : Nat)
  | startAfterEnd (start stop : Point)
  | notAColumn (found : Json)
  | notAnIndent (found : Json)
  | indentLength (expected found : Nat)
  | indentMismatch (column line expected : Nat)
  | missingPosition
  | invalidChildren (found : Json.Kind)
  | childOutsideParent (child parent : Position)
  | childOutOfOrder (start previous : Point)
  | hybridNode

namespace Fault

def rule : Fault → Rule
  | notANode _ => .notANode
  | missingType => .missingType
  | emptyType => .emptyType
  | invalidType _ => .invalidType
  | invalidData _ => .invalidData
  | reservedDataKey => .reservedDataKey
  | invalidPosition _ => .invalidPosition
  | missingPoint _ => .missingPoint
  | pointNotObject _ _ => .invalidPoint
  | missingCoordinate _ => .invalidPoint
  | notACoordinate _ _ => .invalidPoint
  | negativeCoordinate _ _ => .invalidPoint
  | coordinateTooSmall _ _ _ => .pointOutOfRange
  | pointMismatch _ _ => .pointMismatch
  | pointOutside _ _ => .pointMismatch
  | startAfterEnd _ _ => .startAfterEnd
  | notAColumn _ => .invalidIndent
  | notAnIndent _ => .invalidIndent
  | indentLength _ _ => .invalidIndent
  | indentMismatch _ _ _ => .invalidIndent
  | missingPosition => .missingPosition
  | invalidChildren _ => .invalidChildren
  | childOutsideParent _ _ => .childOutsideParent
  | childOutOfOrder _ _ => .childrenOutOfOrder
  | hybridNode => .hybridNode

def message : Fault → String
  | notANode found => "expected a node object, found " ++ found.describe
  | missingType => "node has no `type`"
  | emptyType => "`type` must be a non-empty label"
  | invalidType found => "expected `type` to be a string, found " ++ found.describe
  | invalidData found => "expected `data` to be an object, found " ++ found.describe
  | reservedDataKey => "data key `space` is reserved and must stay unused"
  | invalidPosition found => "expected `position` to be an object, found " ++ found.describe
  | missingPoint name => "position has no `" ++ name ++ "` point"
  | pointNotObject name found =>
    "expected `" ++ name ++ "` to be an object, found " ++ found.describe
  | missingCoordinate name => "point has no `" ++ name ++ "`"
  | notACoordinate name found => "`" ++ name ++ "` must be an integer, found " ++ found.describe
  | negativeCoordinate name found =>
    "`" ++ name ++ "` must be a non-negative integer, found " ++ toString found
  | coordinateTooSmall name least found =>
    "`" ++ name ++ "` must be " ++ toString least ++ " or greater, found " ++ toString found
  | pointMismatch found expected =>
    "point " ++ found.text ++ " (offset " ++ toString found.offset ++
      ") does not match the source, where offset " ++ toString found.offset ++ " is at " ++
      expected.text
  | pointOutside found length =>
    "point " ++ found.text ++ " does not match the source: " ++
      (ShapeError.offsetOutOfBounds found.offset length).message
  | startAfterEnd start stop =>
    "start " ++ start.text ++ " (offset " ++ toString start.offset ++ ") is after end " ++
      stop.text ++ " (offset " ++ toString stop.offset ++ ")"
  | notAColumn found => "indent entries must be columns of 1 or greater, found " ++ found.compact
  | notAnIndent found =>
    "expected `indent` to be a column or a list of columns, found " ++ found.compact
  | indentLength expected found =>
    "expected " ++ toString expected ++ " indent columns, one per line after the first, found " ++
      toString found
  | indentMismatch column line expected =>
    "indent column " ++ toString column ++ " does not match the source, where line " ++
      toString line ++ " starts at column " ++ toString expected
  | missingPosition => "node has no position but every node must come from source"
  | invalidChildren found => "expected `children` to be an array, found " ++ found.describe
  | childOutsideParent child parent =>
    "child at " ++ child.text ++ " lies outside its parent at " ++ parent.text
  | childOutOfOrder start previous =>
    "child starts at " ++ start.text ++ ", before its previous sibling at " ++ previous.text
  | hybridNode => "node has both `children` and `value`"

end Fault

structure Finding where
  path : Path
  fault : Fault

namespace Finding

/-- The same fault seen from further up. -/
def under (steps : Path) (f : Finding) : Finding := { f with path := steps ++ f.path }

def diagnostic (f : Finding) : Diagnostic := ⟨f.fault.rule, f.path.text, f.fault.message⟩

end Finding

end TreeShape
