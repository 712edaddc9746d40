/- The rules that a tree is checked against, and how much breaking one weighs. -/
namespace TreeShape

/-- How much a finding weighs; earlier ones weigh more. -/
inductive Severity where
  | error
  | warning
  | hint
  deriving DecidableEq

namespace Severity

def name : Severity → String
  | error => "error"
  | warning => "warning"
  | hint => "hint"

def rank : Severity → Nat
  | error => 0
  | warning => 1
  | hint => 2

instance : Ord Severity := ⟨fun a b => compare a.rank b.rank⟩

end Severity

inductive Rule where
  | notANode
  | missingType
  | invalidType
  | emptyType
  | invalidData
  | reservedDataKey
  | invalidPosition
  | missingPoint
  | invalidPoint
  | pointOutOfRange
  | startAfterEnd
  | invalidIndent
  | pointMismatch
  | missingPosition
  | invalidChildren
  | childrenOutOfOrder
  | childOutsideParent
  | hybridNode
  deriving DecidableEq

namespace Rule

/-- Every rule, from the faults of a node itself to those among nodes. -/
def all : List Rule :=
  [notANode, missingType, invalidType, emptyType, invalidData, reservedDataKey, invalidPosition,
    missingPoint, invalidPoint, pointOutOfRange, startAfterEnd, invalidIndent, pointMismatch,
    missingPosition, invalidChildren, childrenOutOfOrder, childOutsideParent, hybridNode]

def code : Rule → String
  | notANode => "not-a-node"
  | missingType => "missing-type"
  | invalidType => "invalid-type"
  | emptyType => "empty-type"
  | invalidData => "invalid-data"
  | reservedDataKey => "reserved-data-key"
  | invalidPosition => "invalid-position"
  | missingPoint => "missing-point"
  | invalidPoint => "invalid-point"
  | pointOutOfRange => "point-out-of-range"
  | startAfterEnd => "start-after-end"
  | invalidIndent => "invalid-indent"
  | pointMismatch => "point-mismatch"
  | missingPosition => "missing-position"
  | invalidChildren => "invalid-children"
  | childrenOutOfOrder => "children-out-of-order"
  | childOutsideParent => "child-outside-parent"
  | hybridNode => "hybrid-node"

def ofCode? (code : String) : Option Rule := all.find? fun rule => rule.code == code

/-- Faults among nodes are warnings, a node with children and a value is worth a hint, and all
else is an error. -/
def severity : Rule → Severity
  | childrenOutOfOrder => .warning
  | childOutsideParent => .warning
  | hybridNode => .hint
  | _ => .error

theorem ofCode?_code (rule : Rule) : ofCode? rule.code = some rule := by
  cases rule <;> decide

end Rule

end TreeShape
