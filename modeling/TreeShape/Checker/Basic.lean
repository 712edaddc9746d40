import TreeShape.Checker.Position
import TreeShape.Node.Encode
/- Checking a tree by its shape alone, whatever produced it. A null counts as absent, except that
it is a value. -/
namespace TreeShape

/-- Which rules are checked, and what warnings weigh. -/
structure CheckOptions where
  requirePositions : Bool
  checkSiblingOrder : Bool
  checkContainment : Bool
  reportHybridNodes : Bool
  warningsAsErrors : Bool
  deriving DecidableEq

namespace CheckOptions

/-- Positions are optional, and all else is checked. -/
def default : CheckOptions := ⟨false, true, true, true, false⟩

def toJson (o : CheckOptions) : Json :=
  .object [("require_positions", .bool o.requirePositions),
    ("check_sibling_order", .bool o.checkSiblingOrder),
    ("check_containment", .bool o.checkContainment),
    ("report_hybrid_nodes", .bool o.reportHybridNodes),
    ("warnings_as_errors", .bool o.warningsAsErrors)]

end CheckOptions

/-- Options, and the document that the tree was read from, if it is known. -/
structure Checker where
  options : CheckOptions
  source : Option Source

namespace Checker

/-- What was found in some nodes, and how many there are. -/
structure Outcome where
  findings : List Finding
  nodes : Nat

/-- What was found in a node and below it, and its position if that is usable. -/
structure NodeOutcome extends Outcome where
  position : Option Position

def checkType (fields : List (String × Json)) : List Finding :=
  match Entries.get? "type" fields with
  | none => [⟨[], .missingType⟩]
  | some (.string label) => if label.isEmpty then [⟨[.key "type"], .emptyType⟩] else []
  | some value => [⟨[.key "type"], .invalidType value.kind⟩]

def checkData (fields : List (String × Json)) : List Finding :=
  match Json.present? "data" fields with
  | none => []
  | some (.object entries) =>
    if Entries.contains reservedKey entries then
      [⟨[.key "data", .key reservedKey], .reservedDataKey⟩]
    else []
  | some value => [⟨[.key "data"], .invalidData value.kind⟩]

/-- The position of a node, which may be required. -/
def checkNodePosition (c : Checker) (fields : List (String × Json)) : Checked (Option Position) :=
  match Json.present? "position" fields with
  | some value =>
    let position := checkPosition c.source value
    ⟨position.value, position.findings.map (.under [.key "position"])⟩
  | none => ⟨none, if c.options.requirePositions then [⟨[], .missingPosition⟩] else []⟩

/-- How a child with a position stands to its parent and to the sibling before it. -/
def relationFindings (c : Checker) (parent previous : Option Position) (child : Position) :
    List Finding :=
  let outside := match parent with
    | some parent =>
      if c.options.checkContainment ∧ ¬ parent.encloses child then
        [⟨[], .childOutsideParent child parent⟩]
      else []
    | none => []
  let early := match previous with
    | some previous =>
      if c.options.checkSiblingOrder ∧ child.start < previous.start then
        [⟨[], .childOutOfOrder child.start previous.start⟩]
      else []
    | none => []
  outside ++ early

/-- A node may have children or a value, and is odd if it has both. -/
def hybridFindings (c : Checker) (fields : List (String × Json)) : List Finding :=
  if c.options.reportHybridNodes ∧ (Json.present? "children" fields).isSome ∧
      Entries.contains "value" fields then
    [⟨[], .hybridNode⟩]
  else []

mutual

/-- The findings of a node, those of its children, and at last what concerns both. -/
def checkNode (c : Checker) : Json → NodeOutcome
  | .object fields =>
    let position := c.checkNodePosition fields
    let below := checkChildrenOf c position.value fields
    { findings := checkType fields ++ checkData fields ++ position.findings ++ below.findings ++
        c.hybridFindings fields
      nodes := below.nodes + 1
      position := position.value }
  | value => { findings := [⟨[], .notANode value.kind⟩], nodes := 1, position := none }
termination_by structural value => value

def checkChildrenOf (c : Checker) (parent : Option Position) : List (String × Json) → Outcome
  | [] => ⟨[], 0⟩
  | (key, value) :: rest =>
    if key = "children" then checkChildren c parent value else checkChildrenOf c parent rest
termination_by structural fields => fields

def checkChildren (c : Checker) (parent : Option Position) : Json → Outcome
  | .null => ⟨[], 0⟩
  | .array items => checkItems c parent none 0 items
  | value => ⟨[⟨[.key "children"], .invalidChildren value.kind⟩], 0⟩
termination_by structural value => value

/-- The children from an index on; `previous` is the position of the last child that had one. -/
def checkItems (c : Checker) (parent previous : Option Position) (index : Nat) :
    List Json → Outcome
  | [] => ⟨[], 0⟩
  | item :: rest =>
    let child := checkNode c item
    let relation := match child.position with
      | some position => c.relationFindings parent previous position
      | none => []
    let later := checkItems c parent (child.position.or previous) (index + 1) rest
    { findings := (child.findings ++ relation).map (.under [.key "children", .index index]) ++
        later.findings
      nodes := child.nodes + later.nodes }
termination_by structural items => items

end

def check (c : Checker) (tree : Json) : Report :=
  let outcome := c.checkNode tree
  ⟨outcome.findings.map Finding.diagnostic, outcome.nodes, c.options.warningsAsErrors⟩

def checkTree (c : Checker) (tree : Node) : Report := c.check tree.toJson

def default : Checker := ⟨.default, none⟩

def withSource (c : Checker) (text : String) : Checker := { c with source := some (.ofText text) }

end Checker

end TreeShape
