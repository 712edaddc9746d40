import TreeShape.Proofs.Shape.Conforms
/- The normal form of a tree: nulls that stand for absent parts are gone, and positions and points are
objects with just the fields that they need. -/
namespace TreeShape

namespace Json

variable {v w line column offset start stop : Json} {indent : Option Json}

/-- A point is an object with three coordinates, or the list of them. -/
inductive PointParts : Json → Json → Json → Json → Prop
  | fields {fields : List (String × Json)} {line column offset : Json} :
      Entries.get? "line" fields = some line → Entries.get? "column" fields = some column →
      Entries.get? "offset" fields = some offset →
      PointParts (.object fields) line column offset
  | items (line column offset : Json) : PointParts (.array [line, column, offset]) line column offset

/-- A point in normal form is an object with its coordinates and nothing else. -/
def NormalPoint (v w : Json) : Prop :=
  ∃ line column offset, v.PointParts line column offset ∧
    w = .object [("column", column), ("line", line), ("offset", offset)]

/-- A position is an object with two points and maybe an indent, or the list of them. -/
inductive PositionParts : Json → Json → Json → Option Json → Prop
  | fields {fields : List (String × Json)} {start stop : Json} :
      Entries.get? "start" fields = some start → Entries.get? "end" fields = some stop →
      PositionParts (.object fields) start stop (Entries.get? "indent" fields)
  | pair (start stop : Json) : PositionParts (.array [start, stop]) start stop none
  | triple (start stop indent : Json) :
      PositionParts (.array [start, stop, indent]) start stop (some indent)

/-- An indent in normal form is a list, whether it was absent, one column or a list. -/
inductive NormalIndent : Option Json → Json → Prop
  | absent : NormalIndent none (.array [])
  | single (column : Nat) : NormalIndent (some (.nat column)) (.array [.nat column])
  | list (items : List Json) : NormalIndent (some (.array items)) (.array items)

/-- A position in normal form is an object with its points, its indent and nothing else. -/
def NormalPosition (v w : Json) : Prop :=
  ∃ start stop indent start' stop' indent', v.PositionParts start stop indent ∧
    start.NormalPoint start' ∧ stop.NormalPoint stop' ∧ NormalIndent indent indent' ∧
    w = .object [("end", stop'), ("indent", indent'), ("start", start')]

/-- The fields of a node in normal form, children apart: data that is null is gone, and a position
that is null too; any other position is in normal form. All else is kept. -/
structure NormalFields (fields fields' : List (String × Json)) : Prop where
  keys : Entries.Sorted fields'
  data : Entries.get? "data" fields' = present? "data" fields
  position : Option.Rel NormalPosition (present? "position" fields)
    (Entries.get? "position" fields')
  kept : ∀ key ∉ ["data", "position", "children"],
    Entries.get? key fields' = Entries.get? key fields

/-- The second value is the first in normal form, throughout the tree. -/
inductive Normal : Json → Json → Prop
  | leaf {fields fields' : List (String × Json)} : NormalFields fields fields' →
      present? "children" fields = none → Entries.get? "children" fields' = none →
      Normal (.object fields) (.object fields')
  | parent {fields fields' : List (String × Json)} {items items' : List Json} :
      NormalFields fields fields' → present? "children" fields = some (.array items) →
      Entries.get? "children" fields' = some (.array items') → items.length = items'.length →
      (∀ item item', (item, item') ∈ items.zip items' → Normal item item') →
      Normal (.object fields) (.object fields')

end Json

end TreeShape
