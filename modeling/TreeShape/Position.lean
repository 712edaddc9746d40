import TreeShape.ShapeError
/- The region of a source document that a node was read from. -/
namespace TreeShape

namespace Point

/-- Lines and columns are counted from one. -/
def validate (p : Point) : Except ShapeError Unit :=
  if p.line < 1 then .error (.invalidLine p.line)
  else if p.column < 1 then .error (.invalidColumn p.column)
  else .ok ()

end Point

/-- A region from its first character up to the first character after it, with the column at
which each of its lines after the first starts. -/
structure Position where
  start : Point
  stop : Point
  indent : List Nat
  deriving DecidableEq, Inhabited

namespace Position

/-- The number of lines that the position touches. -/
def lineSpan (p : Position) : Nat := p.stop.line - p.start.line + 1

def isMultiline (p : Position) : Bool := p.start.line < p.stop.line

def length (p : Position) : Nat := p.stop.offset - p.start.offset

def isEmpty (p : Position) : Bool := p.length == 0

/-- A point between both ends, which count, by line and column. -/
def contains (p : Position) (q : Point) : Bool := p.start.NotAfter q && q.NotAfter p.stop

/-- One of the positions contains an end of the other. -/
def overlaps (p other : Position) : Bool :=
  p.contains other.start || p.contains other.stop ||
    other.contains p.start || other.contains p.stop

def encloses (p other : Position) : Bool := p.contains other.start && p.contains other.stop

/-- The position from the earliest start to the latest stop. It has no indent, because its lines
belong to different nodes. -/
def boundingBox : List Position → Option Position
  | [] => none
  | first :: rest =>
    some
      { start := rest.foldl (fun earliest p => earliest.min p.start) first.start
        stop := rest.foldl (fun latest p => latest.max p.stop) first.stop
        indent := [] }

/-- The index and value of the first column that is zero. -/
def firstZero? : Nat → List Nat → Option (Nat × Nat)
  | _, [] => none
  | index, column :: rest =>
    if column < 1 then some (index, column) else firstZero? (index + 1) rest

/-- Both points are valid and in order, and the indent is empty or holds one column, counted from
one, for each line after the first. -/
def validate (p : Position) : Except ShapeError Unit := do
  p.start.validate
  p.stop.validate
  if ¬ p.start.NotAfter p.stop ∨ p.stop.offset < p.start.offset then
    .error (.startAfterEnd p.start p.stop)
  else match firstZero? 0 p.indent with
    | some (index, column) => .error (.invalidIndent index column)
    | none =>
      if p.indent ≠ [] ∧ p.indent.length ≠ p.lineSpan - 1 then
        .error (.indentLength (p.lineSpan - 1) p.indent.length)
      else .ok ()

def text (p : Position) : String := p.start.text ++ "-" ++ p.stop.text

end Position

end TreeShape
