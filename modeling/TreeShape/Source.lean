import TreeShape.Position
/- Where the characters of a source document stand. Offsets count characters; a line ends with a
line feed, a carriage return, or a return and a feed, and the break belongs to the line. -/
namespace TreeShape

/-- Where a line starts, and the column of its first character that is no space and no tab. -/
structure Line where
  start : Nat
  indent : Nat
  deriving DecidableEq

/-- The lines of a document and its number of characters. -/
structure Source where
  lines : List Line
  length : Nat
  deriving DecidableEq

namespace Source

/-- The document with one more line before the others. -/
def after (line : Line) (s : Source) : Source := { s with lines := line :: s.lines }

@[simp]
theorem lines_after (line : Line) (s : Source) : (s.after line).lines = line :: s.lines := rfl

@[simp]
theorem length_after (line : Line) (s : Source) : (s.after line).length = s.length := rfl

/-- Reads the characters from `offset` on to the end of the document. The line that they are on
started at `start` and has its first mark at the column `indent`, if it was met already. Lines before
it are left out. -/
def scan (start offset : Nat) (indent : Option Nat) : List Char → Source
  | [] => ⟨[⟨start, indent.getD (offset - start + 1)⟩], offset⟩
  | '\r' :: '\n' :: rest =>
    (scan (offset + 2) (offset + 2) none rest).after ⟨start, indent.getD (offset - start + 1)⟩
  | c :: rest =>
    if c = '\n' ∨ c = '\r' then
      (scan (offset + 1) (offset + 1) none rest).after ⟨start, indent.getD (offset - start + 1)⟩
    else if c = ' ' ∨ c = '\t' then scan start (offset + 1) indent rest
    else scan start (offset + 1) (some (indent.getD (offset - start + 1))) rest

def ofText (text : String) : Source := scan 0 0 none text.toList

def isEmpty (s : Source) : Bool := s.length == 0

def lineCount (s : Source) : Nat := s.lines.length

def line? (s : Source) : Nat → Option Line
  | 0 => none
  | index + 1 => s.lines[index]?

def lineStart? (s : Source) (number : Nat) : Option Nat := (s.line? number).map (·.start)

/-- The column of the first mark on a line; on a blank line the column after its blanks. -/
def lineIndent? (s : Source) (number : Nat) : Option Nat := (s.line? number).map (·.indent)

def linesUpTo (s : Source) (offset : Nat) : List Line :=
  s.lines.takeWhile fun line => line.start ≤ offset

/-- The point at an offset, which may lie just after the last character. -/
def pointAt (s : Source) (offset : Nat) : Except ShapeError Point :=
  if s.length < offset then .error (.offsetOutOfBounds offset s.length)
  else
    let before := s.linesUpTo offset
    let start := (before.getLast?.map (·.start)).getD 0
    .ok ⟨before.length, offset - start + 1, offset⟩

/-- The offset at a line and column; the break that ends a line is its last column. -/
def offsetAt? (s : Source) (line column : Nat) : Option Nat := do
  let start ← s.lineStart? line
  let last := match s.lineStart? (line + 1) with
    | some next => next - 1
    | none => s.length
  if 1 ≤ column ∧ start + (column - 1) ≤ last then some (start + (column - 1)) else none

/-- Whether line, column and offset of a point belong together. -/
def agrees (s : Source) (p : Point) : Bool :=
  match s.pointAt p.offset with
  | .ok expected => expected = p
  | .error _ => false

/-- The position of the characters from one offset up to another. -/
def positionBetween (s : Source) (start stop : Nat) : Except ShapeError Position := do
  let startPoint ← s.pointAt start
  let stopPoint ← s.pointAt stop
  if stop < start then .error (.startAfterEnd startPoint stopPoint)
  else
    let later := List.range' (startPoint.line + 1) (stopPoint.line - startPoint.line)
    return ⟨startPoint, stopPoint, later.filterMap s.lineIndent?⟩

end Source

end TreeShape
