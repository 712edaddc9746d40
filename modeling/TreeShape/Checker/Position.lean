import TreeShape.Checker.Finding
import TreeShape.Source
/- Checking a position: its points, their order and its indent. -/
namespace TreeShape

/-- What a part of a tree turns out to be, if it is usable, and what is wrong with it. -/
structure Checked (α : Type) where
  value : α
  findings : List Finding

/-- A coordinate of a point, which must be an integer no less than `least`. -/
def checkCoordinate (fields : List (String × Json)) (name : String) (least : Nat) :
    Checked (Option Nat) :=
  match Entries.get? name fields with
  | none => ⟨none, [⟨[], .missingCoordinate name⟩]⟩
  | some value =>
    match value.word?, value with
    | some n, _ =>
      if least ≤ n then ⟨some n, []⟩
      else ⟨none, [⟨[.key name], .coordinateTooSmall name least n⟩]⟩
    | none, .number (.int (.negSucc n)) =>
      ⟨none, [⟨[.key name], .negativeCoordinate name (.negSucc n)⟩]⟩
    | none, _ => ⟨none, [⟨[.key name], .notACoordinate name value.kind⟩]⟩

def sourceFindings (source : Option Source) (p : Point) : List Finding :=
  match source with
  | none => []
  | some source =>
    if source.agrees p then []
    else match source.pointAt p.offset with
      | .ok expected => [⟨[], .pointMismatch p expected⟩]
      | .error _ => [⟨[], .pointOutside p source.length⟩]

/-- A point under the key `name`; the paths start at the point. -/
def checkPoint (source : Option Source) (name : String) (value : Option Json) :
    Checked (Option Point) :=
  match value with
  | none => ⟨none, [⟨[], .missingPoint name⟩]⟩
  | some (.object fields) =>
    let line := checkCoordinate fields "line" 1
    let column := checkCoordinate fields "column" 1
    let offset := checkCoordinate fields "offset" 0
    let findings := line.findings ++ column.findings ++ offset.findings
    match line.value, column.value, offset.value with
    | some line, some column, some offset =>
      ⟨some ⟨line, column, offset⟩, findings ++ sourceFindings source ⟨line, column, offset⟩⟩
    | _, _, _ => ⟨none, findings⟩
  | some value => ⟨none, [⟨[], .pointNotObject name value.kind⟩]⟩

def column? (value : Json) : Option Nat := value.word?.filter (1 ≤ ·)

/-- The columns up to the first entry that is none, and that entry's finding. -/
def checkColumns : Nat → List Json → Checked (Option (List Nat))
  | _, [] => ⟨some [], []⟩
  | index, value :: rest =>
    match column? value with
    | none => ⟨none, [⟨[.index index], .notAColumn value⟩]⟩
    | some column =>
      let later := checkColumns (index + 1) rest
      ⟨later.value.map (column :: ·), later.findings⟩

/-- The columns of an indent, none of them if one is unusable; the paths start at the indent. -/
def checkIndent : Option Json → Checked (List Nat)
  | none => ⟨[], []⟩
  | some (.array items) =>
    let columns := checkColumns 0 items
    ⟨columns.value.getD [], columns.findings⟩
  | some value =>
    match column? value with
    | some column => ⟨[column], []⟩
    | none => ⟨[], [⟨[], .notAnIndent value⟩]⟩

/-- Compares columns with those at which the lines of the source start; a line that the source
does not have is passed over, because the end of the position lies outside then. -/
def indentMismatches (source : Source) : Nat → Nat → List Nat → List Finding
  | _, _, [] => []
  | index, line, column :: rest =>
    let here := match source.lineIndent? line with
      | some expected =>
        if expected = column then [] else [⟨[.index index], .indentMismatch column line expected⟩]
      | none => []
    here ++ indentMismatches source (index + 1) (line + 1) rest

/-- An indent that is not empty has a column for each line after the first. -/
def checkIndentLines (source : Option Source) (start stop : Point) (indent : List Nat) :
    Checked (List Nat) :=
  if indent.isEmpty then ⟨[], []⟩
  else if indent.length ≠ stop.line - start.line then
    ⟨[], [⟨[], .indentLength (stop.line - start.line) indent.length⟩]⟩
  else match source with
    | none => ⟨indent, []⟩
    | some source => ⟨indent, indentMismatches source 0 (start.line + 1) indent⟩

/-- A position, if both of its points are usable and in order; the paths start at the position. -/
def checkPosition (source : Option Source) : Json → Checked (Option Position)
  | .object fields =>
    let start := checkPoint source "start" (Json.present? "start" fields)
    let stop := checkPoint source "end" (Json.present? "end" fields)
    let indent := checkIndent (Json.present? "indent" fields)
    let findings := start.findings.map (.under [.key "start"]) ++
      stop.findings.map (.under [.key "end"]) ++ indent.findings.map (.under [.key "indent"])
    match start.value, stop.value with
    | some start, some stop =>
      if ¬ start.NotAfter stop ∨ stop.offset < start.offset then
        ⟨none, findings ++ [⟨[], .startAfterEnd start stop⟩]⟩
      else
        let lines := checkIndentLines source start stop indent.value
        ⟨some ⟨start, stop, lines.value⟩,
          findings ++ lines.findings.map (.under [.key "indent"])⟩
    | _, _ => ⟨none, findings⟩
  | value => ⟨none, [⟨[], .invalidPosition value.kind⟩]⟩

end TreeShape
