import TreeShape.Json.Printer
import TreeShape.Rule
/- What checking a tree brings to light. -/
namespace TreeShape

/-- One finding: the broken rule, where in the tree it is broken, and how. -/
structure Diagnostic where
  rule : Rule
  path : String
  message : String
  deriving DecidableEq

namespace Diagnostic

def severity (d : Diagnostic) : Severity := d.rule.severity

def text (d : Diagnostic) : String :=
  d.severity.name ++ "[" ++ d.rule.code ++ "] " ++ d.path ++ ": " ++ d.message

def toJson (d : Diagnostic) : Json :=
  .object [("rule", .string d.rule.code), ("severity", .string d.severity.name),
    ("path", .string d.path), ("message", .string d.message)]

end Diagnostic

/-- The findings in one tree, in the order in which they were met. -/
structure Report where
  diagnostics : List Diagnostic
  nodesChecked : Nat
  warningsAsErrors : Bool
  deriving DecidableEq

namespace Report

def empty (warningsAsErrors : Bool) : Report := ⟨[], 0, warningsAsErrors⟩

def push (r : Report) (d : Diagnostic) : Report := { r with diagnostics := r.diagnostics ++ [d] }

def withSeverity (r : Report) (severity : Severity) : List Diagnostic :=
  r.diagnostics.filter fun d => d.severity = severity

def errors (r : Report) : List Diagnostic := r.withSeverity .error

def warnings (r : Report) : List Diagnostic := r.withSeverity .warning

def hints (r : Report) : List Diagnostic := r.withSeverity .hint

def hasRule (r : Report) (rule : Rule) : Bool := r.diagnostics.any fun d => d.rule = rule

/-- No errors, and no warnings either if they count as errors. -/
def isConforming (r : Report) : Bool :=
  r.errors.isEmpty && (!r.warningsAsErrors || r.warnings.isEmpty)

def summary (r : Report) : String :=
  "checked " ++ toString r.nodesChecked ++ " nodes: " ++ toString r.errors.length ++ " errors, " ++
    toString r.warnings.length ++ " warnings, " ++ toString r.hints.length ++ " hints"

def text (r : Report) : String :=
  String.join (r.diagnostics.map fun d => d.text ++ "\n") ++ r.summary

def toJson (r : Report) : Json :=
  .object [("conforming", .bool r.isConforming), ("nodes_checked", .nat r.nodesChecked),
    ("diagnostics", .array (r.diagnostics.map Diagnostic.toJson))]

end Report

end TreeShape
