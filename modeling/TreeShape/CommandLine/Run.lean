import TreeShape.CommandLine.Arguments
import TreeShape.Settings.Basic
/- Running a command: what it writes and how it exits. -/
namespace TreeShape

namespace CommandLine

/-- What a run has to complain about. -/
inductive Complaint where
  | usage
  | failure (cause : ReadingError)

/-- The result of a run: its exit status, its output and a complaint if it could not do its work. -/
structure Outcome where
  status : Nat
  output : String
  complaint : Option Complaint

/-- Picked up from the working directory when no settings are named. -/
def localSettings : String := "unist.toml"

/-- The file layer of a command: a named file must be there, the local one need not. -/
def fileLayer (given : Given) : Settings.Layer :=
  match given.value? .config with
  | some name => .file name true
  | none => .file localSettings false

/-- The layers of a `check` command. Values told on the command line lie over the file. -/
def checkLayers (given : Given) : List Settings.Layer :=
  let format := match given.value? .format with
    | some name => [.override [.key "output", .key "format"] (.string name)]
    | none => []
  let flag (flag : Flag) (key : String) : List Settings.Layer :=
    if flag ∈ given.flags then [.override [.key "checker", .key key] (.boolean true)] else []
  fileLayer given :: format ++ flag .requirePositions "require_positions" ++
    flag .warningsAsErrors "warnings_as_errors"

def reportText (format : OutputFormat) (report : Report) : String :=
  match format with
  | .text => report.text
  | .json => report.toJson.pretty

/-- Reads settings, tree and source, in this order, and checks the tree. -/
def check (readYaml : YamlReader) (files : Files) (path : String) (given : Given) :
    Except ReadingError (OutputFormat × Report) := do
  let settings ← Settings.build files (checkLayers given)
  let format ← (given.value? .treeFormat).mapM TreeFormat.ofName
  let tree ← files.loadTree readYaml path format
  let source ← (given.value? .source).mapM files.source
  let checker : Checker := ⟨settings.checker, source.map .ofText⟩
  return (settings.format, checker.check tree)

/-- A tree that conforms exits with 0, one that does not with 1, and one that cannot be checked
with 2. -/
def run (readYaml : YamlReader) (files : Files) (words : List String) : Outcome :=
  match command? words with
  | none => ⟨2, "", some .usage⟩
  | some .version => ⟨0, "unist 0.1.0\n", none⟩
  | some (.printConfig given) =>
    match Settings.build files [fileLayer given] with
    | .ok settings => ⟨0, settings.toJson.pretty ++ "\n", none⟩
    | .error cause => ⟨2, "", some (.failure cause)⟩
  | some (.check path given) =>
    match check readYaml files path given with
    | .ok (format, report) =>
      ⟨if report.isConforming then 0 else 1, reportText format report ++ "\n", none⟩
    | .error cause => ⟨2, "", some (.failure cause)⟩

end CommandLine

end TreeShape
