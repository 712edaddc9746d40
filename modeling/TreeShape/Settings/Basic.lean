import TreeShape.Settings.Setting
import TreeShape.TreeFile
import TreeShape.Checker.Basic
/- The settings of the tool, and the layers from which they come. -/
namespace TreeShape

inductive OutputFormat where
  | text
  | json
  deriving DecidableEq

namespace OutputFormat

def name : OutputFormat → String
  | text => "text"
  | json => "json"

def ofName? (name : String) : Option OutputFormat :=
  let name := Text.lower name
  if name = "text" then some text else if name = "json" then some json else none

end OutputFormat

structure Settings where
  checker : CheckOptions
  format : OutputFormat
  deriving DecidableEq

namespace Settings

def default : Settings := ⟨.default, .text⟩

def toJson (s : Settings) : Json :=
  .object [("checker", s.checker.toJson), ("output", .object [("format", .string s.format.name)])]

/-- The settings before any layer is laid over them. -/
def base : Setting :=
  .table
    [("checker", .table
        [("check_containment", .boolean default.checker.checkContainment),
          ("check_sibling_order", .boolean default.checker.checkSiblingOrder),
          ("report_hybrid_nodes", .boolean default.checker.reportHybridNodes),
          ("require_positions", .boolean default.checker.requirePositions),
          ("warnings_as_errors", .boolean default.checker.warningsAsErrors)]),
      ("output", .table [("format", .string default.format.name)])]

/-- A truth value: itself, a number other than zero, or a word. -/
def bool? : Setting → Option Bool
  | .boolean value => some value
  | .integer value => some (value != 0)
  | .float value => some (!value.any Double.isZero)
  | .string word =>
    let word := Text.lower word
    if word ∈ ["1", "true", "on", "yes"] then some true
    else if word ∈ ["0", "false", "off", "no"] then some false
    else none
  | .absent => none
  | .list _ => none
  | .table _ => none

/-- A format: its name, or a table whose only key is its name. -/
def format? : Setting → Option OutputFormat
  | .string name => OutputFormat.ofName? name
  | .table [(name, _)] => OutputFormat.ofName? name
  | _ => none

/-- A field of a group of settings. A group is a table, or a list with the fields in order, where
further items do not matter. -/
def field? (index : Nat) (key : String) : Setting → Option Setting
  | .table entries => Entries.get? key entries
  | .list items => items[index]?
  | _ => none

/-- The settings that a value tells, if it tells them all. -/
def ofSetting? (s : Setting) : Option Settings := do
  let checker ← Entries.get? "checker" s.entries
  let output ← Entries.get? "output" s.entries
  let flag (index : Nat) (key : String) : Option Bool := (field? index key checker).bind bool?
  let options : CheckOptions :=
    { requirePositions := ← flag 0 "require_positions"
      checkSiblingOrder := ← flag 1 "check_sibling_order"
      checkContainment := ← flag 2 "check_containment"
      reportHybridNodes := ← flag 3 "report_hybrid_nodes"
      warningsAsErrors := ← flag 4 "warnings_as_errors" }
  let format ← (field? 0 "format" output).bind format?
  return ⟨options, format⟩

/-- A source of settings: a file, which may be absent if it is not required, or one value. -/
inductive Layer where
  | file (name : String) (required : Bool)
  | override (path : List Setting.Step) (value : Setting)

def Layer.override? (path : String) (value : Setting) : Option Layer :=
  (Setting.path? path).map fun path => .override path value

/-- The path of a file with `.toml` after its name; a path without a name stays as it is. -/
def tomlPath (path : String) : String :=
  match (Files.parts path).reverse.dropWhile fun part => part = "" ∨ part = "." with
  | [] => path
  | ".." :: _ => path
  | steps => String.intercalate "/" steps.reverse ++ ".toml"

/-- The text of a file of settings: under its name, or else under its name with `.toml`. -/
def fileText? (files : Files) (name : String) : Option String :=
  let path := if files.isFile name then name else tomlPath name
  (files.readText path).toOption

/-- The entries of a file; one that cannot be read has none if it is not required. -/
def fileEntries? (files : Files) (name : String) (required : Bool) :
    Option (List (String × Setting)) :=
  match fileText? files name with
  | some text => (Toml.ofText? text).map Setting.ofTomlEntries
  | none => if required then none else some []

def layFiles? (files : Files) : List Layer → Setting → Option Setting
  | [], s => some s
  | .file name required :: rest, s => do
    let entries ← fileEntries? files name required
    layFiles? files rest (s.layFile entries)
  | .override _ _ :: rest, s => layFiles? files rest s

/-- Whether a layer is a value for a path. -/
def Layer.isFor (path : List Setting.Step) : Layer → Bool
  | .file _ _ => false
  | .override other _ => other = path

/-- Lays single values over settings, in order; a value gives way to a later one for its path. -/
def layOverrides : List Layer → Setting → Setting
  | [], s => s
  | .file _ _ :: rest, s => layOverrides rest s
  | .override path value :: rest, s =>
    if rest.any (Layer.isFor path) then layOverrides rest s
    else layOverrides rest (.putAt value path s)

/-- The settings from all layers: files in order, and over them the single values. -/
def build? (files : Files) (layers : List Layer) : Option Settings := do
  let s ← layFiles? files layers base
  ofSetting? (layOverrides layers s)

def build (files : Files) (layers : List Layer) : Except ReadingError Settings :=
  match build? files layers with
  | some s => .ok s
  | none => .error .settings

end Settings

end TreeShape
