/- The words of a command line and the command that they ask for. -/
namespace TreeShape

namespace CommandLine

inductive ValueOption where
  | config
  | source
  | format
  | treeFormat
  deriving DecidableEq

inductive Flag where
  | requirePositions
  | warningsAsErrors
  deriving DecidableEq

inductive Switch where
  | value (option : ValueOption)
  | flag (flag : Flag)

def ValueOption.accepts : ValueOption → String → Bool
  | config, _ => true
  | source, _ => true
  | format, value => value ∈ ["text", "json"]
  | treeFormat, value => value ∈ ["json", "yaml", "yml"]

/-- What was told after the name of a command. -/
structure Given where
  values : List (ValueOption × String)
  flags : List Flag
  paths : List String

namespace Given

def nothing : Given := ⟨[], [], []⟩

def value? (g : Given) (option : ValueOption) : Option String := g.values.lookup option

/-- Takes a value, once for each option. -/
def addValue? (g : Given) (option : ValueOption) (value : String) : Option Given :=
  if (g.value? option).isSome ∨ ¬option.accepts value then none
  else some { g with values := (option, value) :: g.values }

def addFlag? (g : Given) (flag : Flag) : Option Given :=
  if flag ∈ g.flags then none else some { g with flags := flag :: g.flags }

def addPath (g : Given) (path : String) : Given := { g with paths := g.paths ++ [path] }

end Given

/-- The options of a command by their long and short names. -/
structure Options where
  long : List (String × Switch)
  short : List (Char × Switch)

def printOptions : Options where
  long := [("config", .value .config)]
  short := [('c', .value .config)]

def checkOptions : Options where
  long :=
    [("config", .value .config), ("source", .value .source), ("format", .value .format),
      ("tree-format", .value .treeFormat), ("require-positions", .flag .requirePositions),
      ("warnings-as-errors", .flag .warningsAsErrors)]
  short := [('c', .value .config), ('s', .value .source), ('f', .value .format)]

/-- Cuts a word at its first `=`. -/
def splitValue (cs : List Char) : List Char × Option String :=
  (cs.takeWhile (· ≠ '='),
    match cs.dropWhile (· ≠ '=') with
    | _ :: value => some (String.ofList value)
    | [] => none)

/-- The option that a word names, and the value that is written in the same word. -/
def option? (options : Options) (word : List Char) : Option (Switch × Option String) :=
  match word with
  | '-' :: '-' :: name =>
    let (name, value) := splitValue name
    (options.long.lookup (String.ofList name)).map fun option => (option, value)
  | '-' :: letter :: value =>
    (options.short.lookup letter).map fun option =>
      (option, match value with
        | [] => none
        | '=' :: value => some (String.ofList value)
        | value => some (String.ofList value))
  | _ => none

/-- Whether a word is an option and no value: it has something after a dash. -/
def isOption : List Char → Bool
  | '-' :: _ :: _ => true
  | _ => false

/-- Reads words; after `--` all are paths. -/
def read? (options : Options) : List String → Given → Option Given
  | [], g => some g
  | word :: rest, g =>
    if word = "--" then some (rest.foldl Given.addPath g)
    else if isOption word.toList then
      match option? options word.toList with
      | none => none
      | some (.flag flag, none) => (g.addFlag? flag).bind (read? options rest)
      | some (.flag _, some _) => none
      | some (.value option, some value) => (g.addValue? option value).bind (read? options rest)
      | some (.value option, none) =>
        match rest with
        | value :: rest =>
          if isOption value.toList then none
          else (g.addValue? option value).bind (read? options rest)
        | [] => none
    else read? options rest (g.addPath word)

inductive Command where
  | version
  | printConfig (given : Given)
  | check (path : String) (given : Given)

def command? (words : List String) : Option Command :=
  match words with
  | "check" :: rest => do
    let given ← read? checkOptions rest .nothing
    match given.paths with
    | [path] => return .check path given
    | _ => none
  | "print-config" :: rest => do
    let given ← read? printOptions rest .nothing
    if given.paths.isEmpty then return .printConfig given else none
  | "--version" :: _ => some .version
  | word :: _ =>
    match word.toList with
    | '-' :: 'V' :: _ => some .version
    | _ => none
  | [] => none

end CommandLine

end TreeShape
