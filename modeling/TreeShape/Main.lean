import TreeShape.CommandLine.Run
import TreeShape.Yaml.Document
/- The command line program. -/
open TreeShape

/-- Why the system did not read a file. It has one kind of error for a directory, whose number is
21, and for a path that goes through a file. -/
def fileError : IO.Error → FileError
  | .inappropriateType _ code _ => if code = 21 then .isADirectory else .notADirectory
  | _ => .notFound

def pathsIn (words : List String) : List String :=
  let named := words.flatMap fun word =>
    let letters := word.toList
    [letters, letters.drop 2, (letters.dropWhile (· ≠ '=')).drop 1].map String.ofList
  (CommandLine.localSettings :: named).flatMap fun path => [path, Settings.tomlPath path]

def readFiles (paths : List String) : IO Files := do
  let contents ← paths.mapM fun (path : String) => do
    let found ← (IO.FS.readBinFile path).toBaseIO
    return (path, found.mapError fileError)
  return ⟨fun path => (contents.lookup path).getD (.error .notFound)⟩

def main (words : List String) : IO UInt32 := do
  let outcome := CommandLine.run Yaml.ofText? (← readFiles (pathsIn words)) words
  IO.print outcome.output
  match outcome.complaint with
  | none => pure ()
  | some .usage => IO.eprintln "usage: unist check PATH | unist print-config"
  | some (.failure cause) => IO.eprintln ("Error: " ++ cause.message)
  return outcome.status.toUInt32
