import TreeShape.Json.Entries
/- The files that can be read, and what their names tell. -/
namespace TreeShape

/-- Why a file cannot be read as text. -/
inductive FileError where
  | notFound
  | notADirectory
  | isADirectory
  | notText
  deriving DecidableEq

namespace FileError

def message : FileError → String
  | notFound => "No such file or directory (os error 2)"
  | notADirectory => "Not a directory (os error 20)"
  | isADirectory => "Is a directory (os error 21)"
  | notText => "stream did not contain valid UTF-8"

end FileError

/-- What reading the file at a path gives. -/
structure Files where
  read : String → Except FileError ByteArray

namespace Files

def parts (path : String) : List String :=
  ((path.toList.splitOn '/').map String.ofList)

/-- The last name in a path, if the path does not end in a step to itself or to its parent. -/
def fileName? (path : String) : Option String :=
  match ((parts path).filter fun part => part ≠ "" ∧ part ≠ ".").getLast? with
  | some ".." => none
  | last => last

/-- A name cut at its last dot, if that is not its first character. -/
def splitExtension? (name : String) : Option (String × String) :=
  let reversed := name.toList.reverse
  let extension := (reversed.takeWhile (· ≠ '.')).reverse
  match reversed.dropWhile (· ≠ '.') with
  | '.' :: stem =>
    if stem.isEmpty then none else some (String.ofList stem.reverse, String.ofList extension)
  | _ => none

/-- What follows the last dot of a path's file name. -/
def extension? (path : String) : Option String :=
  ((fileName? path).bind splitExtension?).map (·.2)

def readText (files : Files) (path : String) : Except FileError String := do
  let bytes ← files.read path
  match String.fromUTF8? bytes with
  | some text => return text
  | none => .error .notText

def isFile (files : Files) (path : String) : Bool :=
  match files.read path with
  | .ok _ => true
  | .error _ => false

end Files

end TreeShape
