import TreeShape.Files
/- A working directory with nothing but the files in it. -/
namespace TreeShape

/-- File contents by name; a name with slashes lies in the directories that it tells. -/
structure Directory where
  contents : List (String × ByteArray)

namespace Directory

/-- Steps that lead from a directory to a directory, whatever is in it. -/
def staysDirectory (steps : List String) : Bool :=
  steps.all fun step => step = "" || step = "." || step = ".."

/-- Beyond the working directory only directories are known. -/
def beyond (steps : List String) : Except FileError ByteArray :=
  .error (if staysDirectory steps then .isADirectory else .notFound)

/-- What steps lead to from a directory in the working directory, whose own steps are given last
first. -/
def walk (d : Directory) : List String → List String → Except FileError ByteArray
  | _, [] => .error .isADirectory
  | above, step :: rest =>
    if step = "" ∨ step = "." then d.walk above rest
    else if step = ".." then
      match above with
      | [] => beyond rest
      | _ :: above => d.walk above rest
    else
      let here := (step :: above).reverse
      match d.contents.find? fun entry => Files.parts entry.1 = here with
      | some entry => if rest.isEmpty then .ok entry.2 else .error .notADirectory
      | none =>
        if d.contents.any fun entry => here.isPrefixOf (Files.parts entry.1) then
          d.walk (step :: above) rest
        else .error .notFound

def files (d : Directory) : Files where
  read path :=
    match Files.parts path with
    | [""] => .error .notFound
    | "" :: rest => beyond rest
    | steps => d.walk [] steps

end Directory

end TreeShape
