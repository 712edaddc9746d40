import TreeShape.Json.Reader
import TreeShape.Node.Decode
import TreeShape.TreeFormat
/- Reading trees from text and from files, as JSON values or as typed nodes. Whoever reads them
brings a reader of YAML texts. -/
namespace TreeShape

inductive ReadingError where
  | unreadable (path : String) (cause : FileError)
  | unsupportedFormat (name : String)
  | json (cause : Json.ReadError)
  | undecodable (cause : DecodeError)
  | yaml
  | settings
  | shape (cause : ShapeError)

namespace ReadingError

def message : ReadingError → String
  | unreadable path cause => "failed to read " ++ path ++ ": " ++ cause.message
  | unsupportedFormat name => "unsupported tree format `" ++ name ++ "` (expected json or yaml)"
  | json .ended => "invalid JSON: the text ends too early"
  | json .malformed => "invalid JSON: the text is malformed"
  | undecodable cause => "invalid JSON: " ++ cause.message
  | yaml => "invalid YAML: the text is malformed"
  | settings => "configuration error: a file or a value cannot be used"
  | shape cause => cause.message

end ReadingError

/-- A reader of YAML texts, which gives the value of the one document of a text. -/
abbrev YamlReader := String → Option Json

namespace TreeFormat

def ofName (name : String) : Except ReadingError TreeFormat :=
  match ofName? name with
  | some format => .ok format
  | none => .error (.unsupportedFormat name)

def parseTree (format : TreeFormat) (readYaml : YamlReader) (text : String) :
    Except ReadingError Json :=
  match format with
  | json => (Json.ofText text).mapError .json
  | yaml => match readYaml text with
    | some value => .ok value
    | none => .error .yaml

/-- The typed tree that a text holds, if all of its nodes are valid. -/
def parseNode (format : TreeFormat) (readYaml : YamlReader) (text : String) :
    Except ReadingError Node := do
  let value ← format.parseTree readYaml text
  let node ← (Node.decode value).mapError .undecodable
  node.validateTree.mapError .shape
  return node

end TreeFormat

namespace Files

def source (files : Files) (path : String) : Except ReadingError String :=
  (files.readText path).mapError (.unreadable path)

/-- The value in a file, whose format the extension tells if it is not given. -/
def loadTree (files : Files) (readYaml : YamlReader) (path : String) (format : Option TreeFormat) :
    Except ReadingError Json := do
  let text ← files.source path
  (format.getD (.ofPath path)).parseTree readYaml text

/-- The typed tree in a file, if all of its nodes are valid. -/
def loadNode (files : Files) (readYaml : YamlReader) (path : String) (format : Option TreeFormat) :
    Except ReadingError Node := do
  let text ← files.source path
  (format.getD (.ofPath path)).parseNode readYaml text

end Files

end TreeShape
