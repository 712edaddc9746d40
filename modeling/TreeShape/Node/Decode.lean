import TreeShape.Node.Basic
import TreeShape.Json.Printer
import TreeShape.Text.Quoted
/- Points, positions and nodes read from JSON values. The fields of an object are read in
increasing order of their keys; absent ones are noticed after that. -/
namespace TreeShape

inductive Expected where
  | point
  | position
  | node
  | word
  | string
  | sequence
  | map
  deriving DecidableEq

namespace Expected

def name : Expected → String
  | point => "struct Point"
  | position => "struct Position"
  | node => "struct GenericNode"
  | word => "usize"
  | string => "a string"
  | sequence => "a sequence"
  | map => "a map"

end Expected

inductive DecodeError where
  | wrongType (found : Json) (expected : Expected)
  | negative (found : Int)
  | missingField (name : String)
  | tooShort (length : Nat) (expected : Expected) (wanted : Nat)
  | tooLong (length : Nat)
  | noIndent
  deriving BEq

namespace DecodeError

/-- A value in a message: text and numbers in full, lists and objects by their kind alone. -/
def found : Json → String
  | .null => "null"
  | .bool value => "boolean `" ++ (if value then "true" else "false") ++ "`"
  | .number (.int value) => s!"integer `{value}`"
  | .number (.double value) => "floating point `" ++ (Number.double value).text ++ "`"
  | .string value => "string " ++ Text.quoted value
  | .array _ => "sequence"
  | .object _ => "map"

def message : DecodeError → String
  | wrongType value expected => "invalid type: " ++ found value ++ ", expected " ++ expected.name
  | negative value => s!"invalid value: integer `{value}`, expected usize"
  | missingField name => s!"missing field `{name}`"
  | tooShort length expected wanted =>
    s!"invalid length {length}, expected " ++ expected.name ++ s!" with {wanted} elements"
  | tooLong length => s!"invalid length {length}, expected fewer elements in array"
  | noIndent => "data did not match any variant of untagged enum Indent"

end DecodeError

namespace Json

def decodeWord : Json → Except DecodeError Nat
  | .number (.int (.ofNat n)) =>
    if n < wordLimit then .ok n else .error (.wrongType (.number (.int n)) .word)
  | .number (.int (.negSucc n)) => .error (.negative (.negSucc n))
  | value => .error (.wrongType value .word)

def decodeField {α : Type} (key : String) (fields : List (String × Json))
    (decode : Json → Except DecodeError α) : Except DecodeError (Option α) :=
  match Entries.get? key fields with
  | none => .ok none
  | some value => (decode value).map some

def required {α : Type} (name : String) : Option α → Except DecodeError α
  | some value => .ok value
  | none => .error (.missingField name)

def decodeOption {α : Type} (decode : Json → Except DecodeError α) :
    Json → Except DecodeError (Option α)
  | .null => .ok none
  | value => (decode value).map some

end Json

namespace Point

/-- A point is an object or the list of its three coordinates. -/
def decode : Json → Except DecodeError Point
  | .object fields => do
    let column ← Json.decodeField "column" fields Json.decodeWord
    let line ← Json.decodeField "line" fields Json.decodeWord
    let offset ← Json.decodeField "offset" fields Json.decodeWord
    let line ← Json.required "line" line
    let column ← Json.required "column" column
    let offset ← Json.required "offset" offset
    return ⟨line, column, offset⟩
  | .array items => do
    let coordinates ← (items.take 3).mapM Json.decodeWord
    match coordinates with
    | [line, column, offset] =>
      if items.length = 3 then return ⟨line, column, offset⟩ else .error (.tooLong items.length)
    | _ => .error (.tooShort items.length .point 3)
  | value => .error (.wrongType value .point)

end Point

namespace Position

def decodeIndent (value : Json) : Except DecodeError (List Nat) :=
  match value with
  | .array items =>
    match items.mapM Json.word? with
    | some columns => .ok columns
    | none => .error .noIndent
  | value =>
    match value.word? with
    | some column => .ok [column]
    | none => .error .noIndent

/-- A position is an object or the list of its start, its end and, if it has one, its indent. -/
def decode : Json → Except DecodeError Position
  | .object fields => do
    let stop ← Json.decodeField "end" fields Point.decode
    let indent ← Json.decodeField "indent" fields decodeIndent
    let start ← Json.decodeField "start" fields Point.decode
    let start ← Json.required "start" start
    let stop ← Json.required "end" stop
    return ⟨start, stop, indent.getD []⟩
  | .array items =>
    match items with
    | [] => .error (.tooShort 0 .position 3)
    | [start] => do
      let _ ← Point.decode start
      .error (.tooShort 1 .position 3)
    | start :: stop :: rest => do
      let start ← Point.decode start
      let stop ← Point.decode stop
      match rest with
      | [] => return ⟨start, stop, []⟩
      | indent :: more =>
        let indent ← decodeIndent indent
        if more.isEmpty then return ⟨start, stop, indent⟩ else .error (.tooLong items.length)
  | value => .error (.wrongType value .position)

end Position

namespace Data

def decode : Json → Except DecodeError Data
  | .object fields => .ok ⟨fields⟩
  | value => .error (.wrongType value .map)

end Data

namespace Node

def partKeys : List String := ["type", "data", "position", "children", "value"]

def decodeType : Json → Except DecodeError String
  | .string s => .ok s
  | value => .error (.wrongType value .string)

mutual

/-- A node is an object. A null stands for an absent part, except that it is a value. -/
def decode : Json → Except DecodeError Node
  | .object fields => do
    let children ← decodeChildrenOf fields
    let data ← Json.decodeField "data" fields (Json.decodeOption Data.decode)
    let position ← Json.decodeField "position" fields (Json.decodeOption Position.decode)
    let type ← Json.decodeField "type" fields decodeType
    let type ← Json.required "type" type
    return {
      type
      data := data.join
      position := position.join
      children
      value := Entries.get? "value" fields
      fields := fields.filter fun field => ¬ partKeys.contains field.1 }
  | value => .error (.wrongType value .node)
termination_by structural value => value

def decodeChildrenOf : List (String × Json) → Except DecodeError (Option (List Node))
  | [] => .ok none
  | (key, value) :: rest =>
    if key = "children" then decodeChildren value else decodeChildrenOf rest
termination_by structural fields => fields

def decodeChildren : Json → Except DecodeError (Option (List Node))
  | .null => .ok none
  | .array items => (decodeNodes items).map some
  | value => .error (.wrongType value .sequence)
termination_by structural value => value

def decodeNodes : List Json → Except DecodeError (List Node)
  | [] => .ok []
  | item :: rest => do
    let n ← decode item
    let nodes ← decodeNodes rest
    return n :: nodes
termination_by structural items => items

end

end Node

end TreeShape
