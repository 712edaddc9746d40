import TreeShape.Json.Basic
/- JSON text: the compact form without blanks and the form indented by two spaces. -/
namespace TreeShape

namespace Number

/-- Doubles are written positionally between `0.00001` and sixteen digits before the point. -/
def format : DecimalFormat := ⟨-5, 15⟩

def text : Number → String
  | .int value => toString value
  | .double value => (if value.negative then "-" else "") ++ format.text value.shortest

end Number

namespace Json

def hexDigit (n : Nat) : Char := "0123456789abcdef".toList.getD n '0'

def escaped (c : Char) : List Char :=
  if c = '"' then ['\\', '"']
  else if c = '\\' then ['\\', '\\']
  else if c = '\n' then ['\\', 'n']
  else if c = '\r' then ['\\', 'r']
  else if c = '\t' then ['\\', 't']
  else if c = '\x08' then ['\\', 'b']
  else if c = '\x0c' then ['\\', 'f']
  else if c.toNat < 32 then ['\\', 'u', '0', '0', hexDigit (c.toNat / 16), hexDigit (c.toNat % 16)]
  else [c]

def quoted (s : String) : String := String.ofList ('"' :: s.toList.flatMap escaped ++ ['"'])

mutual

def compact : Json → String
  | .null => "null"
  | .bool true => "true"
  | .bool false => "false"
  | .number n => n.text
  | .string s => quoted s
  | .array items => "[" ++ String.intercalate "," (compactItems items) ++ "]"
  | .object fields => "\x7b" ++ String.intercalate "," (compactFields fields) ++ "\x7d"
termination_by structural v => v

def compactItems : List Json → List String
  | [] => []
  | item :: rest => compact item :: compactItems rest
termination_by structural items => items

def compactFields : List (String × Json) → List String
  | [] => []
  | (key, value) :: rest => (quoted key ++ ":" ++ compact value) :: compactFields rest
termination_by structural fields => fields

end

def lineBreak (level : Nat) : String := "\n" ++ String.ofList (List.replicate (2 * level) ' ')

/-- Lines between brackets, one level deeper than the brackets themselves. -/
def block (opening closing : String) (level : Nat) (lines : List String) : String :=
  if lines.isEmpty then opening ++ closing
  else
    let inner := lineBreak (level + 1)
    opening ++ inner ++ String.intercalate ("," ++ inner) lines ++ lineBreak level ++ closing

mutual

def prettyAt : Nat → Json → String
  | level, .array items => block "[" "]" level (prettyItems (level + 1) items)
  | level, .object fields => block "\x7b" "\x7d" level (prettyFields (level + 1) fields)
  | _, value => compact value
termination_by structural _ v => v

def prettyItems : Nat → List Json → List String
  | _, [] => []
  | level, item :: rest => prettyAt level item :: prettyItems level rest
termination_by structural _ items => items

def prettyFields : Nat → List (String × Json) → List String
  | _, [] => []
  | level, (key, value) :: rest =>
    (quoted key ++ ": " ++ prettyAt level value) :: prettyFields level rest
termination_by structural _ fields => fields

end

/-- The text with one line for each item and field. -/
def pretty (value : Json) : String := prettyAt 0 value

end Json

end TreeShape
